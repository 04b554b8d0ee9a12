import SdkGlue.Proofs.Store.Entries
import SdkGlue.Store.Access

/-!
# Stores with their entries in another order

The order in which a store keeps its entries shows only where a directory is
listed.
-/

namespace SdkGlue.Store

/-- The same entries, in whatever order they are kept. -/
structure Reorders (t s : Store) : Prop where
  cwd_eq : t.cwd = s.cwd
  perm : List.Perm t.entries s.entries

variable {s t : Store} {aim : Aim} {n : Nat} {loc : Location} {rest : List String}

theorem walk_congr (h : ∀ loc, t.find? loc = s.find? loc) :
    t.walk aim n loc rest = s.walk aim n loc rest := by
  induction n, loc, rest using walk_induction s with
  | nil n loc => rw [walk_nil, walk_nil]
  | stay n loc name rest hs ih => rw [walk_stay hs, walk_stay hs, ih]
  | up n loc rest ih => rw [walk_up, walk_up, ih]
  | long n loc name rest hp hl =>
      by_cases hr : aim.refuses rest = false
      · rw [walk_long hp hl hr, walk_long hp hl hr]
      · exact walk_eq_of_refused hp hr
  | missing n loc name rest hp hl hf =>
      by_cases hr : aim.refuses rest = false
      · simp only [walk_plain hp hl hr, h, hf]
      · exact walk_eq_of_refused hp hr
  | file n loc name rest bytes hp hl hf =>
      by_cases hr : aim.refuses rest = false
      · simp only [walk_plain hp hl hr, h, hf]
      · exact walk_eq_of_refused hp hr
  | down n loc name rest hp hl hf ih =>
      by_cases hr : aim.refuses rest = false
      · simp only [walk_plain hp hl hr, h, hf, ih]
      · exact walk_eq_of_refused hp hr
  | loop loc name rest target hp hl hf =>
      by_cases hr : aim.refuses rest = false
      · simp only [walk_plain hp hl hr, h, hf, leap_zero]
      · exact walk_eq_of_refused hp hr
  | follow n loc name rest target hp hl hf ih =>
      by_cases hr : aim.refuses rest = false
      · simp only [walk_plain hp hl hr, h, hf, leap_succ, ih]
      · exact walk_eq_of_refused hp hr

namespace Reorders

theorem find? (h : Reorders t s) (loc : Location) : t.find? loc = s.find? loc := by
  unfold Store.find?
  rw [Keyed.get?_eq_of_perm s.nodup h.perm]

theorem resolve (h : Reorders t s) (aim : Aim) (path : String) :
    t.resolve aim path = s.resolve aim path := by
  unfold Store.resolve
  rw [h.cwd_eq, walk_congr h.find?]

theorem kindAt (h : Reorders t s) (path : String) : t.kindAt path = s.kindAt path := by
  rw [Store.kindAt, Store.kindAt, h.resolve]

theorem read (h : Reorders t s) (path : String) : t.read path = s.read path := by
  rw [Store.read, Store.read, h.resolve]

theorem perm_children (h : Reorders t s) (dir : Location) :
    (t.children dir).Perm (s.children dir) :=
  h.perm.filterMap _

end Reorders

end SdkGlue.Store
