import SdkGlue.Proofs.Path.Components
import SdkGlue.Proofs.Store.Access
import SdkGlue.Proofs.Store.Entries
import SdkGlue.Proofs.Store.Resolve

/-!
# Operations on lawful stores

A new entry gets its name from a component of the path, or from the target of a
link that the walk followed.  So an operation whose path holds no NUL makes no
name that an entry cannot have.
-/

namespace SdkGlue.Store

/-- A piece of a path that holds no NUL. -/
def IsPiece (piece : String) : Prop := '/' ∉ piece.toList ∧ '\x00' ∉ piece.toList

variable {s t : Store} {aim : Aim} {n : Nat} {loc dir : Location} {name path : String}
  {rest : List String} {e : Entry} {bytes : List UInt8}

theorem isPiece_of_mem_components (hnul : '\x00' ∉ path.toList) {piece : String}
    (h : piece ∈ components path) : IsPiece piece := by
  constructor
  · exact not_mem_of_mem_components h
  · intro hc
    exact hnul (mem_of_mem_components h hc)

theorem isName_of_walk_vacant (hs : s.Lawful) (hrest : ∀ piece ∈ rest, IsPiece piece)
    (h : s.walk aim n loc rest = .ok (.vacant dir name)) : IsName name := by
  induction n, loc, rest using walk_induction s with
  | nil n loc => simp at h
  | stay n loc name' rest hstay ih =>
      rw [walk_stay hstay] at h
      exact ih (fun piece hp => hrest piece (List.mem_cons_of_mem name' hp)) h
  | up n loc rest ih =>
      rw [walk_up] at h
      exact ih (fun piece hp => hrest piece (List.mem_cons_of_mem ".." hp)) h
  | long n loc name' rest hp hl => simp [walk_long hp hl (refuses_of_walk hp h)] at h
  | missing n loc name rest hp hl hf =>
      simp only [walk_plain hp hl (refuses_of_walk hp h), hf] at h
      split at h <;> cases h
      obtain ⟨hslash, hnul⟩ := hrest name List.mem_cons_self
      exact ⟨hp, hslash, hnul, hl⟩
  | file n loc name' rest bytes hp hl hf =>
      simp only [walk_plain hp hl (refuses_of_walk hp h), hf] at h
      split at h <;> cases h
  | down n loc name' rest hp hl hf ih =>
      simp only [walk_plain hp hl (refuses_of_walk hp h), hf] at h
      exact ih (fun piece hp => hrest piece (List.mem_cons_of_mem name' hp)) h
  | loop loc name' rest target hp hl hf =>
      simp only [walk_plain hp hl (refuses_of_walk hp h), hf] at h
      split at h <;> cases h
  | follow n loc name' rest target hp hl hf ih =>
      simp only [walk_plain hp hl (refuses_of_walk hp h), hf] at h
      split at h
      · cases h
      · refine ih (fun piece hpiece => ?_) h
        rcases List.mem_append.mp hpiece with hpiece | hpiece
        · exact isPiece_of_mem_components (hs.no_nul hf) hpiece
        · exact hrest piece (List.mem_cons_of_mem name' hpiece)

theorem isName_of_resolve_vacant (hs : s.Lawful) (hnul : '\x00' ∉ path.toList)
    (h : s.resolve aim path = .ok (.vacant dir name)) : IsName name := by
  apply isName_of_walk_vacant hs _ (walk_of_resolve h)
  intro piece hpiece
  exact isPiece_of_mem_components hnul hpiece

/-- What a walk passes are names of entries, or steps that need none. -/
theorem no_nul_of_enter (hs : s.Lawful) {r : Nat × Location} (h : s.enter n loc rest = .ok r)
    {piece : String} (hpiece : piece ∈ rest) : '\x00' ∉ piece.toList := by
  induction n, loc, rest using walk_induction s with
  | nil n loc => cases hpiece
  | stay n loc name rest hstay ih =>
      rw [enter_stay hstay] at h
      rcases List.mem_cons.mp hpiece with rfl | hpiece
      · rcases hstay with rfl | rfl <;> decide
      · exact ih h hpiece
  | up n loc rest ih =>
      rw [enter_up] at h
      rcases List.mem_cons.mp hpiece with rfl | hpiece
      · decide
      · exact ih h hpiece
  | long n loc name rest hp hl => simp [enter_long hp hl] at h
  | missing n loc name rest hp hl hf => simp [enter_plain hp hl, hf] at h
  | file n loc name rest bytes hp hl hf => simp [enter_plain hp hl, hf] at h
  | down n loc name rest hp hl hf ih =>
      simp only [enter_plain hp hl, hf] at h
      rcases List.mem_cons.mp hpiece with rfl | hpiece
      · exact (hs.isName hf).no_nul
      · exact ih h hpiece
  | loop loc name rest target hp hl hf => simp [enter_plain hp hl, hf] at h
  | follow n loc name rest target hp hl hf ih =>
      simp only [enter_plain hp hl, hf, leap_succ] at h
      rcases List.mem_cons.mp hpiece with rfl | hpiece
      · exact (hs.isName hf).no_nul
      · exact ih h (List.mem_append_right _ hpiece)

theorem Opens.no_nul {k : Nat} (hs : s.Lawful) (h : s.Opens path k dir) :
    '\x00' ∉ path.toList := by
  intro hmem
  rcases mem_components_of_mem hmem with hslash | ⟨piece, hpiece, hc⟩
  · exact absurd hslash (by decide)
  · exact no_nul_of_enter hs h.entered hpiece hc

namespace Lawful

theorem set (hs : s.Lawful) (hname : IsName name)
    (hlink : ∀ target, e = .link target → '\x00' ∉ target.toList) :
    (s.set (name :: dir) e).Lawful where
  isName := by
    intro name' dir' e' hfind
    rw [find?_set_cons] at hfind
    split at hfind
    · next heq =>
        cases heq
        exact hname
    · exact hs.isName hfind
  no_nul := by
    intro loc target hfind
    rw [find?_set_cons] at hfind
    split at hfind
    · exact hlink target (Option.some.inj hfind)
    · exact hs.no_nul hfind

theorem remove (hs : s.Lawful) (loc : Location) : (s.remove loc).Lawful :=
  (Within.remove s loc).lawful hs

theorem unlink (hs : s.Lawful) (h : s.unlink path = .ok t) : t.Lawful := by
  obtain ⟨loc, e, -, -, rfl⟩ := unlink_eq_ok_iff.mp h
  exact hs.remove loc

theorem write (hs : s.Lawful) (hnul : '\x00' ∉ path.toList)
    (h : s.write path bytes = .ok t) : t.Lawful := by
  obtain ⟨loc, hloc, rfl⟩ := write_eq_ok_iff.mp h
  have hname : ∀ name dir, loc = name :: dir → IsName name := by
    rintro name dir rfl
    rcases hloc with ⟨old, hr⟩ | ⟨dir', name', hr, heq⟩
    · exact hs.isName (find?_of_walk (walk_of_resolve hr) (by simp))
    · cases heq
      exact isName_of_resolve_vacant hs hnul hr
  obtain ⟨name, dir, rfl⟩ := List.exists_cons_of_ne_nil hloc.takesFile.ne_nil
  exact hs.set (hname name dir rfl) (by simp)

end Lawful

theorem Lawful.rename (hs : s.Lawful) {source target : String} (hnul : '\x00' ∉ target.toList)
    (h : s.rename source target = .ok t) : t.Lawful := by
  obtain ⟨loc, e, place, hsource, he, htarget, hmove⟩ := rename_eq_ok_iff.mp h
  have hlink : ∀ target, e = .link target → '\x00' ∉ target.toList := by
    rintro target rfl
    exact hs.no_nul (find?_of_walk (walk_of_resolve hsource) he)
  have hover : ∀ {loc' e'}, place = .entry loc' e' → e' ≠ .directory →
      (if loc = loc' then s else (s.remove loc).set loc' e).Lawful := by
    rintro loc' e' rfl he'
    have hfind := find?_of_walk (walk_of_resolve htarget) he'
    split
    · exact hs
    · cases loc' with
      | nil =>
          rw [find?_root, Option.some.injEq] at hfind
          exact absurd hfind.symm he'
      | cons name dir => exact (hs.remove loc).set (hs.isName hfind) hlink
  match place with
  | .vacant dir name =>
      cases hmove
      exact (hs.remove loc).set (isName_of_resolve_vacant hs hnul htarget) hlink
  | .entry loc' .directory => cases hmove
  | .entry loc' (.file bytes) =>
      cases hmove
      exact hover rfl (by simp)
  | .entry loc' (.link target') =>
      cases hmove
      exact hover rfl (by simp)

end SdkGlue.Store
