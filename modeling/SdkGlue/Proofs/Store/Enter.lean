import SdkGlue.Store.Access

/-!
# The directories on the way

A walk to an entry passes directories first and looks at one name in the end.
`enter` is the first half of it: every component has to be passed, and what
comes out is the directory reached with the number of links that may still be
followed.  Walks are compared through one induction that has a case for each
thing a component can be.
-/

namespace SdkGlue.Store

/-- A component that names an entry. -/
def IsPlain (name : String) : Prop := name ≠ "" ∧ name ≠ "." ∧ name ≠ ".."

/-- Goes on with one link less, or fails when none is left. -/
def leap {α : Type} (next : Nat → Except Cause α) : Nat → Except Cause α
  | 0 => .error .linkLoop
  | n + 1 => next n

@[simp] theorem leap_zero {α : Type} (next : Nat → Except Cause α) :
    leap next 0 = .error .linkLoop := rfl

@[simp] theorem leap_succ {α : Type} (next : Nat → Except Cause α) (n : Nat) :
    leap next (n + 1) = next n := rfl

/-- Passes components from a directory; a link is handed to `jump` with the
components that remain. -/
def enterWith (s : Store) (links : Nat)
    (jump : Location → List String → Except Cause (Nat × Location)) :
    Location → List String → Except Cause (Nat × Location)
  | loc, [] => .ok (links, loc)
  | loc, name :: rest =>
      if name = "" ∨ name = "." then enterWith s links jump loc rest
      else if name = ".." then enterWith s links jump loc.tail rest
      else if maxName < name.utf8ByteSize then .error .nameTooLong
      else
        match s.find? (name :: loc) with
        | none => .error .missing
        | some .directory => enterWith s links jump (name :: loc) rest
        | some (.file _) => .error .notDirectory
        | some (.link target) => jump (startOf target loc) (components target ++ rest)

/-- The directory that components lead to, and the links that are left. -/
def enter (s : Store) : (links : Nat) → Location → List String →
    Except Cause (Nat × Location)
  | 0 => enterWith s 0 fun _ _ => .error .linkLoop
  | n + 1 => enterWith s (n + 1) (enter s n)

variable {s t : Store} {aim : Aim} {n m k : Nat} {loc dir : Location}
  {name target : String} {rest : List String}

/-! ## One component at a time -/

@[simp] theorem walk_nil : s.walk aim n loc [] = .ok (.entry loc .directory) := by
  cases n <;> rfl

theorem walk_stay (h : name = "" ∨ name = ".") :
    s.walk aim n loc (name :: rest) = s.walk aim n loc rest := by
  cases n <;> simp [walk, walkWith, h]

theorem walk_up : s.walk aim n loc (".." :: rest) = s.walk aim n loc.tail rest := by
  cases n <;> simp [walk, walkWith]

theorem walk_refused (h : IsPlain name) (hrest : aim.refuses rest = true) :
    s.walk aim n loc (name :: rest) = .error .isDirectory := by
  obtain ⟨h₁, h₂, h₃⟩ := h
  cases n <;> simp [walk, walkWith, h₁, h₂, h₃, hrest]

/-- A walk that comes to a place was not refused on the way. -/
theorem refuses_of_walk {place : Place} (h : IsPlain name)
    (hwalk : s.walk aim n loc (name :: rest) = .ok place) : aim.refuses rest = false := by
  rw [← Bool.not_eq_true]
  intro hrest
  cases (walk_refused h hrest).symm.trans hwalk

theorem walk_eq_of_refused (h : IsPlain name) (hrest : ¬ aim.refuses rest = false) :
    s.walk aim n loc (name :: rest) = t.walk aim m dir (name :: rest) := by
  rw [Bool.not_eq_false] at hrest
  rw [walk_refused h hrest, walk_refused h hrest]

theorem walk_long (h : IsPlain name) (hlong : maxName < name.utf8ByteSize)
    (hrest : aim.refuses rest = false) :
    s.walk aim n loc (name :: rest) = .error .nameTooLong := by
  obtain ⟨h₁, h₂, h₃⟩ := h
  cases n <;> simp [walk, walkWith, h₁, h₂, h₃, hrest, hlong]

theorem walk_plain (h : IsPlain name) (hlen : name.utf8ByteSize ≤ maxName)
    (hrest : aim.refuses rest = false) :
    s.walk aim n loc (name :: rest) =
      match s.find? (name :: loc) with
      | none => if rest = [] then .ok (.vacant loc name) else .error .missing
      | some .directory => s.walk aim n (name :: loc) rest
      | some (.file bytes) =>
          if rest = [] then .ok (.entry (name :: loc) (.file bytes)) else .error .notDirectory
      | some (.link target) =>
          if rest = [] ∧ !aim.follows then .ok (.entry (name :: loc) (.link target))
          else leap (s.walk aim · (startOf target loc) (components target ++ rest)) n := by
  obtain ⟨h₁, h₂, h₃⟩ := h
  cases n <;>
    simp only [walk, walkWith, h₁, h₂, h₃, hrest, Nat.not_lt.mpr hlen, or_self, if_false,
      Bool.false_eq_true] <;> rfl

@[simp] theorem enter_nil : s.enter n loc [] = .ok (n, loc) := by
  cases n <;> rfl

theorem enter_stay (h : name = "" ∨ name = ".") :
    s.enter n loc (name :: rest) = s.enter n loc rest := by
  cases n <;> simp [enter, enterWith, h]

theorem enter_up : s.enter n loc (".." :: rest) = s.enter n loc.tail rest := by
  cases n <;> simp [enter, enterWith]

theorem enter_long (h : IsPlain name) (hlong : maxName < name.utf8ByteSize) :
    s.enter n loc (name :: rest) = .error .nameTooLong := by
  obtain ⟨h₁, h₂, h₃⟩ := h
  cases n <;> simp [enter, enterWith, h₁, h₂, h₃, hlong]

theorem enter_plain (h : IsPlain name) (hlen : name.utf8ByteSize ≤ maxName) :
    s.enter n loc (name :: rest) =
      match s.find? (name :: loc) with
      | none => .error .missing
      | some .directory => s.enter n (name :: loc) rest
      | some (.file _) => .error .notDirectory
      | some (.link target) =>
          leap (s.enter · (startOf target loc) (components target ++ rest)) n := by
  obtain ⟨h₁, h₂, h₃⟩ := h
  cases n <;> simp only [enter, enterWith, h₁, h₂, h₃, Nat.not_lt.mpr hlen, or_self, if_false] <;> rfl

/-- Induction along a walk: on the links left, and below that on the components
that remain.  There is one case for each thing that a component can be. -/
@[elab_as_elim]
theorem walk_induction (s : Store) {motive : Nat → Location → List String → Prop}
    (nil : ∀ n loc, motive n loc [])
    (stay : ∀ n loc name rest, name = "" ∨ name = "." →
      motive n loc rest → motive n loc (name :: rest))
    (up : ∀ n loc rest, motive n loc.tail rest → motive n loc (".." :: rest))
    (long : ∀ n loc name rest, IsPlain name → maxName < name.utf8ByteSize →
      motive n loc (name :: rest))
    (missing : ∀ n loc name rest, IsPlain name → name.utf8ByteSize ≤ maxName →
      s.find? (name :: loc) = none → motive n loc (name :: rest))
    (file : ∀ n loc name rest bytes, IsPlain name → name.utf8ByteSize ≤ maxName →
      s.find? (name :: loc) = some (.file bytes) → motive n loc (name :: rest))
    (down : ∀ n loc name rest, IsPlain name → name.utf8ByteSize ≤ maxName →
      s.find? (name :: loc) = some .directory →
      motive n (name :: loc) rest → motive n loc (name :: rest))
    (loop : ∀ loc name rest target, IsPlain name → name.utf8ByteSize ≤ maxName →
      s.find? (name :: loc) = some (.link target) → motive 0 loc (name :: rest))
    (follow : ∀ n loc name rest target, IsPlain name → name.utf8ByteSize ≤ maxName →
      s.find? (name :: loc) = some (.link target) →
      motive n (startOf target loc) (components target ++ rest) →
      motive (n + 1) loc (name :: rest))
    (n : Nat) (loc : Location) (rest : List String) : motive n loc rest := by
  induction n using Nat.strongRecOn generalizing loc rest with
  | ind n ihn =>
      induction rest generalizing loc with
      | nil => exact nil n loc
      | cons name rest ih =>
          by_cases hs : name = "" ∨ name = "."
          · exact stay n loc name rest hs (ih loc)
          by_cases hu : name = ".."
          · exact hu ▸ up n loc rest (ih loc.tail)
          have hp : IsPlain name := ⟨fun h => hs (.inl h), fun h => hs (.inr h), hu⟩
          rcases Nat.lt_or_ge maxName name.utf8ByteSize with hl | hl
          · exact long n loc name rest hp hl
          match hf : s.find? (name :: loc) with
          | none => exact missing n loc name rest hp hl hf
          | some (.file bytes) => exact file n loc name rest bytes hp hl hf
          | some .directory => exact down n loc name rest hp hl hf (ih (name :: loc))
          | some (.link target) =>
              cases n with
              | zero => exact loop loc name rest target hp hl hf
              | succ n =>
                  exact follow n loc name rest target hp hl hf (ihn n (Nat.lt_succ_self n) _ _)

/-! ## Splitting a walk -/

theorem enter_append (s : Store) (n : Nat) (loc : Location) (front rest : List String) :
    s.enter n loc (front ++ rest) =
      (s.enter n loc front).bind fun r => s.enter r.1 r.2 rest := by
  induction n, loc, front using walk_induction s with
  | nil n loc => simp [Except.bind]
  | stay n loc name front h ih => simpa [enter_stay h] using ih
  | up n loc front ih => simpa [enter_up] using ih
  | long n loc name front h hl => simp [enter_long h hl, Except.bind]
  | missing n loc name front h hl hf => simp [enter_plain h hl, hf, Except.bind]
  | file n loc name front bytes h hl hf => simp [enter_plain h hl, hf, Except.bind]
  | down n loc name front h hl hf ih => simpa [enter_plain h hl, hf] using ih
  | loop loc name front target h hl hf => simp [enter_plain h hl, hf, Except.bind]
  | follow n loc name front target h hl hf ih => simpa [enter_plain h hl, hf] using ih

/-- A walk passes all components but the last ones like `enter`. -/
theorem walk_append (s : Store) (aim : Aim) (n : Nat) (loc : Location) (front : List String)
    {rest : List String} (hrest : rest.all (· = "") = false) :
    s.walk aim n loc (front ++ rest) =
      (s.enter n loc front).bind fun r => s.walk aim r.1 r.2 rest := by
  have hne : rest ≠ [] := by rintro rfl; simp at hrest
  have hrefuse : ∀ front, aim.refuses (front ++ rest) = false := by
    intro front
    simp [Aim.refuses, List.all_append, hrest]
  induction n, loc, front using walk_induction s with
  | nil n loc => simp [Except.bind]
  | stay n loc name front h ih => simpa [walk_stay h, enter_stay h] using ih
  | up n loc front ih => simpa [walk_up, enter_up] using ih
  | long n loc name front h hl => simp [walk_long h hl, enter_long h hl, hrefuse, Except.bind]
  | missing n loc name front h hl hf =>
      simp [walk_plain h hl, enter_plain h hl, hf, hne, hrefuse, Except.bind]
  | file n loc name front bytes h hl hf =>
      simp [walk_plain h hl, enter_plain h hl, hf, hne, hrefuse, Except.bind]
  | down n loc name front h hl hf ih =>
      simpa [walk_plain h hl, enter_plain h hl, hf, hrefuse] using ih
  | loop loc name front target h hl hf =>
      simp [walk_plain h hl, enter_plain h hl, hf, hne, hrefuse, Except.bind]
  | follow n loc name front target h hl hf ih =>
      simpa [walk_plain h hl, enter_plain h hl, hf, hne, hrefuse] using ih

/-- A component that takes a walk further. -/
def isStep (name : String) : Bool := name ≠ "" && name ≠ "."

/-- Components that stay in place can be left out. -/
theorem enter_filter (s : Store) (n : Nat) (loc : Location) (front : List String) :
    s.enter n loc (front.filter isStep) = s.enter n loc front := by
  induction front generalizing n loc with
  | nil => rfl
  | cons name front ih =>
      by_cases h : name = "" ∨ name = "."
      · have hstep : isStep name = false := by rcases h with rfl | rfl <;> rfl
        rw [List.filter_cons_of_neg (by simp [hstep]), ih, enter_stay h]
      · have hstep : isStep name = true := by simpa [isStep] using h
        rw [List.filter_cons_of_pos hstep]
        change s.enter n loc ([name] ++ _) = s.enter n loc ([name] ++ _)
        simp only [enter_append, ih]

/-! ## What a walk finds -/

theorem enter_links_le {s : Store} {n k : Nat} {loc dir : Location} {rest : List String}
    (h : s.enter n loc rest = .ok (k, dir)) : k ≤ n := by
  induction n, loc, rest using walk_induction s with
  | nil n loc => simp_all
  | stay n loc name front hs ih => exact ih (by simpa [enter_stay hs] using h)
  | up n loc front ih => exact ih (by simpa [enter_up] using h)
  | long n loc name front hp hl => simp [enter_long hp hl] at h
  | missing n loc name front hp hl hf => simp [enter_plain hp hl, hf] at h
  | file n loc name front bytes hp hl hf => simp [enter_plain hp hl, hf] at h
  | down n loc name front hp hl hf ih => exact ih (by simpa [enter_plain hp hl, hf] using h)
  | loop loc name front target hp hl hf => simp [enter_plain hp hl, hf] at h
  | follow n loc name front target hp hl hf ih =>
      exact Nat.le_succ_of_le (ih (by simpa [enter_plain hp hl, hf] using h))

/-- Components lead to a directory exactly when all of them can be passed. -/
theorem walk_target_directory_iff {s : Store} {n : Nat} {loc dir : Location}
    {rest : List String} :
    s.walk .target n loc rest = .ok (.entry dir .directory) ↔
      ∃ k, s.enter n loc rest = .ok (k, dir) := by
  induction n, loc, rest using walk_induction s with
  | nil n loc => simp
  | stay n loc name rest h ih => simpa [walk_stay h, enter_stay h] using ih
  | up n loc rest ih => simpa [walk_up, enter_up] using ih
  | long n loc name rest h hl => simp [walk_long h hl, enter_long h hl]
  | missing n loc name rest h hl hf =>
      simp only [walk_plain h hl, enter_plain h hl, hf, Aim.refuses_target]
      split <;> simp
  | file n loc name rest bytes h hl hf =>
      simp only [walk_plain h hl, enter_plain h hl, hf, Aim.refuses_target]
      split <;> simp
  | down n loc name rest h hl hf ih => simpa [walk_plain h hl, enter_plain h hl, hf] using ih
  | loop loc name rest target h hl hf =>
      simp [walk_plain h hl, enter_plain h hl, hf, Aim.follows]
  | follow n loc name rest target h hl hf ih =>
      simpa [walk_plain h hl, enter_plain h hl, hf, Aim.follows] using ih

/-- A walk that does not run out of links comes to the same with more of them. -/
theorem walk_more_links {s : Store} {aim : Aim} {n m : Nat} {loc : Location}
    {rest : List String} (h : s.walk aim n loc rest ≠ .error .linkLoop) (hnm : n ≤ m) :
    s.walk aim m loc rest = s.walk aim n loc rest := by
  induction n, loc, rest using walk_induction s generalizing m with
  | nil n loc => simp
  | stay n loc name rest hs ih =>
      simp only [walk_stay hs] at h ⊢
      exact ih h hnm
  | up n loc rest ih =>
      simp only [walk_up] at h ⊢
      exact ih h hnm
  | long n loc name rest hp hl =>
      by_cases hr : aim.refuses rest = false
      · rw [walk_long hp hl hr, walk_long hp hl hr]
      · exact walk_eq_of_refused hp hr
  | missing n loc name rest hp hl hf =>
      by_cases hr : aim.refuses rest = false
      · simp [walk_plain hp hl hr, hf]
      · exact walk_eq_of_refused hp hr
  | file n loc name rest bytes hp hl hf =>
      by_cases hr : aim.refuses rest = false
      · simp [walk_plain hp hl hr, hf]
      · exact walk_eq_of_refused hp hr
  | down n loc name rest hp hl hf ih =>
      by_cases hr : aim.refuses rest = false
      · simp only [walk_plain hp hl hr, hf] at h ⊢
        exact ih h hnm
      · exact walk_eq_of_refused hp hr
  | loop loc name rest target hp hl hf =>
      by_cases hr : aim.refuses rest = false
      · simp only [walk_plain hp hl hr, hf] at h ⊢
        split
        · rfl
        · next hend => exact absurd (by rw [if_neg hend]; rfl) h
      · exact walk_eq_of_refused hp hr
  | follow n loc name rest target hp hl hf ih =>
      by_cases hr : aim.refuses rest = false
      · obtain ⟨m, rfl⟩ : ∃ k, m = k + 1 := ⟨m - 1, by omega⟩
        simp only [walk_plain hp hl hr, hf] at h ⊢
        split
        · rfl
        · next hend =>
            rw [if_neg hend, leap_succ] at h
            exact ih h (Nat.le_of_succ_le_succ hnm)
      · exact walk_eq_of_refused hp hr

end SdkGlue.Store
