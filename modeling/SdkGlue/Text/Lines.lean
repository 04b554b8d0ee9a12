/-!
# Lines

A line ends at a line feed, a carriage return, or a carriage return followed
by a line feed.
-/

namespace SdkGlue.Text

/-- Every line end written as one line feed. -/
def unifyNewlines : List Char → List Char
  | [] => []
  | '\r' :: '\n' :: s => '\n' :: unifyNewlines s
  | c :: s => (if c = '\r' then '\n' else c) :: unifyNewlines s

/-- Only the pair of carriage return and line feed written as one line feed. -/
def unifyPairs : List Char → List Char
  | [] => []
  | '\r' :: '\n' :: s => '\n' :: unifyPairs s
  | c :: s => c :: unifyPairs s

/-- The pieces between the separators: one more than there are separators. -/
def splitOn (sep : Char) : List Char → List (List Char)
  | [] => [[]]
  | c :: s => if c = sep then [] :: splitOn sep s else (splitOn sep s).modifyHead (c :: ·)

def lines (s : List Char) : List (List Char) := splitOn '\n' (unifyNewlines s)

theorem splitOn_ne_nil (sep : Char) (s : List Char) : splitOn sep s ≠ [] := by
  induction s with
  | nil => simp [splitOn]
  | cons c s ih =>
      simp only [splitOn]
      split
      · simp
      · simpa [List.modifyHead_eq_nil_iff] using ih

/-- No piece holds the separator. -/
theorem not_mem_of_mem_splitOn {sep : Char} {s piece : List Char}
    (h : piece ∈ splitOn sep s) : sep ∉ piece := by
  induction s generalizing piece with
  | nil => simp_all [splitOn]
  | cons c s ih =>
      simp only [splitOn] at h
      split at h
      · rcases List.mem_cons.mp h with rfl | h
        · simp
        · exact ih h
      · next hc =>
          match hs : splitOn sep s with
          | [] => exact absurd hs (splitOn_ne_nil sep s)
          | q :: qs =>
              simp only [hs, List.modifyHead_cons, List.mem_cons] at h ih
              rcases h with rfl | h
              · have := ih (.inl rfl)
                simp [this, Ne.symm hc]
              · exact ih (.inr h)

/-- Joining the pieces gives the text back. -/
theorem intercalate_splitOn (sep : Char) (s : List Char) :
    [sep].intercalate (splitOn sep s) = s := by
  induction s with
  | nil => rfl
  | cons c s ih =>
      simp only [splitOn]
      match hs : splitOn sep s with
      | [] => exact absurd hs (splitOn_ne_nil sep s)
      | q :: qs =>
          rw [hs] at ih
          split
          · next hc => rw [← ih, hc]; simp [List.intercalate, List.intersperse]
          · cases qs <;> simp_all [List.intercalate, List.intersperse]

end SdkGlue.Text
