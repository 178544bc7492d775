/-!
# Cutting a text at a character

`splitAt sep cs` cuts `cs` at every occurrence of `sep` and keeps empty pieces, so that putting the
separator back between the pieces gives the text again (`joinWith_splitAt`), and no piece contains
the separator (`not_mem_of_mem_splitAt`).
-/

namespace DispatchGen.Text

/-- The pieces between the occurrences of `sep`; a text without one is its own single piece. -/
def splitAt (sep : Char) : List Char → List (List Char)
  | [] => [[]]
  | c :: cs =>
    if c = sep then [] :: splitAt sep cs
    else
      match splitAt sep cs with
      | [] => [[c]]
      | piece :: pieces => (c :: piece) :: pieces

/-- The pieces with `sep` between them. -/
def joinWith (sep : Char) : List (List Char) → List Char
  | [] => []
  | [piece] => piece
  | piece :: pieces => piece ++ sep :: joinWith sep pieces

theorem splitAt_ne_nil (sep : Char) (cs : List Char) : splitAt sep cs ≠ [] := by
  cases cs with
  | nil => simp [splitAt]
  | cons c cs =>
    rw [splitAt]
    split
    · simp
    · split <;> simp

theorem joinWith_splitAt (sep : Char) (cs : List Char) : joinWith sep (splitAt sep cs) = cs := by
  induction cs with
  | nil => rfl
  | cons c cs ih =>
    have hne := splitAt_ne_nil sep cs
    rw [splitAt]
    split
    · next h =>
      subst h
      match hs : splitAt c cs with
      | [] => exact absurd hs hne
      | p :: ps => rw [hs] at ih; simp [joinWith, ih]
    · match hs : splitAt sep cs with
      | [] => exact absurd hs hne
      | [p] => rw [hs] at ih; simpa [joinWith] using ih
      | p :: q :: ps => rw [hs] at ih; simpa [joinWith] using ih

theorem not_mem_of_mem_splitAt {sep : Char} {cs piece : List Char} (h : piece ∈ splitAt sep cs) :
    sep ∉ piece := by
  induction cs generalizing piece with
  | nil => simp_all [splitAt]
  | cons c cs ih =>
    rw [splitAt] at h
    split at h
    · rcases List.mem_cons.1 h with rfl | h
      · simp
      · exact ih h
    · next hc =>
      match hs : splitAt sep cs with
      | [] => exact absurd hs (splitAt_ne_nil sep cs)
      | p :: ps =>
        rw [hs] at h ih
        rcases List.mem_cons.1 h with rfl | h
        · simp only [List.mem_cons, not_or]
          exact ⟨fun e => hc e.symm, ih (by simp)⟩
        · exact ih (by simp [h])

/-- The lines of a text; a text without a newline is one line. -/
def lines (s : String) : List String :=
  (splitAt '\n' s.toList).map String.ofList

end DispatchGen.Text
