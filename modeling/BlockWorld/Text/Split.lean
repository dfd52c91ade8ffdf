/-! # Splitting text -/

namespace BlockWorld

namespace Text

/-- The parts between the separators; one more than there are separators. -/
def split (separator : Char) : List Char → List (List Char)
  | [] => [[]]
  | c :: r =>
    if c = separator then [] :: split separator r
    else
      match split separator r with
      | part :: parts => (c :: part) :: parts
      | [] => [[c]]

theorem split_ne_nil (separator : Char) (s : List Char) : split separator s ≠ [] := by
  cases s with
  | nil => simp [split]
  | cons c r =>
    unfold split
    split
    · simp
    · split <;> simp

theorem split_append (separator : Char) (s t : List Char) :
    split separator (s ++ separator :: t) = split separator s ++ split separator t := by
  induction s with
  | nil => simp [split]
  | cons c r ih =>
    by_cases h : c = separator
    · simp [split, h, ih]
    · simp only [List.cons_append, split, h, if_false, ih]
      cases hs : split separator r with
      | nil => exact absurd hs (split_ne_nil separator r)
      | cons p ps => simp

theorem split_of_not_mem {separator : Char} {s : List Char} (h : separator ∉ s) :
    split separator s = [s] := by
  induction s with
  | nil => rfl
  | cons c r ih =>
    have hc : c ≠ separator := fun hc => h (List.mem_cons.2 (.inl hc.symm))
    rw [split, if_neg hc, ih fun hr => h (List.mem_cons_of_mem c hr)]

end Text

end BlockWorld
