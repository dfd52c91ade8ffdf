import BlockWorld.Text.Split

/-! # File paths

A path is a text; slashes separate the names in it. Empty names and single dots lead nowhere, so
`names` leaves them out, and `names_join` says where a joined path leads.
-/

namespace BlockWorld

namespace Path

def names (path : String) : List String :=
  ((Text.split '/' path.toList).filter fun p => p ≠ [] ∧ p ≠ ['.']).map String.ofList

def join (base name : String) : String :=
  if base = "" then name
  else if base.toList.getLast? = some '/' then base ++ name
  else base ++ "/" ++ name

theorem names_append (a b : List Char) :
    names (String.ofList (a ++ '/' :: b)) = names (String.ofList a) ++ names (String.ofList b) := by
  simp [names, Text.split_append]

theorem names_join (base name : String) : names (join base name) = names base ++ names name := by
  have h (s t : String) : names (s ++ "/" ++ t) = names s ++ names t := by
    have e : s ++ "/" ++ t = String.ofList (s.toList ++ '/' :: t.toList) := by
      apply String.ext; simp
    rw [e, names_append, String.ofList_toList, String.ofList_toList]
  unfold join
  split
  · rename_i hb
    subst hb
    have : names "" = [] := by simp [names, Text.split]
    rw [this, List.nil_append]
  · split
    · rename_i hs
      obtain ⟨l, hl⟩ := List.getLast?_eq_some_iff.1 hs
      have e : base = String.ofList l ++ "/" := by apply String.ext; simp [hl]
      have hn : names (String.ofList l ++ "/") = names (String.ofList l) := by
        have := h (String.ofList l) ""
        rw [String.append_empty] at this
        rw [this]
        simp [names, Text.split]
      rw [e, h, hn]
    · exact h base name

end Path

end BlockWorld
