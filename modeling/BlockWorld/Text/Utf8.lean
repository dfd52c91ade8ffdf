import BlockWorld.Bytes.Basic

/-! # UTF-8

`String.utf8` and `Bytes.text?` are inverse: an octet string is read as text exactly when it is the
encoding of one.
-/

namespace BlockWorld

def utf8 (s : String) : Bytes := s.toByteArray.data.toList

def Bytes.text? (b : Bytes) : Option String := String.fromUTF8? ⟨b.toArray⟩

theorem text?_utf8 (s : String) : Bytes.text? (utf8 s) = some s := by
  have h : (⟨(utf8 s).toArray⟩ : ByteArray) = s.toByteArray := by
    rw [utf8, Array.toArray_toList]
  rw [Bytes.text?, h, String.fromUTF8?, dif_pos s.isValidUTF8]
  rfl

theorem text?_eq_some_iff {b : Bytes} {s : String} : b.text? = some s ↔ b = utf8 s := by
  constructor
  · intro h
    simp only [Bytes.text?, String.fromUTF8?] at h
    split at h
    · cases h; rfl
    · cases h
  · rintro rfl
    exact text?_utf8 s

theorem length_utf8 (s : String) : (utf8 s).length = s.utf8ByteSize := rfl

theorem length_utf8_ofList_le (s : List Char) :
    (utf8 (String.ofList s)).length ≤ 4 * s.length := by
  induction s with
  | nil => exact Nat.le_refl 0
  | cons c r ih =>
    have hcons : (String.ofList (c :: r)).utf8ByteSize =
        c.utf8Size + (String.ofList r).utf8ByteSize := by
      rw [← List.singleton_append, String.ofList_append, String.utf8ByteSize_append]
      simp
    have hc := c.utf8Size_le_four
    rw [length_utf8] at ih
    rw [length_utf8, hcons, List.length_cons]
    omega

end BlockWorld
