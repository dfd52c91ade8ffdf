import BlockWorld.Proofs.Tag.RoundTrip

/-! # Compounds put together from fields

However fields are given, the compound of them is a proper tree that holds nothing else, and under
each name it has the last value given there.
-/

namespace BlockWorld.Tag

variable {fields done l : List (String × Tag)} {f : String × Tag} {key : String} {value : Tag}

def gather (fields : List (String × Tag)) : List (String × Tag) :=
  fields.foldl (fun l f => insertField f.1 f.2 l) []

theorem ofFields_eq (fields : List (String × Tag)) : ofFields fields = compound (gather fields) :=
  rfl

theorem gather_concat (fields : List (String × Tag)) (f : String × Tag) :
    gather (fields ++ [f]) = insertField f.1 f.2 (gather fields) := by
  rw [gather, List.foldl_concat, gather]

theorem mem_of_mem_insertField (h : f ∈ insertField key value l) : f = (key, value) ∨ f ∈ l := by
  induction l with
  | nil => exact .inl (List.mem_singleton.1 h)
  | cons g r ih =>
    rw [insertField] at h
    split at h
    · exact (List.mem_cons.1 h).imp_right (List.mem_cons_of_mem g)
    split at h
    · exact List.mem_cons.1 h
    · rcases List.mem_cons.1 h with rfl | h
      · exact .inr List.mem_cons_self
      · exact (ih h).imp_right (List.mem_cons_of_mem g)

theorem ascending_insertField (h : l.Pairwise fun f g => f.1 < g.1) (key : String) (value : Tag) :
    (insertField key value l).Pairwise fun f g => f.1 < g.1 := by
  induction l with
  | nil => exact List.pairwise_singleton _ _
  | cons g r ih =>
    obtain ⟨hg, hr⟩ := List.pairwise_cons.1 h
    rw [insertField]
    split
    · rename_i heq
      subst heq
      exact List.pairwise_cons.2 ⟨hg, hr⟩
    split
    · rename_i hlt
      refine List.pairwise_cons.2 ⟨fun f hf => ?_, h⟩
      rcases List.mem_cons.1 hf with rfl | hf
      · exact hlt
      · exact hlt.trans (hg f hf)
    · rename_i hne hge
      refine List.pairwise_cons.2 ⟨fun f hf => ?_, ih hr⟩
      rcases mem_of_mem_insertField hf with rfl | hf
      · exact lt_of_le_of_ne (not_lt.1 hge) (Ne.symm hne)
      · exact hg f hf

theorem length_insertField_le (key : String) (value : Tag) (l : List (String × Tag)) :
    (insertField key value l).length ≤ l.length + 1 := by
  induction l with
  | nil => exact Nat.le_refl 1
  | cons g r ih =>
    rw [insertField]
    split
    · exact Nat.le_succ _
    split
    · exact Nat.le_refl _
    · exact Nat.succ_le_succ ih

theorem mem_of_mem_gather (h : f ∈ gather fields) : f ∈ fields := by
  induction fields using List.reverseRecOn with
  | nil => exact h
  | append_singleton fields g ih =>
    rw [gather_concat] at h
    rcases mem_of_mem_insertField h with rfl | h
    · exact List.mem_append_right _ List.mem_cons_self
    · exact List.mem_append_left _ (ih h)

theorem ascending_gather (fields : List (String × Tag)) :
    (gather fields).Pairwise fun f g => f.1 < g.1 := by
  induction fields using List.reverseRecOn with
  | nil => exact .nil
  | append_singleton fields g ih =>
    rw [gather_concat]
    exact ascending_insertField ih g.1 g.2

theorem length_gather_le (fields : List (String × Tag)) :
    (gather fields).length ≤ fields.length := by
  induction fields using List.reverseRecOn with
  | nil => exact Nat.le_refl 0
  | append_singleton fields g ih =>
    rw [gather_concat, List.length_append, List.length_singleton]
    exact (length_insertField_le g.1 g.2 _).trans (Nat.succ_le_succ ih)

theorem properFields_iff :
    ProperFields l ↔ ∀ f ∈ l, (utf8 f.1).length < Cbor.argumentLimit ∧ f.2.Proper := by
  induction l with
  | nil => exact iff_of_true trivial nofun
  | cons f r ih => rw [ProperFields, ih, List.forall_mem_cons, and_assoc]

theorem costFields_le_iff {n : ℕ} : costFields l ≤ n ↔ ∀ f ∈ l, f.2.cost ≤ n := by
  induction l with
  | nil => exact iff_of_true (Nat.zero_le n) nofun
  | cons f r ih => rw [costFields, Nat.max_le, ih, List.forall_mem_cons]

/-- A tree that is read back by a reader that goes `n` levels deep. -/
structure Fits (n : ℕ) (t : Tag) : Prop where
  proper : t.Proper
  cost_le : t.cost ≤ n

theorem Fits.mono {m n : ℕ} {t : Tag} (h : t.Fits m) (hmn : m ≤ n) : t.Fits n :=
  ⟨h.proper, h.cost_le.trans hmn⟩

/-- A tree that fits is what is read from the file that it is packed into. -/
theorem Fits.unpack_encode {t : Tag} (h : t.Fits maxDepth) :
    unpack readFirst (pack t.encode) = .ok t := by
  have hunpack := (reads_encode t maxDepth h.proper h.cost_le).unpacked []
  rwa [List.append_nil] at hunpack

theorem fits_ofFields {n : ℕ} (hlen : fields.length < Cbor.argumentLimit)
    (h : ∀ f ∈ fields, (utf8 f.1).length < Cbor.argumentLimit ∧ f.2.Fits n) :
    (ofFields fields).Fits (n + 2) where
  proper := ⟨(length_gather_le fields).trans_lt hlen, ascending_gather fields,
    properFields_iff.2 fun f hf => (h f (mem_of_mem_gather hf)).imp_right Fits.proper⟩
  cost_le := by
    have hfields : costFields (gather fields) ≤ n :=
      costFields_le_iff.2 fun f hf => (h f (mem_of_mem_gather hf)).2.cost_le
    rw [ofFields_eq, cost]
    omega

theorem fits_ofField {n : ℕ} (hkey : (utf8 key).length < Cbor.argumentLimit)
    (hvalue : value.Fits n) : (ofFields [(key, value)]).Fits (n + 2) :=
  fits_ofFields (show 1 < Cbor.argumentLimit by decide) fun f hf => by
    rw [List.mem_singleton.1 hf]
    exact ⟨hkey, hvalue⟩

theorem child?_ofFields (key : String) (fields : List (String × Tag)) :
    (ofFields fields).child? key = field? key fields.reverse := by
  show field? key (gather fields) = _
  induction fields using List.reverseRecOn with
  | nil => rfl
  | append_singleton fields f ih =>
    rw [gather_concat, field?_insertField, ih, List.reverse_concat, field?]

end BlockWorld.Tag
