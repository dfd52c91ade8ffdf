import BlockWorld.Entity.Map
import Mathlib.Data.Finset.Card

/-! # Entity maps up to look-up

A map is determined by what it finds, so two ways to build one are compared by looking an arbitrary
id up. Its ids form a finite set with as many members as the map has entries.
-/

namespace BlockWorld

namespace Entries

variable {α : Type} {l : List (EntityId × α)}

theorem get?_eq_some_iff (h : Sorted l) {id : EntityId} {a : α} :
    get? id l = some a ↔ (id, a) ∈ l := by
  induction l with
  | nil => simp [get?]
  | cons e r ih =>
    obtain ⟨hlt, hr⟩ := List.pairwise_cons.1 h
    by_cases he : e.1 = id
    · have hnot : (id, a) ∉ r := fun hm => by
        have := hlt _ hm
        simp [he] at this
      grind [get?]
    · rw [get?, if_neg he, ih hr, List.mem_cons, or_iff_right]
      rintro rfl
      exact he rfl

theorem Sorted.nodup (h : Sorted l) : (l.map (·.1)).Nodup := by
  rw [List.Nodup, List.pairwise_map]
  refine List.Pairwise.imp ?_ h
  intro a b hab heq
  rw [heq] at hab
  exact Int.lt_irrefl _ hab

end Entries

namespace EntityMap

variable {α β γ : Type} {m n : EntityMap α}

theorem mem_entries_iff {e : EntityId × α} : e ∈ m.entries ↔ m.get? e.1 = some e.2 :=
  (Entries.get?_eq_some_iff m.sorted).symm

theorem ext_get? (h : ∀ k, m.get? k = n.get? k) : m = n := by
  obtain ⟨l, hl⟩ := m
  obtain ⟨r, hr⟩ := n
  have hp : l.Perm r := by
    refine (List.perm_ext_iff_of_nodup hl.nodup.of_map hr.nodup.of_map).2 fun e => ?_
    rw [mem_entries_iff (m := ⟨l, hl⟩), mem_entries_iff (m := ⟨r, hr⟩), h]
  obtain rfl : l = r :=
    hp.eq_of_pairwise (fun a b _ _ hab hba => absurd hab (by omega)) hl hr
  rfl

theorem mem_values_iff {a : α} : a ∈ m.values ↔ ∃ k, m.get? k = some a := by
  simp [values, mem_entries_iff]

theorem contains_iff {id : EntityId} : m.contains id ↔ ∃ a, m.get? id = some a := by
  rw [contains, Option.isSome_iff_exists]

theorem contains_eq_false_iff {id : EntityId} : m.contains id = false ↔ m.get? id = none := by
  simp [contains]

theorem contains_insert (m : EntityMap α) (id k : EntityId) (a : α) :
    (m.insert id a).contains k ↔ id = k ∨ m.contains k := by
  rw [contains, contains, get?_insert]
  split <;> simp [*]

theorem contains_erase (m : EntityMap α) (id k : EntityId) :
    (m.erase id).contains k ↔ id ≠ k ∧ m.contains k := by
  rw [contains, contains, get?_erase]
  split <;> simp [*]

@[simp] theorem contains_modify (m : EntityMap α) (id k : EntityId) (f : α → α) :
    (m.modify id f).contains k = m.contains k := by
  rw [contains, contains, get?_modify]
  split <;> simp

@[simp] theorem contains_map (f : α → β) (id : EntityId) :
    (m.map f).contains id = m.contains id := by
  simp [contains, get?_map]

@[simp] theorem map_map (m : EntityMap α) (f : α → β) (g : β → γ) :
    (m.map f).map g = m.map fun a => g (f a) :=
  ext_get? fun k => by simp [get?_map, Function.comp_def]

theorem map_congr {f g : α → β} (h : ∀ k a, m.get? k = some a → f a = g a) :
    m.map f = m.map g :=
  ext_get? fun k => by
    rw [get?_map, get?_map]
    cases hk : m.get? k with
    | none => rfl
    | some a => simp [h k a hk]

theorem map_id' (m : EntityMap α) : (m.map fun a => a) = m :=
  ext_get? fun k => by simp [get?_map]

theorem map_insert (m : EntityMap α) (id : EntityId) (a : α) (f : α → β) :
    (m.insert id a).map f = (m.map f).insert id (f a) :=
  ext_get? fun k => by
    rw [get?_map, get?_insert, get?_insert, get?_map]
    split <;> rfl

theorem map_erase (m : EntityMap α) (id : EntityId) (f : α → β) :
    (m.erase id).map f = (m.map f).erase id :=
  ext_get? fun k => by
    rw [get?_map, get?_erase, get?_erase, get?_map]
    split <;> rfl

theorem map_modify (m : EntityMap α) (id : EntityId) {f : α → α} {f' : β → β} {h : α → β}
    (hf : ∀ a, h (f a) = f' (h a)) : (m.modify id f).map h = (m.map h).modify id f' :=
  ext_get? fun k => by
    rw [get?_map, get?_modify, get?_modify, get?_map]
    split
    · simp only [Option.map_map, Function.comp_def, hf]
    · rfl

theorem erase_insert {id : EntityId} (h : m.get? id = none) (a : α) :
    (m.insert id a).erase id = m :=
  ext_get? fun k => by
    rw [get?_erase, get?_insert]
    split
    · rename_i hid
      rw [← hid, h]
    · rfl

theorem values_erase {key : α → EntityId} (h : ∀ k a, m.get? k = some a → key a = k)
    (id : EntityId) : (m.erase id).values = m.values.filter (key · ≠ id) := by
  rw [values, values, List.filter_map]
  refine congrArg _ (List.filter_congr fun e he => ?_)
  rw [Function.comp_apply, h e.1 e.2 (mem_entries_iff.1 he)]

theorem values_map (m : EntityMap α) (f : α → β) : (m.map f).values = m.values.map f := by
  simp [map, values]

theorem modify_eq_map {key : α → EntityId} (h : ∀ k a, m.get? k = some a → key a = k)
    (id : EntityId) (f : α → α) :
    m.modify id f = m.map fun a => if key a = id then f a else a :=
  ext_get? fun k => by
    rw [get?_modify, get?_map]
    cases hk : m.get? k with
    | none => simp
    | some a =>
      simp only [Option.map_some, h k a hk, eq_comm (a := k)]
      split <;> rfl

def ids (m : EntityMap α) : Finset EntityId := (m.entries.map (·.1)).toFinset

@[simp] theorem mem_ids {id : EntityId} : id ∈ m.ids ↔ m.contains id := by
  simp [ids, mem_entries_iff, contains_iff]

theorem card_ids (m : EntityMap α) : m.ids.card = m.size := by
  rw [ids, List.toFinset_card_of_nodup m.sorted.nodup, List.length_map, size]

end EntityMap

end BlockWorld
