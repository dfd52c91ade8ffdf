import BlockWorld.Wire.ServerPacket

/-! # Maps from entity ids

Entries are kept in ascending order of id, at most one for each. `get?` says all there is to know
about a map: the laws below give it for each operation.
-/

namespace BlockWorld

namespace Entries

variable {α β : Type}

def insert (id : EntityId) (a : α) : List (EntityId × α) → List (EntityId × α)
  | [] => [(id, a)]
  | e :: r => if id < e.1 then (id, a) :: e :: r else if e.1 = id then (id, a) :: r
    else e :: insert id a r

def get? (id : EntityId) : List (EntityId × α) → Option α
  | [] => none
  | e :: r => if e.1 = id then some e.2 else get? id r

def Sorted (l : List (EntityId × α)) : Prop := l.Pairwise fun a b => a.1.toInt < b.1.toInt

theorem mem_insert {id : EntityId} {a : α} {e : EntityId × α} {l : List (EntityId × α)}
    (h : e ∈ insert id a l) : e = (id, a) ∨ e ∈ l := by
  induction l with
  | nil => simpa [insert] using h
  | cons d r ih => grind [insert]

theorem Sorted.insert {l : List (EntityId × α)} (h : Sorted l) (id : EntityId) (a : α) :
    Sorted (insert id a l) := by
  induction l with
  | nil => simp [Sorted, Entries.insert]
  | cons d r ih =>
    simp only [Sorted, List.pairwise_cons] at h
    rw [Entries.insert]
    split
    · rename_i hlt
      rw [Int32.lt_iff_toInt_lt] at hlt
      simp only [Sorted, List.pairwise_cons, List.mem_cons]
      exact ⟨fun e he => he.elim (fun h' => h' ▸ hlt) fun h' => Int.lt_trans hlt (h.1 e h'), h⟩
    · rename_i hge
      rw [Int32.lt_iff_toInt_lt] at hge
      split
      · rename_i he
        simp only [Sorted, List.pairwise_cons]
        exact ⟨fun e h' => he ▸ h.1 e h', h.2⟩
      · rename_i hne
        have hne' : d.1.toInt ≠ id.toInt := fun h' => hne (Int32.toInt_inj.1 h')
        simp only [Sorted, List.pairwise_cons]
        refine ⟨fun e h' => ?_, ih h.2⟩
        rcases mem_insert h' with rfl | h'
        · show d.1.toInt < id.toInt
          omega
        · exact h.1 e h'

theorem Sorted.mapValues {l : List (EntityId × α)} (h : Sorted l) (f : EntityId × α → β) :
    Sorted (l.map fun e => (e.1, f e)) := by
  simpa only [Sorted, List.pairwise_map] using h

theorem get?_insert (id k : EntityId) (a : α) (l : List (EntityId × α)) :
    get? k (insert id a l) = if id = k then some a else get? k l := by
  induction l with
  | nil => simp [insert, get?]
  | cons d r ih => grind [insert, get?]

end Entries

structure EntityMap (α : Type) where
  entries : List (EntityId × α)
  sorted : Entries.Sorted entries

namespace EntityMap

variable {α β : Type}

def empty : EntityMap α := ⟨[], .nil⟩

def get? (m : EntityMap α) (id : EntityId) : Option α := Entries.get? id m.entries

def contains (m : EntityMap α) (id : EntityId) : Bool := (m.get? id).isSome

def size (m : EntityMap α) : Nat := m.entries.length

/-- The values in ascending order of id. -/
def values (m : EntityMap α) : List α := m.entries.map (·.2)

def insert (m : EntityMap α) (id : EntityId) (a : α) : EntityMap α :=
  ⟨Entries.insert id a m.entries, m.sorted.insert id a⟩

def erase (m : EntityMap α) (id : EntityId) : EntityMap α :=
  ⟨m.entries.filter (·.1 ≠ id), List.Pairwise.filter _ m.sorted⟩

def map (m : EntityMap α) (f : α → β) : EntityMap β :=
  ⟨m.entries.map fun e => (e.1, f e.2), m.sorted.mapValues fun e => f e.2⟩

def modify (m : EntityMap α) (id : EntityId) (f : α → α) : EntityMap α :=
  ⟨m.entries.map fun e => (e.1, if e.1 = id then f e.2 else e.2),
    m.sorted.mapValues fun e => if e.1 = id then f e.2 else e.2⟩

@[simp] theorem get?_empty (k : EntityId) : (empty : EntityMap α).get? k = none := rfl

theorem get?_insert (m : EntityMap α) (id k : EntityId) (a : α) :
    (m.insert id a).get? k = if id = k then some a else m.get? k :=
  Entries.get?_insert id k a m.entries

theorem get?_erase (m : EntityMap α) (id k : EntityId) :
    (m.erase id).get? k = if id = k then none else m.get? k := by
  obtain ⟨l, _⟩ := m
  simp only [get?, erase]
  induction l with
  | nil => simp [Entries.get?]
  | cons d r ih => grind [Entries.get?, Entries.Sorted]

theorem get?_map (m : EntityMap α) (f : α → β) (k : EntityId) :
    (m.map f).get? k = (m.get? k).map f := by
  obtain ⟨l, _⟩ := m
  simp only [get?, map]
  induction l with
  | nil => rfl
  | cons d r ih => grind [Entries.get?, Entries.Sorted]

theorem get?_modify (m : EntityMap α) (id k : EntityId) (f : α → α) :
    (m.modify id f).get? k = if id = k then (m.get? k).map f else m.get? k := by
  obtain ⟨l, _⟩ := m
  simp only [get?, modify]
  induction l with
  | nil => simp [Entries.get?]
  | cons d r ih => grind [Entries.get?, Entries.Sorted]

@[simp] theorem size_map (m : EntityMap α) (f : α → β) : (m.map f).size = m.size :=
  List.length_map _

theorem size_erase_lt {m : EntityMap α} {id : EntityId} (h : m.contains id) :
    (m.erase id).size < m.size := by
  obtain ⟨l, _⟩ := m
  simp only [contains, get?, size, erase] at *
  induction l with
  | nil => simp [Entries.get?] at h
  | cons d r ih =>
    by_cases hd : d.1 = id
    · simpa [hd] using Nat.lt_succ_of_le (List.length_filter_le _ r)
    · simp only [Entries.get?, hd, if_false] at h
      simpa [hd] using ih (List.Pairwise.of_cons ‹_›) h

end EntityMap

end BlockWorld
