import BlockWorld.Proofs.Game.Effect

/-! # Cascades of removals

A cascade removes stalled players one after the other, in any order, each of them stalled when its
turn comes. The eviction loop is the cascade that always takes the lowest id, and it goes on until
no stalled player is left.
-/

namespace BlockWorld

namespace Game

variable {g : Game}

def Unstalled (g : Game) : Prop := ∀ id p, g.players.get? id = some p → p.stalled = false

inductive Cascade : Game → List Player → Game → Prop
  | nil (g : Game) : Cascade g [] g
  | cons {g g' : Game} {p : Player} {es : List Player} (hp : g.players.get? p.id = some p)
      (hs : p.stalled = true) (h : Cascade (g.removePlayer p.id).1 es g') : Cascade g (p :: es) g'

theorem firstStalled_eq_none_iff : g.firstStalled = none ↔ g.Unstalled := by
  simp only [firstStalled, Option.map_eq_none_iff, List.find?_eq_none, Bool.not_eq_true,
    EntityMap.mem_values_iff, Unstalled]
  exact ⟨fun h id p hp => h p ⟨id, hp⟩, fun h p ⟨id, hp⟩ => h id p hp⟩

theorem firstStalled_eq_some (hk : g.Keyed) {id : EntityId} (h : g.firstStalled = some id) :
    ∃ p, g.players.get? id = some p ∧ p.id = id ∧ p.stalled = true := by
  obtain ⟨p, hp, rfl⟩ := Option.map_eq_some_iff.1 h
  exact ⟨p, hk.get?_id (List.mem_of_find?_eq_some hp), rfl, List.find?_some hp⟩

theorem Keyed.removePlayer (hk : g.Keyed) (id : EntityId) : (g.removePlayer id).1.Keyed := by
  cases hp : g.players.get? id with
  | none => rwa [removePlayer_of_get?_eq_none hp]
  | some p =>
    rw [removePlayer_eq hp (hk id p hp)]
    exact (hk.forget id).deliver _

theorem size_removePlayer_lt (hk : g.Keyed) {p : Player} {id : EntityId}
    (hp : g.players.get? id = some p) : (g.removePlayer id).1.players.size < g.players.size := by
  rw [removePlayer_eq hp (hk id p hp), deliver, EntityMap.size_map]
  exact EntityMap.size_erase_lt (EntityMap.contains_iff.2 ⟨p, hp⟩)

theorem Cascade.keyed {g' : Game} {es : List Player} (h : Cascade g es g') (hk : g.Keyed) :
    g'.Keyed := by
  induction h with
  | nil => exact hk
  | cons _ _ _ ih => exact ih (hk.removePlayer _)

theorem Cascade.preserve {P : Game → Prop} {g' : Game} {es : List Player} (h : Cascade g es g')
    (hk : g.Keyed) (start : P g)
    (removal : ∀ (r : Game) (p : Player), r.Keyed → P r → r.players.get? p.id = some p →
      p.stalled = true → P ((r.forget p.id).deliver (r.farewell p))) : P g' := by
  induction h with
  | nil => exact start
  | cons hp hs _ ih =>
    refine ih (hk.removePlayer _) ?_
    rw [removePlayer_eq hp rfl]
    exact removal _ _ hk start hp hs

/-! ## The eviction loop -/

theorem evict_of_unstalled (h : g.Unstalled) (n : ℕ) : evict n g = (g, []) := by
  cases n with
  | zero => rfl
  | succ n => rw [evict, firstStalled_eq_none_iff.2 h]

theorem evict_succ (hk : g.Keyed) {p : Player} (h : g.firstStalled = some p.id)
    (hp : g.players.get? p.id = some p) (n : ℕ) :
    evict (n + 1) g = ((evict n (g.removePlayer p.id).1).1,
      p :: (evict n (g.removePlayer p.id).1).2) := by
  rw [evict, h]
  simp only [removePlayer_eq hp (hk _ p hp), Option.toList_some, List.singleton_append]

/-- The rounds of the loop are removals of stalled players. -/
theorem cascade_evict (hk : g.Keyed) (n : ℕ) : Cascade g (evict n g).2 (evict n g).1 := by
  induction n generalizing g with
  | zero => exact .nil g
  | succ n ih =>
    cases hf : g.firstStalled with
    | none =>
      rw [evict_of_unstalled (firstStalled_eq_none_iff.1 hf)]
      exact .nil g
    | some id =>
      obtain ⟨p, hp, rfl, hs⟩ := firstStalled_eq_some hk hf
      rw [evict_succ hk hf hp]
      exact .cons hp hs (ih (hk.removePlayer p.id))

theorem unstalled_evict (hk : g.Keyed) {n : ℕ} (hn : g.players.size ≤ n) :
    (evict n g).1.Unstalled := by
  induction n generalizing g with
  | zero =>
    have he : g.players.entries = [] := List.length_eq_zero_iff.1 (Nat.le_zero.1 hn)
    intro id p hp
    rw [← EntityMap.mem_entries_iff (e := (id, p)), evict, he] at hp
    cases hp
  | succ n ih =>
    cases hf : g.firstStalled with
    | none =>
      have hu := firstStalled_eq_none_iff.1 hf
      rwa [evict_of_unstalled hu]
    | some id =>
      obtain ⟨p, hp, rfl, -⟩ := firstStalled_eq_some hk hf
      rw [evict_succ hk hf hp]
      have hlt := size_removePlayer_lt hk hp
      exact ih (hk.removePlayer p.id) (by omega)

theorem unstalled_evictStalled (hk : g.Keyed) : g.evictStalled.1.Unstalled :=
  unstalled_evict hk (Nat.le_refl _)

theorem cascade_evictStalled (hk : g.Keyed) : Cascade g g.evictStalled.2 g.evictStalled.1 :=
  cascade_evict hk _

theorem evict_add (hk : g.Keyed) (n m : ℕ) :
    evict (n + m) g = ((evict m (evict n g).1).1, (evict n g).2 ++ (evict m (evict n g).1).2) := by
  induction n generalizing g with
  | zero => simp [evict]
  | succ n ih =>
    cases hf : g.firstStalled with
    | none =>
      have hu := firstStalled_eq_none_iff.1 hf
      simp only [evict_of_unstalled hu, List.nil_append]
    | some id =>
      obtain ⟨p, hp, rfl, -⟩ := firstStalled_eq_some hk hf
      rw [Nat.add_right_comm, evict_succ hk hf hp, evict_succ hk hf hp,
        ih (hk.removePlayer p.id)]
      rfl

theorem length_evict_le (hk : g.Keyed) (n : ℕ) : (evict n g).2.length ≤ n := by
  induction n generalizing g with
  | zero => exact Nat.le_refl 0
  | succ n ih =>
    cases hf : g.firstStalled with
    | none => simp [evict_of_unstalled (firstStalled_eq_none_iff.1 hf)]
    | some id =>
      obtain ⟨p, hp, rfl, -⟩ := firstStalled_eq_some hk hf
      rw [evict_succ hk hf hp, List.length_cons]
      exact Nat.succ_le_succ (ih (hk.removePlayer p.id))

theorem length_evict (hk : g.Keyed) {n : ℕ} (h : ¬ (evict n g).1.Unstalled) :
    (evict n g).2.length = n := by
  induction n generalizing g with
  | zero => rfl
  | succ n ih =>
    cases hf : g.firstStalled with
    | none =>
      have hu := firstStalled_eq_none_iff.1 hf
      rw [evict_of_unstalled hu] at h
      exact absurd hu h
    | some id =>
      obtain ⟨p, hp, rfl, -⟩ := firstStalled_eq_some hk hf
      rw [evict_succ hk hf hp] at h ⊢
      rw [List.length_cons, ih (hk.removePlayer p.id) h]

/-- The loop comes to its end in exactly as many rounds as there are players it evicts. -/
theorem unstalled_evict_iff (hk : g.Keyed) {n : ℕ} :
    (evict n g).1.Unstalled ↔ g.evictStalled.2.length ≤ n := by
  constructor
  · intro hu
    rcases Nat.le_total n g.players.size with hn | hn
    · obtain ⟨m, hm⟩ := Nat.exists_eq_add_of_le hn
      rw [evictStalled, hm, evict_add hk, evict_of_unstalled hu, List.append_nil]
      exact length_evict_le hk n
    · exact (length_evict_le hk _).trans hn
  · intro hn
    by_contra hu
    -- If someone is stalled after `n` rounds, there is another round and another removal.
    have hlt : n < g.players.size := Nat.lt_of_not_le fun h => hu (unstalled_evict hk h)
    obtain ⟨m, hm⟩ := Nat.exists_eq_add_of_lt hlt
    have hk' := (cascade_evict hk n).keyed hk
    cases hf : (evict n g).1.firstStalled with
    | none => exact hu (firstStalled_eq_none_iff.1 hf)
    | some id =>
      obtain ⟨p, hp, rfl, -⟩ := firstStalled_eq_some hk' hf
      rw [evictStalled, hm, Nat.add_assoc, evict_add hk, evict_succ hk' hf hp,
        List.length_append, length_evict hk hu, List.length_cons] at hn
      omega

end Game

end BlockWorld
