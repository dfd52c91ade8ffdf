import BlockWorld.Proofs.Entity.Allocation
import BlockWorld.Proofs.Game.Run

/-! # The registry

The directory, the players and the items are changed by separate statements, and an eviction loop
runs after each command. They agree all the same: whatever happens, the directory lists exactly the
players and the items, each under its own id.
-/

namespace BlockWorld

namespace Directory

variable {d : Directory}

theorem kind?_eq_none_iff {id : EntityId} : d.kind? id = none ↔ d.contains id = false :=
  EntityMap.contains_eq_false_iff.symm

theorem unregister_of_kind? {id : EntityId} {k : EntityKind} (h : d.kind? id = some k) :
    d.unregister id = .ok (k, { d with live := d.live.erase id }) := by
  have h' : d.live.get? id = some k := h
  rw [unregister, h']

end Directory

namespace Game

variable {g : Game}

/-- The directory lists exactly the players and the items, and these know their ids. -/
structure Consistent (g : Game) : Prop where
  player_iff : ∀ id, g.directory.kind? id = some .player ↔ g.players.contains id
  item_iff : ∀ id, g.directory.kind? id = some .item ↔ g.items.contains id
  keyed : g.Keyed
  item_id : ∀ id d, g.items.get? id = some d → d.id = id
  one_le_next : 1 ≤ g.directory.next.toInt

theorem Consistent.new (config : GameConfig) (time : Int64) :
    (Game.new config time).Consistent where
  player_iff _ := by simp [Game.new, Directory.empty, Directory.kind?, EntityMap.contains]
  item_iff _ := by simp [Game.new, Directory.empty, Directory.kind?, EntityMap.contains]
  keyed _ _ h := by cases h
  item_id _ _ h := by cases h
  one_le_next := by
    show 1 ≤ (1 : Int32).toInt
    decide

namespace Consistent

theorem unregister (h : g.Consistent) {id : EntityId} (hp : g.players.contains id) :
    g.directory.unregister id =
      .ok (.player, { g.directory with live := g.directory.live.erase id }) :=
  Directory.unregister_of_kind? ((h.player_iff id).2 hp)

theorem get?_eq_none (h : g.Consistent) {id : EntityId} (hn : g.directory.contains id = false) :
    g.players.get? id = none := by
  have hkind := Directory.kind?_eq_none_iff.2 hn
  rw [← EntityMap.contains_eq_false_iff, Bool.eq_false_iff]
  intro hc
  rw [(h.player_iff id).2 hc] at hkind
  cases hkind

theorem enrol (h : g.Consistent) {p : Player} (hn : g.directory.contains p.id = false) :
    (g.enrol p).Consistent where
  player_iff id := by
    have := h.player_iff id
    simp only [Game.enrol, Directory.kind?, EntityMap.get?_insert, EntityMap.contains_insert] at *
    grind
  item_iff id := by
    have hi := h.item_iff id
    have hnone := Directory.kind?_eq_none_iff.2 hn
    simp only [Game.enrol, Directory.kind?, EntityMap.get?_insert] at *
    grind
  keyed := h.keyed.enrol p
  item_id := h.item_id
  one_le_next := h.one_le_next

theorem stow (h : g.Consistent) {item : DroppedItem}
    (hn : g.directory.contains item.id = false) :
    ({ g with
      directory := { g.directory with live := g.directory.live.insert item.id .item }
      items := g.items.insert item.id item } : Game).Consistent where
  player_iff id := by
    have hp := h.player_iff id
    have hnone := Directory.kind?_eq_none_iff.2 hn
    simp only [Directory.kind?, EntityMap.get?_insert] at *
    grind
  item_iff id := by
    have := h.item_iff id
    simp only [Directory.kind?, EntityMap.get?_insert, EntityMap.contains_insert] at *
    grind
  keyed := h.keyed
  item_id id d hd := by
    rw [EntityMap.get?_insert] at hd
    split at hd
    · cases hd; assumption
    · exact h.item_id id d hd
  one_le_next := h.one_le_next

theorem forget (h : g.Consistent) {id : EntityId} (hp : g.players.contains id) :
    (g.forget id).Consistent := by
  have hu := h.unregister hp
  constructor
  · intro k
    have := h.player_iff k
    simp only [Game.forget, hu, Directory.kind?, EntityMap.get?_erase,
      EntityMap.contains_erase] at *
    grind
  · intro k
    have hi := h.item_iff k
    have hk := (h.player_iff id).2 hp
    simp only [Game.forget, hu, Directory.kind?, EntityMap.get?_erase] at *
    grind
  · exact h.keyed.forget id
  · exact h.item_id
  · simpa only [Game.forget, hu] using h.one_le_next

theorem settle (h : g.Consistent) (c : Command) : (g.settle c).Consistent := by
  cases c with
  | allocateId =>
    constructor
    · intro id
      rw [Game.settle, Directory.kind?_allocate]
      exact h.player_iff id
    · intro id
      rw [Game.settle, Directory.kind?_allocate]
      exact h.item_iff id
    · exact h.keyed
    · exact h.item_id
    · exact Directory.one_le_next_allocate h.one_le_next
  | addPlayer p =>
    rw [Game.settle]
    split
    · exact h
    · exact h.enrol (Bool.eq_false_of_not_eq_true ‹_›)
  | removePlayer id =>
    rw [Game.settle]
    split
    · exact h.forget ‹_›
    · exact h
  | movePlayer id position orientation =>
    constructor
    · intro k
      rw [Game.settle, movePlayer, EntityMap.contains_modify]
      exact h.player_iff k
    · exact h.item_iff
    · exact h.keyed.settle (.movePlayer id position orientation)
    · exact h.item_id
    · exact h.one_le_next
  | addItem item =>
    rw [Game.settle]
    split
    · exact h
    · exact h.stow (Bool.eq_false_of_not_eq_true ‹_›)
  | multicast packet except => exact h
  | say text => exact h
  | tick => exact ⟨h.player_iff, h.item_iff, h.keyed, h.item_id, h.one_le_next⟩
  | query q => exact h

theorem deliver (h : g.Consistent) (m : Player → List Bytes) : (g.deliver m).Consistent where
  player_iff id := by
    rw [Game.deliver, EntityMap.contains_map]
    exact h.player_iff id
  item_iff := h.item_iff
  keyed := h.keyed.deliver m
  item_id := h.item_id
  one_le_next := h.one_le_next

theorem attend (h : g.Consistent) (connection : ℕ) (f : Inbox → Inbox) :
    (g.attend connection f).Consistent where
  player_iff id := by
    rw [Game.attend, EntityMap.contains_map]
    exact h.player_iff id
  item_iff := h.item_iff
  keyed id p hp := by
    obtain ⟨q, hq, rfl⟩ := get?_attend_eq_some_iff.1 hp
    rw [← h.keyed id q hq]
    split <;> rfl
  item_id := h.item_id
  one_le_next := h.one_le_next

theorem apply (h : g.Consistent) (c : Command) : (g.apply c).game.Consistent :=
  apply_induction h.keyed c ((h.settle c).deliver _) fun _ p _ hr hp _ =>
    (hr.forget (EntityMap.contains_iff.2 ⟨p, hp⟩)).deliver _

theorem step (h : g.Consistent) (e : Event) : (g.step e).Consistent := by
  cases e with
  | submit c => exact h.apply c
  | read connection n => exact h.attend connection (·.read n)
  | hangUp connection => exact h.attend connection (·.abandon)

theorem run (h : g.Consistent) (es : List Event) : (g.run es).Consistent := by
  induction es generalizing g with
  | nil => exact h
  | cons e es ih => exact ih (h.step e)

theorem config_run (h : g.Consistent) (es : List Event) : (g.run es).config = g.config := by
  induction es generalizing g with
  | nil => rfl
  | cons e es ih =>
    rw [run_cons, ih (h.step e)]
    cases e with
    | submit c =>
      refine apply_induction (P := fun r => r.config = g.config) h.keyed c ?_ fun r p _ hr _ _ => ?_
      · rw [config_deliver, config_settle]
      · rw [config_deliver, config_forget, hr]
    | _ => rfl

theorem chunkRadius_run_new (config : GameConfig) (time : Int64) (es : List Event) :
    ((Game.new config time).run es).config.chunkRadius = config.chunkRadius := by
  rw [(Consistent.new config time).config_run]
  rfl

theorem disjoint (h : g.Consistent) : Disjoint g.players.ids g.items.ids := by
  rw [Finset.disjoint_left]
  intro id hp hi
  have hkp := (h.player_iff id).2 (EntityMap.mem_ids.1 hp)
  have hki := (h.item_iff id).2 (EntityMap.mem_ids.1 hi)
  rw [hkp] at hki
  cases hki

theorem ids_live (h : g.Consistent) : g.directory.live.ids = g.players.ids ∪ g.items.ids := by
  ext id
  rw [Finset.mem_union, EntityMap.mem_ids, EntityMap.mem_ids, EntityMap.mem_ids, ← h.player_iff,
    ← h.item_iff, EntityMap.contains_iff, Directory.kind?]
  constructor
  · rintro ⟨_ | _, hk⟩
    · exact Or.inl hk
    · exact Or.inr hk
  · rintro (hk | hk) <;> exact ⟨_, hk⟩

theorem size (h : g.Consistent) : g.directory.size = g.players.size + g.items.size := by
  rw [Directory.size, ← EntityMap.card_ids, h.ids_live, Finset.card_union_of_disjoint h.disjoint,
    EntityMap.card_ids, EntityMap.card_ids]

end Consistent

theorem Unstalled.attend (h : g.Unstalled) (connection : ℕ) (f : Inbox → Inbox) :
    (g.attend connection f).Unstalled := by
  intro id p hp
  obtain ⟨q, hq, rfl⟩ := get?_attend_eq_some_iff.1 hp
  rw [← h id q hq]
  split <;> rfl

theorem Unstalled.step (h : g.Unstalled) (hk : g.Keyed) (e : Event) : (g.step e).Unstalled := by
  cases e with
  | submit c => exact unstalled_apply hk c
  | read connection n => exact h.attend connection (·.read n)
  | hangUp connection => exact h.attend connection (·.abandon)

theorem Unstalled.run (h : g.Unstalled) (hc : g.Consistent) (es : List Event) :
    (g.run es).Unstalled := by
  induction es generalizing g with
  | nil => exact h
  | cons e es ih => exact ih (h.step hc.keyed e) (hc.step e)

theorem unstalled_new (config : GameConfig) (time : Int64) :
    (Game.new config time).Unstalled := fun _ _ h => by cases h

theorem unstalled_run_new (config : GameConfig) (time : Int64) (es : List Event) :
    ((Game.new config time).run es).Unstalled :=
  (unstalled_new config time).run (.new config time) es

theorem Reachable.consistent_unstalled (h : g.Reachable) : g.Consistent ∧ g.Unstalled := by
  obtain ⟨config, time, es, -, rfl⟩ := h
  exact ⟨(Consistent.new config time).run es, unstalled_run_new config time es⟩

/-- Whomever a command removes is in the directory at that time: the player that it names, and the
one whose turn it is after any number of evictions. -/
structure RemovesListed (g : Game) (c : Command) : Prop where
  named : ∀ id, c = .removePlayer id → g.players.contains id →
    ∃ d, g.directory.unregister id = .ok (.player, d)
  evicted : ∀ n id, (evict n (g.perform c).game).1.firstStalled = some id →
    ∃ d, (evict n (g.perform c).game).1.directory.unregister id = .ok (.player, d)

theorem Consistent.cascade (h : g.Consistent) {es : List Player} {g' : Game}
    (hc : Cascade g es g') : g'.Consistent :=
  hc.preserve h.keyed h fun _ p _ hr hp _ =>
    (hr.forget (EntityMap.contains_iff.2 ⟨p, hp⟩)).deliver _

theorem Consistent.perform (h : g.Consistent) (c : Command) : (g.perform c).game.Consistent := by
  rw [perform_game h.keyed]
  exact (h.settle c).deliver _

theorem Consistent.removesListed (h : g.Consistent) (c : Command) : g.RemovesListed c where
  named _ _ hp := ⟨_, h.unregister hp⟩
  evicted n id hf := by
    have hr := (h.perform c).cascade (cascade_evict (h.perform c).keyed n)
    obtain ⟨p, hp, -, -⟩ := firstStalled_eq_some hr.keyed hf
    exact ⟨_, hr.unregister (EntityMap.contains_iff.2 ⟨p, hp⟩)⟩

/-- In every run, the directory lists exactly the players and the items, each kept under its own
id, nobody stays marked, ids are handed out from `1` on, and removals find their player listed. -/
theorem registry_agrees (config : GameConfig) (time : Int64) (es : List Event) :
    let g := (Game.new config time).run es
    (∀ id, g.directory.kind? id = some .player ↔ g.players.contains id) ∧
    (∀ id, g.directory.kind? id = some .item ↔ g.items.contains id) ∧
    Disjoint g.players.ids g.items.ids ∧
    g.directory.size = g.players.size + g.items.size ∧
    (∀ id p, g.players.get? id = some p → p.id = id ∧ p.stalled = false) ∧
    (∀ id d, g.items.get? id = some d → d.id = id) ∧
    (1 ≤ g.directory.next.toInt ∧ g.directory.next.toInt ≤ 2147483647) ∧
    ∀ c, g.RemovesListed c := by
  intro g
  have h : g.Consistent := (Consistent.new config time).run es
  have hu : g.Unstalled := unstalled_run_new config time es
  refine ⟨h.player_iff, h.item_iff, h.disjoint, h.size, ?_, h.item_id, ⟨h.one_le_next, ?_⟩,
    h.removesListed⟩
  · intro id p hp
    exact ⟨h.keyed id p hp, hu id p hp⟩
  · have := g.directory.next.toInt_lt
    omega

end Game

end BlockWorld
