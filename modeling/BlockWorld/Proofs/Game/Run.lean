import BlockWorld.Game.Run
import BlockWorld.Proofs.Game.Cascade

/-! # What a run keeps

A command settles what it asks for, delivers its mail and evicts who has fallen behind. A property
that is kept by these and by what clients do to their inboxes is kept by a run.
-/

namespace BlockWorld

namespace Game

variable {g : Game}

theorem get?_attend (connection : ℕ) (f : Inbox → Inbox) (id : EntityId) :
    (g.attend connection f).players.get? id = (g.players.get? id).map fun p =>
      if p.connection = connection then { p with inbox := f p.inbox } else p :=
  EntityMap.get?_map ..

theorem get?_attend_eq_some_iff {connection : ℕ} {f : Inbox → Inbox} {id : EntityId} {q : Player} :
    (g.attend connection f).players.get? id = some q ↔ ∃ p, g.players.get? id = some p ∧
      (if p.connection = connection then { p with inbox := f p.inbox } else p) = q := by
  rw [get?_attend, Option.map_eq_some_iff]

theorem apply_game (c : Command) : (g.apply c).game = (g.perform c).game.evictStalled.1 := rfl

theorem apply_evicted (c : Command) : (g.apply c).evicted = (g.perform c).game.evictStalled.2 := rfl

theorem Keyed.perform (hk : g.Keyed) (c : Command) : (g.perform c).game.Keyed := by
  rw [perform_game hk]
  exact (hk.settle c).deliver _

theorem cascade_apply (hk : g.Keyed) (c : Command) :
    Cascade (g.perform c).game (g.apply c).evicted (g.apply c).game :=
  cascade_evictStalled (hk.perform c)

theorem unstalled_apply (hk : g.Keyed) (c : Command) : (g.apply c).game.Unstalled :=
  unstalled_evictStalled (hk.perform c)

theorem apply_of_unstalled (hk : g.Keyed) {c : Command}
    (hu : ((g.settle c).deliver (g.mail c)).Unstalled) :
    (g.apply c).game = (g.settle c).deliver (g.mail c) ∧ (g.apply c).evicted = [] := by
  rw [apply_game, apply_evicted, perform_game hk, evictStalled, evict_of_unstalled hu]
  exact ⟨rfl, rfl⟩

theorem apply_of_room (hk : g.Keyed) {c : Command}
    (h : ∀ id p, (g.settle c).players.get? id = some p →
      p.stalled = false ∧ ((g.mail c p).length : ℕ∞) ≤ p.inbox.room) :
    (g.apply c).game = (g.settle c).deliver (g.mail c) := by
  have hu : ((g.settle c).deliver (g.mail c)).Unstalled := by
    intro id q hq
    obtain ⟨p, hp, rfl⟩ := get?_deliver_eq_some_iff.1 hq
    exact Player.stalled_receive_eq_false_iff.2 (h id p hp)
  exact (apply_of_unstalled hk hu).1

/-- A property of games is kept by a command if it is kept by settling and delivering, and by each
removal of a cascade. -/
theorem apply_induction {P : Game → Prop} (hk : g.Keyed) (c : Command)
    (effect : P ((g.settle c).deliver (g.mail c)))
    (removal : ∀ (r : Game) (p : Player), r.Keyed → P r → r.players.get? p.id = some p →
      p.stalled = true → P ((r.forget p.id).deliver (r.farewell p))) :
    P (g.apply c).game := by
  rw [← perform_game hk] at effect
  exact (cascade_apply hk c).preserve (hk.perform c) effect removal

end Game

/-- A player that joins with an inbox of its own to which nothing has been sent. -/
structure Player.Fresh (p : Player) : Prop where
  unstalled : p.stalled = false
  log_eq : p.inbox.log = #[]

def Player.guest (id : EntityId) (capacity : Option ℕ) : Player where
  id := id
  name := "guest"
  position := ⟨0, 0, 0⟩
  connection := id.toUInt32.toNat
  inbox := .new capacity

theorem Player.fresh_guest (id : EntityId) (capacity : Option ℕ) : (guest id capacity).Fresh :=
  ⟨rfl, rfl⟩

def Command.Fresh (c : Command) : Prop := ∀ p, c = .addPlayer p → p.Fresh

theorem Player.Fresh.addPlayer {p : Player} (h : p.Fresh) : (Command.addPlayer p).Fresh := by
  rintro q hq
  cases hq
  exact h

theorem Command.fresh_tick : Command.tick.Fresh := fun _ hjoin => by cases hjoin

def Event.Fresh (e : Event) : Prop := ∀ c, e = .submit c → c.Fresh

theorem Command.Fresh.submit {c : Command} (h : c.Fresh) : (Event.submit c).Fresh := by
  rintro d hd
  cases hd
  exact h

/-- A game that some run has led to. -/
def Game.Reachable (g : Game) : Prop :=
  ∃ config time es, (∀ e ∈ es, e.Fresh) ∧ g = (Game.new config time).run es

end BlockWorld
