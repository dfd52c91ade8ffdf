import BlockWorld.Game.Basic
import BlockWorld.Proofs.Entity.Map
import Mathlib.Data.ENat.Basic

/-! # Deliveries

A player that is sent packets one after the other either has room for all of them, and then its log
grows by exactly these, or falls behind and is marked. What the game sends at one moment is a
delivery: each registered player receives the packets that a mail holds for it.
-/

namespace BlockWorld

namespace Inbox

variable {i : Inbox}

theorem length_waiting (i : Inbox) : i.waiting.length = i.log.size - i.taken := by
  simp [waiting]

/-- The packets that the client has taken and those that wait for it. -/
def stream (i : Inbox) : List Bytes := i.log.toList.take i.taken ++ i.waiting

theorem stream_eq (i : Inbox) : i.stream = i.log.toList := List.take_append_drop ..

/-- How many packets an inbox still takes. One without a limit takes any number, and so does one
that nobody listens to, where packets vanish. -/
def room (i : Inbox) : ℕ∞ :=
  match i.attended, i.capacity with
  | true, some n => (n - i.waiting.length : ℕ)
  | _, _ => ⊤

theorem natCast_le_room_iff {k : ℕ} :
    (k : ℕ∞) ≤ i.room ↔
      ∀ n, i.attended = true → i.capacity = some n → k ≤ n - (i.log.size - i.taken) := by
  unfold room
  rw [length_waiting]
  rcases i.attended with _ | _ <;> rcases i.capacity with _ | n <;>
    simp only [le_top, Nat.cast_le, reduceCtorEq, Option.some.injEq, false_implies, implies_true,
      forall_eq', forall_const]

theorem room_of_capacity (h : i.capacity = none) : i.room = ⊤ := by
  unfold room
  rw [h]
  cases i.attended <;> rfl

theorem overflows_iff :
    i.overflows = true ↔
      i.attended = true ∧ ∃ n, i.capacity = some n ∧ n ≤ i.log.size - i.taken := by
  simp [overflows, isFull, Option.any_eq_true]

@[simp] theorem post_attended (b : Bytes) : (i.post b).attended = i.attended := by
  unfold post; split <;> rfl

@[simp] theorem post_capacity (b : Bytes) : (i.post b).capacity = i.capacity := by
  unfold post; split <;> rfl

@[simp] theorem post_taken (b : Bytes) : (i.post b).taken = i.taken := by
  unfold post; split <;> rfl

theorem post_of_unattended {b : Bytes} (h : i.attended = false) : i.post b = i := by
  simp [post, h]

theorem log_post {b : Bytes} (ha : i.attended = true) (ho : i.overflows = false) :
    (i.post b).log = i.log.push b := by
  have hf : i.isFull = false := by simpa [overflows, ha] using ho
  simp [post, ha, hf]

theorem natCast_le_room_post_iff {b : Bytes} {k : ℕ} (ho : i.overflows = false) :
    (k : ℕ∞) ≤ (i.post b).room ↔ ((k + 1 : ℕ) : ℕ∞) ≤ i.room := by
  rw [natCast_le_room_iff, natCast_le_room_iff]
  cases ha : i.attended with
  | false => simp [ha]
  | true =>
    have hno : ∀ n, i.capacity = some n → i.log.size - i.taken < n := fun n hn =>
      Nat.lt_of_not_le fun hle => by
        have := overflows_iff.2 ⟨ha, n, hn, hle⟩
        simp [ho] at this
    simp only [post_attended, post_capacity, post_taken, log_post ha ho, Array.size_push, ha]
    have hle := i.taken_le
    constructor
    · intro h n ht hn
      have := h n ht hn
      have := hno n hn
      omega
    · intro h n ht hn
      have := h n ht hn
      omega

end Inbox

namespace Player

variable {p : Player}

def receive (p : Player) (packets : List Bytes) : Player := packets.foldl transmit p

@[simp] theorem receive_nil (p : Player) : p.receive [] = p := rfl

@[simp] theorem receive_cons (p : Player) (b : Bytes) (l : List Bytes) :
    p.receive (b :: l) = (p.transmit b).receive l := rfl

@[simp] theorem receive_receive (p : Player) (l l' : List Bytes) :
    (p.receive l).receive l' = p.receive (l ++ l') := (List.foldl_append ..).symm

/-- A player without its inbox: all that others can tell of it. -/
def bare (p : Player) : Player := { p with inbox := .new none, stalled := false }

@[simp] theorem bare_receive (p : Player) (l : List Bytes) : (p.receive l).bare = p.bare := by
  induction l generalizing p with
  | nil => rfl
  | cons b l ih => rw [receive_cons, ih]; rfl

theorem id_eq_of_bare {q : Player} (h : p.bare = q.bare) : p.id = q.id := by
  have := congrArg Player.id h
  exact this

theorem name_eq_of_bare {q : Player} (h : p.bare = q.bare) : p.name = q.name := by
  have := congrArg Player.name h
  exact this

theorem position_eq_of_bare {q : Player} (h : p.bare = q.bare) : p.position = q.position := by
  have := congrArg Player.position h
  exact this

theorem spawnPacket_eq_of_bare {q : Player} (h : p.bare = q.bare) :
    p.spawnPacket = q.spawnPacket := by
  have := congrArg Player.spawnPacket h
  exact this

@[simp] theorem receive_id (p : Player) (l : List Bytes) : (p.receive l).id = p.id :=
  id_eq_of_bare (bare_receive p l)

@[simp] theorem receive_name (p : Player) (l : List Bytes) : (p.receive l).name = p.name :=
  name_eq_of_bare (bare_receive p l)

@[simp] theorem receive_position (p : Player) (l : List Bytes) :
    (p.receive l).position = p.position :=
  position_eq_of_bare (bare_receive p l)

@[simp] theorem receive_spawnPacket (p : Player) (l : List Bytes) :
    (p.receive l).spawnPacket = p.spawnPacket :=
  spawnPacket_eq_of_bare (bare_receive p l)

@[simp] theorem receive_attended (p : Player) (l : List Bytes) :
    (p.receive l).inbox.attended = p.inbox.attended := by
  induction l generalizing p with
  | nil => rfl
  | cons b l ih => rw [receive_cons, ih]; exact Inbox.post_attended b

/-- A player is left unmarked exactly if there was room for everything it was sent. -/
theorem stalled_receive_eq_false_iff {l : List Bytes} :
    (p.receive l).stalled = false ↔ p.stalled = false ∧ (l.length : ℕ∞) ≤ p.inbox.room := by
  induction l generalizing p with
  | nil => simp
  | cons b l ih =>
    rw [receive_cons, ih, List.length_cons]
    cases ho : p.inbox.overflows with
    | true =>
      obtain ⟨ha, n, hn, hle⟩ := Inbox.overflows_iff.1 ho
      have hroom : ¬ ((l.length + 1 : ℕ) : ℕ∞) ≤ p.inbox.room := fun h => by
        have := Inbox.natCast_le_room_iff.1 h n ha hn
        omega
      simp only [transmit, ho, Bool.or_true, reduceCtorEq, false_and, hroom, and_false]
    | false => simp only [transmit, ho, Bool.or_false, Inbox.natCast_le_room_post_iff ho]

theorem stalled_receive_iff {l : List Bytes} (h : p.stalled = false) :
    (p.receive l).stalled = true ↔ p.inbox.room < l.length := by
  rw [← not_le, ← Bool.not_eq_false, stalled_receive_eq_false_iff]
  simp [h]

/-- Nothing is lost, repeated or moved on the way to a player that is left unmarked. -/
theorem stream_receive {l : List Bytes} (ha : p.inbox.attended = true)
    (hs : (p.receive l).stalled = false) :
    (p.receive l).inbox.stream = p.inbox.stream ++ l := by
  rw [Inbox.stream_eq, Inbox.stream_eq]
  induction l generalizing p with
  | nil => simp
  | cons b l ih =>
    have ht : (p.transmit b).stalled = false :=
      (stalled_receive_eq_false_iff (p := p.transmit b) (l := l).1 hs).1
    have ho : p.inbox.overflows = false := (Bool.or_eq_false_iff.1 ht).2
    rw [receive_cons, ih (by simpa [transmit] using ha) hs]
    simp [transmit, Inbox.log_post ha ho]

end Player

/-- What is sent for a packet: one buffer, or none if it has no form. -/
def Wire.ServerPacket.buffers (packet : ServerPacket) : List Bytes :=
  match packet.encode with
  | .ok b => [b]
  | .error _ => []

theorem Wire.ServerPacket.length_buffers_chat (text : String) :
    (chat text).buffers.length = if text.utf8ByteSize ≤ maxStringLength then 1 else 0 := by
  rw [← length_utf8]
  by_cases h : (utf8 text).length ≤ maxStringLength
  · simp only [buffers, encode, putString, h, if_true]
    rfl
  · simp only [buffers, encode, putString, h, if_false]
    rfl

namespace Game

variable {g : Game}

def Keyed (g : Game) : Prop := ∀ id p, g.players.get? id = some p → p.id = id

theorem Keyed.get?_id (h : g.Keyed) {p : Player} (hp : p ∈ g.players.values) :
    g.players.get? p.id = some p := by
  obtain ⟨k, hk⟩ := EntityMap.mem_values_iff.1 hp
  rwa [h k p hk]

theorem Keyed.nodup_ids (h : g.Keyed) : (g.players.values.map (·.id)).Nodup := by
  have he : g.players.values.map (·.id) = g.players.entries.map (·.1) := by
    rw [EntityMap.values, List.map_map]
    exact List.map_congr_left fun e he => h e.1 e.2 (EntityMap.mem_entries_iff.1 he)
  rw [he]
  exact g.players.sorted.nodup

def deliver (g : Game) (mail : Player → List Bytes) : Game :=
  { g with players := g.players.map fun p => p.receive (mail p) }

/-- A mail that is addressed without looking into inboxes. -/
def Sealed (mail : Player → List Bytes) : Prop := ∀ p l, mail (p.receive l) = mail p

@[simp] theorem config_deliver (m : Player → List Bytes) : (g.deliver m).config = g.config := rfl

@[simp] theorem directory_deliver (m : Player → List Bytes) :
    (g.deliver m).directory = g.directory := rfl

theorem get?_deliver (m : Player → List Bytes) (id : EntityId) :
    (g.deliver m).players.get? id = (g.players.get? id).map fun p => p.receive (m p) :=
  EntityMap.get?_map ..

theorem get?_deliver_eq_some_iff {m : Player → List Bytes} {id : EntityId} {q : Player} :
    (g.deliver m).players.get? id = some q ↔
      ∃ p, g.players.get? id = some p ∧ p.receive (m p) = q := by
  rw [get?_deliver, Option.map_eq_some_iff]

theorem Keyed.deliver (h : g.Keyed) (m : Player → List Bytes) : (g.deliver m).Keyed := by
  intro id p hp
  obtain ⟨q, hq, rfl⟩ := get?_deliver_eq_some_iff.1 hp
  rw [Player.receive_id, h id q hq]

theorem deliver_deliver (m : Player → List Bytes) {m' : Player → List Bytes} (h : Sealed m') :
    (g.deliver m).deliver m' = g.deliver fun p => m p ++ m' p := by
  simp only [deliver, EntityMap.map_map, Player.receive_receive, h _ _]

theorem deliver_nothing (g : Game) : (g.deliver fun _ => []) = g := by
  simp [deliver, EntityMap.map_id']

theorem isNear_receive (loc : ChunkLoc) (p : Player) (l : List Bytes) :
    g.isNear loc (p.receive l) = g.isNear loc p := by
  simp [isNear]

theorem isNeighbour_receive (p q : Player) (l : List Bytes) :
    g.isNeighbour p (q.receive l) = g.isNeighbour p q := by
  simp [isNeighbour, isNear_receive]

theorem receive_isNeighbour (p q : Player) (l : List Bytes) :
    g.isNeighbour (p.receive l) q = g.isNeighbour p q := by
  simp [isNeighbour]

theorem isNeighbour_iff_of_ne {p q : Player} (h : q.id ≠ p.id) : g.isNeighbour p q = true ↔
    ChunkLoc.Near g.config.chunkRadius p.position.chunk q.position.chunk := by
  simp [isNeighbour, isNear, h]

theorem isNeighbour_comm (p q : Player) : g.isNeighbour p q = g.isNeighbour q p := by
  rw [Bool.eq_iff_iff]
  simp only [isNeighbour, isNear, Bool.and_eq_true, bne_iff_ne, decide_eq_true_eq, ne_comm,
    ChunkLoc.near_comm (a := p.position.chunk)]

@[simp] theorem isNeighbour_deliver (m : Player → List Bytes) (p q : Player) :
    (g.deliver m).isNeighbour p q = g.isNeighbour p q := rfl

theorem sealed_neighbours (p : Player) (l : List Bytes) :
    Sealed fun q => if g.isNeighbour p q then l else [] := fun q k => by
  simp only [isNeighbour_receive]

theorem multicast_eq_deliver (b : Bytes) (chosen : Player → Bool) :
    g.multicast b chosen = g.deliver fun p => if chosen p then [b] else [] := by
  have h : (fun p => if chosen p then p.transmit b else p) =
      fun p : Player => p.receive (if chosen p then [b] else []) := by
    funext p
    split <;> rfl
  rw [multicast, deliver, h]

theorem multicastPacket_eq_deliver (packet : Wire.ServerPacket) (chosen : Player → Bool) :
    g.multicastPacket packet chosen =
      g.deliver fun p => if chosen p then packet.buffers else [] := by
  unfold multicastPacket Wire.ServerPacket.buffers
  cases packet.encode with
  | ok b => exact multicast_eq_deliver b chosen
  | error e => simp [deliver_nothing]

theorem say_eq_deliver (text : String) :
    g.say text = g.deliver fun _ => (Wire.ServerPacket.chat text).buffers := by
  simp [say, multicastPacket_eq_deliver]

end Game

end BlockWorld
