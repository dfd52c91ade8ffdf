import BlockWorld.Game.Command
import BlockWorld.Proofs.Game.Delivery

/-! # The effect of a command

A command changes the registry and the clock, and sends packets. The two parts can be told apart:
`settle` makes the changes without sending anything, `mail` says what each player is sent, and
`perform_game` that the command does the one and then delivers the other.
-/

namespace BlockWorld

namespace Game

variable {g : Game}

def forget (g : Game) (id : EntityId) : Game :=
  { g with
    directory := match g.directory.unregister id with
      | .ok (_, d) => d
      | .error _ => g.directory
    players := g.players.erase id }

def enrol (g : Game) (p : Player) : Game :=
  { g with
    directory := { g.directory with live := g.directory.live.insert p.id .player }
    players := g.players.insert p.id p }

/-- The registry and the clock after a command. -/
def settle (g : Game) : Command → Game
  | .allocateId => { g with directory := g.directory.allocate.2 }
  | .addPlayer p => if g.directory.contains p.id then g else g.enrol p
  | .removePlayer id => if g.players.contains id then g.forget id else g
  | .movePlayer id position orientation => g.movePlayer id position orientation
  | .addItem item =>
    if g.directory.contains item.id then g
    else
      { g with
        directory := { g.directory with live := g.directory.live.insert item.id .item }
        items := g.items.insert item.id item }
  | .multicast _ _ => g
  | .say _ => g
  | .tick => { g with time := g.time + g.config.tickStep }
  | .query _ => g

/-- What `q` is sent when `p` has joined. -/
def welcome (g : Game) (p q : Player) : List Bytes :=
  (Wire.ServerPacket.chat (p.name ++ " has joined")).buffers ++
    (if g.isNeighbour p q then p.spawnPacket.buffers else []) ++
    (if q.id = p.id ∧ g.surroundings p ≠ [] then [g.surroundings p] else [])

/-- What `q` is sent when `p` is removed. -/
def farewell (g : Game) (p q : Player) : List Bytes :=
  (if g.isNeighbour p q then (Wire.ServerPacket.destroyEntity p.id).buffers else []) ++
    (Wire.ServerPacket.chat (p.name ++ " has left")).buffers

/-- What a command sends to the players that are registered once it has settled. -/
def mail (g : Game) : Command → Player → List Bytes
  | .addPlayer p =>
    if g.directory.contains p.id then fun _ => [] else (g.enrol p).welcome p
  | .removePlayer id => (g.players.get? id).elim (fun _ => []) g.farewell
  | .addItem item =>
    if g.directory.contains item.id then fun _ => []
    else fun q => if g.isNear item.position.chunk q then item.spawnPacket.buffers else []
  | .multicast packet except => fun q => if some q.id != except then [packet] else []
  | .say text => fun _ => (Wire.ServerPacket.chat text).buffers
  | .tick => fun _ => (Wire.ServerPacket.timeUpdate (g.time + g.config.tickStep)).buffers
  | .allocateId | .movePlayer .. | .query _ => fun _ => []

@[simp] theorem config_forget (id : EntityId) : (g.forget id).config = g.config := rfl

@[simp] theorem config_settle (c : Command) : (g.settle c).config = g.config := by
  cases c <;> simp only [settle, movePlayer] <;> split <;> rfl

theorem get?_forget (id k : EntityId) :
    (g.forget id).players.get? k = if id = k then none else g.players.get? k :=
  EntityMap.get?_erase ..

theorem get?_forget_eq_some_iff {id k : EntityId} {p : Player} :
    (g.forget id).players.get? k = some p ↔ id ≠ k ∧ g.players.get? k = some p := by
  rw [get?_forget]
  split <;> simp [*]

theorem get?_enrol (p : Player) (k : EntityId) :
    (g.enrol p).players.get? k = if p.id = k then some p else g.players.get? k :=
  EntityMap.get?_insert ..

theorem get?_enrol_eq_some_iff {p q : Player} {k : EntityId} :
    (g.enrol p).players.get? k = some q ↔
      (p.id = k ∧ p = q) ∨ (p.id ≠ k ∧ g.players.get? k = some q) := by
  rw [get?_enrol]
  split <;> simp [*]

theorem forget_deliver (m : Player → List Bytes) (id : EntityId) :
    (g.deliver m).forget id = (g.forget id).deliver m := by
  simp only [forget, deliver, EntityMap.map_erase]

theorem Keyed.forget (h : g.Keyed) (id : EntityId) : (g.forget id).Keyed := fun k p hp =>
  h k p (get?_forget_eq_some_iff.1 hp).2

theorem Keyed.enrol (h : g.Keyed) (p : Player) : (g.enrol p).Keyed := by
  intro k q hq
  rcases get?_enrol_eq_some_iff.1 hq with ⟨hid, rfl⟩ | ⟨-, hq⟩
  · exact hid
  · exact h k q hq

theorem Keyed.settle (h : g.Keyed) (c : Command) : (g.settle c).Keyed := by
  cases c with
  | addPlayer p =>
    rw [Game.settle]
    split
    · exact h
    · exact h.enrol p
  | removePlayer id =>
    rw [Game.settle]
    split
    · exact h.forget id
    · exact h
  | movePlayer id position orientation =>
    intro k q hq
    rw [Game.settle, movePlayer, EntityMap.get?_modify] at hq
    split at hq
    · obtain ⟨r, hr, rfl⟩ := Option.map_eq_some_iff.1 hq
      exact h k r hr
    · exact h k q hq
  | addItem item =>
    rw [Game.settle]
    split <;> exact h
  | _ => exact h

theorem surroundings_deliver (m : Player → List Bytes) (p : Player) :
    (g.deliver m).surroundings p = g.surroundings p := by
  have hv : (g.deliver m).players.values = g.players.values.map fun q => q.receive (m q) :=
    EntityMap.values_map ..
  have hn : ∀ q, (g.deliver m).isNeighbour p (q.receive (m q)) = g.isNeighbour p q :=
    fun q => isNeighbour_receive (g := g) p q (m q)
  simp [surroundings, hv, List.filter_map, List.flatMap_map, Function.comp_def, hn]

theorem sealed_welcome (p : Player) : Sealed (g.welcome p) := by
  intro q l
  simp [welcome, isNeighbour_receive]

theorem sealed_farewell (p : Player) : Sealed (g.farewell p) := by
  intro q l
  simp [farewell, isNeighbour_receive]

@[simp] theorem farewell_deliver (m : Player → List Bytes) (p q : Player) :
    (g.deliver m).farewell p q = g.farewell p q := rfl

@[simp] theorem farewell_forget (id : EntityId) (p q : Player) :
    (g.forget id).farewell p q = g.farewell p q := rfl

@[simp] theorem farewell_settle (c : Command) (p q : Player) :
    (g.settle c).farewell p q = g.farewell p q := by
  rw [farewell, farewell, isNeighbour, isNear, config_settle]
  rfl

@[simp] theorem farewell_receive (p q : Player) (l : List Bytes) :
    g.farewell (p.receive l) q = g.farewell p q := by
  simp [farewell, isNeighbour]

theorem sealed_mail (c : Command) : Sealed (g.mail c) := by
  intro q l
  cases c with
  | addPlayer p =>
    rw [mail]
    split
    · rfl
    · exact sealed_welcome p q l
  | removePlayer id =>
    rw [mail]
    cases g.players.get? id with
    | none => rfl
    | some p => exact sealed_farewell p q l
  | addItem item =>
    rw [mail]
    split
    · rfl
    · simp [isNear_receive]
  | _ => simp [mail]

theorem modify_eq_deliver (hk : g.Keyed) (id : EntityId) (b : Bytes) :
    { g with players := g.players.modify id (·.transmit b) } =
      g.deliver fun q => if q.id = id then [b] else [] := by
  have h : (fun q : Player => if q.id = id then q.transmit b else q) =
      fun q => q.receive (if q.id = id then [b] else []) := by
    funext q
    split <;> rfl
  rw [EntityMap.modify_eq_map hk, h, deliver]

theorem addPlayer_of_contains {p : Player} (h : g.directory.contains p.id = true) :
    g.addPlayer p = (g, false) := by
  simp [addPlayer, Directory.register, h]

/-- A newcomer gets the spawns of its neighbours in one buffer, after what all others get. -/
theorem addPlayer_eq {p : Player} (hk : g.Keyed) (h : g.directory.contains p.id = false) :
    g.addPlayer p = ((g.enrol p).deliver ((g.enrol p).welcome p), true) := by
  let r := g.enrol p
  let call : Player → List Bytes := fun q =>
    (Wire.ServerPacket.chat (p.name ++ " has joined")).buffers ++
      if r.isNeighbour p q then p.spawnPacket.buffers else []
  have hcall : (r.say (p.name ++ " has joined")).multicastPacket p.spawnPacket
      (fun q => (r.say (p.name ++ " has joined")).isNeighbour p q) = r.deliver call := by
    rw [multicastPacket_eq_deliver, say_eq_deliver, deliver_deliver _ (sealed_neighbours p _)]
    rfl
  have hadd : g.addPlayer p =
      let s := r.deliver call
      if (s.surroundings p).isEmpty then (s, true)
      else ({ s with players := s.players.modify p.id (·.transmit (s.surroundings p)) }, true) := by
    simp only [← hcall, addPlayer, Directory.register, h]
    rfl
  have hs : Sealed fun q : Player => if q.id = p.id then [r.surroundings p] else [] :=
    fun q l => by simp only [Player.receive_id]
  rw [hadd]
  simp only [surroundings_deliver]
  by_cases hb : r.surroundings p = []
  · have hw : r.welcome p = call := by
      funext q
      simp [welcome, hb, call]
    rw [if_pos (by simp [hb]), ← hw]
  · have hw : r.welcome p = fun q => call q ++ if q.id = p.id then [r.surroundings p] else [] := by
      funext q
      simp only [welcome, hb, call, ne_eq, not_false_eq_true, and_true]
    rw [if_neg (by simpa using hb), modify_eq_deliver ((hk.enrol p).deliver call),
      deliver_deliver _ hs, ← hw]

theorem removePlayer_eq {p : Player} {id : EntityId} (hp : g.players.get? id = some p)
    (hid : p.id = id) :
    g.removePlayer id = ((g.forget id).deliver (g.farewell p), some p) := by
  subst hid
  have hs : Sealed fun _ : Player => (Wire.ServerPacket.chat (p.name ++ " has left")).buffers :=
    fun _ _ => rfl
  have hf : (g.forget p.id).deliver (g.farewell p) =
      ((g.deliver fun q => if g.isNeighbour p q then
        (Wire.ServerPacket.destroyEntity p.id).buffers else []).forget p.id).say
          (p.name ++ " has left") := by
    rw [forget_deliver, say_eq_deliver, deliver_deliver _ hs]
    rfl
  unfold removePlayer
  rw [hp, hf, ← multicastPacket_eq_deliver]
  rfl

theorem removePlayer_of_get?_eq_none {id : EntityId} (h : g.players.get? id = none) :
    g.removePlayer id = (g, none) := by
  unfold removePlayer
  rw [h]

theorem removePlayer_deliver {m : Player → List Bytes} {p : Player}
    (hp : g.players.get? p.id = some p) :
    (g.deliver m).removePlayer p.id = ((g.forget p.id).deliver fun q => m q ++ g.farewell p q,
      some (p.receive (m p))) := by
  have hp' : (g.deliver m).players.get? p.id = some (p.receive (m p)) := by
    rw [get?_deliver, hp, Option.map_some]
  have hf : (g.deliver m).farewell (p.receive (m p)) = (g.forget p.id).farewell p := by
    funext q
    simp
  rw [removePlayer_eq hp' (Player.receive_id ..), hf, forget_deliver,
    deliver_deliver m (sealed_farewell p)]
  rfl

theorem addItem_eq (item : DroppedItem) :
    g.addItem item = (g.settle (.addItem item)).deliver (g.mail (.addItem item)) := by
  cases h : g.directory.contains item.id with
  | true => simp [addItem, Directory.register, settle, mail, h, deliver_nothing]
  | false =>
    simp only [addItem, Directory.register, settle, mail, h, multicastPacket_eq_deliver,
      Bool.false_eq_true, if_false]
    rfl

/-- A command settles and then delivers its mail. -/
theorem perform_game (hk : g.Keyed) (c : Command) :
    (g.perform c).game = (g.settle c).deliver (g.mail c) := by
  cases c with
  | allocateId => exact (deliver_nothing _).symm
  | addPlayer p =>
    cases h : g.directory.contains p.id with
    | true => simp [perform, addPlayer_of_contains h, settle, mail, h, deliver_nothing]
    | false => simp [perform, addPlayer_eq hk h, settle, mail, h]
  | removePlayer id =>
    cases hp : g.players.get? id with
    | none =>
      have hc := EntityMap.contains_eq_false_iff.2 hp
      simp [perform, removePlayer_of_get?_eq_none hp, settle, mail, hp, hc, deliver_nothing]
    | some p =>
      have hc := EntityMap.contains_iff.2 ⟨p, hp⟩
      simp [perform, removePlayer_eq hp (hk id p hp), settle, mail, hp, hc]
  | movePlayer id position orientation => exact (deliver_nothing _).symm
  | addItem item => exact addItem_eq item
  | multicast packet except => exact multicast_eq_deliver _ _
  | say text => exact say_eq_deliver _
  | tick =>
    show g.tick = _
    rw [tick, multicastPacket_eq_deliver]
    rfl
  | query q => exact (deliver_nothing _).symm

/-- A command leaves names, inboxes and marks alone until it sends something. -/
theorem settle_player {c : Command} {id : EntityId} {p : Player}
    (hp : (g.settle c).players.get? id = some p) :
    (∃ q, g.players.get? id = some q ∧ q.name = p.name ∧ q.inbox = p.inbox ∧
      q.stalled = p.stalled) ∨ c = .addPlayer p := by
  cases c with
  | addPlayer r =>
    rw [settle] at hp
    split at hp
    · exact Or.inl ⟨p, hp, rfl, rfl, rfl⟩
    · rcases get?_enrol_eq_some_iff.1 hp with ⟨-, rfl⟩ | ⟨-, hp⟩
      · exact Or.inr rfl
      · exact Or.inl ⟨p, hp, rfl, rfl, rfl⟩
  | removePlayer k =>
    rw [settle] at hp
    split at hp
    · exact Or.inl ⟨p, (get?_forget_eq_some_iff.1 hp).2, rfl, rfl, rfl⟩
    · exact Or.inl ⟨p, hp, rfl, rfl, rfl⟩
  | movePlayer k position orientation =>
    rw [settle, movePlayer, EntityMap.get?_modify] at hp
    split at hp
    · obtain ⟨q, hq, rfl⟩ := Option.map_eq_some_iff.1 hp
      exact Or.inl ⟨q, hq, rfl, rfl, rfl⟩
    · exact Or.inl ⟨p, hp, rfl, rfl, rfl⟩
  | addItem item =>
    rw [settle] at hp
    split at hp <;> exact Or.inl ⟨p, hp, rfl, rfl, rfl⟩
  | _ => exact Or.inl ⟨p, hp, rfl, rfl, rfl⟩

end Game

end BlockWorld
