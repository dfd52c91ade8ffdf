import BlockWorld.Proofs.Game.Run

/-! # Games without inboxes

What a command changes, sends and answers depends on nothing that is in an inbox: it is the same in
two games that are equal once the inboxes are taken away.
-/

namespace BlockWorld

namespace Command

/-- The same command where the one who joins does so without an inbox. -/
def bare : Command → Command
  | .addPlayer p => .addPlayer p.bare
  | c => c

end Command

namespace Game

variable {g r : Game} {c d : Command} {p q : Player}

def bare (g : Game) : Game := { g with players := g.players.map Player.bare }

theorem bare_deliver (m : Player → List Bytes) : (g.deliver m).bare = g.bare := by
  simp only [bare, deliver, EntityMap.map_map, Player.bare_receive]

theorem bare_attend (connection : ℕ) (f : Inbox → Inbox) :
    (g.attend connection f).bare = g.bare := by
  rw [bare, attend, EntityMap.map_map]
  congr 1
  refine EntityMap.map_congr fun _ p _ => ?_
  split <;> rfl

theorem bare_enrol (p : Player) : (g.enrol p).bare = g.bare.enrol p.bare := by
  simp only [bare, enrol, EntityMap.map_insert]
  rfl

theorem bare_forget (id : EntityId) : (g.forget id).bare = g.bare.forget id := by
  simp only [bare, forget, EntityMap.map_erase]

theorem get?_bare (id : EntityId) :
    g.bare.players.get? id = (g.players.get? id).map Player.bare := EntityMap.get?_map ..

theorem bare_settle (c : Command) : (g.settle c).bare = g.bare.settle c.bare := by
  cases c with
  | addPlayer p =>
    have hc : g.bare.directory.contains p.bare.id = g.directory.contains p.id := rfl
    show (g.settle (.addPlayer p)).bare = g.bare.settle (.addPlayer p.bare)
    rw [settle, settle, hc]
    split
    · rfl
    · exact bare_enrol p
  | removePlayer id =>
    have hc : g.bare.players.contains id = g.players.contains id := EntityMap.contains_map ..
    show (g.settle (.removePlayer id)).bare = g.bare.settle (.removePlayer id)
    rw [settle, settle, hc]
    split
    · exact bare_forget id
    · rfl
  | movePlayer id position orientation =>
    let move : Player → Player := fun p => { p with
      position := position.getD p.position, orientation := orientation.getD p.orientation }
    have hm : (g.players.modify id move).map Player.bare =
        (g.players.map Player.bare).modify id move := EntityMap.map_modify _ _ fun _ => rfl
    show { g with players := (g.players.modify id move).map Player.bare } = _
    rw [hm]
    rfl
  | addItem item =>
    have hc : g.bare.directory.contains item.id = g.directory.contains item.id := rfl
    show (g.settle (.addItem item)).bare = g.bare.settle (.addItem item)
    rw [settle, settle, hc]
    split <;> rfl
  | _ => rfl

theorem surroundings_bare (p : Player) : g.bare.surroundings p.bare = g.surroundings p := by
  have hv : g.bare.players.values = g.players.values.map Player.bare := EntityMap.values_map ..
  have hn : ∀ q : Player, g.bare.isNeighbour p.bare q.bare = g.isNeighbour p q := fun _ => rfl
  have hs : ∀ q : Player, q.bare.spawnPacket = q.spawnPacket := fun _ => rfl
  simp only [surroundings, hv, List.filter_map, List.flatMap_map, Function.comp_def, hn, hs]

theorem welcome_bare (p q : Player) : g.bare.welcome p.bare q.bare = g.welcome p q := by
  simp only [welcome, surroundings_bare]
  rfl

theorem mail_bare (c : Command) (q : Player) : g.bare.mail c.bare q.bare = g.mail c q := by
  cases c with
  | addPlayer p =>
    have hc : g.bare.directory.contains p.bare.id = g.directory.contains p.id := rfl
    simp only [Command.bare, mail, hc]
    split
    · rfl
    · rw [← bare_enrol, welcome_bare]
  | removePlayer id =>
    simp only [Command.bare, mail, get?_bare]
    cases g.players.get? id <;> rfl
  | addItem item =>
    have hc : g.bare.directory.contains item.id = g.directory.contains item.id := rfl
    simp only [Command.bare, mail, hc]
    split <;> rfl
  | _ => rfl

theorem reply_bare (c : Command) : (g.bare.perform c.bare).reply = (g.perform c).reply := by
  cases c with
  | query q =>
    cases q with
    | playerCount => exact congrArg Reply.count (EntityMap.size_map ..)
    | time => rfl
    | playerNames =>
      have hv : g.bare.players.values = g.players.values.map Player.bare := EntityMap.values_map ..
      simp only [Command.bare, perform, answer, hv, List.map_map]
      rfl
  | _ => rfl

/-! ## Two games that differ in their inboxes only -/

theorem settle_congr (h : r.bare = g.bare) (hc : d.bare = c.bare) :
    (r.settle d).bare = (g.settle c).bare := by
  rw [bare_settle, bare_settle, h, hc]

theorem mail_congr (h : r.bare = g.bare) (hc : d.bare = c.bare) (hp : q.bare = p.bare) :
    r.mail d q = g.mail c p := by
  rw [← mail_bare, ← mail_bare (g := g), h, hc, hp]

theorem reply_congr (h : r.bare = g.bare) (hc : d.bare = c.bare) :
    (r.perform d).reply = (g.perform c).reply := by
  rw [← reply_bare, ← reply_bare (g := g), h, hc]

theorem get?_congr (h : r.bare = g.bare) (id : EntityId) :
    (r.players.get? id).map Player.bare = (g.players.get? id).map Player.bare := by
  rw [← get?_bare, ← get?_bare, h]

theorem Keyed.congr (h : r.bare = g.bare) (hk : g.Keyed) : r.Keyed := by
  intro id q hq
  have hm := get?_congr h id
  rw [hq, Option.map_some, eq_comm, Option.map_eq_some_iff] at hm
  obtain ⟨p, hp, hb⟩ := hm
  rw [← Player.id_eq_of_bare hb, hk id p hp]

end Game

end BlockWorld
