import BlockWorld.Proofs.Game.Batch
import BlockWorld.Proofs.Game.Interest
import Mathlib.Algebra.Order.Group.Unbundled.Int

/-! # Who is told what happens near it

Who is near a column is found out anew for each broadcast, from where the players are then. So it is
always the position that was stored last for a player which decides, and a distance is that of the
columns' integers, wherever on the grid they lie.
-/

namespace BlockWorld

open Wire

/-- What `a` is sent when `p` leaves. -/
def Player.parting (radius : Int32) (p a : Player) : List (List ServerPacket) :=
  (if ChunkLoc.Near radius p.position.chunk a.position.chunk then [[.destroyEntity p.id]]
    else []) ++ line (p.name ++ " has left")

def DroppedItem.sighting (radius : Int32) (d : DroppedItem) (a : Player) :
    List (List ServerPacket) :=
  if ChunkLoc.Near radius d.position.chunk a.position.chunk then [[d.spawnPacket]] else []

namespace ChunkLoc

theorem near_iff_abs {radius : Int32} {a b : ChunkLoc} : Near radius a b ↔
    |b.x.toInt - a.x.toInt| ≤ radius.toInt ∧ |b.z.toInt - a.z.toInt| ≤ radius.toInt := by
  rw [Near, Int.natCast_natAbs, Int.natCast_natAbs]

end ChunkLoc

namespace Game

variable {g : Game} {radius : Int32} {p a b : Player} {id : EntityId}

open Player (parting guest)
open DroppedItem (sighting)

theorem batched_farewell (hne : a.id ≠ p.id) :
    Batched (parting g.config.chunkRadius p a) (g.farewell p a) := by
  rw [farewell, parting]
  refine List.rel_append ?_ (batched_line _)
  simp only [isNeighbour_iff_of_ne hne]
  split
  · exact batched_buffers (b := 0x1d :: putInt32 p.id) rfl
  · exact .nil

theorem batched_sighting {d : DroppedItem} (hd : d.Proper) :
    Batched (sighting g.config.chunkRadius d a)
      (if g.isNear d.position.chunk a then d.spawnPacket.buffers else []) := by
  obtain ⟨b, hb⟩ := hd.encode
  simp only [sighting, isNear, decide_eq_true_eq]
  split
  · exact batched_buffers hb
  · exact .nil

theorem Keyed.mem_playersNear_iff (hk : g.Keyed) {loc : ChunkLoc} : a ∈ g.playersNear loc ↔
    g.players.get? a.id = some a ∧ ChunkLoc.Near g.config.chunkRadius loc a.position.chunk := by
  simp [playersNear, isNear, hk.mem_values_iff]

/-! ## Where players are -/

/-- Where an event puts the player with this id: one that joins under an id that is free where it
says, and one that is registered where it moves. -/
def puts (g : Game) (id : EntityId) : Event → Option Position
  | .submit (.addPlayer p) =>
    if p.id = id ∧ g.directory.contains id = false then some p.position else none
  | .submit (.movePlayer k position _) => if k = id ∧ g.players.contains id then position else none
  | _ => none

def lastPut (g : Game) (id : EntityId) : List Event → Option Position
  | [] => none
  | e :: es => ((g.step e).lastPut id es).or (g.puts id e)

theorem settle_position {c : Command} (hp : (g.settle c).players.get? id = some p) :
    (g.puts id (.submit c)).or ((g.players.get? id).map (·.position)) = some p.position := by
  cases c with
  | addPlayer r =>
    rw [settle] at hp
    split at hp
    · have hnot : ¬ (r.id = id ∧ g.directory.contains id = false) := by grind
      rw [puts, if_neg hnot, hp]
      rfl
    · rcases get?_enrol_eq_some_iff.1 hp with ⟨rfl, rfl⟩ | ⟨hne, hp⟩
      · have hfree := Bool.eq_false_of_not_eq_true ‹_›
        rw [puts, if_pos ⟨rfl, hfree⟩]
        rfl
      · rw [puts, if_neg fun h => hne h.1, hp]
        rfl
  | removePlayer k =>
    rw [settle] at hp
    split at hp
    · rw [(get?_forget_eq_some_iff.1 hp).2]
      rfl
    · rw [hp]
      rfl
  | movePlayer k position orientation =>
    rw [settle, movePlayer, EntityMap.get?_modify] at hp
    split at hp
    · obtain ⟨q, hq, rfl⟩ := Option.map_eq_some_iff.1 hp
      rw [puts, if_pos ⟨‹_›, EntityMap.contains_iff.2 ⟨q, hq⟩⟩, hq]
      cases position <;> rfl
    · rw [puts, if_neg fun h => ‹¬ k = id› h.1, hp]
      rfl
  | addItem item =>
    rw [settle] at hp
    split at hp <;> exact congrArg (Option.map (·.position)) hp
  | _ => exact congrArg (Option.map (·.position)) hp

theorem Consistent.step_position (h : g.Consistent) {e : Event}
    (hp : (g.step e).players.get? id = some p) :
    (g.puts id e).or ((g.players.get? id).map (·.position)) = some p.position := by
  cases e with
  | submit c =>
    refine apply_induction (P := fun r => ∀ p, r.players.get? id = some p →
      (g.puts id (.submit c)).or ((g.players.get? id).map (·.position)) = some p.position)
      h.keyed c ?_ ?_ p hp
    · intro q hq
      obtain ⟨q', hq', rfl⟩ := get?_deliver_eq_some_iff.1 hq
      rw [Player.receive_position]
      exact settle_position hq'
    · intro r p _ hr _ _ q hq
      obtain ⟨q', hq', rfl⟩ := get?_deliver_eq_some_iff.1 hq
      rw [Player.receive_position]
      exact hr q' (get?_forget_eq_some_iff.1 hq').2
  | read connection n | hangUp connection =>
    obtain ⟨q, hq, rfl⟩ := get?_attend_eq_some_iff.1 hp
    rw [hq]
    split <;> rfl

/-- A registered player is where it was put last, or where it was before the run if it was not put
anywhere. -/
theorem Consistent.run_position (h : g.Consistent) {es : List Event}
    (hp : (g.run es).players.get? id = some p) :
    (g.lastPut id es).or ((g.players.get? id).map (·.position)) = some p.position := by
  induction es generalizing g with
  | nil => exact congrArg (Option.map (·.position)) hp
  | cons e es ih =>
    have hrest := ih (h.step e) hp
    rw [lastPut, Option.or_assoc]
    -- If the rest of the run puts the player nowhere, it is where this event leaves it.
    cases hlast : (g.step e).lastPut id es with
    | some position =>
      rw [hlast] at hrest
      exact hrest
    | none =>
      rw [hlast, Option.none_or, Option.map_eq_some_iff] at hrest
      obtain ⟨q, hq, hposition⟩ := hrest
      rw [Option.none_or, h.step_position hq, hposition]

/-! ## Broadcasts -/

theorem Consistent.leave (hg : g.Consistent) (hu : g.Unstalled)
    (hp : g.players.get? p.id = some p)
    (hroom : ∀ k a, k ≠ p.id → g.players.get? k = some a →
      a.Takes (parting g.config.chunkRadius p a)) :
    let s := g.apply (.removePlayer p.id)
    s.evicted = [] ∧ s.parted = some p ∧ s.game.players.get? p.id = none ∧
    ∀ k a, k ≠ p.id → g.players.get? k = some a →
      ∃ a', s.game.players.get? k = some a' ∧ a.Got (parting g.config.chunkRadius p a) a' := by
  have hk := hg.keyed
  have hsettle : g.settle (.removePlayer p.id) = g.forget p.id :=
    if_pos (EntityMap.contains_iff.2 ⟨p, hp⟩)
  have hmail : g.mail (.removePlayer p.id) = g.farewell p := by rw [mail, hp]; rfl
  have hremoved : (g.apply (.removePlayer p.id)).parted = some p := by
    show (g.removePlayer p.id).2 = some p
    rw [removePlayer_eq hp rfl]
  have happly := apply_of_takes hk (.removePlayer p.id) (parting g.config.chunkRadius p)
  rw [hsettle, hmail] at happly
  obtain ⟨hevicted, hgame, hgot⟩ := happly fun k a ha => by
    obtain ⟨hne, ha⟩ := get?_forget_eq_some_iff.1 ha
    have hid : a.id ≠ p.id := fun hid => hne (hid.symm.trans (hk k a ha))
    exact ⟨hu k a ha, hroom k a hne.symm ha, batched_farewell hid⟩
  refine ⟨hevicted, hremoved, ?_, fun k a hne ha => ?_⟩
  · rw [hgame, get?_deliver, get?_forget, if_pos rfl]
    rfl
  · exact hgot k a (get?_forget_eq_some_iff.2 ⟨hne.symm, ha⟩)

theorem Consistent.drop (hg : g.Consistent) (hu : g.Unstalled) {d : DroppedItem}
    (hlive : g.directory.contains d.id = false) (hd : d.Proper)
    (hroom : ∀ k a, g.players.get? k = some a → a.Takes (sighting g.config.chunkRadius d a)) :
    let s := g.apply (.addItem d)
    s.evicted = [] ∧ ∀ k a, g.players.get? k = some a →
      ∃ a', s.game.players.get? k = some a' ∧ a.Got (sighting g.config.chunkRadius d a) a' := by
  have hplayers : (g.settle (.addItem d)).players = g.players := by
    rw [Game.settle]
    split <;> rfl
  have hmail : g.mail (.addItem d) = fun q =>
      if g.isNear d.position.chunk q then d.spawnPacket.buffers else [] := by
    simp [mail, hlive]
  have happly := apply_of_takes hg.keyed (.addItem d) (sighting g.config.chunkRadius d)
  rw [hplayers, hmail] at happly
  obtain ⟨hevicted, -, hgot⟩ := happly fun k a ha => ⟨hu k a ha, hroom k a ha, batched_sighting hd⟩
  exact ⟨hevicted, hgot⟩

/-- In every game, if all clients listen and have room for what they are sent, then of a player that
leaves, the others near it are told to hide it, and after that all others get the line that tells of
it, if that is not too long; the spawn of an item that is dropped is sent to all players near it;
and nobody is evicted. The players near a column are listed in ascending order of id. They are those
whose own column, which is that of the position stored last for them, is no farther from it than the
radius on either axis, by the distance of integers. Of two players, both are near the other or
none. -/
theorem broadcasts_reach_vicinity (config : GameConfig) (time : Int64) (es : List Event) :
    let g := (Game.new config time).run es
    let radius := config.chunkRadius
    (∀ id p, g.players.get? id = some p →
      (∀ k a, k ≠ id → g.players.get? k = some a → a.Takes (parting radius p a)) →
      let s := g.apply (.removePlayer id)
      s.evicted = [] ∧ s.parted = some p ∧ s.game.players.get? id = none ∧
      ∀ k a, k ≠ id → g.players.get? k = some a →
        ∃ a', s.game.players.get? k = some a' ∧ a.Got (parting radius p a) a') ∧
    (∀ d : DroppedItem, g.directory.contains d.id = false → d.Proper →
      (∀ k a, g.players.get? k = some a → a.Takes (sighting radius d a)) →
      let s := g.apply (.addItem d)
      s.evicted = [] ∧ ∀ k a, g.players.get? k = some a →
        ∃ a', s.game.players.get? k = some a' ∧ a.Got (sighting radius d a) a') ∧
    (∀ loc, (g.playersNear loc).Pairwise (fun a b => a.id.toInt < b.id.toInt) ∧
      ∀ a, a ∈ g.playersNear loc ↔ g.players.get? a.id = some a ∧
        |a.position.chunk.x.toInt - loc.x.toInt| ≤ radius.toInt ∧
        |a.position.chunk.z.toInt - loc.z.toInt| ≤ radius.toInt) ∧
    (∀ a ∈ g.players.values, ∀ b ∈ g.players.values,
      (a ∈ g.playersNear b.position.chunk ↔ b ∈ g.playersNear a.position.chunk)) ∧
    ∀ id p, g.players.get? id = some p →
      (Game.new config time).lastPut id es = some p.position := by
  intro g radius
  have hg : g.Consistent := (Consistent.new config time).run es
  have hu : g.Unstalled := unstalled_run_new config time es
  have hk := hg.keyed
  have hradius : radius = g.config.chunkRadius :=
    (Consistent.chunkRadius_run_new config time es).symm
  clear_value radius
  subst hradius
  refine ⟨fun id p hp hroom => ?_, fun d hlive hd hroom => hg.drop hu hlive hd hroom,
    fun loc => ⟨hk.pairwise_values.filter _, fun a => ?_⟩, fun a ha b hb => ?_, fun id p hp => ?_⟩
  · obtain rfl := hk id p hp
    exact hg.leave hu hp hroom
  · rw [hk.mem_playersNear_iff, ChunkLoc.near_iff_abs]
  · rw [hk.mem_playersNear_iff, hk.mem_playersNear_iff, ChunkLoc.near_comm,
      ← hk.mem_values_iff, ← hk.mem_values_iff]
    simp only [ha, hb]
  · have hposition := (Consistent.new config time).run_position hp
    simpa [Game.new] using hposition

def stone : DroppedItem := ⟨4, 1, 1, ⟨0, 0, 0⟩⟩

/-- Three guests of whom the second has moved to the next column and the third to the one after it,
where the radius is one: only the second is told to hide the first when it leaves, though both get
the line, and only the first two see a stone where the first stands. -/
theorem broadcasts_reach_vicinity_guests :
    let es : List Event := [.submit (.addPlayer (guest 1 none)), .submit (.addPlayer (guest 2 none)),
      .submit (.addPlayer (guest 3 none)), .submit (.movePlayer 2 (some ⟨20, 0, 0⟩) none),
      .submit (.movePlayer 3 (some ⟨40, 0, 0⟩) none)]
    let g := (Game.new { chunkRadius := 1 } 0).run es
    let left := (g.apply (.removePlayer 1)).game
    let dropped := (g.apply (.addItem stone)).game
    (g.playersNear ⟨0, 0⟩).map (·.id) = [1, 2] ∧
    ∃ b c, g.players.get? 2 = some b ∧ g.players.get? 3 = some c ∧
      (Game.new { chunkRadius := 1 } 0).lastPut 3 es = some c.position ∧
      (∃ b', left.players.get? 2 = some b' ∧
        b.Got [[.destroyEntity 1], [.chat "guest has left"]] b') ∧
      (∃ c', left.players.get? 3 = some c' ∧ c.Got [[.chat "guest has left"]] c') ∧
      (∃ b', dropped.players.get? 2 = some b' ∧ b.Got [[stone.spawnPacket]] b') ∧
      ∃ c', dropped.players.get? 3 = some c' ∧ c.Got [] c' := by
  intro es g left dropped
  obtain ⟨hleave, hdrop, -, -, hlast⟩ := broadcasts_reach_vicinity { chunkRadius := 1 } 0 es
  have hg : g.Consistent := (Consistent.new { chunkRadius := 1 } 0).run es
  have hroom : ∀ k a batches, g.players.get? k = some a → a.Takes batches := by
    have hopen : ∀ a ∈ g.players.values, a.inbox.attended = true ∧ a.inbox.capacity = none := by
      decide +kernel
    intro k a batches ha
    obtain rfl := hg.keyed k a ha
    obtain ⟨hatt, hcap⟩ := hopen a (hg.keyed.mem_values_iff.2 ha)
    refine ⟨hatt, ?_⟩
    rw [Inbox.room_of_capacity hcap]
    exact le_top
  have hstand : ∀ (k : EntityId) (loc : ChunkLoc),
      (g.players.get? k).map (fun p => (p.id, p.name, p.position.chunk)) = some (k, "guest", loc) →
      ∃ p, g.players.get? k = some p ∧ p.id = k ∧ p.name = "guest" ∧ p.position.chunk = loc := by
    intro k loc h
    obtain ⟨p, hp, heq⟩ := Option.map_eq_some_iff.1 h
    simp only [Prod.mk.injEq] at heq
    exact ⟨p, hp, heq⟩
  obtain ⟨p, hp, hid, hname, hploc⟩ := hstand 1 ⟨0, 0⟩ (by decide +kernel)
  obtain ⟨b, hb, -, -, hbloc⟩ := hstand 2 ⟨1, 0⟩ (by decide +kernel)
  obtain ⟨c, hc, -, -, hcloc⟩ := hstand 3 ⟨2, 0⟩ (by decide +kernel)
  have hstone : stone.position.chunk = ⟨0, 0⟩ := by decide +kernel
  obtain ⟨-, -, -, hleft⟩ := hleave 1 p hp fun k a _ ha => hroom k a _ ha
  obtain ⟨-, hdropped⟩ := hdrop stone (by decide +kernel) ⟨by decide, by decide⟩
    fun k a ha => hroom k a _ ha
  have hsees : parting 1 p b = [[.destroyEntity 1], [.chat "guest has left"]] := by
    rw [parting, hploc, hbloc, hid, hname]
    rfl
  have hhears : parting 1 p c = [[.chat "guest has left"]] := by
    rw [parting, hploc, hcloc, hname]
    rfl
  have hnear : sighting 1 stone b = [[stone.spawnPacket]] := by
    rw [sighting, hstone, hbloc]
    rfl
  have hfar : sighting 1 stone c = [] := by
    rw [sighting, hstone, hcloc]
    rfl
  obtain ⟨b', hb', hbgot⟩ := hleft 2 b (by decide) hb
  obtain ⟨c', hc', hcgot⟩ := hleft 3 c (by decide) hc
  obtain ⟨b'', hb'', hbgot'⟩ := hdropped 2 b hb
  obtain ⟨c'', hc'', hcgot'⟩ := hdropped 3 c hc
  have hlist : (g.playersNear ⟨0, 0⟩).map (·.id) = [1, 2] := by decide +kernel
  dsimp only [left, dropped, g] at hb hc hlist ⊢
  exact ⟨hlist, b, c, hb, hc, hlast 3 c hc, ⟨b', hb', hsees ▸ hbgot⟩,
    ⟨c', hc', hhears ▸ hcgot⟩, ⟨b'', hb'', hnear ▸ hbgot'⟩, ⟨c'', hc'', hfar ▸ hcgot'⟩⟩

end Game

end BlockWorld
