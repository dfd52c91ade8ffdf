import BlockWorld.Proofs.Game.Batch

/-! # Introductions

Whoever joins is announced to everyone, and it and the players near it are shown to each other. The
two directions are sent apart, by a broadcast and by one buffer for the newcomer, when the newcomer
is registered already. They agree all the same: of two players whose names fit into a packet, either
both are shown the other or none is.
-/

namespace BlockWorld

open Wire

def Wire.Shown.Shows (id : EntityId) : Shown → Prop
  | .namedSpawn k .. => k = id
  | _ => False

instance (p : Player) : Decidable p.Named := inferInstanceAs (Decidable (_ ≤ _))

/-- What `a` is sent when `n` joins. -/
def Player.arrival (radius : Int32) (n a : Player) : List (List ServerPacket) :=
  line (n.name ++ " has joined") ++
    if ChunkLoc.Near radius n.position.chunk a.position.chunk ∧ n.Named then [[n.spawnPacket]]
    else []

namespace Game

variable {g : Game} {radius : Int32} {n a : Player}

open Player (arrival guest)

def introduced (g : Game) (radius : Int32) (n : Player) : List Player :=
  g.players.values.filter fun a =>
    ChunkLoc.Near radius n.position.chunk a.position.chunk ∧ a.Named

/-- What `n` is sent when it joins. All players that it is shown share a buffer. -/
def reception (g : Game) (radius : Int32) (n : Player) : List (List ServerPacket) :=
  line (n.name ++ " has joined") ++ shared ((g.introduced radius n).map (·.spawnPacket))

theorem Keyed.mem_introduced_iff (hk : g.Keyed) : a ∈ g.introduced radius n ↔
    g.players.get? a.id = some a ∧ ChunkLoc.Near radius n.position.chunk a.position.chunk ∧
      a.Named := by
  simp [introduced, hk.mem_values_iff]

theorem Keyed.pairwise_introduced (hk : g.Keyed) :
    (g.introduced radius n).Pairwise fun a b => a.id.toInt < b.id.toInt :=
  hk.pairwise_values.filter _

@[simp] theorem isNeighbour_enrol (p q r : Player) :
    (g.enrol p).isNeighbour q r = g.isNeighbour q r := rfl

theorem filter_isNeighbour_enrol (hk : g.Keyed) (hfree : g.players.get? n.id = none) :
    ((g.enrol n).players.values.filter ((g.enrol n).isNeighbour n)).filter
      (·.name.utf8ByteSize ≤ maxStringLength) = g.introduced g.config.chunkRadius n := by
  -- Those who were there before are all who are there now, without the newcomer.
  have hothers : g.players.values = (g.enrol n).players.values.filter (·.id ≠ n.id) := by
    rw [← EntityMap.values_erase (hk.enrol n) n.id]
    exact congrArg EntityMap.values (EntityMap.erase_insert hfree n).symm
  rw [introduced, hothers, List.filter_filter, List.filter_filter]
  refine List.filter_congr fun a _ => ?_
  rw [Bool.eq_iff_iff, isNeighbour_enrol]
  simp only [isNeighbour, isNear, ne_eq, Bool.and_eq_true, bne_iff_ne, decide_eq_true_eq]
  rw [Player.Named]
  tauto

theorem batched_surroundings (hk : g.Keyed) (hfree : g.players.get? n.id = none) :
    Batched (shared ((g.introduced g.config.chunkRadius n).map (·.spawnPacket)))
      (if (g.enrol n).surroundings n ≠ [] then [(g.enrol n).surroundings n] else []) := by
  obtain ⟨forms, hforms, hspawns⟩ :=
    forms_spawnBuffer ((g.enrol n).players.values.filter ((g.enrol n).isNeighbour n))
  rw [filter_isNeighbour_enrol hk hfree] at hspawns
  have hsurroundings : (g.enrol n).surroundings n = forms.flatten := hforms
  rw [hsurroundings]
  exact batched_shared hspawns

theorem batched_welcome_self (hk : g.Keyed) (hfree : g.players.get? n.id = none) :
    Batched (g.reception g.config.chunkRadius n) ((g.enrol n).welcome n n) := by
  have hself : (g.enrol n).isNeighbour n n = false := by simp [isNeighbour]
  rw [welcome, hself, if_neg Bool.false_ne_true, List.append_nil]
  simp only [true_and]
  exact List.rel_append (batched_line _) (batched_surroundings hk hfree)

theorem batched_welcome_of_ne (hne : a.id ≠ n.id) :
    Batched (arrival g.config.chunkRadius n a) ((g.enrol n).welcome n a) := by
  rw [welcome, if_neg fun h : a.id = n.id ∧ _ => hne h.1, List.append_nil]
  refine List.rel_append (batched_line _) ?_
  simp only [isNeighbour_enrol, isNeighbour_iff_of_ne hne]
  by_cases hn : n.Named
  · obtain ⟨b, hb⟩ := hn.encode
    simp only [hn, and_true]
    split
    · exact batched_buffers hb
    · exact .nil
  · simp only [hn, and_false, Player.buffers_of_not_named hn, ite_self]
    exact .nil

theorem Consistent.join (hg : g.Consistent) (hu : g.Unstalled) (hn : n.stalled = false)
    (hlive : g.directory.contains n.id = false)
    (hroom : ∀ id a, g.players.get? id = some a → a.Takes (arrival g.config.chunkRadius n a))
    (hroom' : n.Takes (g.reception g.config.chunkRadius n)) :
    let s := g.apply (.addPlayer n)
    s.evicted = [] ∧
    (∀ id a, g.players.get? id = some a →
      ∃ a', s.game.players.get? id = some a' ∧ a.Got (arrival g.config.chunkRadius n a) a') ∧
    ∃ n', s.game.players.get? n.id = some n' ∧ n.Got (g.reception g.config.chunkRadius n) n' := by
  intro s
  have hk := hg.keyed
  have hfree := hg.get?_eq_none hlive
  have hsettle : g.settle (.addPlayer n) = g.enrol n := by simp [Game.settle, hlive]
  have hmail : g.mail (.addPlayer n) = (g.enrol n).welcome n := by simp [mail, hlive]
  have hne : ∀ {id a}, g.players.get? id = some a → n.id ≠ id := by
    rintro id a ha rfl
    rw [hfree] at ha
    cases ha
  let batches : Player → List (List ServerPacket) := fun p =>
    if p.id = n.id then g.reception g.config.chunkRadius n else arrival g.config.chunkRadius n p
  have hself : batches n = g.reception g.config.chunkRadius n := if_pos rfl
  have hother : ∀ {id a}, g.players.get? id = some a →
      a.id ≠ n.id ∧ batches a = arrival g.config.chunkRadius n a := fun ha =>
    have hid := fun hid => hne ha (hid.symm.trans (hk _ _ ha))
    ⟨hid, if_neg hid⟩
  have happly := apply_of_takes hk (.addPlayer n) batches
  rw [hsettle, hmail] at happly
  obtain ⟨hevicted, -, hgot⟩ := happly fun id p hp => by
    rcases get?_enrol_eq_some_iff.1 hp with ⟨-, rfl⟩ | ⟨-, hp⟩
    · rw [hself]
      exact ⟨hn, hroom', batched_welcome_self hk hfree⟩
    · obtain ⟨hid, hbatches⟩ := hother hp
      rw [hbatches]
      exact ⟨hu id p hp, hroom id p hp, batched_welcome_of_ne hid⟩
  refine ⟨hevicted, fun id a ha => ?_, ?_⟩
  · rw [← (hother ha).2]
    exact hgot id a (get?_enrol_eq_some_iff.2 (.inr ⟨hne ha, ha⟩))
  · rw [← hself]
    exact hgot n.id n (get?_enrol_eq_some_iff.2 (.inl ⟨rfl, rfl⟩))

/-! ## Who is shown whom -/

theorem not_shows_of_line {text : String} {id : EntityId} :
    ¬ ∃ s ∈ (line text).flatten.map (·.shown), s.Shows id := by
  unfold line
  split <;> simp [ServerPacket.shown, Shown.Shows]

theorem exists_shows_arrival_iff :
    (∃ s ∈ (arrival radius n a).flatten.map (·.shown), s.Shows n.id) ↔
      ChunkLoc.Near radius n.position.chunk a.position.chunk ∧ n.Named := by
  simp only [arrival, List.flatten_append, List.map_append, List.mem_append, or_and_right,
    exists_or, not_shows_of_line, false_or]
  split <;> simp [*, Player.spawnPacket, ServerPacket.shown, Shown.Shows]

theorem exists_shows_reception_iff (hk : g.Keyed) (ha : g.players.get? a.id = some a) :
    (∃ s ∈ (g.reception radius n).flatten.map (·.shown), s.Shows a.id) ↔
      ChunkLoc.Near radius n.position.chunk a.position.chunk ∧ a.Named := by
  have hmem : a ∈ g.introduced radius n ↔
      ChunkLoc.Near radius n.position.chunk a.position.chunk ∧ a.Named := by
    rw [hk.mem_introduced_iff, ha]
    simp
  simp only [reception, List.flatten_append, List.map_append, List.mem_append, or_and_right,
    exists_or, not_shows_of_line, false_or, flatten_shared, List.map_map]
  rw [← hmem]
  constructor
  · rintro ⟨s, hs, hshows⟩
    obtain ⟨b, hb, rfl⟩ := List.mem_map.1 hs
    have hid : b.id = a.id := hshows
    have hget := (hk.mem_introduced_iff.1 hb).1
    rw [hid, ha] at hget
    cases hget
    exact hb
  · intro h
    exact ⟨_, List.mem_map_of_mem h, rfl⟩

/-- When a player joins whose id is free, and all clients listen and have room for what they are
sent, nobody is evicted. Everyone gets the line that announces it, if that is not too long, then
those near it one buffer with its spawn, if its name is not too long, and the newcomer, if there are
any, one buffer with the spawns of all players near it whose names are not too long, in ascending
order of id. Names permitting, one is shown to the other exactly if the other is shown to the
one. -/
theorem join_introduces (config : GameConfig) (time : Int64) (es : List Event) {n : Player}
    (hn : n.stalled = false) :
    let g := (Game.new config time).run es
    let radius := config.chunkRadius
    let s := g.apply (.addPlayer n)
    g.directory.contains n.id = false →
    (∀ id a, g.players.get? id = some a → a.Takes (arrival radius n a)) →
    n.Takes (g.reception radius n) →
    s.evicted = [] ∧
    (∀ id a, g.players.get? id = some a →
      ∃ a', s.game.players.get? id = some a' ∧ a.Got (arrival radius n a) a') ∧
    (∃ n', s.game.players.get? n.id = some n' ∧ n.Got (g.reception radius n) n') ∧
    (g.introduced radius n).Pairwise (fun a b => a.id.toInt < b.id.toInt) ∧
    (∀ a, a ∈ g.introduced radius n ↔ g.players.get? a.id = some a ∧
      ChunkLoc.Near radius n.position.chunk a.position.chunk ∧ a.Named) ∧
    ∀ id a a' n', g.players.get? id = some a → s.game.players.get? id = some a' →
      s.game.players.get? n.id = some n' → n.Named → a.Named →
      ((∃ s ∈ a.sees a', s.Shows n.id) ↔ ∃ s ∈ n.sees n', s.Shows id) := by
  intro g radius s hlive hroom hroom'
  have hg : g.Consistent := (Consistent.new config time).run es
  have hu : g.Unstalled := unstalled_run_new config time es
  have hradius : radius = g.config.chunkRadius :=
    (Consistent.chunkRadius_run_new config time es).symm
  clear_value radius
  subst hradius
  obtain ⟨hevicted, hgot, hgot'⟩ := hg.join hu hn hlive hroom hroom'
  refine ⟨hevicted, hgot, hgot', hg.keyed.pairwise_introduced,
    fun a => hg.keyed.mem_introduced_iff, ?_⟩
  intro id a a' n' ha ha' hn' hnamed hnamed'
  obtain ⟨b, hb, hsees⟩ := hgot id a ha
  obtain ⟨m, hm, hsees'⟩ := hgot'
  obtain rfl : b = a' := Option.some.inj (hb.symm.trans ha')
  obtain rfl : m = n' := Option.some.inj (hm.symm.trans hn')
  obtain rfl := hg.keyed id a ha
  rw [hsees.sees_eq, hsees'.sees_eq, exists_shows_arrival_iff,
    exists_shows_reception_iff hg.keyed ha]
  simp only [hnamed, hnamed']

/-- A second guest is shown the first, and the first is shown the second. -/
theorem join_introduces_guests :
    let g := (Game.new {} 0).run [.submit (.addPlayer (guest 1 none))]
    let c : Command := .addPlayer (guest 2 none)
    g.directory.contains 2 = false ∧ (g.apply c).evicted = [] ∧
      ∃ a a' n', g.players.get? 1 = some a ∧ (g.apply c).game.players.get? 1 = some a' ∧
        (g.apply c).game.players.get? 2 = some n' ∧
        a.Got [[.chat "guest has joined"], [(guest 2 none).spawnPacket]] a' ∧
        (guest 2 none).Got [[.chat "guest has joined"], [a.spawnPacket]] n' := by
  intro g c
  let a := (guest 1 none).receive (ServerPacket.chat ("guest" ++ " has joined")).buffers
  have hplayers : g.players = EntityMap.empty.insert 1 a := rfl
  have ha : g.players.get? 1 = some a := rfl
  have hlive : g.directory.contains 2 = false := rfl
  have hnear : ChunkLoc.Near (10 : Int32) (guest 2 none).position.chunk a.position.chunk := by
    rw [Player.receive_position]
    exact ChunkLoc.near_self_iff.2 (by decide)
  have hnamed : a.Named := by
    rw [Player.Named, Player.receive_name]
    decide
  have harrival : arrival 10 (guest 2 none) a =
      [[.chat "guest has joined"], [(guest 2 none).spawnPacket]] := by
    rw [arrival, if_pos ⟨hnear, by decide⟩]
    rfl
  have hintroduced : g.introduced 10 (guest 2 none) = [a] :=
    List.filter_cons_of_pos (decide_eq_true ⟨hnear, hnamed⟩)
  have hreception : g.reception 10 (guest 2 none) =
      [[.chat "guest has joined"], [a.spawnPacket]] := by
    rw [reception, hintroduced]
    rfl
  have hroom : a.inbox.attended = true ∧ a.inbox.room = ⊤ := ⟨rfl, rfl⟩
  obtain ⟨hevicted, hgot, ⟨n', hn', hgot'⟩, -⟩ := join_introduces {} 0
    [.submit (.addPlayer (guest 1 none))] (n := guest 2 none) rfl hlive
    (fun id b hb => by
      rw [hplayers, EntityMap.get?_insert] at hb
      split at hb
      · cases hb
        exact ⟨hroom.1, hroom.2 ▸ le_top⟩
      · cases hb)
    ⟨rfl, le_top⟩
  obtain ⟨a', ha', hgot⟩ := hgot 1 a ha
  dsimp only [g, c]
  refine ⟨hlive, hevicted, a, a', n', ha, ha', hn', ?_, ?_⟩
  · rw [← harrival]
    exact hgot
  · rw [← hreception]
    exact hgot'

end Game

end BlockWorld
