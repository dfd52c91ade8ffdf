import BlockWorld.Proofs.Game.Registry
import BlockWorld.Proofs.Game.View

/-! # Clients show their neighbours

As long as nobody moves to another column, each client that listens shows exactly the neighbours of
its player, and it is never told to show a player twice or to hide one that it does not show. The
two directions of a join are sent apart, and so are the removals; they fit together because two
players are neighbours of each other or not at all, and because a client that missed a packet has no
player any more at the end of the command.
-/

namespace BlockWorld

open Wire

/-- `q` is in the place of `p` and in the same column, and its client has seen the same. -/
structure Player.SameView (p q : Player) : Prop where
  id_eq : q.id = p.id
  name_eq : q.name = p.name
  chunk_eq : q.position.chunk = p.position.chunk
  stalled_eq : q.stalled = p.stalled
  stream_eq : q.inbox.stream = p.inbox.stream
  attended : q.inbox.attended = true → p.inbox.attended = true

namespace Game

variable {g : Game}

open Player (SameView guest)

def AllNamed (g : Game) : Prop := ∀ id p, g.players.get? id = some p → p.Named

def Neighbours (g : Game) (a : Player) (ids : Finset EntityId) : Prop :=
  ∀ id, id ∈ ids ↔ ∃ q, g.players.get? id = some q ∧ g.isNeighbour a q = true

/-- The clients that listen and keep up show the neighbours of their players. -/
def Watched (g : Game) : Prop :=
  ∀ id a, g.players.get? id = some a → a.inbox.attended = true → a.stalled = false →
    ∃ ids, view a.inbox.stream = some ids ∧ g.Neighbours a ids

theorem neighbours_deliver {m : Player → List Bytes} {a : Player} {l : List Bytes}
    {ids : Finset EntityId} (h : g.Neighbours a ids) :
    (g.deliver m).Neighbours (a.receive l) ids := by
  intro id
  rw [h id]
  simp only [get?_deliver, Option.map_eq_some_iff, isNeighbour_deliver, receive_isNeighbour]
  constructor
  · rintro ⟨q, hq, hn⟩
    exact ⟨_, ⟨q, hq, rfl⟩, by rwa [isNeighbour_receive]⟩
  · rintro ⟨_, ⟨q, hq, rfl⟩, hn⟩
    exact ⟨q, hq, by rwa [isNeighbour_receive] at hn⟩

theorem watched_deliver {m : Player → List Bytes}
    (h : ∀ id a, g.players.get? id = some a → a.inbox.attended = true → a.stalled = false →
      ∃ ids ids', view a.inbox.stream = some ids ∧ follow ids (m a) = some ids' ∧
        g.Neighbours a ids') : (g.deliver m).Watched := by
  intro id a' ha' hatt hs
  obtain ⟨a, ha, rfl⟩ := get?_deliver_eq_some_iff.1 ha'
  rw [Player.receive_attended] at hatt
  obtain ⟨ids, ids', hv, hf, hn⟩ := h id a ha hatt (Player.stalled_receive_eq_false_iff.1 hs).1
  refine ⟨ids', ?_, neighbours_deliver hn⟩
  rw [Player.stream_receive hatt hs, view, follow_append]
  rw [view] at hv
  rw [hv, Option.bind_some, hf]

theorem watched_deliver_neutral (h : g.Watched) {m : Player → List Bytes}
    (hm : ∀ a ids, follow ids (m a) = some ids) : (g.deliver m).Watched :=
  watched_deliver fun id a ha hatt hs => by
    obtain ⟨ids, hv, hn⟩ := h id a ha hatt hs
    exact ⟨ids, ids, hv, hm a ids, hn⟩

theorem follow_surroundings (hk : g.Keyed) (hn : g.AllNamed) (p : Player) :
    ∃ ids, follow ∅ (if g.surroundings p ≠ [] then [g.surroundings p] else []) = some ids ∧
      g.Neighbours p ids := by
  let l := g.players.values.filter (g.isNeighbour p)
  have hnamed : ∀ q ∈ l, q.Named := fun q hq => by
    obtain ⟨k, hk⟩ := EntityMap.mem_values_iff.1 (List.mem_filter.1 hq).1
    exact hn k q hk
  have hnodup : (l.map (·.id)).Nodup :=
    hk.nodup_ids.sublist (List.filter_sublist.map _)
  have hseen : seen (g.surroundings p) = l.map (·.spawnPacket.shown) :=
    seen_flatMap_spawnPacket hnamed
  refine ⟨(l.map (·.id)).toFinset, ?_, ?_⟩
  · have hfold := track_spawnPackets hnodup ∅ fun _ _ => Finset.notMem_empty _
    rw [Finset.empty_union] at hfold
    by_cases hs : g.surroundings p = []
    · rw [hs, seen_nil] at hseen
      rw [← hseen] at hfold
      rw [if_neg (by simpa using hs)]
      exact hfold
    · rw [if_pos hs, follow, List.flatMap_singleton, hseen, hfold]
  · intro id
    simp only [l, List.mem_toFinset, List.mem_map, List.mem_filter, EntityMap.mem_values_iff]
    constructor
    · rintro ⟨q, ⟨⟨k, hq⟩, hnb⟩, rfl⟩
      exact ⟨q, by rwa [hk k q hq], hnb⟩
    · rintro ⟨q, hq, hnb⟩
      exact ⟨q, ⟨⟨id, hq⟩, hnb⟩, hk id q hq⟩

theorem isNeighbour_eq {p p' q q' : Player} (h : SameView p p') (h' : SameView q q') :
    g.isNeighbour p' q' = g.isNeighbour p q := by
  simp only [isNeighbour, isNear, h.id_eq, h'.id_eq, h.chunk_eq, h'.chunk_eq]

section Replace

variable {f : Player → Player}

theorem AllNamed.replace (h : g.AllNamed)
    (hf : ∀ id p, g.players.get? id = some p → SameView p (f p)) :
    ({ g with players := g.players.map f } : Game).AllNamed := by
  intro id q hq
  rw [EntityMap.get?_map] at hq
  obtain ⟨p, hp, rfl⟩ := Option.map_eq_some_iff.1 hq
  rw [Player.Named, (hf id p hp).name_eq]
  exact h id p hp

theorem Watched.replace (h : g.Watched)
    (hf : ∀ id p, g.players.get? id = some p → SameView p (f p)) :
    ({ g with players := g.players.map f } : Game).Watched := by
  intro id a' ha' hatt hs
  rw [EntityMap.get?_map] at ha'
  obtain ⟨a, ha, rfl⟩ := Option.map_eq_some_iff.1 ha'
  have hv := hf id a ha
  rw [hv.stalled_eq] at hs
  obtain ⟨ids, hview, hn⟩ := h id a ha (hv.attended hatt) hs
  refine ⟨ids, by rwa [hv.stream_eq], fun k => ?_⟩
  simp only [hn k, EntityMap.get?_map, Option.map_eq_some_iff]
  constructor
  · rintro ⟨q, hq, hnb⟩
    exact ⟨f q, ⟨q, hq, rfl⟩, (isNeighbour_eq hv (hf k q hq)).trans hnb⟩
  · rintro ⟨_, ⟨q, hq, rfl⟩, hnb⟩
    exact ⟨q, hq, (isNeighbour_eq hv (hf k q hq)).symm.trans hnb⟩

end Replace

/-! ## Joins and removals -/

theorem AllNamed.deliver (h : g.AllNamed) (m : Player → List Bytes) : (g.deliver m).AllNamed := by
  intro id q hq
  obtain ⟨p, hp, rfl⟩ := get?_deliver_eq_some_iff.1 hq
  rw [Player.Named, Player.receive_name]
  exact h id p hp

theorem AllNamed.forget (h : g.AllNamed) (id : EntityId) : (g.forget id).AllNamed :=
  fun k p hp => h k p (get?_forget_eq_some_iff.1 hp).2

theorem AllNamed.enrol (h : g.AllNamed) {p : Player} (hp : p.Named) : (g.enrol p).AllNamed := by
  intro k q hq
  rcases get?_enrol_eq_some_iff.1 hq with ⟨-, rfl⟩ | ⟨-, hq⟩
  · exact hp
  · exact h k q hq

theorem Neighbours.forget {a : Player} {ids : Finset EntityId} (h : g.Neighbours a ids)
    (id : EntityId) : (g.forget id).Neighbours a (ids.erase id) := by
  intro k
  rw [Finset.mem_erase, h k]
  simp only [get?_forget_eq_some_iff]
  constructor
  · rintro ⟨hne, q, hq, hnb⟩
    exact ⟨q, ⟨hne.symm, hq⟩, hnb⟩
  · rintro ⟨q, ⟨hne, hq⟩, hnb⟩
    exact ⟨hne.symm, q, hq, hnb⟩

theorem Neighbours.enrol {a p : Player} {ids : Finset EntityId} (h : g.Neighbours a ids)
    (hfree : g.players.get? p.id = none) :
    (g.enrol p).Neighbours a (if g.isNeighbour p a then insert p.id ids else ids) := by
  intro k
  have hmem : k ∈ (if g.isNeighbour p a then insert p.id ids else ids) ↔
      (k = p.id ∧ g.isNeighbour a p = true) ∨ k ∈ ids := by
    rw [isNeighbour_comm a p]
    split <;> simp [*]
  rw [hmem, h k]
  simp only [get?_enrol_eq_some_iff]
  constructor
  · rintro (⟨rfl, hnb⟩ | ⟨q, hq, hnb⟩)
    · exact ⟨p, Or.inl ⟨rfl, rfl⟩, hnb⟩
    · have hne : p.id ≠ k := by
        rintro rfl
        rw [hfree] at hq
        cases hq
      exact ⟨q, Or.inr ⟨hne, hq⟩, hnb⟩
  · rintro ⟨q, ⟨hid, rfl⟩ | ⟨-, hq⟩, hnb⟩
    · exact Or.inl ⟨hid.symm, hnb⟩
    · exact Or.inr ⟨q, hq, hnb⟩

theorem Neighbours.notMem {a : Player} {ids : Finset EntityId} {id : EntityId}
    (h : g.Neighbours a ids) (hfree : g.players.get? id = none) : id ∉ ids := by
  intro hm
  obtain ⟨q, hq, -⟩ := (h id).1 hm
  rw [hfree] at hq
  cases hq

theorem Neighbours.mem_iff {a p : Player} {ids : Finset EntityId} (h : g.Neighbours a ids)
    (hp : g.players.get? p.id = some p) : p.id ∈ ids ↔ g.isNeighbour p a = true := by
  rw [h p.id, isNeighbour_comm]
  constructor
  · rintro ⟨q, hq, hnb⟩
    obtain rfl : p = q := Option.some.inj (hp.symm.trans hq)
    exact hnb
  · exact fun hnb => ⟨p, hp, hnb⟩

theorem follow_farewell {a p : Player} {ids : Finset EntityId}
    (h : p.id ∈ ids ↔ g.isNeighbour p a = true) :
    follow ids (g.farewell p a) = some (ids.erase p.id) := by
  rw [farewell, follow_append]
  by_cases hnb : g.isNeighbour p a = true
  · rw [if_pos hnb, follow_buffers_destroyEntity (h.2 hnb), Option.bind_some, follow_buffers_chat]
  · have hnot : p.id ∉ ids := fun hm => hnb (h.1 hm)
    rw [if_neg hnb, Finset.erase_eq_of_notMem hnot]
    exact follow_buffers_chat ids _

theorem follow_welcome_of_ne {a p : Player} {ids : Finset EntityId} (hp : p.Named)
    (hne : a.id ≠ p.id) (h : p.id ∉ ids) :
    follow ids (g.welcome p a) = some (if g.isNeighbour p a then insert p.id ids else ids) := by
  rw [welcome, if_neg fun hb : a.id = p.id ∧ _ => hne hb.1, List.append_nil, follow_append,
    follow_buffers_chat, Option.bind_some]
  split
  · exact follow_spawnPacket hp h
  · rfl

theorem follow_welcome_self (hk : g.Keyed) (hn : g.AllNamed) (p : Player) :
    ∃ ids, follow ∅ (g.welcome p p) = some ids ∧ g.Neighbours p ids := by
  obtain ⟨ids, hf, hnb⟩ := follow_surroundings hk hn p
  have hself : g.isNeighbour p p = false := by simp [isNeighbour]
  refine ⟨ids, ?_, hnb⟩
  rw [welcome, hself, if_neg Bool.false_ne_true, List.append_nil, follow_append,
    follow_buffers_chat, Option.bind_some]
  simpa only [true_and] using hf

/-- Whoever shows a player when it is removed is told to hide it. -/
theorem Watched.forget (h : g.Watched) {p : Player} (hp : g.players.get? p.id = some p) :
    ((g.forget p.id).deliver (g.farewell p)).Watched := by
  refine watched_deliver fun id a ha hatt hs => ?_
  obtain ⟨ids, hv, hn⟩ := h id a (get?_forget_eq_some_iff.1 ha).2 hatt hs
  exact ⟨ids, ids.erase p.id, hv, follow_farewell (hn.mem_iff hp), hn.forget p.id⟩

theorem Watched.enrol (h : g.Watched) (hk : g.Keyed) (hn : g.AllNamed) {p : Player} (hp : p.Named)
    (hnew : p.inbox.stream = []) (hfree : g.players.get? p.id = none) :
    ((g.enrol p).deliver ((g.enrol p).welcome p)).Watched := by
  refine watched_deliver fun id a ha hatt hs => ?_
  rcases get?_enrol_eq_some_iff.1 ha with ⟨-, rfl⟩ | ⟨hid, ha⟩
  -- The newcomer starts with an empty view, the others go on from theirs.
  · obtain ⟨ids, hf, hnb⟩ := follow_welcome_self (hk.enrol p) (hn.enrol hp) p
    exact ⟨∅, ids, by rw [hnew]; rfl, hf, hnb⟩
  · have hne : a.id ≠ p.id := fun heq => hid (heq.symm.trans (hk id a ha))
    obtain ⟨ids, hv, hids⟩ := h id a ha hatt hs
    exact ⟨ids, _, hv, follow_welcome_of_ne hp hne (hids.notMem hfree), hids.enrol hfree⟩

/-! ## Runs -/

/-- A command that shows and hides players only by joins and removals. Whoever joins does so with a
fresh inbox and a name that fits into a packet, whoever moves stays in its column, and a payload
holds no packet that shows or hides a player. -/
def Plain (g : Game) : Command → Prop
  | .addPlayer p => p.Fresh ∧ p.Named
  | .movePlayer id (some position) _ =>
    ∀ p, g.players.get? id = some p → position.chunk = p.position.chunk
  | .multicast packet _ => ∀ s ∈ seen packet, s.Neutral
  | _ => True

def PlainRun (g : Game) : List Event → Prop
  | [] => True
  | .submit c :: es => g.Plain c ∧ (g.step (.submit c)).PlainRun es
  | e :: es => (g.step e).PlainRun es

theorem AllNamed.settle (h : g.AllNamed) {c : Command} (hc : g.Plain c) :
    (g.settle c).AllNamed := by
  intro id p hp
  rcases settle_player hp with ⟨q, hq, hname, -, -⟩ | rfl
  · rw [Player.Named, ← hname]
    exact h id q hq
  · exact hc.2

theorem Watched.movePlayer (h : g.Watched) (hk : g.Keyed) {id : EntityId}
    {position : Option Position} {orientation : Option Orientation}
    (hc : g.Plain (.movePlayer id position orientation)) :
    (g.movePlayer id position orientation).Watched := by
  rw [Game.movePlayer, EntityMap.modify_eq_map hk]
  refine h.replace fun k p hp => ?_
  split
  · rename_i hid
    refine ⟨rfl, rfl, ?_, rfl, rfl, fun h => h⟩
    cases position with
    | none => rfl
    | some position => exact hc p (by rwa [← hid, hk k p hp])
  · exact ⟨rfl, rfl, rfl, rfl, rfl, fun h => h⟩

/-- A plain command tells clients what its change of the registry means for them. -/
theorem Watched.effect (h : g.Watched) (hg : g.Consistent) (hn : g.AllNamed) {c : Command}
    (hc : g.Plain c) : ((g.settle c).deliver (g.mail c)).Watched := by
  cases c with
  | addPlayer p =>
    rw [settle, mail]
    split
    · rwa [deliver_nothing]
    · have hfree := hg.get?_eq_none (Bool.eq_false_of_not_eq_true ‹_›)
      exact h.enrol hg.keyed hn hc.2 (by rw [Inbox.stream_eq, hc.1.log_eq]) hfree
  | removePlayer id =>
    rw [settle, mail]
    cases hp : g.players.get? id with
    | none =>
      rw [if_neg (by simp [EntityMap.contains, hp])]
      exact watched_deliver_neutral h fun _ _ => rfl
    | some p =>
      have hid := hg.keyed id p hp
      rw [if_pos (EntityMap.contains_iff.2 ⟨p, hp⟩), ← hid]
      exact h.forget (by rwa [hid])
  | movePlayer id position orientation =>
    exact watched_deliver_neutral (h.movePlayer hg.keyed hc) fun _ _ => rfl
  | addItem item =>
    rw [settle, mail]
    split
    · rwa [deliver_nothing]
    · refine watched_deliver_neutral h fun a ids => ?_
      split
      · exact follow_buffers_of_neutral (p := item.spawnPacket) trivial ids
      · rfl
  | multicast packet except =>
    have hpacket : ∀ s ∈ seen packet, s.Neutral := hc
    refine watched_deliver_neutral h fun a ids => ?_
    simp only [mail]
    split
    · exact follow_of_neutral (by simpa using hpacket) ids
    · rfl
  | say text => exact watched_deliver_neutral h fun _ ids => follow_buffers_chat ids text
  | tick =>
    refine watched_deliver_neutral (g := g.settle .tick) h fun _ ids => ?_
    exact follow_buffers_of_neutral (p := .timeUpdate _) trivial ids
  | allocateId => exact watched_deliver_neutral (g := g.settle .allocateId) h fun _ _ => rfl
  | query q => exact watched_deliver_neutral h fun _ _ => rfl

/-- What a plain run keeps: clients are shown their neighbours, and can be shown to others. -/
structure Truthful (g : Game) : Prop where
  named : g.AllNamed
  watched : g.Watched

namespace Truthful

theorem new (config : GameConfig) (time : Int64) : (Game.new config time).Truthful where
  named _ _ hp := by cases hp
  watched _ _ ha := by cases ha

theorem apply (h : g.Truthful) (hg : g.Consistent) {c : Command} (hc : g.Plain c) :
    (g.apply c).game.Truthful := by
  refine apply_induction hg.keyed c ?_ fun r p _ hr hp _ => ?_
  · exact ⟨(h.named.settle hc).deliver _, h.watched.effect hg h.named hc⟩
  · exact ⟨(hr.named.forget p.id).deliver _, hr.watched.forget hp⟩

theorem attend (h : g.Truthful) (connection : ℕ) {f : Inbox → Inbox}
    (hlog : ∀ i, (f i).log = i.log) (hatt : ∀ i, (f i).attended = true → i.attended = true) :
    (g.attend connection f).Truthful := by
  have hf : ∀ p : Player, SameView p
      (if p.connection = connection then { p with inbox := f p.inbox } else p) := by
    intro p
    split
    · refine ⟨rfl, rfl, rfl, rfl, ?_, hatt p.inbox⟩
      rw [Inbox.stream_eq, Inbox.stream_eq, hlog]
    · exact ⟨rfl, rfl, rfl, rfl, rfl, fun h => h⟩
  exact ⟨h.named.replace fun _ p _ => hf p, h.watched.replace fun _ p _ => hf p⟩

theorem run (h : g.Truthful) (hg : g.Consistent) {es : List Event} (hes : g.PlainRun es) :
    (g.run es).Truthful := by
  induction es generalizing g with
  | nil => exact h
  | cons e es ih =>
    cases e with
    | submit c => exact ih (h.apply hg hes.1) (hg.step (.submit c)) hes.2
    | read connection n =>
      have hstep := h.attend connection (f := (·.read n)) (fun _ => rfl) fun _ h => h
      exact ih hstep (hg.step (.read connection n)) hes
    | hangUp connection =>
      have hstep := h.attend connection (f := (·.abandon)) (fun _ => rfl) fun _ h => by cases h
      exact ih hstep (hg.step (.hangUp connection)) hes

end Truthful

/-- At the end of every plain run, each client that still listens shows just the other registered
players whose columns lie within the radius of its own player's, and what it was sent never showed
a player that it showed already nor hid one that it did not. -/
theorem view_eq_neighbours (config : GameConfig) (time : Int64) (es : List Event)
    (hes : (Game.new config time).PlainRun es) :
    let g := (Game.new config time).run es
    ∀ id a, g.players.get? id = some a → a.inbox.attended = true →
      ∃ ids, view a.inbox.stream = some ids ∧ ∀ k, k ∈ ids ↔
        ∃ q, g.players.get? k = some q ∧ k ≠ id ∧
          ChunkLoc.Near config.chunkRadius a.position.chunk q.position.chunk := by
  intro g id a ha hatt
  have hnew := Consistent.new config time
  have hg : g.Consistent := hnew.run es
  have hw := ((Truthful.new config time).run hnew hes).watched
  obtain ⟨ids, hv, hn⟩ := hw id a ha hatt (unstalled_run_new config time es id a ha)
  have hradius : g.config.chunkRadius = config.chunkRadius := by
    rw [hnew.config_run]
    rfl
  have hnear : ∀ k q, g.players.get? k = some q → (g.isNeighbour a q = true ↔ k ≠ id ∧
      ChunkLoc.Near config.chunkRadius a.position.chunk q.position.chunk) := by
    intro k q hq
    simp [isNeighbour, isNear, hradius, hg.keyed k q hq, hg.keyed id a ha]
  refine ⟨ids, hv, fun k => (hn k).trans ?_⟩
  constructor
  · rintro ⟨q, hq, hnb⟩
    exact ⟨q, hq, (hnear k q hq).1 hnb⟩
  · rintro ⟨q, hq, hnb⟩
    exact ⟨q, hq, (hnear k q hq).2 hnb⟩

theorem plain_addPlayer_guest (g : Game) (id : EntityId) (capacity : Option ℕ) :
    g.Plain (.addPlayer (guest id capacity)) := by
  refine ⟨Player.fresh_guest id capacity, ?_⟩
  show "guest".utf8ByteSize ≤ maxStringLength
  decide

theorem players_run_guests :
    let g := (Game.new {} 0).run
      [.submit (.addPlayer (guest 1 none)), .submit (.addPlayer (guest 2 none))]
    ∃ l k, g.players = (EntityMap.empty.insert 1 ((guest 1 none).receive l)).insert 2
      ((guest 2 none).receive k) := by
  intro g
  let r := (Game.new {} 0).step (.submit (.addPlayer (guest 1 none)))
  let c : Command := .addPlayer (guest 2 none)
  let joined := (ServerPacket.chat ("guest" ++ " has joined")).buffers
  let a := (guest 1 none).receive joined
  have hr : (r.settle c).players = (EntityMap.empty.insert 1 a).insert 2 (guest 2 none) := rfl
  have hk : r.Keyed := ((Consistent.new {} 0).step _).keyed
  have hdeliver : (r.apply c).game = (r.settle c).deliver (r.mail c) := by
    refine apply_of_room hk fun id p hp => ?_
    have hroom : p.stalled = false ∧ p.inbox.room = ⊤ := by
      rw [hr, EntityMap.get?_insert, EntityMap.get?_insert] at hp
      split at hp
      · cases hp
        exact ⟨rfl, rfl⟩
      · split at hp
        · cases hp
          exact ⟨rfl, rfl⟩
        · cases hp
    exact ⟨hroom.1, hroom.2 ▸ le_top⟩
  have hplayers : g.players = (r.settle c).players.map fun p => p.receive (r.mail c p) := by
    have hg : g = (r.apply c).game := rfl
    rw [hg, hdeliver, deliver]
  refine ⟨joined ++ r.mail c a, r.mail c (guest 2 none), ?_⟩
  rw [hplayers, hr, EntityMap.map_insert, EntityMap.map_insert, Player.receive_receive]
  rfl

theorem get?_run_guests :
    let g := (Game.new {} 0).run
      [.submit (.addPlayer (guest 1 none)), .submit (.addPlayer (guest 2 none))]
    ∃ l k, g.players.get? 1 = some ((guest 1 none).receive l) ∧
      g.players.get? 2 = some ((guest 2 none).receive k) := by
  intro g
  obtain ⟨l, k, hplayers⟩ := players_run_guests
  exact ⟨l, k, by rw [hplayers]; rfl, by rw [hplayers]; rfl⟩

/-- Of two guests, each shows the other. -/
theorem guests_show_each_other :
    let es : List Event :=
      [.submit (.addPlayer (guest 1 none)), .submit (.addPlayer (guest 2 none))]
    let g := (Game.new {} 0).run es
    (Game.new {} 0).PlainRun es ∧
      (∃ a ids, g.players.get? 1 = some a ∧ view a.inbox.stream = some ids ∧ 2 ∈ ids) ∧
      ∃ b ids, g.players.get? 2 = some b ∧ view b.inbox.stream = some ids ∧ 1 ∈ ids := by
  intro es g
  have hes : (Game.new {} 0).PlainRun es :=
    ⟨plain_addPlayer_guest _ 1 none, plain_addPlayer_guest _ 2 none, trivial⟩
  obtain ⟨l, k, ha, hb⟩ := get?_run_guests
  have hnear : ∀ {p q : Player}, p.position = ⟨0, 0, 0⟩ → q.position = ⟨0, 0, 0⟩ →
      ChunkLoc.Near (10 : Int32) p.position.chunk q.position.chunk := by
    intro p q hp hq
    rw [hp, hq, ChunkLoc.near_self_iff]
    decide
  have hposa := Player.receive_position (guest 1 none) l
  have hposb := Player.receive_position (guest 2 none) k
  have hv := view_eq_neighbours {} 0 es hes
  obtain ⟨ids, hids, hn⟩ := hv 1 _ ha (Player.receive_attended ..)
  obtain ⟨ids', hids', hn'⟩ := hv 2 _ hb (Player.receive_attended ..)
  refine ⟨hes, ⟨_, ids, ha, hids, (hn 2).2 ?_⟩, ⟨_, ids', hb, hids', (hn' 1).2 ?_⟩⟩
  · exact ⟨_, hb, by decide, hnear hposa hposb⟩
  · exact ⟨_, ha, by decide, hnear hposb hposa⟩

end Game

end BlockWorld
