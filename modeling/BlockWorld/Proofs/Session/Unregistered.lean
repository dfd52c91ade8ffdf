import BlockWorld.Proofs.Game.Ownership
import BlockWorld.Proofs.Game.Refusal
import BlockWorld.Proofs.Session.Lifetime

/-! # Sessions whose player is gone

A player that falls behind is evicted, but its session goes on reading. What the session asks for
under an id that is no player's is refused, so it changes nothing. A chat line names its speaker in
its text only: it is shown to everyone all the same, and like any packet it may find inboxes full.
-/

namespace BlockWorld

open Wire

namespace Game

variable {g : Game} {id : EntityId} {c : Command} {line : String}

/-- What showing a line does to a game. Who has no room for the line, or for the mail about those
who leave for that reason, has to leave; all others are sent the line and then that mail. Of these
only the inboxes change, and of the game nothing else does. -/
structure OnlyHears (g : Game) (line : String) : Prop where
  items : (g.apply (.say line)).game.items = g.items
  time : (g.apply (.say line)).game.time = g.time
  next : (g.apply (.say line)).game.directory.next = g.directory.next
  evicted : IsLeast {T | g.Closed (fun _ => (ServerPacket.chat line).buffers) T}
    ((g.apply (.say line)).evicted.map (·.id)).toFinset
  kind : ∀ k, (g.apply (.say line)).game.directory.kind? k =
    if k ∈ (g.apply (.say line)).evicted.map (·.id) then none else g.directory.kind? k
  players : ∀ k, (g.apply (.say line)).game.players.get? k =
    if k ∈ (g.apply (.say line)).evicted.map (·.id) then none
    else (g.players.get? k).map fun p => p.receive ((ServerPacket.chat line).buffers ++
      (g.apply (.say line)).evicted.flatMap fun e => g.farewell e p)
  stream : ∀ k p q, g.players.get? k = some p → p.inbox.attended = true →
    (g.apply (.say line)).game.players.get? k = some q → q.inbox.stream =
      p.inbox.stream ++ ((ServerPacket.chat line).buffers ++
        (g.apply (.say line)).evicted.flatMap fun e => g.farewell e p)

namespace Consistent

theorem kind?_eq_none_iff (h : g.Consistent) :
    g.directory.kind? id = none ↔ g.players.contains id = false ∧ g.items.contains id = false := by
  rw [Directory.kind?_eq_none_iff, Bool.eq_false_iff, ne_eq, h.contains_iff, not_or,
    Bool.eq_false_iff, Bool.eq_false_iff]

theorem kind?_congr {r : Game} (hg : g.Consistent) (hr : r.Consistent)
    (hplayers : r.players.contains id = g.players.contains id)
    (hitems : r.items.contains id = g.items.contains id) :
    r.directory.kind? id = g.directory.kind? id := by
  cases hkind : g.directory.kind? id with
  | none =>
    rw [hr.kind?_eq_none_iff, hplayers, hitems]
    exact hg.kind?_eq_none_iff.1 hkind
  | some kind =>
    cases kind with
    | player => rw [hr.player_iff, hplayers, ← hg.player_iff, hkind]
    | item => rw [hr.item_iff, hitems, ← hg.item_iff, hkind]

theorem get?_say (h : g.Consistent) (line : String) (k : EntityId) :
    (g.apply (.say line)).game.players.get? k =
      if k ∈ (g.apply (.say line)).evicted.map (·.id) then none
      else (g.players.get? k).map fun p => p.receive ((ServerPacket.chat line).buffers ++
        (g.apply (.say line)).evicted.flatMap fun e => g.farewell e p) :=
  get?_apply h.keyed (.say line) k

theorem items_of_mem_evicted (h : g.Consistent)
    (hid : id ∈ (g.apply (.say line)).evicted.map (·.id)) : g.items.contains id = false := by
  obtain ⟨e, he, rfl⟩ := List.mem_map.1 hid
  have hplayer := (cascade_apply h.keyed (.say line)).contains_of_mem (h.keyed.perform _) e he
  rw [perform_game h.keyed, Game.deliver, EntityMap.contains_map] at hplayer
  have hitem := Finset.disjoint_left.1 h.disjoint (EntityMap.mem_ids.2 hplayer)
  rwa [EntityMap.mem_ids, Bool.not_eq_true] at hitem

theorem kind?_say (h : g.Consistent) (line : String) (k : EntityId) :
    (g.apply (.say line)).game.directory.kind? k =
      if k ∈ (g.apply (.say line)).evicted.map (·.id) then none else g.directory.kind? k := by
  have happly := h.apply (.say line)
  have hitems := congrArg (·.contains k) (items_apply h.keyed (.say line))
  have hget := h.get?_say line k
  split
  · rename_i hgone
    rw [if_pos hgone, ← EntityMap.contains_eq_false_iff] at hget
    exact happly.kind?_eq_none_iff.2 ⟨hget, hitems.trans (h.items_of_mem_evicted hgone)⟩
  · rename_i hstays
    rw [if_neg hstays] at hget
    refine h.kind?_congr happly ?_ hitems
    rw [EntityMap.contains, hget, Option.isSome_map, EntityMap.contains]

theorem stream_say (h : g.Consistent) {k : EntityId} {p q : Player}
    (hp : g.players.get? k = some p) (hatt : p.inbox.attended = true)
    (hq : (g.apply (.say line)).game.players.get? k = some q) :
    q.inbox.stream = p.inbox.stream ++ ((ServerPacket.chat line).buffers ++
      (g.apply (.say line)).evicted.flatMap fun e => g.farewell e p) := by
  have hs := unstalled_apply h.keyed (.say line) k q hq
  rw [h.get?_say, hp] at hq
  split at hq
  · cases hq
  · obtain rfl := Option.some.inj hq
    exact Player.stream_receive hatt hs

theorem onlyHears (h : g.Consistent) (hu : g.Unstalled) (line : String) : g.OnlyHears line where
  items := items_apply h.keyed (.say line)
  time := apply_induction h.keyed (.say line) (P := fun r => r.time = g.time) rfl
    fun _ _ _ hr _ _ => hr
  next := next_apply h.keyed (.say line)
  evicted := by
    have hrun := cascade_apply h.keyed (.say line)
    rw [perform_game h.keyed] at hrun
    exact hrun.isLeast h.keyed hu (unstalled_apply h.keyed _)
  kind := h.kind?_say line
  players := h.get?_say line
  stream _ _ _ hp hatt hq := h.stream_say hp hatt hq

end Consistent

theorem contains_step_eq_false (hk : g.Keyed) (h : g.players.contains id = false) {e : Event}
    (he : ∀ p, e = .submit (.addPlayer p) → p.id ≠ id) :
    (g.step e).players.contains id = false := by
  rw [EntityMap.contains_eq_false_iff] at h ⊢
  cases e with
  | read connection n => exact (get?_attend ..).trans (by rw [h]; rfl)
  | hangUp connection => exact (get?_attend ..).trans (by rw [h]; rfl)
  | submit c =>
    have hsettle : (g.settle c).players.get? id = none := by
      rw [Option.eq_none_iff_forall_ne_some]
      intro p hp
      rcases settle_player hp with ⟨q, hq, -⟩ | rfl
      · rw [h] at hq
        cases hq
      · exact he p rfl (hk.settle _ id p hp)
    refine apply_induction hk c (P := fun r => r.players.get? id = none) ?_ fun r p _ hr _ _ => ?_
    · rw [get?_deliver, hsettle]
      rfl
    · rw [get?_deliver, get?_forget, hr, ite_self]
      rfl

end Game

namespace Session

open Game
open Player (guest)

variable {username : String} {id : EntityId} {packet : ClientPacket} {c : Command} {g : Game}

/-- The command that a session submits to a running game. -/
def Request.submitted (id : EntityId) : Request → Option Command
  | .command c => some c
  | .nothing => none
  | .leave => some (.removePlayer id)

/-- What happens when a player is gone: its session reads a packet, or anything else. -/
inductive Aftermath
  | packet (p : ClientPacket)
  | event (e : Event)

namespace Aftermath

def events (username : String) (id : EntityId) : Aftermath → List Event
  | .packet p => ((request username id p).submitted id).toList.map .submit
  | .event e => [e]

def isHeard : Aftermath → Bool
  | .packet (.chat _) => true
  | .packet _ => false
  | .event _ => true

end Aftermath

theorem step_play_eq (w : World) (files : FileTree) {s : Session} {t : GameTask} {rest : Bytes}
    (hphase : s.phase = .play username id) (hrun : t.running)
    (hfind : s.find Read.clientPacket = .value packet rest) :
    ∃ s', s.step GameTask.submit w files t = some (s', { t with
      host := t.host.submitAll ((request username id packet).submitted id).toList }) := by
  simp only [step, hphase, hfind]
  cases request username id packet with
  | command c =>
    simp only [GameTask.submit_of_running hrun]
    exact ⟨_, rfl⟩
  | nothing => exact ⟨_, rfl⟩
  | leave =>
    simp only [leave, GameTask.submit_of_running hrun]
    exact ⟨_, rfl⟩

/-- What is submitted for a packet other than a line is about the session's own player. -/
theorem eq_of_submitted (hp : ∀ text, packet ≠ .chat text)
    (hc : (request username id packet).submitted id = some c) :
    c = .removePlayer id ∨ ∃ position orientation, c = .movePlayer id position orientation := by
  cases packet with
  | chat text => exact absurd rfl (hp text)
  | keepAlive | flying => cases hc
  | look yaw pitch => exact .inr ⟨_, _, (Option.some.inj hc).symm⟩
  | disconnect reason => exact .inl (Option.some.inj hc).symm
  | position x y stance z =>
    rw [request] at hc
    split at hc
    · exact .inr ⟨_, _, (Option.some.inj hc).symm⟩
    · exact .inl (Option.some.inj hc).symm
  | positionLook x y stance z yaw pitch =>
    rw [request] at hc
    split at hc
    · exact .inr ⟨_, _, (Option.some.inj hc).symm⟩
    · exact .inl (Option.some.inj hc).symm

section Missing

variable (hg : g.Consistent) (hu : g.Unstalled) (hmissing : g.players.contains id = false)

include hg hu hmissing

/-- Without a player, a session's requests other than lines leave the game as it is. -/
theorem apply_of_submitted (hp : ∀ text, packet ≠ .chat text)
    (hc : (request username id packet).submitted id = some c) :
    (g.apply c).game = g ∧ (g.apply c).departed = [] := by
  obtain ⟨hrefuses, hparted⟩ : g.Refuses c ∧ (g.apply c).parted = none := by
    obtain rfl | ⟨position, orientation, rfl⟩ := eq_of_submitted hp hc
    · refine ⟨hmissing, ?_⟩
      show (g.removePlayer id).2 = none
      rw [removePlayer_of_get?_eq_none (EntityMap.contains_eq_false_iff.1 hmissing)]
    · exact ⟨hmissing, rfl⟩
  obtain ⟨hgame, hevicted⟩ := hrefuses.apply_eq hg hu
  exact ⟨hgame, by rw [Step.departed, hparted, hevicted]; rfl⟩

theorem submitAll_of_submitted (hp : ∀ text, packet ≠ .chat text) {h : Host} (hh : h.game = g) :
    h.submitAll ((request username id packet).submitted id).toList = h := by
  subst hh
  cases hc : (request username id packet).submitted id with
  | none => rfl
  | some c =>
    obtain ⟨hgame, hdeparted⟩ := apply_of_submitted hg hu hmissing hp hc
    simp [Host.submitAll, Host.submit, hgame, hdeparted]

theorem run_of_not_isHeard {a : Aftermath} (ha : a.isHeard = false) :
    g.run (a.events username id) = g := by
  cases a with
  | event e => cases ha
  | packet p =>
    have hp : ∀ text, p ≠ .chat text := by
      rintro text rfl
      cases ha
    rw [Aftermath.events]
    cases hc : (request username id p).submitted id with
    | none => rfl
    | some c => exact (apply_of_submitted hg hu hmissing hp hc).1

end Missing

theorem submitted_ne_addPlayer (p : Player) :
    (request username id packet).submitted id ≠ some (.addPlayer p) := by
  cases packet with
  | position | positionLook =>
    rw [request]
    split <;> exact nofun
  | _ => exact nofun

theorem contains_run_events (hg : g.Consistent) (hmissing : g.players.contains id = false)
    {a : Aftermath} (ha : ∀ p, a = .event (.submit (.addPlayer p)) → p.id ≠ id) :
    (g.run (a.events username id)).players.contains id = false := by
  cases a with
  | event e =>
    exact contains_step_eq_false hg.keyed hmissing fun p he => ha p (congrArg _ he)
  | packet packet =>
    rw [Aftermath.events]
    cases hc : (request username id packet).submitted id with
    | none => exact hmissing
    | some c =>
      show (g.step (.submit c)).players.contains id = false
      refine contains_step_eq_false hg.keyed hmissing fun p he => ?_
      obtain rfl := Event.submit.inj he
      exact absurd hc (submitted_ne_addPlayer p)

/-- Whatever else happens, leaving out all packets but the lines makes no difference. -/
theorem run_aftermath (hg : g.Consistent) (hu : g.Unstalled)
    (hmissing : g.players.contains id = false) (as : List Aftermath)
    (has : ∀ p, .event (.submit (.addPlayer p)) ∈ as → p.id ≠ id) :
    g.run (as.flatMap (·.events username id)) =
      g.run ((as.filter (·.isHeard)).flatMap (·.events username id)) := by
  induction as generalizing g with
  | nil => rfl
  | cons a as ih =>
    have has' : ∀ p, .event (.submit (.addPlayer p)) ∈ as → p.id ≠ id :=
      fun p hp => has p (List.mem_cons_of_mem a hp)
    rw [List.flatMap_cons, run_append]
    cases ha : a.isHeard with
    | false =>
      rw [List.filter_cons_of_neg (by simp [ha]), run_of_not_isHeard hg hu hmissing ha]
      exact ih hg hu hmissing has'
    | true =>
      rw [List.filter_cons_of_pos ha, List.flatMap_cons, run_append]
      refine ih (hg.run _) (hu.run hg _) (contains_run_events hg hmissing ?_) has'
      rintro p rfl
      exact has p List.mem_cons_self

/-- In every game, once the player of a session is gone, what the session reads is still submitted,
but no packet other than a line changes anything: the game, its inboxes and those who left it are as
before. A line is shown to all like any other, and changes nothing else: nothing at all if it is too
long, only the inboxes if all have room. In the long run, others find what they would have found if
the session had read nothing but the lines. -/
theorem missing_player_only_heard (config : GameConfig) (time : Int64) (es : List Event)
    (username : String) {id : EntityId}
    (hmissing : ((Game.new config time).run es).players.contains id = false) :
    let g := (Game.new config time).run es
    (∀ packet w files (s : Session) (t : GameTask) rest, s.phase = .play username id →
      t.running → t.host.game = g → s.find Read.clientPacket = .value packet rest →
      ∃ s', s.step GameTask.submit w files t = some (s', { t with
          host := t.host.submitAll ((request username id packet).submitted id).toList }) ∧
        ((∀ text, packet ≠ .chat text) →
          t.host.submitAll ((request username id packet).submitted id).toList = t.host)) ∧
    (∀ packet c, (∀ text, packet ≠ .chat text) →
      (request username id packet).submitted id = some c →
      (g.apply c).game = g ∧ (g.apply c).departed = []) ∧
    (∀ text, let line := "<" ++ username ++ "> " ++ text
      (request username id (.chat text)).submitted id = some (.say line) ∧ g.OnlyHears line ∧
      (maxStringLength < line.utf8ByteSize →
        (g.apply (.say line)).game = g ∧ (g.apply (.say line)).evicted = []) ∧
      ((∀ k p, g.players.get? k = some p →
          ((ServerPacket.chat line).buffers.length : ℕ∞) ≤ p.inbox.room) →
        (g.apply (.say line)).game = g.deliver (fun _ => (ServerPacket.chat line).buffers) ∧
          (g.apply (.say line)).evicted = [])) ∧
    ∀ as : List Aftermath, (∀ p, .event (.submit (.addPlayer p)) ∈ as → p.id ≠ id) →
      g.run (as.flatMap (·.events username id)) =
        g.run ((as.filter (·.isHeard)).flatMap (·.events username id)) := by
  intro g
  have hg : g.Consistent := (Consistent.new config time).run es
  have hu : g.Unstalled := unstalled_run_new config time es
  refine ⟨?_, ?_, ?_, fun as has => run_aftermath hg hu hmissing as has⟩
  · intro packet w files s t rest hphase hrun hgame hfind
    obtain ⟨s', hs⟩ := step_play_eq w files hphase hrun hfind
    exact ⟨s', hs, fun hp => submitAll_of_submitted hg hu hmissing hp hgame⟩
  · exact fun packet c hp hc => apply_of_submitted hg hu hmissing hp hc
  · intro text line
    refine ⟨rfl, hg.onlyHears hu line, fun hlong => ?_, fun hroom => ?_⟩
    · have hrefuses : g.Refuses (.say line) := hlong
      exact hrefuses.apply_eq hg hu
    · refine apply_of_unstalled hg.keyed (c := .say line) fun k q hq => ?_
      obtain ⟨p, hp, rfl⟩ := get?_deliver_eq_some_iff.1 hq
      exact Player.stalled_receive_eq_false_iff.2 ⟨hu k p hp, hroom k p hp⟩

/-- The first guest has room for one packet only, so the clock evicts it. What its session reads
then still reaches the second guest. -/
theorem evicted_guest_heard :
    let early := (Game.new {} 0).run [.submit (.addPlayer (guest 1 (some 1)))]
    let g := early.run [.submit .tick, .submit (.addPlayer (guest 2 none))]
    let s : Session :=
      { connection := 1, phase := .play "guest" 1, unread := [0x03, 0, 2, 104, 105] }
    let g' := (g.apply (.say "<guest> hi")).game
    (early.apply .tick).evicted.map (·.id) = [1] ∧ g.players.contains 1 = false ∧
      s.find Read.clientPacket = .value (.chat "hi") [] ∧
      (request "guest" 1 (.chat "hi")).submitted 1 = some (.say "<guest> hi") ∧
      (g.players.get? 2).map (·.inbox.waiting.tail) = some [] ∧
      (g'.players.get? 2).map (·.inbox.waiting.tail) =
        some [[0x03, 0, 10, 60, 103, 117, 101, 115, 116, 62, 32, 104, 105]] ∧
      g' ≠ g := by
  intro early g s g'
  have hevicted : (early.apply .tick).evicted.map (·.id) = [1] := by decide +kernel
  have hmissing : g.players.contains 1 = false := by decide +kernel
  have hbefore : (g.players.get? 2).map (·.inbox.waiting.tail) = some [] := by decide +kernel
  have hafter : (g'.players.get? 2).map (·.inbox.waiting.tail) =
      some [[0x03, 0, 10, 60, 103, 117, 101, 115, 116, 62, 32, 104, 105]] := by decide +kernel
  refine ⟨hevicted, hmissing, rfl, rfl, hbefore, hafter, fun heq => ?_⟩
  rw [heq, hbefore] at hafter
  cases hafter

/-- The session of a guest that the clock has evicted reads where its client looks, a line, and that
its client quits. -/
theorem missing_player_only_heard_guest :
    let es : List Event := [.submit (.addPlayer (guest 1 (some 1))), .submit .tick,
      .submit (.addPlayer (guest 2 none))]
    let g := (Game.new {} 0).run es
    let w : World := ⟨"w", 0, 0, ⟨0, 64, 0⟩, ⟨0, 64, 0⟩, { tiers := [] }⟩
    let t : GameTask := { host := { game := g } }
    let s : Session :=
      { connection := 1, phase := .play "guest" 1, unread := 0x0c :: List.replicate 9 0 }
    let line := "<guest> hi"
    g.players.contains 1 = false ∧ (∃ s', s.step GameTask.submit w .empty t = some (s', t)) ∧
      (g.apply (.say line)).game = g.deliver (fun _ => (ServerPacket.chat line).buffers) ∧
      g.run ([.packet (.look 0 0 false), .packet (.chat "hi"), .packet (.disconnect "")].flatMap
        (Aftermath.events "guest" 1)) = g.run [.submit (.say line)] := by
  intro es g w t s line
  have hmissing : g.players.contains 1 = false := by decide +kernel
  obtain ⟨hstep, -, hline, haftermath⟩ := missing_player_only_heard {} 0 es "guest" hmissing
  refine ⟨hmissing, ?_, ?_, ?_⟩
  · have hfind : s.find Read.clientPacket = .value (.look 0 0 false) [] := by rfl
    obtain ⟨s', hs, hquiet⟩ := hstep (.look 0 0 false) w .empty s t [] rfl rfl rfl hfind
    rw [hquiet nofun] at hs
    exact ⟨s', hs⟩
  · have hunlimited : ∀ p ∈ g.players.values, p.inbox.capacity = none := by decide +kernel
    refine ((hline "hi").2.2.2 fun k p hp => ?_).1
    rw [Inbox.room_of_capacity (hunlimited p (EntityMap.mem_values_iff.2 ⟨k, hp⟩))]
    exact le_top
  · exact haftermath _ (by simp)

end Session

end BlockWorld
