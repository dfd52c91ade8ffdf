import BlockWorld.Proofs.Game.Bare
import BlockWorld.Proofs.Game.Registry

/-! # Evictions are removals

A game whose inboxes are bounded does what a game with unlimited inboxes does that is told to remove
each player at the moment of its eviction. Whoever is not evicted is sent the same packets in both,
and an evicted player the same up to the first one that found no room.
-/

namespace BlockWorld

def Player.unbounded (p : Player) : Player := { p with inbox := { p.inbox with capacity := none } }

/-- The same command where the one who joins does so with an unlimited inbox. -/
def Command.unbounded : Command → Command
  | .addPlayer p => .addPlayer p.unbounded
  | c => c

theorem Command.bare_unbounded (c : Command) : c.unbounded.bare = c.bare := by
  cases c <;> rfl

namespace Player

/-- `q` has an unlimited inbox, and was sent what `p` was: just that as long as `p` is not marked,
and more from then on, since the full inbox of `p` stays full. -/
structure Lags (p q : Player) : Prop where
  unlimited : q.inbox.capacity = none
  unstalled : q.stalled = false
  attended : q.inbox.attended = p.inbox.attended
  log_eq : p.stalled = false → q.inbox.log = p.inbox.log
  full : p.stalled = true → p.inbox.overflows = true
  log_prefix : p.stalled = true → p.inbox.log.toList <+: q.inbox.log.toList ∧
    p.inbox.log.size < q.inbox.log.size

variable {p q : Player}

theorem Lags.overflows_eq_false (h : Lags p q) : q.inbox.overflows = false := by
  simp [Inbox.overflows, Inbox.isFull, h.unlimited]

theorem Lags.overflows_of_stalled (h : Lags p q) {b : Bytes}
    (hs : (p.transmit b).stalled = true) : p.inbox.overflows = true := by
  rcases Bool.or_eq_true_iff.1 hs with hs | ho
  · exact h.full hs
  · exact ho

theorem Lags.transmit (h : Lags p q) (b : Bytes) : Lags (p.transmit b) (q.transmit b) where
  unlimited := (Inbox.post_capacity b).trans h.unlimited
  unstalled := Bool.or_eq_false_iff.2 ⟨h.unstalled, h.overflows_eq_false⟩
  attended := by simp only [Player.transmit, Inbox.post_attended, h.attended]
  log_eq hs := by
    obtain ⟨hs, ho⟩ := Bool.or_eq_false_iff.1 hs
    show (q.inbox.post b).log = (p.inbox.post b).log
    cases ha : p.inbox.attended with
    | false =>
      rw [Inbox.post_of_unattended ha, Inbox.post_of_unattended (h.attended.trans ha), h.log_eq hs]
    | true =>
      rw [Inbox.log_post ha ho, Inbox.log_post (h.attended.trans ha) h.overflows_eq_false,
        h.log_eq hs]
  full hs := by
    have ho := h.overflows_of_stalled hs
    show (p.inbox.post b).overflows = true
    rwa [Inbox.post_of_overflows ho]
  log_prefix hs := by
    have ho := h.overflows_of_stalled hs
    have hp : (p.transmit b).inbox = p.inbox := Inbox.post_of_overflows ho
    have ha := h.attended.trans (Inbox.overflows_iff.1 ho).1
    have hlog : (q.transmit b).inbox.log = q.inbox.log.push b :=
      Inbox.log_post ha h.overflows_eq_false
    rw [hp, hlog, Array.toList_push, Array.size_push]
    cases hs : p.stalled with
    | false =>
      rw [h.log_eq hs]
      exact ⟨List.prefix_append _ _, Nat.lt_succ_self _⟩
    | true =>
      obtain ⟨hpre, hlt⟩ := h.log_prefix hs
      exact ⟨hpre.trans (List.prefix_append _ _), Nat.lt_succ_of_lt hlt⟩

theorem Lags.receive (h : Lags p q) (l : List Bytes) : Lags (p.receive l) (q.receive l) := by
  induction l generalizing p q with
  | nil => exact h
  | cons b l ih => exact ih (h.transmit b)

theorem lags_unbounded (h : p.stalled = false) : Lags p p.unbounded where
  unlimited := rfl
  unstalled := h
  attended := rfl
  log_eq _ := rfl
  full hs := by rw [h] at hs; cases hs
  log_prefix hs := by rw [h] at hs; cases hs

theorem Lags.attend (h : Lags p q) (hs : p.stalled = false) {f : Inbox → Inbox}
    (hcap : ∀ i, (f i).capacity = i.capacity) (hlog : ∀ i, (f i).log = i.log)
    (hatt : ∀ i j, i.attended = j.attended → (f i).attended = (f j).attended) :
    Lags { p with inbox := f p.inbox } { q with inbox := f q.inbox } where
  unlimited := (hcap _).trans h.unlimited
  unstalled := h.unstalled
  attended := hatt _ _ h.attended
  log_eq _ := by rw [hlog, hlog, h.log_eq hs]
  full hs' := by rw [hs] at hs'; cases hs'
  log_prefix hs' := by rw [hs] at hs'; cases hs'

end Player

namespace Game

variable {g g' r : Game}

open Player (Lags)

/-- The games are the same but for their inboxes, and the players of `r`, whose inboxes take any
number of packets, were sent what those of `g` were. -/
structure Shadow (g r : Game) : Prop where
  bare_eq : r.bare = g.bare
  lags : ∀ id p q, g.players.get? id = some p → r.players.get? id = some q → Lags p q

namespace Shadow

theorem exists_of_get? (h : Shadow g r) {id : EntityId} {p : Player}
    (hp : g.players.get? id = some p) :
    ∃ q, r.players.get? id = some q ∧ q.bare = p.bare ∧ Lags p q := by
  have hm := get?_congr h.bare_eq id
  rw [hp, Option.map_some, Option.map_eq_some_iff] at hm
  obtain ⟨q, hq, hb⟩ := hm
  exact ⟨q, hq, hb, h.lags id p q hp hq⟩

theorem get?_eq_none (h : Shadow g r) {id : EntityId} (hp : g.players.get? id = none) :
    r.players.get? id = none := by
  have hm := get?_congr h.bare_eq id
  rwa [hp, Option.map_none, Option.map_eq_none_iff] at hm

theorem exists_of_get?_right (h : Shadow g r) {id : EntityId} {q : Player}
    (hq : r.players.get? id = some q) :
    ∃ p, g.players.get? id = some p ∧ q.bare = p.bare ∧ Lags p q := by
  cases hp : g.players.get? id with
  | none =>
    rw [h.get?_eq_none hp] at hq
    cases hq
  | some p =>
    obtain ⟨q', hq', hb, hl⟩ := h.exists_of_get? hp
    obtain rfl : q = q' := Option.some.inj (hq.symm.trans hq')
    exact ⟨p, rfl, hb, hl⟩

theorem unstalled (h : Shadow g r) : r.Unstalled := by
  intro id q hq
  obtain ⟨p, -, -, hl⟩ := h.exists_of_get?_right hq
  exact hl.unstalled

theorem keyed (h : Shadow g r) (hk : g.Keyed) : r.Keyed := hk.congr h.bare_eq

theorem deliver (h : Shadow g r) {m m' : Player → List Bytes}
    (hm : ∀ p q, q.bare = p.bare → m' q = m p) : Shadow (g.deliver m) (r.deliver m') where
  bare_eq := by rw [bare_deliver, bare_deliver, h.bare_eq]
  lags id p q hp hq := by
    obtain ⟨p₀, hp₀, rfl⟩ := get?_deliver_eq_some_iff.1 hp
    obtain ⟨q₀, hq₀, rfl⟩ := get?_deliver_eq_some_iff.1 hq
    obtain ⟨q', hq', hb, hl⟩ := h.exists_of_get? hp₀
    obtain rfl : q₀ = q' := Option.some.inj (hq₀.symm.trans hq')
    rw [hm p₀ q₀ hb]
    exact hl.receive _

theorem forget (h : Shadow g r) (id : EntityId) : Shadow (g.forget id) (r.forget id) where
  bare_eq := by rw [bare_forget, bare_forget, h.bare_eq]
  lags k p q hp hq :=
    h.lags k p q (get?_forget_eq_some_iff.1 hp).2 (get?_forget_eq_some_iff.1 hq).2

theorem enrol (h : Shadow g r) {p : Player} (hp : p.stalled = false) :
    Shadow (g.enrol p) (r.enrol p.unbounded) where
  bare_eq := by
    rw [bare_enrol, bare_enrol, h.bare_eq]
    rfl
  lags k p' q' hp' hq' := by
    rcases get?_enrol_eq_some_iff.1 hp' with ⟨hid, rfl⟩ | ⟨hne, hp'⟩
    · rcases get?_enrol_eq_some_iff.1 hq' with ⟨-, rfl⟩ | ⟨hne, -⟩
      · exact Player.lags_unbounded hp
      · exact absurd hid hne
    · rcases get?_enrol_eq_some_iff.1 hq' with ⟨hid, -⟩ | ⟨-, hq'⟩
      · exact absurd hid hne
      · exact h.lags k p' q' hp' hq'

theorem directory_eq (h : Shadow g r) : r.directory = g.directory := by
  have := congrArg Game.directory h.bare_eq
  exact this

theorem contains_eq (h : Shadow g r) (id : EntityId) :
    r.players.contains id = g.players.contains id := by
  have := congrArg (fun s : Game => s.players.contains id) h.bare_eq
  simpa only [bare, EntityMap.contains_map] using this

theorem settle (h : Shadow g r) {c : Command} (hc : c.Fresh) :
    Shadow (g.settle c) (r.settle c.unbounded) := by
  have hb := settle_congr h.bare_eq c.bare_unbounded
  cases c with
  | addPlayer p =>
    have hd : r.directory.contains p.unbounded.id = g.directory.contains p.id := by
      rw [h.directory_eq]
      rfl
    show Shadow (g.settle (.addPlayer p)) (r.settle (.addPlayer p.unbounded))
    rw [Game.settle, Game.settle, hd]
    split
    · exact h
    · exact h.enrol (hc p rfl).unstalled
  | removePlayer id =>
    show Shadow (g.settle (.removePlayer id)) (r.settle (.removePlayer id))
    rw [Game.settle, Game.settle, h.contains_eq]
    split
    · exact h.forget id
    · exact h
  | movePlayer id position orientation =>
    refine ⟨hb, fun k p q hp hq => ?_⟩
    simp only [Game.settle, Command.unbounded, movePlayer, EntityMap.get?_modify] at hp hq
    split at hp
    · rw [if_pos ‹_›] at hq
      obtain ⟨p₀, hp₀, rfl⟩ := Option.map_eq_some_iff.1 hp
      obtain ⟨q₀, hq₀, rfl⟩ := Option.map_eq_some_iff.1 hq
      have hl := h.lags k p₀ q₀ hp₀ hq₀
      exact ⟨hl.unlimited, hl.unstalled, hl.attended, hl.log_eq, hl.full, hl.log_prefix⟩
    · rw [if_neg ‹_›] at hq
      exact h.lags k p q hp hq
  | addItem item =>
    refine ⟨hb, fun k p q hp hq => h.lags k p q ?_ ?_⟩
    · rw [Game.settle] at hp
      split at hp <;> exact hp
    · replace hq : (r.settle (.addItem item)).players.get? k = some q := hq
      rw [Game.settle] at hq
      split at hq <;> exact hq
  | _ => exact ⟨hb, h.lags⟩

theorem perform (h : Shadow g r) (hk : g.Keyed) {c : Command} (hc : c.Fresh) :
    Shadow (g.perform c).game (r.perform c.unbounded).game := by
  rw [perform_game hk, perform_game (h.keyed hk)]
  exact (h.settle hc).deliver fun p q hb => mail_congr h.bare_eq c.bare_unbounded hb

/-- The game with unlimited inboxes evicts nobody. -/
theorem apply_eq (h : Shadow g r) (hk : g.Keyed) {c : Command} (hc : c.Fresh) :
    (r.apply c.unbounded).game = (r.perform c.unbounded).game ∧
      (r.apply c.unbounded).evicted = [] := by
  have hu := (h.perform hk hc).unstalled
  have he : (r.perform c.unbounded).game.evictStalled = ((r.perform c.unbounded).game, []) :=
    evict_of_unstalled hu _
  rw [apply_game, apply_evicted, he]
  exact ⟨rfl, rfl⟩

theorem attend (h : Shadow g r) (hu : g.Unstalled) (connection : ℕ) {f : Inbox → Inbox}
    (hcap : ∀ i, (f i).capacity = i.capacity) (hlog : ∀ i, (f i).log = i.log)
    (hatt : ∀ i j, i.attended = j.attended → (f i).attended = (f j).attended) :
    Shadow (g.attend connection f) (r.attend connection f) where
  bare_eq := by rw [bare_attend, bare_attend, h.bare_eq]
  lags id p q hp hq := by
    obtain ⟨p₀, hp₀, rfl⟩ := get?_attend_eq_some_iff.1 hp
    obtain ⟨q₀, hq₀, rfl⟩ := get?_attend_eq_some_iff.1 hq
    obtain ⟨q', hq', hb, hl⟩ := h.exists_of_get? hp₀
    obtain rfl : q₀ = q' := Option.some.inj (hq₀.symm.trans hq')
    have hc : q₀.connection = p₀.connection := by
      have := congrArg Player.connection hb
      exact this
    by_cases hp : p₀.connection = connection
    · rw [if_pos hp, if_pos (hc.trans hp)]
      exact hl.attend (hu id p₀ hp₀) hcap hlog hatt
    · rw [if_neg hp, if_neg (hc ▸ hp)]
      exact hl

end Shadow

/-! ## Runs -/

/-- The run in which everyone joins with an unlimited inbox, and each eviction is followed by a
command that removes the player. -/
def spelledOut (g : Game) : List Event → List Event
  | [] => []
  | .submit c :: es =>
    .submit c.unbounded :: (g.apply c).evicted.map (fun p => .submit (.removePlayer p.id)) ++
      (g.step (.submit c)).spelledOut es
  | e :: es => e :: (g.step e).spelledOut es

theorem spelledOut_submit (g : Game) (c : Command) (es : List Event) :
    g.spelledOut (.submit c :: es) = .submit c.unbounded ::
      ((g.apply c).evicted.map (·.id)).map (.submit <| .removePlayer ·) ++
        (g.step (.submit c)).spelledOut es := by
  rw [spelledOut, List.map_map]
  rfl

theorem departed_append (es fs : List Event) :
    g.departed (es ++ fs) = g.departed es ++ (g.run es).departed fs := by
  induction es generalizing g with
  | nil => rfl
  | cons e es ih => simp [departed, ih]

/-- What a departure is where nobody is ever evicted: the player was sent the same packets, or more
if it was evicted, for which its client must have been listening. -/
structure Departure.Matches (d d' : Departure) : Prop where
  not_evicted : d'.evicted = false
  bare_eq : d'.player.bare = d.player.bare
  stream_eq : d.evicted = false → d'.player.inbox.stream = d.player.inbox.stream
  stream_prefix : d.evicted = true → d.player.inbox.stream <+: d'.player.inbox.stream ∧
    d.player.inbox.stream ≠ d'.player.inbox.stream
  attended : d.evicted = true → d.player.inbox.attended = true

theorem Departure.matches_of_lags {p q : Player} (hb : q.bare = p.bare) (h : Lags p q) :
    Matches ⟨p, p.stalled⟩ ⟨q, false⟩ where
  not_evicted := rfl
  bare_eq := hb
  stream_eq hs := by
    rw [Inbox.stream_eq, Inbox.stream_eq, h.log_eq hs]
  stream_prefix hs := by
    obtain ⟨hpre, hlt⟩ := h.log_prefix hs
    rw [Inbox.stream_eq, Inbox.stream_eq]
    refine ⟨hpre, fun heq => ?_⟩
    have := congrArg List.length heq
    simp only [Array.length_toList] at this
    omega
  attended hs := (Inbox.overflows_iff.1 (h.full hs)).1

namespace Shadow

/-- The removals that are spelled out follow the cascade. -/
theorem cascade {es : List Player} (h : Shadow g r) (hk : g.Keyed) (hc : Cascade g es g') :
    Shadow g' (r.run (es.map fun p => .submit (.removePlayer p.id))) ∧
      List.Forall₂ Departure.Matches (es.map (⟨·, true⟩))
        (r.departed (es.map fun p => .submit (.removePlayer p.id))) := by
  induction hc generalizing r with
  | nil => exact ⟨h, .nil⟩
  | @cons g _ p es hp hs _ ih =>
    have hfresh : (Command.removePlayer p.id).Fresh := fun _ hjoin => by cases hjoin
    obtain ⟨hgame, hevicted⟩ := h.apply_eq hk hfresh
    obtain ⟨q, hq, hb, hl⟩ := h.exists_of_get? hp
    have hnext : Shadow (g.removePlayer p.id).1 (r.step (.submit (.removePlayer p.id))) := by
      have := h.perform hk hfresh
      rwa [← hgame] at this
    have hdep : r.departures (.submit (.removePlayer p.id)) = [⟨q, false⟩] := by
      have hparted : (r.apply (.removePlayer p.id)).parted = some q := by
        show (r.removePlayer p.id).2 = some q
        rw [removePlayer_eq hq (h.keyed hk _ q hq)]
      have hev : (r.apply (.removePlayer p.id)).evicted = [] := hevicted
      rw [departures, hparted, hev]
      rfl
    obtain ⟨ihs, ihd⟩ := ih hnext (hk.removePlayer _)
    refine ⟨ihs, ?_⟩
    rw [List.map_cons, List.map_cons, departed, hdep]
    refine .cons ?_ ihd
    have := Departure.matches_of_lags hb hl
    rwa [hs] at this

theorem parted (h : Shadow g r) (hk : g.Keyed) (hu : g.Unstalled) {c : Command} (hc : c.Fresh) :
    List.Forall₂ Departure.Matches ((g.apply c).parted.toList.map (⟨·, false⟩))
      ((r.apply c.unbounded).parted.toList.map (⟨·, false⟩)) := by
  cases c with
  | addPlayer p =>
    have hs := (hc p rfl).unstalled
    have hd : r.directory.contains p.unbounded.id = g.directory.contains p.id := by
      rw [h.directory_eq]
      rfl
    have hparted : ∀ (s : Game) (p : Player), (s.apply (.addPlayer p)).parted =
        if (s.addPlayer p).2 then none else some p := fun _ _ => rfl
    rw [Command.unbounded, hparted, hparted]
    cases hg : g.directory.contains p.id with
    | true =>
      rw [addPlayer_of_contains hg, addPlayer_of_contains (hd.trans hg)]
      have := Departure.matches_of_lags (p := p) (q := p.unbounded) rfl (Player.lags_unbounded hs)
      rw [hs] at this
      exact .cons this .nil
    | false =>
      rw [addPlayer_eq hk hg, addPlayer_eq (h.keyed hk) (hd.trans hg)]
      exact .nil
  | removePlayer id =>
    have hparted : ∀ s : Game, (s.apply (.removePlayer id)).parted = (s.removePlayer id).2 :=
      fun _ => rfl
    show List.Forall₂ _ ((g.apply (.removePlayer id)).parted.toList.map _)
      ((r.apply (.removePlayer id)).parted.toList.map _)
    rw [hparted, hparted]
    cases hp : g.players.get? id with
    | none =>
      rw [removePlayer_of_get?_eq_none hp, removePlayer_of_get?_eq_none (h.get?_eq_none hp)]
      exact .nil
    | some p =>
      obtain ⟨q, hq, hb, hl⟩ := h.exists_of_get? hp
      rw [removePlayer_eq hp (hk id p hp), removePlayer_eq hq (h.keyed hk id q hq)]
      have := Departure.matches_of_lags hb hl
      rw [hu id p hp] at this
      exact .cons this .nil
  | _ => exact .nil

theorem step (h : Shadow g r) (hk : g.Keyed) (hu : g.Unstalled) {e : Event} (he : e.Fresh) :
    Shadow (g.step e) (r.run (g.spelledOut [e])) ∧
      List.Forall₂ Departure.Matches (g.departures e) (r.departed (g.spelledOut [e])) := by
  cases e with
  | submit c =>
    have hc := he c rfl
    obtain ⟨hgame, hevicted⟩ := h.apply_eq hk hc
    have hp := h.perform hk hc
    rw [← hgame] at hp
    obtain ⟨hs, hd⟩ := hp.cascade (hk.perform c) (cascade_apply hk c)
    have hdep : r.departures (.submit c.unbounded) =
        (r.apply c.unbounded).parted.toList.map (⟨·, false⟩) := by
      rw [departures, hevicted, List.map_nil, List.append_nil]
    rw [spelledOut, spelledOut, List.append_nil]
    refine ⟨hs, ?_⟩
    rw [departed, hdep]
    exact List.rel_append (h.parted hk hu hc) hd
  | read connection n =>
    refine ⟨h.attend (f := (·.read n)) hu connection ?_ ?_ ?_, .nil⟩
    · exact fun _ => rfl
    · exact fun _ => rfl
    · exact fun _ _ ha => ha
  | hangUp connection =>
    refine ⟨h.attend (f := (·.abandon)) hu connection ?_ ?_ ?_, .nil⟩
    · exact fun _ => rfl
    · exact fun _ => rfl
    · exact fun _ _ _ => rfl

end Shadow

/-- Bounded inboxes with evictions refine unlimited ones with removals. -/
theorem shadow_run (h : Shadow g r) (hc : g.Consistent) (hu : g.Unstalled) {es : List Event}
    (hes : ∀ e ∈ es, e.Fresh) :
    Shadow (g.run es) (r.run (g.spelledOut es)) ∧
      List.Forall₂ Departure.Matches (g.departed es) (r.departed (g.spelledOut es)) := by
  induction es generalizing g r with
  | nil => exact ⟨h, .nil⟩
  | cons e es ih =>
    have he := hes e List.mem_cons_self
    obtain ⟨hs, hd⟩ := h.step hc.keyed hu he
    obtain ⟨ihs, ihd⟩ := ih hs (hc.step e) (hu.step hc.keyed e) fun e' he' =>
      hes e' (List.mem_cons_of_mem _ he')
    have happ : g.spelledOut (e :: es) = g.spelledOut [e] ++ (g.step e).spelledOut es := by
      cases e <;> simp [spelledOut]
    rw [happ, run_append, departed_append]
    exact ⟨ihs, List.rel_append hd ihd⟩

theorem shadow_new (config : GameConfig) (time : Int64) :
    Shadow (Game.new config time) (Game.new config time) where
  bare_eq := rfl
  lags _ _ _ hp _ := by cases hp

/-- At the end of every run, the same run without limits, where each eviction is a removal that is
asked for, has led to the same registry, clock and answers and has evicted nobody. Whoever is
registered or has parted was sent the same packets, but for the evicted, who had been listening and
were sent fewer; and nobody who has parted is sent anything by what happens next. -/
theorem bounded_refines_unbounded (config : GameConfig) (time : Int64) (es : List Event)
    (hes : ∀ e ∈ es, e.Fresh) :
    let g := (Game.new config time).run es
    let r := (Game.new config time).run ((Game.new config time).spelledOut es)
    r.players.map Player.bare = g.players.map Player.bare ∧
    r.items = g.items ∧ r.directory = g.directory ∧ r.time = g.time ∧
    (∀ q, r.answer q = g.answer q) ∧
    (∀ c, c.Fresh → (r.apply c.unbounded).reply = (g.apply c).reply ∧
      (r.apply c.unbounded).evicted = []) ∧
    (∀ id p q, g.players.get? id = some p → r.players.get? id = some q →
      q.inbox.capacity = none ∧ q.inbox.stream = p.inbox.stream) ∧
    List.Forall₂ Departure.Matches ((Game.new config time).departed es)
      ((Game.new config time).departed ((Game.new config time).spelledOut es)) ∧
    ∀ fs, (Game.new config time).departed es <+: (Game.new config time).departed (es ++ fs) := by
  intro g r
  have hc : g.Consistent := (Consistent.new config time).run es
  have hu : g.Unstalled := unstalled_run_new config time es
  obtain ⟨h, hd⟩ := shadow_run (shadow_new config time) (.new config time)
    (unstalled_new config time) hes
  have hreply : ∀ c : Command, (r.apply c.unbounded).reply = (g.apply c).reply := fun c =>
    reply_congr h.bare_eq c.bare_unbounded
  have hitems := congrArg Game.items h.bare_eq
  have htime := congrArg Game.time h.bare_eq
  refine ⟨congrArg Game.players h.bare_eq, hitems, h.directory_eq, htime, ?_, ?_, ?_, hd, ?_⟩
  · exact fun q => hreply (.query q)
  · exact fun c hfresh => ⟨hreply c, (h.apply_eq hc.keyed hfresh).2⟩
  · intro id p q hp hq
    have hl := h.lags id p q hp hq
    refine ⟨hl.unlimited, ?_⟩
    rw [Inbox.stream_eq, Inbox.stream_eq, hl.log_eq (hu id p hp)]
  · intro fs
    rw [departed_append]
    exact List.prefix_append _ _

/-- The tick that evicts a full guest is followed by its removal where inboxes are unlimited, and the
other guest is told to hide it in both. -/
theorem spelledOut_full_guest :
    let es : List Event := [.submit (.addPlayer (Player.guest 1 (some 3))),
      .submit (.addPlayer (Player.guest 2 none)), .submit .tick]
    let fs : List Event := [.submit (.addPlayer (Player.guest 1 none)),
      .submit (.addPlayer (Player.guest 2 none)), .submit .tick, .submit (.removePlayer 1)]
    (∀ e ∈ es, e.Fresh) ∧ (Game.new {} 0).spelledOut es = fs ∧
      ((Game.new {} 0).departed es).map (·.evicted) = [true] ∧
      List.Forall₂ Departure.Matches ((Game.new {} 0).departed es)
        ((Game.new {} 0).departed fs) ∧
      ∃ p q, ((Game.new {} 0).run es).players.get? 2 = some p ∧
        ((Game.new {} 0).run fs).players.get? 2 = some q ∧ q.inbox.stream = p.inbox.stream ∧
        0x1d :: Wire.putInt32 1 ∈ p.inbox.stream := by
  intro es fs
  have hes : ∀ e ∈ es, e.Fresh := by
    simp only [es, List.forall_mem_cons]
    exact ⟨(Player.fresh_guest 1 (some 3)).addPlayer.submit,
      (Player.fresh_guest 2 none).addPlayer.submit, Command.fresh_tick.submit,
      List.forall_mem_nil _⟩
  have hfs : (Game.new {} 0).spelledOut es = fs := by
    let c : Command := .addPlayer (Player.guest 1 (some 3))
    let d : Command := .addPlayer (Player.guest 2 none)
    have hc : ((Game.new {} 0).apply c).evicted.map (·.id) = [] := by decide +kernel
    have hd : (((Game.new {} 0).step (.submit c)).apply d).evicted.map (·.id) = [] := by
      decide +kernel
    have htick : ((((Game.new {} 0).step (.submit c)).step (.submit d)).apply .tick).evicted.map
        (·.id) = [1] := by decide +kernel
    show (Game.new {} 0).spelledOut [.submit c, .submit d, .submit .tick] = fs
    rw [spelledOut_submit, hc, spelledOut_submit, hd, spelledOut_submit, htick]
    rfl
  have hev : ((Game.new {} 0).departed es).map (·.evicted) = [true] := by decide +kernel
  obtain ⟨-, -, -, -, -, -, hstream, hmatch, -⟩ := bounded_refines_unbounded {} 0 es hes
  rw [hfs] at hmatch hstream
  have hp : (((Game.new {} 0).run es).players.get? 2).isSome := by decide +kernel
  have hq : (((Game.new {} 0).run fs).players.get? 2).isSome := by decide +kernel
  have htold : (((Game.new {} 0).run es).players.get? 2).all
    fun p => 0x1d :: Wire.putInt32 1 ∈ p.inbox.stream := by decide +kernel
  obtain ⟨p, hp⟩ := Option.isSome_iff_exists.1 hp
  obtain ⟨q, hq⟩ := Option.isSome_iff_exists.1 hq
  rw [hp] at htold
  exact ⟨hes, hfs, hev, hmatch, p, q, hp, hq, (hstream 2 p q hp hq).2, of_decide_eq_true htold⟩

end Game

end BlockWorld
