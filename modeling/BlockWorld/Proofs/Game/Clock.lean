import BlockWorld.Proofs.Game.Stay
import Mathlib.Algebra.Order.Ring.Int
import Mathlib.Data.List.Intervals
import Mathlib.Data.List.Iterate

/-! # The clock and its clients

Only ticks move the clock, all by the same step, and each tells every client the new time. Whoever
misses it has fallen behind and is evicted before the next command, so a client that listens and
whose player is still there has been told of every tick since it joined.
-/

namespace BlockWorld

open Wire

namespace Wire

def Shown.time? : Shown → Option Int64
  | .timeUpdate time => some time
  | _ => none

/-- Where the time is looked for in a stream: in every packet of every buffer, or in the buffers
that hold a time update and nothing else. -/
inductive Scan
  | packets
  | buffers

namespace Scan

def times : Scan → Bytes → List Int64
  | packets, b => (seen b).filterMap Shown.time?
  | buffers, b =>
    match Read.shown b with
    | .ok (.timeUpdate time, []) => [time]
    | _ => []

variable (scan : Scan) {b : Bytes} {p : ServerPacket}

theorem times_eq_nil (h : packets.times b = []) : scan.times b = [] := by
  cases scan with
  | packets => exact h
  | buffers =>
    rw [times]
    split
    · rename_i time hread
      cases b with
      | nil => cases hread
      | cons v b =>
        rw [times, seen, hread] at h
        simp [Shown.time?] at h
    · rfl

theorem times_of_encode (h : p.encode = .ok b) : scan.times b = p.shown.time?.toList := by
  cases scan with
  | packets =>
    rw [times, seen_of_encode h]
    cases p.shown <;> rfl
  | buffers =>
    have hread := Read.reads_shown h []
    rw [List.append_nil] at hread
    rw [times, hread]
    cases p.shown <;> rfl

theorem flatMap_times_buffers (p : ServerPacket) :
    p.buffers.flatMap scan.times = p.shown.time?.toList := by
  unfold ServerPacket.buffers
  cases h : p.encode with
  | ok b => rw [List.flatMap_singleton, scan.times_of_encode h]
  | error e =>
    cases p with
    | timeUpdate time => cases h
    | _ => rfl

theorem times_spawnBuffer (l : List Player) : scan.times (spawnBuffer l) = [] := by
  obtain ⟨bs, hbs, hforms⟩ := forms_spawnBuffer l
  refine scan.times_eq_nil ?_
  rw [times, hbs, seen_flatten hforms, List.map_map, List.filterMap_eq_nil_iff]
  intro s hs
  obtain ⟨q, -, rfl⟩ := List.mem_map.1 hs
  rfl

def heard (p : Player) : List Int64 := p.inbox.stream.flatMap scan.times

end Scan

end Wire

namespace Event

def isTick : Event → Bool
  | .submit .tick => true
  | _ => false

/-- The event does not multicast a buffer that tells the time. -/
def Quiet (scan : Scan) (e : Event) : Prop :=
  ∀ packet except, e = .submit (.multicast packet except) → scan.times packet = []

end Event

def ticks (es : List Event) : ℕ := es.countP Event.isTick

namespace Game

variable {g : Game} {scan : Scan} {id : EntityId} {c : Command} {e : Event} {es : List Event}
  {p : Player}

def nextTime (g : Game) : Int64 := g.time + g.config.tickStep

def told (g : Game) (e : Event) : List Int64 := if e.isTick then [g.nextTime] else []

theorem time_settle (hc : c ≠ .tick) : (g.settle c).time = g.time := by
  cases c with
  | tick => exact absurd rfl hc
  | addPlayer | removePlayer | addItem =>
    rw [settle]
    split <;> rfl
  | _ => rfl

theorem time_apply (hk : g.Keyed) (c : Command) : (g.apply c).game.time = (g.settle c).time :=
  apply_induction hk c (P := fun r => r.time = (g.settle c).time) rfl fun _ _ _ hr _ _ => hr

theorem time_step (hk : g.Keyed) (e : Event) :
    (g.step e).time = if e.isTick then g.nextTime else g.time := by
  cases e with
  | submit c =>
    refine (time_apply hk c).trans ?_
    cases c with
    | tick => rfl
    | _ => exact time_settle nofun
  | read | hangUp => rfl

theorem flatMap_times_welcome (scan : Scan) (p q : Player) :
    (g.welcome p q).flatMap scan.times = [] := by
  have hsurroundings : scan.times (g.surroundings p) = [] := scan.times_spawnBuffer _
  rw [welcome, List.flatMap_append, List.flatMap_append, scan.flatMap_times_buffers]
  split <;> split <;> simp [scan.flatMap_times_buffers, hsurroundings, Player.spawnPacket,
    ServerPacket.shown, Shown.time?]

theorem flatMap_times_farewell (scan : Scan) (p q : Player) :
    (g.farewell p q).flatMap scan.times = [] := by
  rw [farewell, List.flatMap_append, scan.flatMap_times_buffers]
  split <;> simp [scan.flatMap_times_buffers, ServerPacket.shown, Shown.time?]

theorem flatMap_times_mail (hc : (Event.submit c).Quiet scan) (q : Player) :
    (g.mail c q).flatMap scan.times = g.told (.submit c) := by
  cases c with
  | addPlayer p =>
    rw [mail]
    split
    · rfl
    · exact flatMap_times_welcome scan p q
  | removePlayer id =>
    rw [mail]
    cases g.players.get? id with
    | none => rfl
    | some p => exact flatMap_times_farewell scan p q
  | addItem d =>
    rw [mail]
    split
    · rfl
    · show List.flatMap scan.times (if g.isNear d.position.chunk q then _ else []) = []
      split
      · exact scan.flatMap_times_buffers d.spawnPacket
      · rfl
  | multicast packet except =>
    show List.flatMap scan.times (if some q.id != except then [packet] else []) = []
    split
    · rw [List.flatMap_singleton, hc packet except rfl]
    · rfl
  | say text => exact scan.flatMap_times_buffers (.chat text)
  | tick => exact scan.flatMap_times_buffers (.timeUpdate g.nextTime)
  | _ => rfl

/-- A listening client whose player outlives a command is told of it if it is a tick, for whoever
misses a packet is evicted by the same command. -/
theorem heard_apply (hk : g.Keyed) (hc : (Event.submit c).Quiet scan)
    (hp : (g.settle c).players.get? id = some p) (hstays : id ∉ (g.apply c).evicted.map (·.id)) :
    ∃ q, (g.apply c).game.players.get? id = some q ∧ (q.inbox.attended = true →
      p.inbox.attended = true ∧ scan.heard q = scan.heard p ++ g.told (.submit c)) := by
  have hget := get?_apply hk c id
  rw [if_neg hstays, hp] at hget
  refine ⟨_, hget, fun ha => ?_⟩
  rw [Player.receive_attended] at ha
  refine ⟨ha, ?_⟩
  rw [Scan.heard, Player.stream_receive ha (unstalled_apply hk c id _ hget), List.flatMap_append,
    List.flatMap_append, flatMap_times_mail hc, List.flatMap_assoc]
  simp only [flatMap_times_farewell, List.flatMap_eq_nil_iff.2, implies_true, List.append_nil]
  rfl

theorem heard_attend {connection : ℕ} {f : Inbox → Inbox}
    (hf : ∀ i, (f i).attended = true → i.attended = true ∧ (f i).stream = i.stream)
    (hp : g.players.get? id = some p) :
    ∃ q, (g.attend connection f).players.get? id = some q ∧ (q.inbox.attended = true →
      p.inbox.attended = true ∧ scan.heard q = scan.heard p ++ []) := by
  refine ⟨_, get?_attend_eq_some_iff.2 ⟨p, hp, rfl⟩, fun ha => ?_⟩
  rw [List.append_nil]
  split at ha <;> rename_i hconnection
  · obtain ⟨hap, hstream⟩ := hf _ ha
    exact ⟨hap, by rw [Scan.heard, Scan.heard, if_pos hconnection, hstream]⟩
  · exact ⟨ha, by rw [if_neg hconnection]⟩

theorem Consistent.heard_step (h : g.Consistent) (he : e.Quiet scan)
    (hp : g.players.get? id = some p) (hstays : ¬ g.Dismisses id e) :
    ∃ q, (g.step e).players.get? id = some q ∧ (q.inbox.attended = true →
      p.inbox.attended = true ∧ scan.heard q = scan.heard p ++ g.told e) := by
  cases e with
  | submit c =>
    obtain ⟨hremoved, hevicted⟩ := not_or.1 hstays
    exact heard_apply (p := p.guided (.submit c)) h.keyed he (h.settle_kept hp hremoved) hevicted
  | read connection n =>
    exact heard_attend (fun i ha => ⟨ha, by rw [Inbox.stream_eq, Inbox.stream_eq]; rfl⟩) hp
  | hangUp connection => exact heard_attend nofun hp

theorem Consistent.heard_run (h : g.Consistent) (hes : ∀ e ∈ es, e.Quiet scan)
    (hp : g.players.get? id = some p) (hstays : g.Keeps id es) :
    ∃ q, (g.run es).players.get? id = some q ∧ (q.inbox.attended = true →
      p.inbox.attended = true ∧ scan.heard q = scan.heard p ++
        List.iterate (· + g.config.tickStep) g.nextTime (ticks es)) := by
  induction es generalizing g p with
  | nil => exact ⟨p, hp, fun ha => ⟨ha, (List.append_nil _).symm⟩⟩
  | cons e es ih =>
    obtain ⟨hquiet, hes⟩ := List.forall_mem_cons.1 hes
    obtain ⟨r, hr, hfirst⟩ := h.heard_step hquiet hp hstays.1
    obtain ⟨q, hq, hlast⟩ := ih (h.step e) hes hr hstays.2
    refine ⟨q, hq, fun ha => ?_⟩
    obtain ⟨har, hlast⟩ := hlast ha
    obtain ⟨hap, hfirst⟩ := hfirst har
    refine ⟨hap, ?_⟩
    have hconfig : (g.step e).config = g.config := h.config_run [e]
    rw [hlast, hfirst, hconfig, List.append_assoc, nextTime, hconfig, time_step h.keyed, told,
      ticks, ticks, List.countP_cons]
    split <;> rfl

/-- Since it joined, a player that stays has been told of every tick. -/
theorem Stays.heard_run {before since : List Event} (hs : g.Stays before p since)
    (h : g.Consistent) (hsince : ∀ e ∈ since, e.Quiet scan) : ∃ q,
      (g.run (before ++ .submit (.addPlayer p) :: since)).players.get? p.id = some q ∧
        (q.inbox.attended = true → scan.heard q = scan.heard p ++
          List.iterate (· + g.config.tickStep) (g.run before).nextTime (ticks since)) := by
  have hb := h.run before
  have hquiet : (Event.submit (.addPlayer p)).Quiet scan := nofun
  obtain ⟨r, hr, hjoin⟩ := heard_apply hb.keyed hquiet (get?_settle_joined hs.accepted.free)
    (not_or.1 hs.kept.1).2
  obtain ⟨q, hq, hlast⟩ := (hb.step (.submit (.addPlayer p))).heard_run hsince hr hs.kept.2
  rw [run_append]
  refine ⟨q, hq, fun ha => ?_⟩
  obtain ⟨har, hlast⟩ := hlast ha
  have hconfig : ((g.run before).step (.submit (.addPlayer p))).config = (g.run before).config :=
    hb.config_run [.submit (.addPlayer p)]
  rw [hlast, (hjoin har).2, nextTime, nextTime, time_step hb.keyed, hconfig, h.config_run]
  exact congrArg (· ++ _) (List.append_nil _)

theorem Consistent.time_run (h : g.Consistent) (es : List Event) :
    (g.run es).time = (· + g.config.tickStep)^[ticks es] g.time := by
  induction es generalizing g with
  | nil => rfl
  | cons e es ih =>
    have hconfig : (g.step e).config = g.config := h.config_run [e]
    rw [run_cons, ih (h.step e), hconfig, time_step h.keyed, ticks, ticks, List.countP_cons]
    split <;> rfl

end Game

/-! ## Without overflow -/

theorem iterate_add_eq (time step : Int64) (n : ℕ) :
    (· + step)^[n] time = Int64.ofInt (time.toInt + n * step.toInt) := by
  induction n with
  | zero => simp
  | succ n ih =>
    rw [Function.iterate_succ_apply', ih, Nat.cast_add, Nat.cast_one, add_mul, one_mul, ← add_assoc,
      Int64.ofInt_add _ step.toInt, Int64.ofInt_toInt]

theorem toInt_iterate_add {time step : Int64} {n k : ℕ}
    (hlow : -2 ^ 63 ≤ time.toInt + n * step.toInt) (hhigh : time.toInt + n * step.toInt < 2 ^ 63)
    (hk : k ≤ n) : ((· + step)^[k] time).toInt = time.toInt + k * step.toInt := by
  have htime := time.le_toInt
  have htime' := time.toInt_lt
  have hcast : (k : ℤ) ≤ n := by exact_mod_cast hk
  rw [iterate_add_eq]
  rcases le_total 0 step.toInt with hstep | hstep
  · have hzero : 0 ≤ k * step.toInt := mul_nonneg (Int.natCast_nonneg k) hstep
    have hmono : k * step.toInt ≤ n * step.toInt := mul_le_mul_of_nonneg_right hcast hstep
    exact Int64.toInt_ofInt_of_le (by omega) (by omega)
  · have hzero : k * step.toInt ≤ 0 := mul_nonpos_of_nonneg_of_nonpos (Int.natCast_nonneg k) hstep
    have hmono : n * step.toInt ≤ k * step.toInt := mul_le_mul_of_nonpos_right hcast hstep
    exact Int64.toInt_ofInt_of_le (by omega) (by omega)

theorem map_toInt_iterate {time step : Int64} {j m : ℕ}
    (hlow : -2 ^ 63 ≤ time.toInt + (j + m : ℕ) * step.toInt)
    (hhigh : time.toInt + (j + m : ℕ) * step.toInt < 2 ^ 63) :
    (List.iterate (· + step) ((· + step)^[j] time + step) m).map Int64.toInt =
      (List.Ico (j + 1) (j + m + 1)).map fun k : ℕ => time.toInt + k * step.toInt := by
  have hico : List.Ico (j + 1) (j + m + 1) = (List.range m).map (j + 1 + ·) := by
    rw [List.Ico, List.range'_eq_map_range]
    congr 2
    omega
  rw [← List.range_map_iterate, List.map_map, hico, List.map_map]
  refine List.map_congr_left fun i hi => ?_
  have hlt := List.mem_range.1 hi
  have hiterate : (· + step)^[i] ((· + step)^[j] time + step) = (· + step)^[j + 1 + i] time := by
    rw [← Function.iterate_succ_apply' (· + step), ← Function.iterate_add_apply, Nat.add_comm]
  show ((· + step)^[i] ((· + step)^[j] time + step)).toInt = _
  rw [hiterate]
  exact toInt_iterate_add hlow hhigh (by omega)

namespace Game

open Player (guest)

/-- In a run in which the clock does not overflow and no multicast buffer tells the time, the clock
is moved by the ticks alone, by one step each. Whoever is registered at the end and has a client
that listens has been told, after what its stream held when it joined, the time of every tick since,
once each and in order, and no other time. -/
theorem clients_told_every_tick (config : GameConfig) (time : Int64) (es : List Event) (scan : Scan)
    (hlow : -2 ^ 63 ≤ time.toInt + ticks es * config.tickStep.toInt)
    (hhigh : time.toInt + ticks es * config.tickStep.toInt < 2 ^ 63)
    (hquiet : ∀ e ∈ es, e.Quiet scan) :
    let start := Game.new config time
    let g := start.run es
    g.time.toInt = time.toInt + ticks es * config.tickStep.toInt ∧
    (∀ c, c ≠ .tick → (g.apply c).game.time = g.time) ∧
    (∀ id, g.players.contains id → ∃ before p since,
      es = before ++ .submit (.addPlayer p) :: since ∧ p.id = id ∧ start.Stays before p since) ∧
    ∀ before p since, es = before ++ .submit (.addPlayer p) :: since → start.Stays before p since →
      ∃ q, g.players.get? p.id = some q ∧ (q.inbox.attended = true →
        (scan.heard q).map Int64.toInt = (scan.heard p).map Int64.toInt ++
          (List.Ico (ticks before + 1) (ticks es + 1)).map fun k : ℕ =>
            time.toInt + k * config.tickStep.toInt) := by
  intro start g
  have hstart : start.Consistent := .new config time
  have hg : g.Consistent := hstart.run es
  refine ⟨?_, fun c hc => ?_, fun id => (contains_run_new_iff config time).1, ?_⟩
  · have htime : g.time = (· + config.tickStep)^[ticks es] time := hstart.time_run es
    rw [htime, toInt_iterate_add hlow hhigh le_rfl]
  · rw [time_apply hg.keyed, time_settle hc]
  · rintro before p since rfl hstays
    have hticks : ticks (before ++ .submit (.addPlayer p) :: since) =
        ticks before + ticks since := by
      rw [ticks, List.countP_append, List.countP_cons_of_neg (by simp [Event.isTick])]
      rfl
    rw [hticks] at hlow hhigh
    have hsince : ∀ e ∈ since, e.Quiet scan := fun e he =>
      hquiet e (List.mem_append_right _ (List.mem_cons_of_mem _ he))
    obtain ⟨q, hq, hheard⟩ := hstays.heard_run hstart hsince
    refine ⟨q, hq, fun ha => ?_⟩
    have htime : (start.run before).nextTime =
        (· + config.tickStep)^[ticks before] time + config.tickStep := by
      rw [nextTime, hstart.time_run, hstart.config_run]
      rfl
    rw [hheard ha, List.map_append, htime, hticks, ← map_toInt_iterate hlow hhigh]
    rfl

/-- A guest that takes the place of one whom the first tick has cost its own is told of the other
two ticks. -/
theorem clients_told_every_tick_late :
    let before : List Event := [.submit (.addPlayer (guest 1 (some 1))), .submit .tick]
    let since : List Event := [.submit (.multicast [0x1d, 0, 0, 0, 7] none), .submit .tick,
      .read 1 2, .submit (.say "hello"), .submit .tick]
    let start := Game.new {} 5
    let g := start.run (before ++ .submit (.addPlayer (guest 1 none)) :: since)
    (start.run before).players.contains 1 = false ∧ g.time.toInt = 65 ∧
      ∃ q, g.players.get? 1 = some q ∧ q.inbox.attended = true ∧
        ∀ scan : Scan, (scan.heard q).map Int64.toInt = [45, 65] := by
  intro before since start g
  have hquiet : ∀ scan : Scan, ∀ e ∈ before ++ .submit (.addPlayer (guest 1 none)) :: since,
      e.Quiet scan := by
    rintro scan e he packet except rfl
    obtain ⟨rfl, -⟩ : packet = [0x1d, 0, 0, 0, 7] ∧ except = none := by
      simpa [before, since] using he
    exact scan.times_of_encode (p := .destroyEntity 7) rfl
  have hkeyed : (start.run before).Keyed := ((Consistent.new {} 5).run before).keyed
  have hstays : start.Stays before (guest 1 none) since := by
    refine ⟨accepts_addPlayer hkeyed (by decide +kernel), ?_⟩
    exact ⟨not_or.2 ⟨nofun, by decide +kernel⟩, not_or.2 ⟨nofun, by decide +kernel⟩,
      not_or.2 ⟨nofun, by decide +kernel⟩, id, not_or.2 ⟨nofun, by decide +kernel⟩,
      not_or.2 ⟨nofun, by decide +kernel⟩, trivial⟩
  have htold := fun scan =>
    clients_told_every_tick {} 5 _ scan (by decide) (by decide) (hquiet scan)
  obtain ⟨q, hq, -⟩ := (htold .packets).2.2.2 before (guest 1 none) since rfl hstays
  have hattended : (g.players.get? 1).map (·.inbox.attended) = some true := by decide +kernel
  have ha : q.inbox.attended = true := by
    rw [show g.players.get? 1 = some q from hq] at hattended
    exact Option.some.inj hattended
  refine ⟨by decide +kernel, (htold .packets).1, q, hq, ha, fun scan => ?_⟩
  obtain ⟨r, hr, hheard⟩ := (htold scan).2.2.2 before (guest 1 none) since rfl hstays
  obtain rfl : q = r := Option.some.inj (hq.symm.trans hr)
  exact hheard ha

end Game

end BlockWorld
