import BlockWorld.Proofs.Game.Clock
import BlockWorld.Proofs.Game.Timers
import Mathlib.Order.Bounds.Defs

/-! # Timers and the clock

Timers are started at any moment, commands are submitted, and time passes in pieces of any length.
While the task runs, the clock has moved by one step for each whole period of each timer and for
each tick submitted by hand. Once it has stopped the clock stands still, and each timer ends at its
next deadline.

Instants are counted in milliseconds, but any unit in which they are whole numbers will do.
-/

namespace BlockWorld

namespace Host

variable {h : Host} {step time : Int64}

/-- What the clock shows, and by how much a tick moves it. -/
structure Shows (step time : Int64) (h : Host) : Prop where
  keyed : h.game.Keyed
  step_eq : h.game.config.tickStep = step
  time_eq : h.game.time = time

namespace Shows

theorem new (config : GameConfig) (time : Int64) :
    (Host.new config time).Shows config.tickStep time where
  keyed := (Game.Consistent.new config time).keyed
  step_eq := rfl
  time_eq := rfl

theorem submit (hh : h.Shows step time) (c : Command) :
    (h.submit c).1.Shows step ((· + step)^[if (Event.submit c).isTick then 1 else 0] time) where
  keyed := (Game.cascade_apply hh.keyed c).keyed (hh.keyed.perform c)
  step_eq := by
    refine Game.apply_induction hh.keyed c (P := fun r => r.config.tickStep = step) ?_ ?_
    · rw [Game.config_deliver, Game.config_settle, hh.step_eq]
    · intro r p _ hr _ _
      rw [Game.config_deliver, Game.config_forget, hr]
  time_eq := by
    have htime := Game.time_step hh.keyed (.submit c)
    rw [Game.nextTime, hh.step_eq, hh.time_eq] at htime
    refine Eq.trans htime ?_
    split <;> rfl

theorem submitAll_ticks (hh : h.Shows step time) (n : ℕ) :
    (h.submitAll (List.replicate n .tick)).Shows step ((· + step)^[n] time) := by
  induction n generalizing h time with
  | zero => exact hh
  | succ n ih => exact ih (hh.submit .tick)

theorem collect (hh : h.Shows step time) (k : ℕ) : (h.collect k).2.Shows step time := by
  unfold Host.collect
  split
  · refine ⟨fun id q hq => ?_, hh.step_eq, hh.time_eq⟩
    rw [EntityMap.get?_modify] at hq
    split at hq
    · obtain ⟨p, hp, rfl⟩ := Option.map_eq_some_iff.1 hq
      exact hh.keyed id p hp
    · exact hh.keyed id q hq
  · split <;> exact ⟨hh.keyed, hh.step_eq, hh.time_eq⟩

theorem hangUp (hh : h.Shows step time) (k : ℕ) : (h.hangUp k).Shows step time := by
  refine ⟨fun id q hq => ?_, hh.step_eq, hh.time_eq⟩
  rw [Host.hangUp, EntityMap.get?_map, Option.map_eq_some_iff] at hq
  obtain ⟨p, hp, rfl⟩ := hq
  split <;> exact hh.keyed id p hp

theorem stop (hh : h.Shows step time) : h.stop.Shows step time :=
  ⟨fun _ _ hq => (Option.some_ne_none _ hq.symm).elim, hh.step_eq, hh.time_eq⟩

theorem dismiss (hh : h.Shows step time) (p : Player) : (h.dismiss p).Shows step time :=
  ⟨hh.keyed, hh.step_eq, hh.time_eq⟩

end Shows

end Host

namespace GameTask

structure Launch where
  instant : ℕ
  period : ℕ

def Launch.timer (l : Launch) : Timer where
  period := l.period
  deadline := l.instant + l.period

namespace Action

/-- A timer is only started with a period of one at least. -/
def Regular (a : Action) : Prop := ∀ period, a = startTimer period → 1 ≤ period

def duration : Action → ℕ
  | sleep ms => ms
  | _ => 0

def launched (now : ℕ) : Action → List Launch
  | startTimer period => [⟨now, period⟩]
  | _ => []

def isTick : Action → Bool
  | submit c => (Event.submit c).isTick
  | _ => false

end Action

def elapsed (as : List Action) : ℕ := (as.map Action.duration).sum

def launches (now : ℕ) : List Action → List Launch
  | [] => []
  | a :: as => a.launched now ++ launches (now + a.duration) as

/-- How many ticks the timers submit to the running task in an action. -/
def ticksOf (t : GameTask) : Action → ℕ
  | .sleep ms => ticksOfRun (t.now + ms) ms t
  | _ => 0

def timerTicks (t : GameTask) : List Action → ℕ
  | [] => 0
  | a :: as => t.ticksOf a + (t.act a).timerTicks as

theorem elapsed_cons (a : Action) (as : List Action) :
    elapsed (a :: as) = a.duration + elapsed as := rfl

theorem acts_append (t : GameTask) (as bs : List Action) :
    t.acts (as ++ bs) = (t.acts as).acts bs := List.foldl_append

theorem timerTicks_append (t : GameTask) (as bs : List Action) :
    t.timerTicks (as ++ bs) = t.timerTicks as + (t.acts as).timerTicks bs := by
  induction as generalizing t with
  | nil => exact (Nat.zero_add _).symm
  | cons a as ih =>
    show t.ticksOf a + (t.act a).timerTicks (as ++ bs) = _
    rw [ih, ← Nat.add_assoc]
    rfl

theorem launches_append (now : ℕ) (as bs : List Action) :
    launches now (as ++ bs) = launches now as ++ launches (now + elapsed as) bs := by
  induction as generalizing now with
  | nil => rfl
  | cons a as ih =>
    rw [List.cons_append, launches, ih, launches, List.append_assoc, elapsed_cons, Nat.add_assoc]

variable {t : GameTask} {a : Action} {as : List Action} {l : Launch} {now till : ℕ}
  {step time : Int64}

namespace Launch

theorem settled (hp : 1 ≤ l.period) (hnow : now ≤ l.instant) : l.timer.Settled now where
  period_pos := hp
  now_lt _ := hnow.trans_lt (Nat.lt_add_of_pos_right hp)

theorem firings_timer (l : Launch) (now : ℕ) :
    l.timer.firings now = (now - l.instant) / l.period := by
  show (now + l.period - (l.instant + l.period)) / l.period = _
  rw [Nat.add_sub_add_right]

/-- The next deadline of a timer that runs is the next instant a whole number of periods after its
start. -/
theorem isLeast_deadline (hp : 1 ≤ l.period) (now : ℕ) :
    IsLeast {d | now < d ∧ ∃ k, 1 ≤ k ∧ d = l.instant + k * l.period}
      (l.timer.pass true now).deadline := by
  have hdeadline : (l.timer.pass true now).deadline =
      l.instant + ((now - l.instant) / l.period + 1) * l.period := by
    show l.instant + l.period + l.timer.firings now * l.period = _
    rw [firings_timer, Nat.add_mul, Nat.one_mul, Nat.add_right_comm, Nat.add_assoc]
  refine ⟨⟨Timer.lt_deadline_firings hp rfl, _, Nat.le_add_left 1 _, hdeadline⟩, ?_⟩
  rintro d ⟨hlt, k, hk, rfl⟩
  rw [hdeadline]
  refine Nat.add_le_add_left (Nat.mul_le_mul_right _ ?_) _
  rcases Nat.lt_or_ge l.instant now with hstart | hstart
  · exact (Nat.div_lt_iff_lt_mul hp).2 (by omega)
  · rwa [Nat.sub_eq_zero_of_le hstart, Nat.zero_div]

end Launch

theorem instant_of_mem (hl : l ∈ launches now as) :
    now ≤ l.instant ∧ l.instant ≤ now + elapsed as := by
  induction as generalizing now with
  | nil => cases hl
  | cons a as ih =>
    rcases List.mem_append.1 hl with hl | hl
    · cases a with
      | startTimer period =>
        obtain rfl := List.mem_singleton.1 hl
        exact ⟨le_rfl, Nat.le_add_right ..⟩
      | _ => cases hl
    · obtain ⟨hlow, hhigh⟩ := ih hl
      rw [elapsed_cons]
      omega

theorem one_le_period_of_mem (has : ∀ a ∈ as, a.Regular) (hl : l ∈ launches now as) :
    1 ≤ l.period := by
  induction as generalizing now with
  | nil => cases hl
  | cons a as ih =>
    obtain ⟨ha, has⟩ := List.forall_mem_cons.1 has
    rcases List.mem_append.1 hl with hl | hl
    · cases a with
      | startTimer period =>
        obtain rfl := List.mem_singleton.1 hl
        exact ha period rfl
      | _ => cases hl
    · exact ih has hl

/-! ## One action -/

theorem submit_eq (t : GameTask) (c : Command) :
    (t.submit c).2 = { t with host := (t.submit c).2.host } := by
  unfold submit
  split
  · rfl
  · split <;> rfl

theorem stop_eq (t : GameTask) : t.stop = { t with host := t.stop.host, running := false } := by
  unfold stop
  split
  · rfl
  · rename_i hrun
    rw [← Bool.eq_false_of_not_eq_true hrun]

theorem act_cases (h : t.Settled) (ha : a.Regular) :
    (∃ ms, a = .sleep ms ∧ t.act a = t.elapse (t.now + ms) ∧
      t.ticksOf a = t.ticksTill (t.now + ms)) ∨
    (∃ period, a = .startTimer period ∧ 1 ≤ period ∧
      t.act a = { t with timers := t.timers ++ [Launch.timer ⟨t.now, period⟩] }) ∨
    (a.duration = 0 ∧ (∀ now, a.launched now = []) ∧ t.ticksOf a = 0 ∧ ∃ host running,
      (running = true → t.running = true) ∧ t.act a = { t with host, running }) := by
  cases a with
  | sleep ms =>
    obtain ⟨hticks, hsleep⟩ := sleep_eq_elapse h ms
    exact .inl ⟨ms, rfl, hsleep, hticks⟩
  | startTimer period =>
    have hp := ha period rfl
    refine .inr (.inl ⟨period, rfl, hp, ?_⟩)
    rw [act, startTimer, max_eq_left hp]
    rfl
  | submit c => exact .inr (.inr ⟨rfl, fun _ => rfl, rfl, _, t.running, id, t.submit_eq c⟩)
  | collect | hangUp => exact .inr (.inr ⟨rfl, fun _ => rfl, rfl, _, t.running, id, rfl⟩)
  | stop => exact .inr (.inr ⟨rfl, fun _ => rfl, rfl, _, false, nofun, t.stop_eq⟩)
  | release =>
    refine .inr (.inr ⟨rfl, fun _ => rfl, rfl, ?_⟩)
    show ∃ host running, _ ∧ t.release = _
    unfold release
    split
    · exact ⟨_, false, nofun, t.stop_eq⟩
    · exact ⟨t.host, t.running, id, rfl⟩

theorem Settled.act (h : t.Settled) (ha : a.Regular) : (t.act a).Settled := by
  obtain ⟨ms, -, hact, -⟩ | ⟨period, -, hp, hact⟩ | ⟨-, -, -, host, running, -, hact⟩ :=
    act_cases h ha
  · rw [hact]
    exact h.elapse
  · rw [hact]
    intro r hr
    rcases List.mem_append.1 hr with hr | hr
    · exact h r hr
    · obtain rfl := List.mem_singleton.1 hr
      exact Launch.settled hp le_rfl
  · rw [hact]
    exact h

theorem now_act (h : t.Settled) (ha : a.Regular) : (t.act a).now = t.now + a.duration := by
  obtain ⟨ms, rfl, hact, -⟩ | ⟨period, rfl, -, hact⟩ | ⟨hd, -, -, host, running, -, hact⟩ :=
    act_cases h ha
  · rw [hact]
    rfl
  · rw [hact]
    rfl
  · rw [hact, hd]
    rfl

theorem running_of_act (h : t.Settled) (ha : a.Regular) (hrun : (t.act a).running = true) :
    t.running = true := by
  obtain ⟨ms, -, hact, -⟩ | ⟨period, -, -, hact⟩ | ⟨-, -, -, host, running, himp, hact⟩ :=
    act_cases h ha
  · rwa [hact] at hrun
  · rwa [hact] at hrun
  · rw [hact] at hrun
    exact himp hrun

theorem running_act_of_stopped (h : t.Settled) (ha : a.Regular) (hrun : t.running = false) :
    (t.act a).running = false := by
  refine Bool.eq_false_iff.2 fun hact => ?_
  rw [running_of_act h ha hact] at hrun
  cases hrun

/-- What happens after an action happens as it would if the timers it started had been there
before. -/
theorem map_pass_act (h : t.Settled) (ha : a.Regular) (hle : (t.act a).now ≤ till) :
    (t.act a).timers.map (Timer.pass t.running till) =
      (t.timers ++ (a.launched t.now).map Launch.timer).map (Timer.pass t.running till) := by
  obtain ⟨ms, rfl, hact, -⟩ | ⟨period, rfl, -, hact⟩ | ⟨-, hl, -, host, running, -, hact⟩ :=
    act_cases h ha
  · rw [hact] at hle ⊢
    show (t.timers.map (Timer.pass t.running (t.now + ms))).map _ = (t.timers ++ []).map _
    rw [List.map_map, List.append_nil]
    exact List.map_congr_left fun r _ => Timer.pass_pass hle
  · rw [hact]
    rfl
  · rw [hact, hl, List.map_nil, List.append_nil]

/-- The ticks of an action and those after it are those of the timers before it and of what it
started. -/
theorem ticksOf_add (h : t.Settled) (ha : a.Regular) (hrun : t.running = true)
    (hle : (t.act a).now ≤ till) :
    t.ticksOf a + ((t.act a).timers.map (·.firings till)).sum =
      ((t.timers ++ (a.launched t.now).map Launch.timer).map (·.firings till)).sum := by
  obtain ⟨ms, rfl, hact, hticks⟩ | ⟨period, rfl, -, hact⟩ |
    ⟨-, hl, hticks, host, running, -, hact⟩ := act_cases h ha
  · rw [hact] at hle ⊢
    have hsplit : t.ticksTill till =
        t.ticksTill (t.now + ms) + (t.elapse (t.now + ms)).ticksTill till := ticksTill_elapse hle
    have hrun' : (t.elapse (t.now + ms)).running = true := hrun
    have hnone : (Action.sleep ms).launched t.now = [] := rfl
    rw [ticksTill, if_pos hrun, ← hticks, ticksTill, if_pos hrun'] at hsplit
    rw [hnone, List.map_nil, List.append_nil, hsplit]
  · rw [hact]
    exact Nat.zero_add _
  · rw [hact, hl, hticks, List.map_nil, List.append_nil, Nat.zero_add]

/-! ## A course of actions -/

theorem Settled.acts (h : t.Settled) (has : ∀ a ∈ as, a.Regular) : (t.acts as).Settled := by
  induction as generalizing t with
  | nil => exact h
  | cons a as ih =>
    obtain ⟨ha, has⟩ := List.forall_mem_cons.1 has
    exact ih (h.act ha) has

theorem now_acts (h : t.Settled) (has : ∀ a ∈ as, a.Regular) :
    (t.acts as).now = t.now + elapsed as := by
  induction as generalizing t with
  | nil => rfl
  | cons a as ih =>
    obtain ⟨ha, has⟩ := List.forall_mem_cons.1 has
    show ((t.act a).acts as).now = _
    rw [ih (h.act ha) has, now_act h ha, elapsed_cons, Nat.add_assoc]

theorem now_le_acts (h : t.Settled) (has : ∀ a ∈ as, a.Regular) : t.now ≤ (t.acts as).now := by
  rw [now_acts h has]
  exact Nat.le_add_right ..

theorem running_of_acts (h : t.Settled) (has : ∀ a ∈ as, a.Regular)
    (hrun : (t.acts as).running = true) : t.running = true := by
  induction as generalizing t with
  | nil => exact hrun
  | cons a as ih =>
    obtain ⟨ha, has⟩ := List.forall_mem_cons.1 has
    exact running_of_act h ha (ih (h.act ha) has hrun)

theorem running_act (h : t.Settled) (has : ∀ b ∈ a :: as, b.Regular)
    (hrun : (t.acts (a :: as)).running = t.running) : (t.act a).running = t.running := by
  obtain ⟨ha, has⟩ := List.forall_mem_cons.1 has
  rw [Bool.eq_iff_iff]
  exact ⟨running_of_act h ha, fun ht => running_of_acts (h.act ha) has (hrun.trans ht)⟩

/-- Where the timers stand after a course of actions in which the task was not stopped. -/
theorem timers_acts (h : t.Settled) (has : ∀ a ∈ as, a.Regular)
    (hrun : (t.acts as).running = t.running) :
    (t.acts as).timers = (t.timers ++ (launches t.now as).map Launch.timer).map
      (Timer.pass t.running (t.acts as).now) := by
  induction as generalizing t with
  | nil =>
    rw [launches, List.map_nil, List.append_nil]
    exact (congrArg GameTask.timers (elapse_now h)).symm
  | cons a as ih =>
    have hact := running_act h has hrun
    obtain ⟨ha, has⟩ := List.forall_mem_cons.1 has
    have hle := now_le_acts (h.act ha) has
    show ((t.act a).acts as).timers = _
    rw [ih (h.act ha) has (hrun.trans hact.symm), hact, List.map_append, map_pass_act h ha hle,
      now_act h ha, ← List.map_append, List.append_assoc, ← List.map_append]
    rfl

theorem timerTicks_eq (h : t.Settled) (has : ∀ a ∈ as, a.Regular)
    (hrun : (t.acts as).running = true) :
    t.timerTicks as = ((t.timers ++ (launches t.now as).map Launch.timer).map
      (·.firings (t.acts as).now)).sum := by
  induction as generalizing t with
  | nil =>
    have hzero := (elapse_of_lt h fun r hr => (h r hr).now_lt).1
    have ht : t.running = true := hrun
    rw [ticksTill, if_pos ht] at hzero
    rw [launches, List.map_nil, List.append_nil]
    exact hzero.symm
  | cons a as ih =>
    have ht := running_of_acts h has hrun
    obtain ⟨ha, has⟩ := List.forall_mem_cons.1 has
    have hadd := ticksOf_add h ha ht (now_le_acts (h.act ha) has)
    show t.ticksOf a + (t.act a).timerTicks as = _
    rw [ih (h.act ha) has hrun, List.map_append, List.sum_append, ← Nat.add_assoc, hadd,
      now_act h ha, ← List.sum_append, ← List.map_append, List.append_assoc, ← List.map_append]
    rfl

theorem timers_of_running (h : t.Settled) (hnil : t.timers = []) (has : ∀ a ∈ as, a.Regular)
    (hrun : (t.acts as).running = true) :
    (t.acts as).timers = (launches t.now as).map fun l => l.timer.pass true (t.acts as).now := by
  have ht := running_of_acts h has hrun
  rw [timers_acts h has (hrun.trans ht.symm), hnil, ht, List.nil_append, List.map_map]
  rfl

theorem timerTicks_of_running (h : t.Settled) (hnil : t.timers = []) (has : ∀ a ∈ as, a.Regular)
    (hrun : (t.acts as).running = true) :
    t.timerTicks as =
      ((launches t.now as).map fun l => ((t.acts as).now - l.instant) / l.period).sum := by
  rw [timerTicks_eq h has hrun, hnil, List.nil_append, List.map_map]
  exact congrArg List.sum (List.map_congr_left fun l _ => l.firings_timer _)

theorem timerTicks_of_stopped (h : t.Settled) (has : ∀ a ∈ as, a.Regular)
    (hrun : t.running = false) : t.timerTicks as = 0 := by
  induction as generalizing t with
  | nil => rfl
  | cons a as ih =>
    obtain ⟨ha, has⟩ := List.forall_mem_cons.1 has
    have hact := running_act_of_stopped h ha hrun
    have hticks : t.ticksOf a = 0 := by
      obtain ⟨ms, rfl, -, hticks⟩ | ⟨period, rfl, -, -⟩ | ⟨-, -, hticks, -⟩ := act_cases h ha
      · rw [hticks, ticksTill, if_neg (Bool.eq_false_iff.1 hrun)]
      · rfl
      · exact hticks
    show t.ticksOf a + (t.act a).timerTicks as = 0
    rw [hticks, ih (h.act ha) has hact]

/-! ## The clock -/

theorem shows_act (h : t.Settled) (hrun : t.running = true) (ht : t.host.Shows step time) :
    (t.act a).host.Shows step ((· + step)^[t.ticksOf a + if a.isTick then 1 else 0] time) := by
  cases a with
  | submit c =>
    have hticks : t.ticksOf (.submit c) = 0 := rfl
    show (t.submit c).2.host.Shows _ _
    unfold submit
    rw [if_pos hrun, hticks, Nat.zero_add]
    exact ht.submit c
  | sleep ms =>
    obtain ⟨hticks, hsleep⟩ := sleep_eq_elapse h ms
    show (t.sleep ms).host.Shows _ _
    rw [hsleep, ticksOf, hticks]
    exact ht.submitAll_ticks _
  | startTimer => exact ht
  | collect connection => exact ht.collect connection
  | hangUp connection => exact ht.hangUp connection
  | stop =>
    show t.stop.host.Shows _ _
    rw [stop, if_pos hrun]
    exact ht.stop
  | release =>
    show t.release.host.Shows step time
    rw [release, stop, if_pos hrun]
    split
    · exact ht.stop
    · exact ht

theorem shows_act_of_stopped (h : t.Settled) (hrun : t.running = false)
    (ht : t.host.Shows step time) : (t.act a).host.Shows step time := by
  have hnot := Bool.eq_false_iff.1 hrun
  cases a with
  | submit c =>
    show (t.submit c).2.host.Shows _ _
    unfold submit
    rw [if_neg hnot]
    split
    · exact ht.dismiss _
    · exact ht
  | sleep ms =>
    obtain ⟨-, hsleep⟩ := sleep_eq_elapse h ms
    show (t.sleep ms).host.Shows _ _
    rw [hsleep, elapse, ticksTill, if_neg hnot]
    exact ht
  | startTimer => exact ht
  | collect connection => exact ht.collect connection
  | hangUp connection => exact ht.hangUp connection
  | stop =>
    show t.stop.host.Shows _ _
    rwa [stop, if_neg hnot]
  | release =>
    show t.release.host.Shows _ _
    rw [release, stop, if_neg hnot, ite_self]
    exact ht

theorem shows_acts (h : t.Settled) (has : ∀ a ∈ as, a.Regular)
    (hrun : (t.acts as).running = true) (ht : t.host.Shows step time) :
    (t.acts as).host.Shows step
      ((· + step)^[t.timerTicks as + as.countP Action.isTick] time) := by
  induction as generalizing t time with
  | nil => exact ht
  | cons a as ih =>
    have hact := shows_act (a := a) h (running_of_acts h has hrun) ht
    obtain ⟨ha, has⟩ := List.forall_mem_cons.1 has
    have hcount : t.timerTicks (a :: as) + (a :: as).countP Action.isTick =
        (t.act a).timerTicks as + as.countP Action.isTick +
          (t.ticksOf a + if a.isTick then 1 else 0) := by
      rw [List.countP_cons, timerTicks]
      omega
    rw [hcount, Function.iterate_add_apply]
    exact ih (h.act ha) has hrun hact

theorem shows_acts_of_stopped (h : t.Settled) (has : ∀ a ∈ as, a.Regular)
    (hrun : t.running = false) (ht : t.host.Shows step time) :
    (t.acts as).running = false ∧ (t.acts as).host.Shows step time := by
  induction as generalizing t with
  | nil => exact ⟨hrun, ht⟩
  | cons a as ih =>
    obtain ⟨ha, has⟩ := List.forall_mem_cons.1 has
    have hact := running_act_of_stopped h ha hrun
    exact ih (h.act ha) has hact (shows_act_of_stopped h hrun ht)

/-- It makes no difference in how many pieces time passes. -/
theorem acts_map_sleep (h : t.Settled) (naps : List ℕ) :
    t.acts (naps.map .sleep) = t.sleep naps.sum := by
  induction naps generalizing t with
  | nil =>
    show t = t.sleep 0
    rw [(sleep_eq_elapse h 0).2]
    exact (elapse_now h).symm
  | cons nap naps ih =>
    have hnap := (sleep_eq_elapse h nap).2
    have helapse : (t.elapse (t.now + nap)).Settled := h.elapse
    show (t.sleep nap).acts (naps.map .sleep) = _
    rw [hnap, ih helapse, (sleep_eq_elapse helapse _).2, (sleep_eq_elapse h _).2, List.sum_cons,
      ← Nat.add_assoc]
    exact elapse_elapse (Nat.le_add_right ..)

/-! ## The end of the task -/

theorem act_of_stopped (h : t.Settled) (hrun : t.running = true)
    (hstopped : (t.act a).running = false) :
    (a = .stop ∨ a = .release) ∧ t.act a = { t with host := t.host.stop, running := false } := by
  have hstop : t.stop = { t with host := t.host.stop, running := false } := by
    rw [stop, if_pos hrun]
  cases a with
  | submit c =>
    have hsubmit : (t.act (.submit c)).running = t.running := by
      rw [act, t.submit_eq c]
    cases hstopped.symm.trans (hsubmit.trans hrun)
  | sleep ms =>
    have hsleep : (t.act (.sleep ms)).running = t.running := by
      rw [act, (sleep_eq_elapse h ms).2]
      rfl
    cases hstopped.symm.trans (hsleep.trans hrun)
  | startTimer | collect | hangUp => cases hstopped.symm.trans hrun
  | stop => exact ⟨.inl rfl, hstop⟩
  | release =>
    refine ⟨.inr rfl, ?_⟩
    show t.release = _
    by_cases hended : t.timers.all (·.ended)
    · rw [release, if_pos hended, hstop]
    · have hkept : t.act .release = t := if_neg hended
      rw [hkept, hrun] at hstopped
      cases hstopped

/-- The timers of a stopped task: those that were started before the stop have run until then, and
each of them, like those that were started since, has yet to reach its next deadline or has ended
there. -/
theorem timers_acts_of_stopped {ls : List Launch} (h : t.Settled) (hrun : t.running = false)
    (htimers : t.timers = ls.map fun l => l.timer.pass true t.now)
    (has : ∀ a ∈ as, a.Regular) (hend : (t.acts as).running = false) :
    (t.acts as).timers = (ls ++ launches t.now as).map fun l =>
      (l.timer.pass true t.now).pass false (t.acts as).now := by
  have hnew : (launches t.now as).map Launch.timer =
      (launches t.now as).map fun l => l.timer.pass true t.now := by
    refine List.map_congr_left fun l hl => ?_
    have hsettled := Launch.settled (one_le_period_of_mem has hl) (instant_of_mem hl).1
    exact (Timer.pass_of_lt hsettled.period_pos hsettled.now_lt).symm
  rw [timers_acts h has (hend.trans hrun.symm), htimers, hnew, ← List.map_append, List.map_map,
    hrun]
  rfl

/-- From the stop on, nothing is left of the timers but their next deadlines. -/
theorem acts_of_stop {ls : List Launch} (h : t.Settled) (hrun : t.running = true)
    (hstopped : (t.act a).running = false)
    (htimers : t.timers = ls.map fun l => l.timer.pass true t.now)
    (has : ∀ b ∈ as, b.Regular) (ht : t.host.Shows step time) :
    (t.acts (a :: as)).running = false ∧ (t.acts (a :: as)).host.Shows step time ∧
      t.timerTicks (a :: as) = 0 ∧
      (t.acts (a :: as)).timers = (ls ++ launches t.now (a :: as)).map fun l =>
        (l.timer.pass true t.now).pass false (t.acts (a :: as)).now := by
  obtain ⟨hstop, hact⟩ := act_of_stopped h hrun hstopped
  have hsettled : (t.act a).Settled := hact ▸ h
  have hnow : (t.act a).now = t.now := by rw [hact]
  have hshown : (t.act a).host.Shows step time := by
    rw [hact]
    exact ht.stop
  have hkept : (t.act a).timers = ls.map fun l => l.timer.pass true (t.act a).now := by
    rw [hact]
    exact htimers
  have hlaunches : launches t.now (a :: as) = launches (t.act a).now as := by
    rw [hnow]
    rcases hstop with rfl | rfl <;> rfl
  have hticks : t.ticksOf a = 0 := by rcases hstop with rfl | rfl <;> rfl
  obtain ⟨hend, hlast⟩ := shows_acts_of_stopped hsettled has hstopped hshown
  -- Stopping starts nothing and takes no time, so the rest is the course of a stopped task.
  refine ⟨hend, hlast, ?_, ?_⟩
  · rw [timerTicks, hticks, timerTicks_of_stopped hsettled has hstopped]
  · rw [hlaunches, ← hnow]
    exact timers_acts_of_stopped hsettled hstopped hkept has hend

/-- The course of actions of a task from its start. The clock is moved by one step for each whole
period of each timer and for each tick that is submitted, and it makes no difference in how many
pieces time passes. When the task is stopped, each timer ends at its first deadline from then on,
whether it was started before or after, and no tick is applied any more. -/
theorem timers_neither_gain_nor_lose (config : GameConfig) (time : Int64) (as : List Action)
    (hperiods : ∀ period, .startTimer period ∈ as → 1 ≤ period) :
    let start := GameTask.new config time
    let t := start.acts as
    let owed := ((launches 0 as).map fun l => (t.now - l.instant) / l.period).sum
    (t.now = elapsed as ∧ ∀ l ∈ launches 0 as, l.instant ≤ t.now) ∧
    (∀ before ms after, as = before ++ .sleep ms :: after →
      ((start.acts before).sleep ms).host = (start.acts before).host.submitAll
        (List.replicate ((start.acts before).ticksOf (.sleep ms)) .tick)) ∧
    (t.running = true →
      (∀ r ∈ t.timers, r.ended = false ∧ t.now < r.deadline) ∧
      start.timerTicks as = owed ∧
      let total := time.toInt + (owed + as.countP Action.isTick : ℕ) * config.tickStep.toInt
      t.host.game.time = Int64.ofInt total ∧
      (-2 ^ 63 ≤ total → total < 2 ^ 63 → t.host.game.time.toInt = total)) ∧
    (∀ before (naps : List ℕ) after, as = before ++ .sleep naps.sum :: after →
      start.acts (before ++ naps.map .sleep ++ after) = t) ∧
    (∀ before a after, as = before ++ a :: after → (start.acts before).running = true →
      ((start.acts before).act a).running = false →
      let u := start.acts before
      t.running = false ∧ t.host.game.time = u.host.game.time ∧
      start.timerTicks as = start.timerTicks before ∧
      List.Forall₂ (fun l r => ∃ d,
          IsLeast {d | u.now < d ∧ ∃ k, 1 ≤ k ∧ d = l.instant + k * l.period} d ∧
            (r.ended = true ↔ d ≤ t.now))
        (launches 0 as) t.timers) := by
  intro start t owed
  have has : ∀ a ∈ as, a.Regular := fun a ha period hperiod => hperiods period (hperiod ▸ ha)
  have hstart : start.Settled := nofun
  have hshows : start.host.Shows config.tickStep time := .new config time
  have hnow : t.now = elapsed as := (now_acts hstart has).trans (Nat.zero_add _)
  refine ⟨⟨hnow, fun l hl => ?_⟩, ?_, ?_, ?_, ?_⟩
  · rw [hnow, ← Nat.zero_add (elapsed as)]
    exact (instant_of_mem hl).2
  · rintro before ms after rfl
    have hu : (start.acts before).Settled :=
      hstart.acts fun a ha => has a (List.mem_append_left _ ha)
    obtain ⟨hticks, hsleep⟩ := sleep_eq_elapse hu ms
    rw [hsleep, ticksOf, hticks]
    rfl
  · intro hrun
    have hticks : start.timerTicks as = owed := timerTicks_of_running hstart rfl has hrun
    have htime : t.host.game.time = Int64.ofInt
        (time.toInt + (owed + as.countP Action.isTick : ℕ) * config.tickStep.toInt) := by
      rw [← iterate_add_eq, ← hticks]
      exact (shows_acts hstart has hrun hshows).time_eq
    refine ⟨fun r hr => ?_, hticks, htime, fun hlow hhigh => ?_⟩
    · have hended : r.ended = false := by
        rw [timers_of_running hstart rfl has hrun] at hr
        obtain ⟨l, -, rfl⟩ := List.mem_map.1 hr
        rfl
      exact ⟨hended, (hstart.acts has r hr).now_lt hended⟩
    · rw [htime]
      exact Int64.toInt_ofInt_of_le hlow (by omega)
  · rintro before naps after rfl
    have hu : (start.acts before).Settled :=
      hstart.acts fun a ha => has a (List.mem_append_left _ ha)
    show _ = start.acts (before ++ .sleep naps.sum :: after)
    rw [acts_append, acts_append, acts_map_sleep hu, acts_append]
    rfl
  · rintro before a after rfl hrun hstopped u
    have hbefore : ∀ b ∈ before, b.Regular := fun b hb => has b (List.mem_append_left _ hb)
    have hafter : ∀ b ∈ after, b.Regular := fun b hb =>
      has b (List.mem_append_right _ (List.mem_cons_of_mem _ hb))
    have hshown := shows_acts hstart hbefore hrun hshows
    have hlaunches : launches 0 (before ++ a :: after) =
        launches start.now before ++ launches u.now (a :: after) := by
      rw [launches_append, show u.now = 0 + elapsed before from now_acts hstart hbefore]
      rfl
    obtain ⟨hend, hlast, hticks, htimers⟩ := acts_of_stop (hstart.acts hbefore) hrun hstopped
      (timers_of_running hstart rfl hbefore hrun) hafter ⟨hshown.keyed, hshown.step_eq, rfl⟩
    rw [← acts_append] at hend hlast htimers
    refine ⟨hend, hlast.time_eq, ?_, ?_⟩
    · rw [timerTicks_append, hticks, Nat.add_zero]
    · rw [htimers, ← hlaunches]
      refine List.forall₂_map_right_iff.2 (List.forall₂_same.2 fun l hl => ?_)
      refine ⟨_, l.isLeast_deadline (one_le_period_of_mem has hl) u.now, ?_⟩
      show (false || decide _) = true ↔ _
      rw [Bool.false_or, decide_eq_true_eq]

/-- Two timers with periods of 1000 and 300 run until 2000, and the second ends at 2200. -/
theorem timers_neither_gain_nor_lose_stopped_between :
    let as : List Action :=
      [.startTimer 1000, .sleep 700, .startTimer 300, .submit .tick, .sleep 1300]
    let bs : List Action := as ++ [.stop, .sleep 200]
    (∀ period, .startTimer period ∈ bs → 1 ≤ period) ∧
    ((GameTask.new {} 0).acts as).running = true ∧ (GameTask.new {} 0).timerTicks as = 2 + 4 ∧
    ((GameTask.new {} 0).acts as).host.game.time.toInt = (6 + 1) * 20 ∧
    ((GameTask.new {} 0).acts bs).running = false ∧
    ((GameTask.new {} 0).acts bs).host.game.time = ((GameTask.new {} 0).acts as).host.game.time ∧
    (GameTask.new {} 0).timerTicks bs = 6 ∧
    ((GameTask.new {} 0).acts bs).timers.map (·.ended) = [false, true] := by
  intro as bs
  have hperiods : ∀ period, .startTimer period ∈ bs → 1 ≤ period := by
    intro period h
    simp only [bs, as, List.cons_append, List.nil_append, List.mem_cons, Action.startTimer.injEq,
      reduceCtorEq, List.not_mem_nil, or_false, false_or] at h
    omega
  have hrun : ((GameTask.new {} 0).acts as).running = true := by decide +kernel
  obtain ⟨-, -, hrunning, -, -⟩ := timers_neither_gain_nor_lose {} 0 as fun period h =>
    hperiods period (List.mem_append_left _ h)
  obtain ⟨-, hticks, -, htime⟩ := hrunning hrun
  obtain ⟨-, -, -, -, hstop⟩ := timers_neither_gain_nor_lose {} 0 bs hperiods
  obtain ⟨hend, hlast, hsame, -⟩ := hstop as .stop [.sleep 200] rfl hrun (by decide +kernel)
  have howed : (GameTask.new {} 0).timerTicks as = 6 := hticks.trans (by decide +kernel)
  have hclock : ((GameTask.new {} 0).acts as).host.game.time.toInt = (6 + 1) * 20 := by
    refine (htime (by decide +kernel) (by decide +kernel)).trans ?_
    decide +kernel
  exact ⟨hperiods, hrun, howed, hclock, hend, hlast, hsame.trans howed, by decide +kernel⟩

end GameTask

end BlockWorld
