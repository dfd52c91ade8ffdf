import BlockWorld.Game.Timed
import Mathlib.Algebra.BigOperators.Group.List.Basic
import Mathlib.Algebra.Ring.Nat
import Mathlib.Data.Bool.Basic

/-! # What a sleep does

Time passes from deadline to deadline, but what it does to the timers and the game can be told at
once: each timer submits a tick for each of its deadlines in between, and one that cannot submit
ends at its first. So it makes no difference in how many sleeps the time passes.
-/

namespace BlockWorld

namespace Timer

variable {r : Timer} {running : Bool} {now till till' : ℕ}

def isDue (instant : ℕ) (r : Timer) : Bool := !r.ended && r.deadline == instant

/-- How many deadlines of the timer there are up to an instant. -/
def firings (r : Timer) (till : ℕ) : ℕ :=
  if r.ended then 0 else (till + r.period - r.deadline) / r.period

/-- The timer when all up to an instant has happened, in a game that runs or has stopped. -/
def pass (running : Bool) (till : ℕ) (r : Timer) : Timer :=
  if running then { r with deadline := r.deadline + r.firings till * r.period }
  else { r with ended := r.ended || decide (r.deadline ≤ till) }

structure Settled (now : ℕ) (r : Timer) : Prop where
  period_pos : 0 < r.period
  now_lt : r.ended = false → now < r.deadline

theorem firings_of_lt (hp : 0 < r.period) (h : r.ended = false → till < r.deadline) :
    r.firings till = 0 := by
  unfold firings
  split
  · rfl
  · rename_i he
    have hlt := h (Bool.eq_false_of_not_eq_true he)
    exact Nat.div_eq_of_lt (by omega)

theorem firings_of_isDue (hp : 0 < r.period) (h : r.isDue till) : r.firings till = 1 := by
  obtain ⟨he, rfl⟩ : r.ended = false ∧ r.deadline = till := by simpa [isDue] using h
  unfold firings
  rw [if_neg (Bool.eq_false_iff.1 he), Nat.add_sub_cancel_left, Nat.div_self hp]

theorem sum_map_isDue (timers : List Timer) :
    (timers.map fun r => if r.isDue till then 1 else 0).sum = timers.countP (·.isDue till) := by
  induction timers with
  | nil => rfl
  | cons r timers ih => rw [List.map_cons, List.sum_cons, ih, List.countP_cons, Nat.add_comm]

theorem lt_deadline_firings (hp : 0 < r.period) (he : r.ended = false) :
    till < r.deadline + r.firings till * r.period := by
  have hlt := Nat.lt_div_mul_add (a := till + r.period - r.deadline) hp
  unfold firings
  rw [if_neg (Bool.eq_false_iff.1 he)]
  omega

theorem pass_of_lt (hp : 0 < r.period) (h : r.ended = false → till < r.deadline) :
    r.pass running till = r := by
  unfold pass
  split
  · rw [firings_of_lt hp h, Nat.zero_mul, Nat.add_zero]
  · cases he : r.ended with
    | true => rw [Bool.true_or, ← he]
    | false => rw [Bool.false_or, decide_eq_false (Nat.not_le.2 (h he)), ← he]

theorem Settled.pass (h : r.Settled now) : (r.pass running till).Settled till := by
  unfold Timer.pass
  split
  · exact ⟨h.period_pos, lt_deadline_firings h.period_pos⟩
  · refine ⟨h.period_pos, fun he => ?_⟩
    simpa using (Bool.or_eq_false_iff.1 he).2

theorem firings_pass (hle : till ≤ till') :
    r.firings till' = r.firings till + (r.pass true till).firings till' := by
  have hmono : (till + r.period - r.deadline) / r.period ≤
      (till' + r.period - r.deadline) / r.period := Nat.div_le_div_right (by omega)
  simp only [firings, pass, if_true]
  split
  · rfl
  · rw [Nat.sub_add_eq, Nat.mul_comm, Nat.sub_mul_div, Nat.add_sub_of_le hmono]

theorem pass_pass (hle : till ≤ till') :
    (r.pass running till).pass running till' = r.pass running till' := by
  cases running with
  | true =>
    have hfirings := firings_pass (r := r) hle
    simp only [pass, if_true] at hfirings ⊢
    rw [hfirings, Nat.add_mul, Nat.add_assoc]
  | false =>
    simp only [pass, Bool.false_eq_true, if_false, Bool.or_assoc]
    congr 2
    rw [Bool.eq_iff_iff]
    simp only [Bool.or_eq_true, decide_eq_true_eq]
    omega

end Timer

namespace Host

theorem submitAll_append (h : Host) (cs ds : List Command) :
    h.submitAll (cs ++ ds) = (h.submitAll cs).submitAll ds := List.foldl_append

end Host

namespace GameTask

variable {t : GameTask} {till till' n d : ℕ}

def Settled (t : GameTask) : Prop := ∀ r ∈ t.timers, r.Settled t.now

def ticksTill (t : GameTask) (till : ℕ) : ℕ :=
  if t.running then (t.timers.map (·.firings till)).sum else 0

/-- The task when all up to an instant has happened. -/
def elapse (t : GameTask) (till : ℕ) : GameTask :=
  { t with
    host := t.host.submitAll (List.replicate (t.ticksTill till) .tick)
    timers := t.timers.map (.pass t.running till)
    now := till }

theorem Settled.elapse (h : t.Settled) : (t.elapse till).Settled := by
  intro r hr
  obtain ⟨q, hq, rfl⟩ := List.mem_map.1 hr
  exact (h q hq).pass

theorem elapse_of_lt (h : t.Settled)
    (hlt : ∀ r ∈ t.timers, r.ended = false → till < r.deadline) :
    t.ticksTill till = 0 ∧ t.elapse till = { t with now := till } := by
  have hticks : t.ticksTill till = 0 := by
    unfold ticksTill
    split
    · refine List.sum_eq_zero fun k hk => ?_
      obtain ⟨r, hr, rfl⟩ := List.mem_map.1 hk
      exact Timer.firings_of_lt (h r hr).period_pos (hlt r hr)
    · rfl
  have htimers : t.timers.map (.pass t.running till) = t.timers := by
    refine (List.map_congr_left fun r hr => ?_).trans (List.map_id t.timers)
    exact Timer.pass_of_lt (h r hr).period_pos (hlt r hr)
  refine ⟨hticks, ?_⟩
  rw [elapse, hticks, htimers]
  rfl

theorem elapse_now (h : t.Settled) : t.elapse t.now = t :=
  (elapse_of_lt h fun r hr => (h r hr).now_lt).2

theorem ticksTill_elapse (hle : till ≤ till') :
    t.ticksTill till' = t.ticksTill till + (t.elapse till).ticksTill till' := by
  cases hrun : t.running with
  | false => simp [ticksTill, elapse, hrun]
  | true =>
    simp only [ticksTill, elapse, hrun, if_true, List.map_map, ← List.sum_map_add]
    refine congrArg List.sum (List.map_congr_left fun r _ => ?_)
    exact Timer.firings_pass hle

theorem elapse_elapse (hle : till ≤ till') : (t.elapse till).elapse till' = t.elapse till' := by
  have hhost : (t.elapse till).host.submitAll
      (List.replicate ((t.elapse till).ticksTill till') .tick) =
        t.host.submitAll (List.replicate (t.ticksTill till') .tick) := by
    rw [ticksTill_elapse (t := t) hle, List.replicate_add, Host.submitAll_append]
    rfl
  have htimers : (t.elapse till).timers.map (Timer.pass t.running till') =
      t.timers.map (Timer.pass t.running till') := by
    unfold elapse
    rw [List.map_map]
    exact List.map_congr_left fun r _ => Timer.pass_pass hle
  rw [elapse, hhost]
  exact congrArg (fun timers => { t.elapse till' with timers }) htimers

/-! ## From deadline to deadline -/

def ticksAt (t : GameTask) (instant : ℕ) : ℕ :=
  if t.running then t.timers.countP (·.isDue instant) else 0

def ticksOfRun (till : ℕ) : ℕ → GameTask → ℕ
  | 0, _ => 0
  | n + 1, t =>
    match nextDeadline t.timers with
    | some d => if d ≤ till then t.ticksAt d + ticksOfRun till n (t.fire d) else 0
    | none => 0

theorem nextDeadline_eq_some {timers : List Timer} (h : nextDeadline timers = some d) :
    (∃ r ∈ timers, r.ended = false ∧ r.deadline = d) ∧
      ∀ r ∈ timers, r.ended = false → d ≤ r.deadline := by
  obtain ⟨hmem, hmin⟩ := List.min?_eq_some_iff.1 h
  simp only [List.mem_map, List.mem_filter, Bool.not_eq_true'] at hmem hmin
  constructor
  · obtain ⟨r, ⟨hr, he⟩, rfl⟩ := hmem
    exact ⟨r, hr, he, rfl⟩
  · intro r hr he
    exact hmin _ ⟨r, ⟨hr, he⟩, rfl⟩

theorem nextDeadline_eq_none {timers : List Timer} (h : nextDeadline timers = none) :
    ∀ r ∈ timers, r.ended = true := by
  simpa [nextDeadline, List.filter_eq_nil_iff] using h

/-- Up to the earliest deadline, one tick of each timer that is due is all that happens. -/
theorem fire_eq_elapse (h : t.Settled)
    (hd : ∀ r ∈ t.timers, r.ended = false → d ≤ r.deadline) :
    t.ticksAt d = t.ticksTill d ∧ t.fire d = t.elapse d := by
  have hnot : ∀ r ∈ t.timers, ¬r.isDue d → r.ended = false → d < r.deadline := by
    intro r hr hdue he
    have hne : r.deadline ≠ d := by simpa [Timer.isDue, he] using hdue
    exact lt_of_le_of_ne (hd r hr he) hne.symm
  have hfirings : ∀ r ∈ t.timers, r.firings d = if r.isDue d then 1 else 0 := by
    intro r hr
    split
    · exact Timer.firings_of_isDue (h r hr).period_pos ‹_›
    · exact Timer.firings_of_lt (h r hr).period_pos (hnot r hr ‹_›)
  have hticks : t.ticksAt d = t.ticksTill d := by
    unfold ticksAt ticksTill
    rw [List.map_congr_left hfirings, Timer.sum_map_isDue]
  have htimers : (t.fire d).timers = (t.elapse d).timers := by
    refine List.map_congr_left fun r hr => ?_
    show (if r.isDue d then _ else r) = _
    split
    · rename_i hdue
      unfold Timer.pass
      rw [Timer.firings_of_isDue (h r hr).period_pos hdue, Nat.one_mul]
      obtain ⟨-, rfl⟩ : r.ended = false ∧ r.deadline = d := by simpa [Timer.isDue] using hdue
      rw [decide_eq_true le_rfl, Bool.or_true]
    · exact (Timer.pass_of_lt (h r hr).period_pos (hnot r hr ‹_›)).symm
  have hhost : (t.fire d).host = (t.elapse d).host := by
    unfold elapse
    rw [← hticks, ticksAt]
    unfold fire
    split <;> rfl
  refine ⟨hticks, ?_⟩
  calc t.fire d = { t.elapse d with host := (t.fire d).host, timers := (t.fire d).timers } := rfl
    _ = t.elapse d := by rw [hhost, htimers]

theorem run_eq_elapse (h : t.Settled) (hle : t.now ≤ till) (hn : till ≤ t.now + n) :
    ticksOfRun till n t = t.ticksTill till ∧ { run till n t with now := till } = t.elapse till := by
  induction n generalizing t with
  | zero =>
    obtain rfl : till = t.now := by omega
    obtain ⟨hticks, helapse⟩ := elapse_of_lt h fun r hr => (h r hr).now_lt
    exact ⟨hticks.symm, helapse.symm⟩
  | succ n ih =>
    unfold ticksOfRun run
    cases hnext : nextDeadline t.timers with
    | none =>
      have hnone : ∀ r ∈ t.timers, r.ended = false → till < r.deadline := by
        intro r hr he
        rw [nextDeadline_eq_none hnext r hr] at he
        cases he
      obtain ⟨hticks, helapse⟩ := elapse_of_lt h hnone
      exact ⟨hticks.symm, helapse.symm⟩
    | some d =>
      -- The earliest deadline lies ahead, so each turn uses up a unit of time at least.
      obtain ⟨⟨r, hr, he, rfl⟩, hmin⟩ := nextDeadline_eq_some hnext
      show (if r.deadline ≤ till then _ else 0) = _ ∧
        { (if r.deadline ≤ till then _ else t : GameTask) with now := till } = _
      split
      · rename_i hdue
        have hlt := (h r hr).now_lt he
        obtain ⟨hticks, hfire⟩ := fire_eq_elapse h hmin
        obtain ⟨hrest, hrun⟩ := ih (t := t.elapse r.deadline) h.elapse hdue
          (by show till ≤ r.deadline + n; omega)
        rw [hfire, hticks, hrest, hrun]
        exact ⟨(ticksTill_elapse hdue).symm, elapse_elapse hdue⟩
      · rename_i hdue
        have hlater : ∀ q ∈ t.timers, q.ended = false → till < q.deadline := fun q hq hqe =>
          (Nat.lt_of_not_le hdue).trans_le (hmin q hq hqe)
        obtain ⟨hticks, helapse⟩ := elapse_of_lt h hlater
        exact ⟨hticks.symm, helapse.symm⟩

theorem sleep_eq_elapse (h : t.Settled) (ms : ℕ) :
    ticksOfRun (t.now + ms) ms t = t.ticksTill (t.now + ms) ∧
      t.sleep ms = t.elapse (t.now + ms) :=
  run_eq_elapse h (Nat.le_add_right ..) le_rfl

end GameTask

end BlockWorld
