import BlockWorld.Proofs.Chunk.Answers
import BlockWorld.Proofs.Unavoidable

/-! # Progress of a served stack

Every step brings the calls that take part in it closer to their end, and as long as a call has not
returned there is a step to make. So every call returns, whatever the order of the steps.
-/

namespace BlockWorld

namespace ServedStack

variable {ι τ : Type} {p : StackSetup ι τ} {s s' : ServedStack ι τ} {k : ι} {S : Finset ι}

/-! ## Work -/

/-- A bound for what is left to do about a call, where the stack has `n` tiers. -/
def Stage.work (n : ℕ) : Stage τ → ℕ
  | .calling => 3 * n + 7
  | .admitted => 3 * n + 6
  | .queued => 3 * n + 4
  | .asking _ rest => 3 * rest.length + 2
  | .entering _ _ rest => 3 * rest.length + 4
  | .waiting _ _ rest => 3 * rest.length + 3
  | .decided _ => 1
  | .returned => 0

theorem Stage.work_after_lt (n : ℕ) (loc : ChunkLoc) (t : τ) (rest : List τ)
    (answer : ChunkAnswer) :
    (Stage.after loc rest answer).work n < (Stage.waiting loc t rest).work n := by
  obtain ⟨-, h⟩ | ⟨-, h⟩ := Stage.after_cases loc rest answer <;> rw [h] <;> simp [work]

def Tier.work (x : Tier ι) : ℕ :=
  (if x.service.stopped then 0 else 1) + if x.ended then 0 else 1

def Phase.work (n : ℕ) (tier : τ → ℕ) : Phase ι τ → ℕ
  | .serving => 5 * n + 7
  | .noticed _ => 5 * n + 6
  | .closing _ => 5 * n + 5
  | .draining _ => 5 * n + 4
  | .stopping rest _ => 5 * rest.length + 3
  | .entering _ rest _ => 5 * rest.length + 7
  | .awaiting t rest _ => 5 * rest.length + 4 + tier t
  | .releasing _ => 2
  | .ended => 1

def callWork (n : ℕ) (S : Finset ι) (stage : ι → Stage τ) : ℕ := ∑ k ∈ S, (stage k).work n

def taskWork (p : StackSetup ι τ) (s : ServedStack ι τ) : ℕ :=
  s.queue.length + s.inFlight.length + s.phase.work p.order.length fun t => (s.tiers t).work

def work (p : StackSetup ι τ) (S : Finset ι) (s : ServedStack ι τ) : ℕ :=
  callWork p.order.length S s.stage + s.taskWork p

def Within (S : Finset ι) (s : ServedStack ι τ) : Prop := ∀ k ∉ S, s.stage k = .calling

theorem Within.mem (h : s.Within S) (hk : s.stage k ≠ .calling) : k ∈ S := by
  by_contra hmem
  exact hk (h k hmem)

section

variable [DecidableEq ι]

theorem work_lt_of_update {x : Stage τ} (hwithin : s'.Within S) (hx : x ≠ .calling)
    (hstage : s'.stage = (s.setStage k x).stage)
    (h : x.work p.order.length + s'.taskWork p <
      (s.stage k).work p.order.length + s.taskWork p) : s'.work p S < s.work p S := by
  have hk : k ∈ S := hwithin.mem (by simpa [hstage, stage_setStage] using hx)
  have hupdate := sum_update_add hk (Stage.work p.order.length) s.stage x
  simp only [work, callWork, hstage, setStage]
  omega

theorem work_lt_of_call {x y : Stage τ} (hk : s.stage k = y) (hwithin : s'.Within S)
    (hx : x ≠ .calling) (hstage : s'.stage = (s.setStage k x).stage)
    (hwork : x.work p.order.length < y.work p.order.length)
    (htask : s'.queue = s.queue ∧ s'.inFlight = s.inFlight ∧ s'.phase = s.phase)
    (htiers : ∀ t, (s'.tiers t).work = (s.tiers t).work) : s'.work p S < s.work p S := by
  have htaskWork : s'.taskWork p = s.taskWork p := by
    rw [taskWork, taskWork, htask.1, htask.2.1, htask.2.2, funext htiers]
  refine work_lt_of_update hwithin hx hstage ?_
  rw [hk]
  omega

end

theorem work_lt_of_task (hstage : s'.stage = s.stage) (h : s'.taskWork p < s.taskWork p) :
    s'.work p S < s.work p S := by
  rw [work, work, hstage]
  omega

variable [DecidableEq ι] [DecidableEq τ]

attribute [local grind] Tier.work

theorem work_lt_of_step (hq : Queued p s) (ht : Tiered s) (hs : s.Step p s')
    (hwithin : s'.Within S) : s'.work p S < s.work p S := by
  cases hs with
  | @push k hk =>
    refine work_lt_of_update (x := .queued) hwithin (by simp) rfl ?_
    simp only [hk, Stage.work, taskWork, setStage, List.length_append, List.length_singleton]
    omega
  | @start k queue loc hphase hqueue =>
    refine work_lt_of_update (x := .asking loc p.order) hwithin (by simp) rfl ?_
    simp only [hq.of_head hqueue, hqueue, Stage.work, taskWork, setStage, List.length_append,
      List.length_cons, List.length_nil]
    omega
  | turnAway hphase hqueue | drop hphase hqueue =>
    refine work_lt_of_update hwithin (by simp) rfl ?_
    simp only [hq.of_head hqueue, Stage.work, taskWork, reply, setStage, hqueue, List.length_cons]
    omega
  | @release k callers hphase =>
    have hmem : k ∈ s.phase.callers := by simp [hphase, Phase.callers]
    refine work_lt_of_update (x := .returned) hwithin (by simp) rfl ?_
    simp only [hq.of_caller hmem, Stage.work, taskWork, reply, setStage, hphase, Phase.work]
    omega
  | grant hk | refuse hk | lose hk | direct hk | fail hk | exhaust hk | tell hk =>
    exact work_lt_of_call hk hwithin (by simp) rfl (by simp [Stage.work]) ⟨rfl, rfl, rfl⟩
      fun _ => rfl
  | enter hk | ask hk | forfeit hk | deny _ _ hk =>
    exact work_lt_of_call hk hwithin (by simp) rfl (by simp [Stage.work, Nat.mul_add])
      ⟨rfl, rfl, rfl⟩ (by grind)
  | serve _ _ _ hk =>
    exact work_lt_of_call hk hwithin (Stage.after_ne ..).1 rfl (Stage.work_after_lt ..)
      ⟨rfl, rfl, rfl⟩ (by grind)
  | @join k callers hphase hmem =>
    have hlength := List.length_erase_of_mem hmem
    have hpos := List.length_pos_of_mem hmem
    refine work_lt_of_task rfl ?_
    simp only [taskWork, hlength]
    omega
  | @quit t queue hqueue =>
    have hmem : .shutdown ∈ (s.tiers t).queue := by simp [hqueue]
    obtain ⟨hrunning, hawaited⟩ := ht.shutdown_mem t hmem
    obtain ⟨rest, callers, hphase⟩ := Phase.eq_of_awaited? hawaited
    refine work_lt_of_task rfl ?_
    simp [taskWork, hphase, Phase.work, setTier, Tier.work, ChunkService.shutdown, hrunning]
  | @leave t hstopped hqueue hstays =>
    have hawaited := (ht.leaving t hstopped).resolve_left (by simp [hstays])
    obtain ⟨rest, callers, hphase⟩ := Phase.eq_of_awaited? hawaited
    refine work_lt_of_task rfl ?_
    simp [taskWork, hphase, Phase.work, setTier, Tier.work, hstays]
  | notice hphase hqueue | gather hphase hqueue =>
    refine work_lt_of_task rfl ?_
    simp only [taskWork, hphase, hqueue, Phase.work, List.length_cons]
    omega
  | @halt t rest callers hphase =>
    refine work_lt_of_task rfl ?_
    have htier : ((s.tiers t).push .shutdown).work ≤ 2 := by grind
    simp only [taskWork, hphase, Phase.work, setTier, Function.update_self]
    omega
  | pass hphase | reserve hphase | halted hphase =>
    refine work_lt_of_task rfl ?_
    simp only [taskWork, hphase, Phase.work, setTier, List.length_cons]
    omega
  | close hphase | drain hphase | stop hphase | stopped hphase | finish hphase =>
    refine work_lt_of_task rfl ?_
    simp [taskWork, hphase, Phase.work]

/-! ## Steps that can be made -/

def Moves (p : StackSetup ι τ) (s : ServedStack ι τ) : Prop :=
  ∃ s', s.Step p s' ∧ ∀ k, s.stage k = .calling → s'.stage k = .calling

theorem Moves.except (h : s.Moves p) (k : ι) :
    ∃ s', s.Step p s' ∧ ∀ j ≠ k, s.stage j = .calling → s'.stage j = .calling := by
  obtain ⟨s', hstep, hcalling⟩ := h
  exact ⟨s', hstep, fun j _ => hcalling j⟩

theorem moves_of_tier_queue (ht : Tiered s) {t : τ} (h : (s.tiers t).queue ≠ []) : s.Moves p := by
  obtain ⟨request, queue, hqueue⟩ := List.exists_cons_of_ne_nil h
  cases request with
  | load k loc =>
    have hrequest := (ht.load_mem k loc t).1 (by simp [hqueue])
    cases hk : s.stage k with
    | waiting l u rest =>
      obtain ⟨rfl, rfl⟩ : l = loc ∧ u = t := by simpa [hk, Stage.request?] using hrequest
      cases hstopped : (s.tiers u).service.stopped with
      | false => exact ⟨_, .serve FileTree.empty hqueue hstopped hk, by grind⟩
      | true => exact ⟨_, .deny hqueue hstopped hk, by grind⟩
    | _ => simp [hk, Stage.request?] at hrequest
  | shutdown => exact ⟨_, .quit hqueue, by grind⟩

theorem moves_of_entering {loc : ChunkLoc} {t : τ} {rest : List τ}
    (hk : s.stage k = .entering loc t rest) : s.Moves p := by
  cases hended : (s.tiers t).ended with
  | false => exact ⟨_, .ask hk hended, by grind⟩
  | true => exact ⟨_, .forfeit hk hended, by grind⟩

/-- There is room in the queue of a tier, or the tier makes some, or a request comes into it. -/
theorem moves_of_full (ht : Tiered s) {t : τ} (h : ¬ (s.tiers t).HasRoom (p.room t)) :
    s.Moves p := by
  by_cases hqueue : (s.tiers t).queue = []
  · have hroom := p.room_pos t
    have hlength : 0 < (s.tiers t).granted.length := by
      rw [Tier.HasRoom, hqueue, List.length_nil] at h
      omega
    obtain ⟨request, hmem⟩ := List.exists_mem_of_length_pos hlength
    cases request with
    | load k loc =>
      have hentry := (ht.load_granted k loc t).1 hmem
      cases hk : s.stage k with
      | entering => exact moves_of_entering hk
      | _ => simp [hk, Stage.entered?] at hentry
    | shutdown =>
      obtain ⟨rest, callers, hphase⟩ := Phase.eq_of_entered? ((ht.shutdown_granted t).1 hmem)
      exact ⟨_, .halt hphase, fun _ h => h⟩
  · exact moves_of_tier_queue ht hqueue

theorem moves_of_looking (ht : Tiered s) (h : (s.stage k).Looking) : s.Moves p := by
  cases hk : s.stage k with
  | asking loc rest =>
    cases rest with
    | nil => exact ⟨_, .exhaust hk, by grind⟩
    | cons t rest =>
      cases hstopped : (s.tiers t).service.stopped with
      | true => exact ⟨_, .fail hk hstopped, by grind⟩
      | false =>
        by_cases hroom : (s.tiers t).HasRoom (p.room t)
        · exact ⟨_, .enter hk hstopped hroom, by grind⟩
        · exact moves_of_full ht hroom
  | entering loc t rest => exact moves_of_entering hk
  | waiting loc t rest =>
    have hmem := (ht.load_mem k loc t).2 (by rw [hk]; rfl)
    exact moves_of_tier_queue ht (List.ne_nil_of_mem hmem)
  | decided answer => exact ⟨_, .tell hk, by grind⟩
  | calling | admitted | queued | returned => simp [hk, Stage.Looking] at h

theorem moves_of_phase (hq : Queued p s) (hf : Flying p s) (ht : Tiered s)
    (hserving : s.phase = .serving → s.queue ≠ []) (hended : s.phase ≠ .ended) : s.Moves p := by
  cases hphase : s.phase with
  | serving =>
    obtain ⟨k, queue, hqueue⟩ := List.exists_cons_of_ne_nil (hserving hphase)
    obtain ⟨loc, hcall⟩ | hcall := hq.call_of_head hqueue
    · exact ⟨_, .start hphase hqueue hcall, by grind [hq.of_head hqueue]⟩
    · exact ⟨_, .notice hphase hqueue hcall, fun _ h => h⟩
  | noticed k => exact ⟨_, .close hphase, fun _ h => h⟩
  | closing callers =>
    cases hqueue : s.queue with
    | nil => exact ⟨_, .drain hphase hqueue, fun _ h => h⟩
    | cons k queue =>
      obtain ⟨loc, hcall⟩ | hcall := hq.call_of_head hqueue
      · exact ⟨_, .turnAway hphase hqueue hcall, by grind [hq.of_head hqueue]⟩
      · exact ⟨_, .gather hphase hqueue hcall, fun _ h => h⟩
  | draining callers =>
    cases hflight : s.inFlight with
    | nil => exact ⟨_, .stop hphase hflight, fun _ h => h⟩
    | cons k inFlight =>
      have hmem : k ∈ s.inFlight := by simp [hflight]
      obtain ⟨-, hlooking | hreturned⟩ := hf.inFlight k hmem
      · exact moves_of_looking ht hlooking
      · exact ⟨_, .join (.inr hphase) hmem hreturned, fun _ h => h⟩
  | stopping rest callers =>
    cases rest with
    | nil => exact ⟨_, .stopped hphase, fun _ h => h⟩
    | cons t rest =>
      cases hstopped : (s.tiers t).service.stopped with
      | true => exact ⟨_, .pass hphase hstopped, fun _ h => h⟩
      | false =>
        by_cases hroom : (s.tiers t).HasRoom (p.room t)
        · exact ⟨_, .reserve hphase hstopped hroom, fun _ h => h⟩
        · exact moves_of_full ht hroom
  | entering t rest callers => exact ⟨_, .halt hphase, fun _ h => h⟩
  | awaiting t rest callers =>
    by_cases hqueue : (s.tiers t).queue = []
    · cases hstays : (s.tiers t).ended with
      | true => exact ⟨_, .halted hphase hstays, fun _ h => h⟩
      | false =>
        obtain hstopped | hmem := ht.awaited t (by rw [hphase]; rfl)
        · exact ⟨_, .leave hstopped hqueue hstays, fun _ h => h⟩
        · simp [hqueue] at hmem
    · exact moves_of_tier_queue ht hqueue
  | releasing callers =>
    cases callers with
    | nil =>
      cases hqueue : s.queue with
      | nil => exact ⟨_, .finish hphase hqueue, fun _ h => h⟩
      | cons k queue => exact ⟨_, .drop hphase hqueue, by grind [hq.of_head hqueue]⟩
    | cons k callers =>
      have hmem : k ∈ s.phase.callers := by simp [hphase, Phase.callers]
      exact ⟨_, .release hphase, by grind [hq.of_caller hmem]⟩
  | ended => exact absurd hphase hended

theorem moves_of_queued (h : Invariant p s) (hk : s.stage k = .queued) : s.Moves p := by
  have hmem := (h.queued.stage_iff k).1 hk
  refine moves_of_phase h.queued h.flying h.tiered (fun hphase hqueue => ?_) fun hphase => ?_
  · simp [hphase, hqueue, Phase.callers] at hmem
  · simp [hphase, h.ordered.queue_ended hphase, Phase.callers] at hmem

theorem moves_of_admitted (hk : s.stage k = .admitted) : s.Moves p := by
  by_cases hended : s.phase = .ended
  · exact ⟨_, .lose hk hended, by grind⟩
  · exact ⟨_, .push hk hended, by grind⟩

/-- A call is made at last: it finds room, or the queue closed, or the task makes room. -/
theorem exists_step_of_calling (h : Invariant p s) (hk : s.stage k = .calling) :
    ∃ s', s.Step p s' ∧ ∀ j ≠ k, s.stage j = .calling → s'.stage j = .calling := by
  by_cases hstack : (p.calls k).ToStack
  · by_cases hopen : s.phase.Open
    · by_cases hroom : s.queue.length + s.granted.length < p.capacity
      · exact ⟨_, .grant hk hstack hopen hroom, by grind⟩
      · have hcapacity := p.capacity_pos
        cases hgranted : s.granted with
        | nil =>
          have hlength : 0 < s.queue.length := by
            rw [hgranted, List.length_nil] at hroom
            omega
          have hmoves : s.Moves p := moves_of_phase h.queued h.flying h.tiered
            (fun _ => List.ne_nil_of_length_pos hlength)
            fun hphase => by simp [hphase, Phase.Open] at hopen
          exact hmoves.except k
        | cons j granted =>
          have hj : s.stage j = .admitted := (h.queued.granted_iff j).2 (by simp [hgranted])
          exact (moves_of_admitted hj).except k
    · exact ⟨_, .refuse hk hstack hopen, by grind⟩
  · obtain ⟨t, loc, hcall⟩ := StackCall.eq_tier hstack
    exact ⟨_, .direct hk hcall, by grind⟩

/-- As long as a call has not returned there is a step, which may be the making of this call. -/
theorem exists_step (h : Invariant p s) (hk : s.stage k ≠ .returned) :
    ∃ s', s.Step p s' ∧ ∀ j ≠ k, s.stage j = .calling → s'.stage j = .calling := by
  cases hstage : s.stage k with
  | calling => exact exists_step_of_calling h hstage
  | admitted => exact (moves_of_admitted hstage).except k
  | queued => exact (moves_of_queued h hstage).except k
  | asking | entering | waiting | decided =>
    have hlooking : (s.stage k).Looking := by
      rw [hstage]
      trivial
    exact (moves_of_looking h.tiered hlooking).except k
  | returned => exact absurd hstage hk

/-- Whatever step is made next, and next, and so on, while no call but those in `S` is made: there
is one to make until a state has the property, and such a state is reached. -/
inductive Inevitable (p : StackSetup ι τ) (S : Finset ι) (P : ServedStack ι τ → Prop) :
    ServedStack ι τ → Prop
  | now {s : ServedStack ι τ} : P s → Inevitable p S P s
  | later {s : ServedStack ι τ} : (∃ s', s.Step p s' ∧ s'.Within S) →
      (∀ s', s.Step p s' → s'.Within S → Inevitable p S P s') → Inevitable p S P s

theorem inevitable_replies (h : Invariant p s) (hwithin : s.Within S) :
    Inevitable p S (fun s' => ∀ k ∈ S, ∃ r, (k, r) ∈ s'.replies) s := by
  -- Induction on the work that is left.
  induction hn : s.work p S using Nat.strong_induction_on generalizing s with
  | _ n ih =>
    by_cases hall : ∀ k ∈ S, s.stage k = .returned
    · exact .now fun k hk => h.answered.exists_reply (hall k hk)
    · obtain ⟨k, hk, hstage⟩ : ∃ k ∈ S, s.stage k ≠ .returned := by simpa using hall
      obtain ⟨s', hstep, hcalling⟩ := exists_step h hstage
      refine .later ⟨s', hstep, fun j hj => ?_⟩ fun s' hstep hwithin' => ?_
      · exact hcalling j (fun heq => hj (heq ▸ hk)) (hwithin j hj)
      · have hlt := work_lt_of_step h.queued h.tiered hstep hwithin'
        exact ih _ (hn ▸ hlt) (h.step hstep) hwithin' rfl

end ServedStack

end BlockWorld
