import BlockWorld.Proofs.Unavoidable
import BlockWorld.Proofs.Service.Answers
import Mathlib.Algebra.Order.BigOperators.Group.Finset

/-! # Progress of a served source

Every step brings the calls that take part in it closer to their end. As long as a caller waits, or
the service has something to take or has to end, the callers that wait or the task can go on. So
everyone who waits is answered, whatever the order of the steps.
-/

namespace BlockWorld

namespace ServedSource

variable {ι σ : Type} {p : SourceSetup ι σ} {s s' : ServedSource ι σ} {k : ι} {S : Finset ι}

/-! ## Work -/

/-- What is left to do about a call. -/
def Stage.work : Stage → ℕ
  | .idle => 7
  | .calling => 6
  | .admitted => 5
  | .queued => 2
  | .returned | .gone => 0

def Phase.work : Phase ι → ℕ
  | .serving => 6
  | .asking _ _ => 7
  | .noticed _ => 5
  | .closing callers => callers.length + 3
  | .releasing callers => callers.length + 1
  | .ended => 0

def taskWork (s : ServedSource ι σ) : ℕ :=
  2 * s.queue.length + s.phase.work + s.handles.toNat

def work (S : Finset ι) (s : ServedSource ι σ) : ℕ := ∑ k ∈ S, (s.stage k).work + s.taskWork

def Within (S : Finset ι) (s : ServedSource ι σ) : Prop := ∀ k ∉ S, s.stage k = .idle

theorem work_lt_of_task (hstage : ∀ j, (s'.stage j).work ≤ (s.stage j).work)
    (h : s'.taskWork < s.taskWork) : s'.work S < s.work S :=
  Nat.add_lt_add_of_le_of_lt (Finset.sum_le_sum fun j _ => hstage j) h

variable [DecidableEq ι]

theorem Stage.work_told_le (s : ServedSource ι σ) (k j : ι) :
    ((s.tell k .done).stage j).work ≤ (s.stage j).work := by
  rw [stage_tell]
  split
  · exact Nat.zero_le _
  · rfl

theorem work_lt_of_call {x : Stage} (hwithin : s'.Within S) (hx : x ≠ .idle)
    (hstage : s'.stage = (s.setStage k x).stage)
    (h : x.work + s'.taskWork < (s.stage k).work + s.taskWork) : s'.work S < s.work S := by
  have hk : k ∈ S := by
    by_contra hmem
    exact hx (by simpa [hstage, stage_setStage] using hwithin k hmem)
  have hsum := sum_update_add hk Stage.work s.stage x
  simp only [work, hstage, setStage]
  omega

theorem work_lt_of_act (hs : s.Act p s') (hwithin : s'.Within S) : s'.work S < s.work S := by
  cases hs with
  | grant hk | refuse hk | lose hk | push hk =>
    refine work_lt_of_call hwithin (by simp) rfl ?_
    simp only [hk, Stage.work, taskWork, setStage, reply, List.length_append, List.length_singleton]
    omega
  | take hphase hqueue | notice hphase hqueue | gather hphase hqueue =>
    refine work_lt_of_task (fun _ => le_rfl) ?_
    simp only [taskWork, hphase, hqueue, Phase.work, List.length_append, List.length_cons,
      List.length_nil]
    omega
  | close hphase | drained hphase | finish hphase | quit hphase =>
    refine work_lt_of_task (fun _ => le_rfl) ?_
    simp [taskWork, hphase, Phase.work]
  | answer files hphase | release hphase =>
    refine work_lt_of_task (fun _ => Stage.work_told_le ..) ?_
    simp [taskWork, hphase, Phase.work]
  | turnAway files hphase hqueue | drop hphase hqueue =>
    refine work_lt_of_task (fun _ => Stage.work_told_le ..) ?_
    simp [taskWork, hqueue]

theorem work_lt_of_whim (hs : s.Whim s') (hwithin : s'.Within S) : s'.work S < s.work S := by
  cases hs with
  | call hk =>
    refine work_lt_of_call hwithin (by simp) rfl ?_
    simp only [hk, Stage.work, taskWork, setStage]
    omega
  | abandon hk =>
    refine work_lt_of_call hwithin (by simp) rfl ?_
    rcases hk with hk | hk <;> simp only [hk, Stage.work, taskWork, setStage] <;> omega
  | letGo hhandles =>
    refine work_lt_of_task (fun _ => le_rfl) ?_
    simp [taskWork, hhandles]

/-! ## Steps that can be made -/

/-- The task goes on, unless it has ended or has nothing to take. -/
theorem act_of_phase (p : SourceSetup ι σ) (hended : s.phase ≠ .ended)
    (hserving : s.phase = .serving → s.queue ≠ [] ∨ s.handles = false) : ∃ s', s.Act p s' := by
  cases hphase : s.phase with
  | serving =>
    cases hqueue : s.queue with
    | nil => exact ⟨_, .quit hphase hqueue ((hserving hphase).resolve_left (absurd hqueue))⟩
    | cons k queue =>
      cases hcall : p.calls k with
      | load loc => exact ⟨_, .take hphase hqueue hcall⟩
      | shutdown => exact ⟨_, .notice hphase hqueue hcall⟩
  | asking k loc => exact ⟨_, .answer FileTree.empty hphase⟩
  | noticed k => exact ⟨_, .close hphase⟩
  | closing callers =>
    cases hqueue : s.queue with
    | nil => exact ⟨_, .drained hphase hqueue⟩
    | cons k queue =>
      cases hcall : p.calls k with
      | load loc => exact ⟨_, .turnAway FileTree.empty hphase hqueue hcall⟩
      | shutdown => exact ⟨_, .gather hphase hqueue hcall⟩
  | releasing callers =>
    cases callers with
    | cons k callers => exact ⟨_, .release hphase⟩
    | nil =>
      cases hqueue : s.queue with
      | nil => exact ⟨_, .finish hphase hqueue⟩
      | cons k queue => exact ⟨_, .drop hphase hqueue⟩
  | ended => exact absurd hphase hended

theorem act_of_busy (h : Invariant p s) (hk : (s.stage k).Busy) : ∃ s', s.Act p s' := by
  have hadmitted : ∀ j, s.stage j = .admitted → ∃ s', s.Act p s' := by
    intro j hj
    by_cases hended : s.phase = .ended
    · exact ⟨_, .lose hj hended⟩
    · exact ⟨_, .push hj hended⟩
  cases hstage : s.stage k with
  | calling =>
    cases hopen : s.phase.isOpen with
    | false => exact ⟨_, .refuse hstage hopen⟩
    | true =>
      by_cases hroom : s.queue.length + s.granted.length < p.capacity
      · exact ⟨_, .grant hstage hopen hroom⟩
      -- Without room there is someone to push a request, or a request to be taken.
      cases hgranted : s.granted with
      | cons j granted => exact hadmitted j ((h.granted.mem_iff j).1 (by simp [hgranted]))
      | nil =>
        have hpos := p.capacity_pos
        refine act_of_phase p (fun hended => by simp [hended, Phase.isOpen] at hopen) fun _ => .inl ?_
        rintro hqueue
        simp [hqueue, hgranted] at hroom
        omega
  | admitted => exact hadmitted k hstage
  | queued =>
    have hmem : k ∈ s.queue ++ s.phase.hand := h.queued.mem k hstage
    refine act_of_phase p (fun hended => ?_) fun hserving => .inl fun hqueue => ?_
    · simp [hended, h.sorted.ended hended, Phase.hand] at hmem
    · simp [hserving, hqueue, Phase.hand] at hmem
  | idle | returned | gone => simp [hstage, Stage.Busy] at hk

/-- All that was asked for has been done: everyone who called is answered, the source was asked for
every load that is ahead, and if there was a shutdown or nobody can call, the service has ended. -/
structure Settled (p : SourceSetup ι σ) (s : ServedSource ι σ) : Prop where
  answered : ∀ k, s.stage k = .idle ∨ s.stage k = .gone ∨ ∃ r, (k, r) ∈ s.replies
  visited : s.visited = s.ahead p
  ended : s.handles = false ∨ (∃ k ∈ s.accepted, p.calls k = .shutdown) → s.phase = .ended

theorem answered_of_not_busy (h : Invariant p s) (hk : ¬ (s.stage k).Busy) :
    s.stage k = .idle ∨ s.stage k = .gone ∨ ∃ r, (k, r) ∈ s.replies := by
  cases hstage : s.stage k with
  | idle => exact .inl rfl
  | gone => exact .inr (.inl rfl)
  | returned => exact .inr (.inr (h.answered.exists_reply hstage))
  | calling | admitted | queued => exact absurd (by rw [hstage]; trivial) hk

theorem settled_or_act (h : Invariant p s) : Settled p s ∨ ∃ s', s.Act p s' := by
  by_cases hbusy : ∃ k, (s.stage k).Busy
  · rcases hbusy with ⟨k, hk⟩
    exact .inr (act_of_busy h hk)
  have hanswered : ∀ k, s.stage k = .idle ∨ s.stage k = .gone ∨ ∃ r, (k, r) ∈ s.replies :=
    fun k => answered_of_not_busy h fun hk => hbusy ⟨k, hk⟩
  by_cases hended : s.phase = .ended
  · refine .inl ⟨hanswered, visited_eq_ahead h.ordered h.sorted ?_, fun _ => hended⟩
    simp [hended, Phase.Serving]
  by_cases hserving : s.phase = .serving → s.queue ≠ [] ∨ s.handles = false
  · exact .inr (act_of_phase p hended hserving)
  -- The task waits for requests, and all there were have been passed to the source.
  obtain ⟨hphase, hqueue, hhandles⟩ : s.phase = .serving ∧ s.queue = [] ∧ s.handles = true := by
    simpa [Classical.not_imp] using hserving
  have hlate : s.late = [] := h.sorted.serving (by rw [hphase]; trivial)
  refine .inl ⟨hanswered, ?_, ?_⟩
  · simp [ahead_eq h.ordered h.sorted, hphase, Phase.asked, hlate, hqueue]
  · rintro (hno | ⟨k, hk, hcall⟩)
    · cases hhandles.symm.trans hno
    · have hvisited : k ∈ s.visited := by
        simpa [h.ordered.accepted_eq, hphase, Phase.asked, hlate, hqueue] using hk
      cases hcall ▸ h.sorted.isLoad_of_visited hvisited

theorem Within.act (h : s.Within S) (hs : s.Act p s') : s'.Within S := by
  intro k hk
  have hidle := h k hk
  cases hs <;> grind

/-- Whatever is done, all is settled in the end, unless ever more calls are made. -/
theorem unavoidable_settled (h : Invariant p s) (hwithin : s.Within S) :
    Unavoidable (fun s s' => s.Act p s' ∧ s'.Within S) (fun s s' => s.Step p s' ∧ s'.Within S)
      (Settled p) s := by
  refine unavoidable_of_work (I := fun s => Invariant p s ∧ s.Within S) (work S)
    (fun s s' hs hstep => ?_) (fun s s' _ hstep => ?_) (fun s hs => ?_) ⟨h, hwithin⟩
  · exact ⟨hs.1.step hstep.1, hstep.2⟩
  · rcases hstep.1 with hact | hwhim
    · exact work_lt_of_act hact hstep.2
    · exact work_lt_of_whim hwhim hstep.2
  · rcases settled_or_act hs.1 with hsettled | ⟨s', hact⟩
    · exact .inl hsettled
    · exact .inr ⟨s', hact, hs.2.act hact⟩

end ServedSource

end BlockWorld
