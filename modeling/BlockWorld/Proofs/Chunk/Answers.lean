import BlockWorld.Proofs.Chunk.Lookup

/-! # The answers of a served stack

A call returns once. What it returns with depends on its place among the requests to the stack: a
load that was taken before the first shutdown has the answer of its lookup, and one that was not is
turned away.
-/

namespace BlockWorld

namespace ServedStack

variable {ι τ : Type} [DecidableEq ι] {p : StackSetup ι τ} {s s' : ServedStack ι τ} {k : ι}
  {r : StackReply}

/-- Once it returns the call has been told of the end, or its request came when all was over. -/
def Told (s : ServedStack ι τ) (k : ι) : Prop :=
  s.phase.Over ∧ (k ∈ s.accepted ∨ s.phase = .ended)

def Answer (p : StackSetup ι τ) (s : ServedStack ι τ) (k : ι) (r : StackReply) : Prop :=
  match p.calls k with
  | .load _ => (k ∈ s.started ∧ ∃ answer, r = .chunk answer ∧ Concluded p k (s.visits k) answer) ∨
      (k ∉ s.started ∧ s.visits k = [] ∧ r = .chunk (.error .serviceStopped))
  | .tier _ _ => ∃ answer, r = .chunk answer ∧
      (Concluded p k (s.visits k) answer ∨ Denied p k (s.visits k) answer)
  | .shutdown => r = .done ∧ s.visits k = [] ∧ ¬ s.phase.Open ∧ (k ∉ s.refused → Told s k)

structure Answered (p : StackSetup ι τ) (s : ServedStack ι τ) : Prop where
  returned_iff : ∀ k, s.stage k = .returned ↔ k ∈ s.replies.map Prod.fst
  nodup : (s.replies.map Prod.fst).Nodup
  answer : ∀ k r, (k, r) ∈ s.replies → Answer p s k r

theorem answered_initial (p : StackSetup ι τ) : Answered p p.initial where
  returned_iff k := by simp [StackSetup.initial]
  nodup := List.nodup_nil
  answer k r h := by cases h

theorem Answered.returned (h : Answered p s) (hk : (k, r) ∈ s.replies) : s.stage k = .returned :=
  (h.returned_iff k).2 (List.mem_map.2 ⟨(k, r), hk, rfl⟩)

theorem Answered.exists_reply (h : Answered p s) (hk : s.stage k = .returned) :
    ∃ r, (k, r) ∈ s.replies := by
  obtain ⟨⟨j, r⟩, hr, rfl⟩ := List.mem_map.1 ((h.returned_iff k).1 hk)
  exact ⟨r, hr⟩

/-! ## What a call returns with -/

section Answer

variable {loc : ChunkLoc} {answer : ChunkAnswer}

theorem answer_of_turned_away (hcall : p.calls k = .load loc) (hstarted : k ∉ s.started)
    (hvisits : s.visits k = []) : Answer p s k (.chunk (.error .serviceStopped)) := by
  rw [Answer, hcall]
  exact .inr ⟨hstarted, hvisits, rfl⟩

theorem answer_of_shutdown (hcall : p.calls k = .shutdown) (hvisits : s.visits k = [])
    (hclosed : ¬ s.phase.Open) (htold : k ∉ s.refused → Told s k) : Answer p s k .done := by
  rw [Answer, hcall]
  exact ⟨rfl, hvisits, hclosed, htold⟩

theorem answer_of_refusal (hstack : (p.calls k).ToStack) (hstarted : k ∉ s.started)
    (hvisits : s.visits k = []) (hclosed : ¬ s.phase.Open) (htold : k ∉ s.refused → Told s k) :
    Answer p s k (p.calls k).refusal := by
  obtain ⟨loc, hcall⟩ | hcall := hstack.cases
  · rw [hcall]
    exact answer_of_turned_away hcall hstarted hvisits
  · rw [hcall]
    exact answer_of_shutdown hcall hvisits hclosed htold

theorem answer_of_looking (hf : Flying p s) (hlooking : (s.stage k).Looking)
    (h : Concluded p k (s.visits k) answer ∨ Denied p k (s.visits k) answer) :
    Answer p s k (.chunk answer) := by
  unfold Answer
  split
  · rename_i loc hcall
    have hstack : (p.calls k).ToStack := by
      rw [hcall]
      trivial
    have hstarted := (hf.inFlight k (hf.looking k hlooking hstack)).1
    obtain hconcluded | hdenied := h
    · exact .inl ⟨hstarted, answer, rfl, hconcluded⟩
    · exact absurd hstack hdenied.direct
  · exact ⟨answer, rfl, h⟩
  · rename_i hcall
    obtain hconcluded | hdenied := h
    · obtain ⟨loc, rest, hlookup, -⟩ := hconcluded.covered
      simp [StackSetup.lookup?, hcall] at hlookup
    · exact absurd (by rw [hcall]; trivial) hdenied.direct

/-- A call that was neither started from the queue nor served by a tier is refused. -/
theorem Answer.refused (h : Answer p s k r) (hstarted : k ∉ s.started)
    (hvisits : s.visits k = []) : r = (p.calls k).refusal := by
  unfold Answer at h
  rw [hvisits] at h
  split at h
  · rename_i hcall
    obtain ⟨hmem, -⟩ | ⟨-, -, rfl⟩ := h
    · exact absurd hmem hstarted
    · rw [hcall, StackCall.refusal]
  · rename_i hcall
    obtain ⟨answer, rfl, hconcluded | hdenied⟩ := h
    · -- The one tier of the lookup would have been left out without an answer.
      obtain ⟨loc, rest, hlookup, -, hrest⟩ := hconcluded.covered
      simp [StackSetup.lookup?, hcall, hrest] at hlookup
    · rw [hdenied.answer_eq, hcall, StackCall.refusal]
  · rename_i hcall
    rw [h.1, hcall, StackCall.refusal]

theorem Answer.visits (h : Answer p s k r) :
    s.visits k = [] ∨ ∃ answer, Concluded p k (s.visits k) answer := by
  unfold Answer at h
  split at h
  · obtain ⟨-, answer, -, hconcluded⟩ | ⟨-, hvisits, -⟩ := h
    · exact .inr ⟨answer, hconcluded⟩
    · exact .inl hvisits
  · obtain ⟨answer, -, hconcluded | hdenied⟩ := h
    · exact .inr ⟨answer, hconcluded⟩
    · exact .inl hdenied.unvisited
  · exact .inl h.2.1

end Answer

/-! ## Steps -/

structure Unchanged (s s' : ServedStack ι τ) (k : ι) : Prop where
  stage : s'.stage k = .returned
  visits : s'.visits k = s.visits k
  started : k ∈ s'.started ↔ k ∈ s.started
  closed : ¬ s.phase.Open → ¬ s'.phase.Open
  refused : k ∈ s.refused → k ∈ s'.refused
  told : Told s k → Told s' k

theorem Answer.step (h : Answer p s k r) (hu : Unchanged s s' k) : Answer p s' k r := by
  unfold Answer at h ⊢
  rw [hu.visits, hu.started]
  split at h
  · exact h
  · exact h
  · obtain ⟨hdone, hvisits, hclosed, htold⟩ := h
    exact ⟨hdone, hvisits, hu.closed hclosed, fun hk => hu.told (htold (mt hu.refused hk))⟩

variable [DecidableEq τ]

attribute [local grind] Told

theorem Step.unchanged (hs : s.Step p s') (hq : Queued p s) (hk : s.stage k = .returned) :
    Unchanged s s' k := by
  have hstage := hq.stage_iff
  cases hs with
  | grant | push | start =>
    -- The call that finds room, or is sent or started, is another one.
    constructor <;> grind -linarith
  | serve =>
    -- So is the call that the visit is for.
    constructor <;> grind -linarith
  | _ => constructor <;> grind -linarith

namespace Answered

theorem of_eq (h : Answered p s) (hq : Queued p s) (hs : s.Step p s')
    (hreplies : s'.replies = s.replies)
    (hstage : ∀ k, s'.stage k = .returned → s.stage k = .returned) : Answered p s' where
  returned_iff k := by
    rw [hreplies, ← h.returned_iff]
    exact ⟨hstage k, fun hk => (hs.unchanged hq hk).stage⟩
  nodup := hreplies ▸ h.nodup
  answer k r hk := by
    rw [hreplies] at hk
    exact (h.answer k r hk).step (hs.unchanged hq (h.returned hk))

theorem concat (h : Answered p s) (hq : Queued p s) (hs : s.Step p s')
    (hreplies : s'.replies = s.replies ++ [(k, r)])
    (hstage : s'.stage = (s.setStage k .returned).stage) (hk : s.stage k ≠ .returned)
    (hr : Answer p s' k r) : Answered p s' where
  returned_iff j := by
    have hj := h.returned_iff j
    rw [hreplies, hstage, stage_setStage]
    grind
  nodup := by
    have hnew : k ∉ s.replies.map Prod.fst := fun hmem => hk ((h.returned_iff k).2 hmem)
    rw [hreplies, List.map_append, List.map_singleton]
    exact List.nodup_append.2 ⟨h.nodup, by simp, by grind⟩
  answer j q hj := by
    rw [hreplies] at hj
    rcases List.mem_append.1 hj with hj | hj
    · exact (h.answer j q hj).step (hs.unchanged hq (h.returned hj))
    · obtain ⟨rfl, rfl⟩ := Prod.mk.injEq .. ▸ List.mem_singleton.1 hj
      exact hr

theorem step (h : Answered p s) (hq : Queued p s) (ho : Ordered p s) (hf : Flying p s)
    (hc : Coursed p s) (hs : s.Step p s') : Answered p s' := by
  have hstep := hs
  have hstage := hq.stage_iff
  cases hs with
  | @refuse k hk hstack hclosed =>
    have hstarted := ho.not_started (k := k) (by simp [hk, Stage.Sent])
    exact h.concat hq hstep rfl rfl (by simp [hk])
      (answer_of_refusal hstack hstarted (hc.of_eq hk) hclosed fun hnot => by simp at hnot)
  | @lose k hk hended =>
    have hstarted := ho.not_started (k := k) (by simp [hk, Stage.Sent])
    have hover : s.phase.Over := hended ▸ trivial
    exact h.concat hq hstep rfl rfl (by simp [hk])
      (answer_of_refusal (hq.call_of_admitted hk) hstarted (hc.of_eq hk) hover.ending.not_open
        fun _ => ⟨hover, .inr hended⟩)
  | @turnAway k queue loc callers hphase hqueue hcall =>
    have hk := hq.of_head hqueue
    exact h.concat hq hstep rfl rfl (by simp [hk])
      (answer_of_turned_away hcall (ho.not_started_of_head hqueue) (hc.of_eq hk))
  | @release k callers hphase =>
    have hmem : k ∈ s.phase.callers := by simp [hphase, Phase.callers]
    have hk := hq.of_caller hmem
    obtain ⟨hcall, hlate⟩ := hq.shutdown k hmem
    have haccepted : k ∈ s.accepted := by simp [ho.accepted_eq, hlate]
    exact h.concat hq hstep rfl rfl (by simp [hk])
      (answer_of_shutdown hcall (hc.of_eq hk) nofun fun _ => ⟨trivial, .inl haccepted⟩)
  | @drop k queue hphase hqueue =>
    have hk := hq.of_head hqueue
    have hmem : k ∈ s.queue := by simp [hqueue]
    have hover : s.phase.Over := hphase ▸ trivial
    have haccepted : k ∈ s.accepted := by simp [ho.accepted_eq, hmem]
    exact h.concat hq hstep rfl rfl (by simp [hk])
      (answer_of_refusal (hq.toStack k hmem) (ho.not_started_of_head hqueue) (hc.of_eq hk)
        hover.ending.not_open fun _ => ⟨hover, .inl haccepted⟩)
  | @exhaust k loc hk =>
    have hasked : Asked p k (s.visits k) loc [] := hc.of_eq hk
    have hlooking : (s.stage k).Looking := by
      rw [hk]
      trivial
    have hanswer := answer_of_looking hf hlooking (.inl hasked.exhaust)
    exact h.concat hq hstep rfl rfl (by simp [hk]) hanswer
  | @tell k answer hk =>
    have hdecided : Concluded p k (s.visits k) answer ∨ Denied p k (s.visits k) answer :=
      hc.of_eq hk
    have hlooking : (s.stage k).Looking := by
      rw [hk]
      trivial
    have hanswer := answer_of_looking hf hlooking hdecided
    exact h.concat hq hstep rfl rfl (by simp [hk]) hanswer
  | _ => exact h.of_eq hq hstep rfl (by grind)

end Answered

structure Invariant (p : StackSetup ι τ) (s : ServedStack ι τ) : Prop where
  queued : Queued p s
  ordered : Ordered p s
  flying : Flying p s
  tiered : Tiered s
  halted : Halted p s
  logged : Logged p s
  coursed : Coursed p s
  answered : Answered p s

namespace Invariant

theorem initial : Invariant p p.initial where
  queued := queued_initial p
  ordered := ordered_initial p
  flying := flying_initial p
  tiered := tiered_initial p
  halted h := by cases h
  logged := logged_initial p
  coursed := Coursed.initial
  answered := answered_initial p

theorem step (h : Invariant p s) (hs : s.Step p s') : Invariant p s' where
  queued := h.queued.step hs
  ordered := h.ordered.step h.queued hs
  flying := h.flying.step h.queued hs
  tiered := h.tiered.step h.queued hs
  halted := h.halted.step h.tiered hs
  logged := h.logged.step hs
  coursed := h.coursed.step h.queued h.flying h.tiered hs
  answered := h.answered.step h.queued h.ordered h.flying h.coursed hs

theorem leads (h : Invariant p s) (hrun : s.Leads p s') : Invariant p s' := by
  induction hrun with
  | refl => exact h
  | tail _ hs ih => exact ih.step hs

end Invariant

end ServedStack

theorem StackSetup.Reachable.invariant {ι τ : Type} [DecidableEq ι] [DecidableEq τ]
    {p : StackSetup ι τ} {s : ServedStack ι τ} (h : p.Reachable s) :
    ServedStack.Invariant p s :=
  ServedStack.Invariant.initial.leads h

end BlockWorld
