import BlockWorld.Chunk.ServedStack

/-! # The requests to a served stack

A request stands in the queue until the task takes it, in the order in which it came. Up to the
first shutdown all that is taken is loads, and a lookup is started for each; from then on loads are
turned away or dropped. When the tiers are being shut down, no lookup that was started is under way
any more.
-/

namespace BlockWorld

namespace ServedStack

variable {ι τ : Type} {p : StackSetup ι τ} {s s' : ServedStack ι τ}

structure Queued (p : StackSetup ι τ) (s : ServedStack ι τ) : Prop where
  nodup : (s.queue ++ s.phase.callers).Nodup
  stage_iff : ∀ k, s.stage k = .queued ↔ k ∈ s.queue ∨ k ∈ s.phase.callers
  shutdown : ∀ k ∈ s.phase.callers, p.calls k = .shutdown ∧ k ∈ s.late
  toStack : ∀ k ∈ s.queue, (p.calls k).ToStack
  granted_nodup : s.granted.Nodup
  granted_iff : ∀ k, s.stage k = .admitted ↔ k ∈ s.granted
  granted_toStack : ∀ k ∈ s.granted, (p.calls k).ToStack

theorem queued_initial (p : StackSetup ι τ) : Queued p p.initial where
  nodup := List.nodup_nil
  stage_iff k := by simp [StackSetup.initial, Phase.callers]
  shutdown k hk := by cases hk
  toStack k hk := by cases hk
  granted_nodup := List.nodup_nil
  granted_iff k := by simp [StackSetup.initial]
  granted_toStack k hk := by cases hk

namespace Queued

theorem of_head (h : Queued p s) {k : ι} {queue : List ι} (hqueue : s.queue = k :: queue) :
    s.stage k = .queued :=
  (h.stage_iff k).2 (.inl (by rw [hqueue]; exact List.mem_cons_self))

theorem call_of_head (h : Queued p s) {k : ι} {queue : List ι} (hqueue : s.queue = k :: queue) :
    (∃ loc, p.calls k = .load loc) ∨ p.calls k = .shutdown :=
  (h.toStack k (by rw [hqueue]; exact List.mem_cons_self)).cases

theorem of_caller (h : Queued p s) {k : ι} (hk : k ∈ s.phase.callers) : s.stage k = .queued :=
  (h.stage_iff k).2 (.inr hk)

theorem call_of_admitted (h : Queued p s) {k : ι} (hk : s.stage k = .admitted) :
    (p.calls k).ToStack :=
  h.granted_toStack k ((h.granted_iff k).1 hk)

end Queued

/-- What has become of the requests that found room in the queue. -/
structure Ordered (p : StackSetup ι τ) (s : ServedStack ι τ) : Prop where
  accepted_eq : s.accepted = s.started ++ s.late ++ s.queue
  nodup : s.accepted.Nodup
  sent : ∀ k ∈ s.accepted, (s.stage k).Sent
  started : ∀ k ∈ s.started, ∃ loc, p.calls k = .load loc
  late_serving : s.phase = .serving → s.late = []
  late_shutdown : s.phase ≠ .serving →
    ∃ first behind, s.late = first :: behind ∧ p.calls first = .shutdown
  late_load : ∀ k ∈ s.late, ∀ loc, p.calls k = .load loc → s.stage k = .returned
  queue_ended : s.phase = .ended → s.queue = []
  refused : ∀ k ∈ s.refused, s.stage k = .returned ∧ k ∉ s.accepted

theorem ordered_initial (p : StackSetup ι τ) : Ordered p p.initial where
  accepted_eq := rfl
  nodup := List.nodup_nil
  sent k hk := by cases hk
  started k hk := by cases hk
  late_serving _ := rfl
  late_shutdown h := absurd rfl h
  late_load k hk := by cases hk
  queue_ended h := by cases h
  refused k hk := by cases hk

structure Flying (p : StackSetup ι τ) (s : ServedStack ι τ) : Prop where
  looking : ∀ k, (s.stage k).Looking → (p.calls k).ToStack → k ∈ s.inFlight
  inFlight : ∀ k ∈ s.inFlight, k ∈ s.started ∧ ((s.stage k).Looking ∨ s.stage k = .returned)
  ended : s.phase.Ending → s.inFlight = []

theorem flying_initial (p : StackSetup ι τ) : Flying p p.initial where
  looking k hk := by cases hk
  inFlight k hk := by cases hk
  ended _ := rfl

theorem mem_of_append_cons_eq {α : Type} {a b : α} {as bs cs ds : List α}
    (h : as ++ a :: bs = cs ++ b :: ds) (hab : a ≠ b) (hb : b ∉ as) : a ∈ cs := by
  induction as generalizing cs with
  | nil =>
    cases cs with
    | nil => exact absurd (List.cons_eq_cons.1 h).1 hab
    | cons c cs =>
      obtain ⟨rfl, -⟩ := List.cons_eq_cons.1 h
      exact List.mem_cons_self
  | cons x as ih =>
    cases cs with
    | nil =>
      obtain ⟨rfl, -⟩ := List.cons_eq_cons.1 h
      exact absurd List.mem_cons_self hb
    | cons c cs =>
      exact List.mem_cons_of_mem c
        (ih (List.cons_eq_cons.1 h).2 fun hmem => hb (List.mem_cons_of_mem x hmem))

/-- The request found room in the queue before any shutdown did. -/
def Ahead (p : StackSetup ι τ) (s : ServedStack ι τ) (k : ι) : Prop :=
  ∃ before after, s.accepted = before ++ k :: after ∧ ∀ j ∈ before, p.calls j ≠ .shutdown

namespace Ordered

variable {k : ι}

theorem not_started (h : Ordered p s) (hk : ¬ (s.stage k).Sent) : k ∉ s.started :=
  fun hmem => hk (h.sent k (by simp [h.accepted_eq, hmem]))

theorem not_started_of_head (h : Ordered p s) {queue : List ι} (hqueue : s.queue = k :: queue) :
    k ∉ s.started := by
  have hnodup := h.nodup
  rw [h.accepted_eq, hqueue] at hnodup
  grind [List.nodup_append]

/-- For a load that is ahead a lookup has been started, or it is still in the queue. -/
theorem started_of_ahead (h : Ordered p s) (hahead : Ahead p s k) {loc : ChunkLoc}
    (hk : p.calls k = .load loc) : k ∈ s.started ∨ k ∈ s.queue := by
  obtain ⟨before, after, heq, hbefore⟩ := hahead
  by_cases hphase : s.phase = .serving
  · have hmem : k ∈ s.started ++ s.late ++ s.queue := by
      rw [← h.accepted_eq, heq]
      simp
    simpa [h.late_serving hphase] using hmem
  · obtain ⟨first, behind, hlate, hfirst⟩ := h.late_shutdown hphase
    have hsplit := h.accepted_eq
    rw [heq, hlate, List.append_assoc] at hsplit
    have hne : k ≠ first := by
      rintro rfl
      cases hk.symm.trans hfirst
    exact .inl (mem_of_append_cons_eq hsplit hne fun hmem => hbefore first hmem hfirst)

theorem ahead_of_started (h : Ordered p s) (hk : k ∈ s.started) : Ahead p s k := by
  obtain ⟨before, after, heq⟩ := List.append_of_mem hk
  refine ⟨before, after ++ s.late ++ s.queue, by simp [h.accepted_eq, heq], fun j hj hcall => ?_⟩
  -- What was started before is loads.
  obtain ⟨loc, hload⟩ := h.started j (heq ▸ List.mem_append_left _ hj)
  cases hload.symm.trans hcall

end Ordered

/-! ## Steps -/

theorem Ordered.of_eq (h : Ordered p s) (haccepted : s'.accepted = s.accepted)
    (hrefused : s'.refused = s.refused) (hstarted : s'.started = s.started)
    (hlate : s'.late = s.late) (hqueue : s'.queue = s.queue)
    (hsent : ∀ k, (s.stage k).Sent → (s'.stage k).Sent)
    (hreturned : ∀ k, s.stage k = .returned → s'.stage k = .returned)
    (hserving : s'.phase = .serving ↔ s.phase = .serving)
    (hended : s'.phase = .ended → s.queue = []) : Ordered p s' where
  accepted_eq := by rw [haccepted, hstarted, hlate, hqueue, h.accepted_eq]
  nodup := haccepted ▸ h.nodup
  sent k hk := hsent k (h.sent k (haccepted ▸ hk))
  started := hstarted ▸ h.started
  late_serving hphase := hlate.trans (h.late_serving (hserving.1 hphase))
  late_shutdown hphase := by
    rw [hlate]
    exact h.late_shutdown (mt hserving.2 hphase)
  late_load k hk loc hcall := hreturned k (h.late_load k (hlate ▸ hk) loc hcall)
  queue_ended hphase := hqueue.trans (hended hphase)
  refused k hk := by
    obtain ⟨hstage, hnew⟩ := h.refused k (hrefused ▸ hk)
    exact ⟨hreturned k hstage, haccepted ▸ hnew⟩

theorem Flying.of_eq (h : Flying p s) (hstarted : s'.started = s.started)
    (hinFlight : s'.inFlight = s.inFlight)
    (hlooking : ∀ k, (s'.stage k).Looking → (p.calls k).ToStack → (s.stage k).Looking)
    (hflying : ∀ k, (s.stage k).Looking ∨ s.stage k = .returned →
      (s'.stage k).Looking ∨ s'.stage k = .returned)
    (hending : s'.phase.Ending → s.phase.Ending) : Flying p s' where
  looking k hk hstack := hinFlight ▸ h.looking k (hlooking k hk hstack) hstack
  inFlight k hk := by
    obtain ⟨hmem, hstage⟩ := h.inFlight k (hinFlight ▸ hk)
    exact ⟨hstarted ▸ hmem, hflying k hstage⟩
  ended hphase := hinFlight.trans (h.ended (hending hphase))

variable [DecidableEq ι]

theorem Queued.change (h : Queued p s) {k : ι} {x y : Stage τ} (hk : s.stage k = y)
    (hstage : s'.stage = (s.setStage k x).stage) (hy : y ≠ .queued ∧ y ≠ .admitted)
    (hx : x ≠ .queued) (hx' : x ≠ .admitted) (hqueue : s'.queue = s.queue) (hphase : s'.phase = s.phase)
    (hgranted : s'.granted = s.granted) (hlate : s'.late = s.late) : Queued p s' where
  nodup := by
    rw [hqueue, hphase]
    exact h.nodup
  stage_iff j := by
    rw [hqueue, hphase, hstage, stage_setStage, ← h.stage_iff]
    split
    · subst j
      exact iff_of_false hx (hk ▸ hy.1)
    · rfl
  shutdown := by
    rw [hphase, hlate]
    exact h.shutdown
  toStack := hqueue ▸ h.toStack
  granted_nodup := hgranted ▸ h.granted_nodup
  granted_iff j := by
    rw [hgranted, hstage, stage_setStage, ← h.granted_iff]
    split
    · subst j
      exact iff_of_false hx' (hk ▸ hy.2)
    · rfl
  granted_toStack := hgranted ▸ h.granted_toStack

variable [DecidableEq τ]

attribute [local grind =] List.nodup_append List.Nodup.mem_erase_iff
attribute [local grind ←] List.Nodup.erase

theorem Queued.step (h : Queued p s) (hs : s.Step p s') : Queued p s' := by
  cases hs with
  | refuse hk | direct hk | enter hk | ask hk | fail hk | forfeit hk | exhaust hk | tell hk =>
    exact h.change hk rfl (by simp) (by simp) (by simp) rfl rfl rfl rfl
  | @serve _ _ loc rest _ files hqueue hrunning hk =>
    obtain ⟨-, hadmitted, hqueued, -⟩ := Stage.after_ne loc rest _
    exact h.change hk rfl (by simp) hqueued hadmitted rfl rfl rfl rfl
  | deny hqueue hstopped hk => exact h.change hk rfl (by simp) (by simp) (by simp) rfl rfl rfl rfl
  | join | quit | leave =>
    exact ⟨h.nodup, h.stage_iff, h.shutdown, h.toStack, h.granted_nodup, h.granted_iff,
      h.granted_toStack⟩
  | close hphase | drain hphase | stop hphase | pass hphase | reserve hphase | halt hphase
  | halted hphase | stopped hphase | finish hphase =>
    -- The callers stay the same.
    obtain ⟨hnodup, hstage, hshutdown, htoStack, hgrantedNodup, hgranted, hgrantedStack⟩ := h
    rw [hphase] at hnodup hstage hshutdown
    exact ⟨hnodup, hstage, hshutdown, htoStack, hgrantedNodup, hgranted, hgrantedStack⟩
  | grant | push | lose | start | notice | turnAway | gather | release | drop =>
    -- A request joins the queue or leaves it, or the first of the callers is told.
    obtain ⟨hnodup, hstage, hshutdown, htoStack, hgrantedNodup, hgranted, hgrantedStack⟩ := h
    constructor <;> grind -linarith

theorem Ordered.step (h : Ordered p s) (hq : Queued p s) (hs : s.Step p s') : Ordered p s' := by
  cases hs with
  | push | refuse | start | notice | turnAway | gather | drop =>
    -- A request joins the queue, or the first one moves to the end of `started` or of `late`, or
    -- one is refused.
    obtain ⟨haccepted, hnodup, hsent, hstarted, hserving, hshutdown, hload, hqueue, hrefused⟩ := h
    have hstage := hq.stage_iff
    constructor <;> grind -linarith
  | grant | lose | direct | enter | ask | fail | forfeit | exhaust | tell | serve | deny =>
    exact h.of_eq rfl rfl rfl rfl rfl (by grind -linarith) (by grind -linarith) Iff.rfl
      h.queue_ended
  | join | quit | leave =>
    exact h.of_eq rfl rfl rfl rfl rfl (fun _ => id) (fun _ => id) Iff.rfl h.queue_ended
  | finish hphase hqueue =>
    exact h.of_eq rfl rfl rfl rfl rfl (fun _ => id) (fun _ => id) (by grind) fun _ => hqueue
  | close | drain | stop | pass | reserve | halt | halted | stopped | release =>
    exact h.of_eq rfl rfl rfl rfl rfl (by grind -linarith) (by grind -linarith)
      (by grind -linarith) nofun

theorem Flying.step (h : Flying p s) (hq : Queued p s) (hs : s.Step p s') : Flying p s' := by
  have hstage := hq.stage_iff
  have hgranted := hq.granted_iff
  cases hs with
  | start =>
    -- The lookup joins those in flight, and the stack still serves.
    obtain ⟨hlooking, hinFlight, hended⟩ := h
    constructor <;> grind -linarith
  | join =>
    -- Only a lookup that has returned is forgotten.
    obtain ⟨hlooking, hinFlight, hended⟩ := h
    constructor <;> grind -linarith
  | stop hphase hnone => exact ⟨h.looking, h.inFlight, fun _ => hnone⟩
  | grant | push | refuse | lose | direct | turnAway | release | drop | enter | ask | fail | forfeit
  | exhaust | tell | serve | deny =>
    exact h.of_eq rfl rfl (by grind -linarith) (by grind -linarith) (by grind -linarith)
  | notice | close | gather | drain | pass | reserve | halt | halted | stopped | finish | quit
  | leave =>
    exact h.of_eq rfl rfl (fun _ hk _ => hk) (fun _ hk => hk) (by grind -linarith)

end ServedStack

end BlockWorld
