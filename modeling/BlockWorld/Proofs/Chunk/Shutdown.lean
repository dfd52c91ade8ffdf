import BlockWorld.Proofs.Chunk.Progress
import Mathlib.Data.List.Forall2
import Mathlib.Data.List.TakeWhile

/-! # Shutting a served stack down

No lookup is lost to a shutdown. A load that was sent before it has the answer of the running tiers
however late the lookup is, and one that was sent behind it asks no tier. When a shutdown that found
room in the queue returns, the tiers have been shut down and the lookups have their answers. One
that finds the queue closed returns at once, and all that it may rely on is that the queue is
closed.
-/

namespace BlockWorld

theorem ChunkService.load_frozen (s : ChunkService) (kept files : FileTree) (loc : ChunkLoc) :
    ((s.frozen kept).load files loc).1 = (s.load kept loc).1 := by
  cases h : s.stopped <;> simp [load, frozen, h]

namespace ServedStack

variable {ι τ : Type} {p : StackSetup ι τ} {s s' : ServedStack ι τ} {k : ι} {loc : ChunkLoc}
  {answer : ChunkAnswer}

/-! ## Lookups that are answered -/

theorem answers_of_moments {vs : List (Visit ι τ)} (hloc : ∀ v ∈ vs, v.loc = loc)
    (files : FileTree) :
    (vs.map Visit.moment).map (fun m => (m.load files loc).1) = vs.map (·.answer) := by
  rw [List.map_map]
  refine List.map_congr_left fun v hv => ?_
  rw [← hloc v hv]
  exact ChunkService.load_frozen v.service v.files files v.loc

variable [DecidableEq τ]

/-- Tiers that a lookup has not come to, as they are now. -/
theorem runsAs_now (log : List (Visit ι τ)) (rest : List τ) :
    List.Forall₂ (p.RunsAs log) rest
      (rest.map fun t => (p.serviceAfter log t).frozen FileTree.empty) := by
  rw [List.forall₂_map_right_iff, List.forall₂_same]
  exact fun t _ => StackSetup.runsAs_of_prefix (List.prefix_refl log) t FileTree.empty

variable [DecidableEq ι]

theorem runsAs_visits (hl : Logged p s) (k : ι) :
    List.Forall₂ (p.RunsAs s.log) ((s.visits k).map (·.tier)) ((s.visits k).map Visit.moment) := by
  rw [List.forall₂_map_left_iff, List.forall₂_map_right_iff, List.forall₂_same]
  exact fun v hv => hl.logs.runsAs (List.mem_of_mem_filter hv)

/-- The answer is what the tiers come to, each as it runs at some moment, and those that the lookup
has visited as they were at the visit. -/
def Resolved (p : StackSetup ι τ) (s : ServedStack ι τ) (k : ι) (loc : ChunkLoc)
    (answer : ChunkAnswer) : Prop :=
  ∃ tiers : List ChunkService, List.Forall₂ (p.RunsAs s.log) p.order tiers ∧
    (s.visits k).map Visit.moment <+: tiers ∧
    ∀ files, answer = (ChunkStack.resolve { tiers } files loc).1

theorem Resolved.of_concluded (hl : Logged p s) (hcall : p.calls k = .load loc)
    (h : Concluded p k (s.visits k) answer) : Resolved p s k loc answer := by
  obtain ⟨l, rest, hlookup, hloc, hrest⟩ := h.covered
  obtain ⟨rfl, horder⟩ : loc = l ∧ p.order = (s.visits k).map (·.tier) ++ rest := by
    simpa [StackSetup.lookup?, hcall] using hlookup
  have hruns : List.Forall₂ (p.RunsAs s.log) p.order ((s.visits k).map Visit.moment ++
      rest.map fun t => (p.serviceAfter s.log t).frozen FileTree.empty) := by
    rw [horder]
    exact List.rel_append (runsAs_visits hl k) (runsAs_now s.log rest)
  refine ⟨_, hruns, List.prefix_append _ _, fun files => ?_⟩
  rw [ChunkStack.resolve, ChunkStack.search_eq_firstAnswer, List.map_append,
    answers_of_moments hloc files, h.answer_eq]
  -- The tiers that were left out do not matter, or there are none.
  by_cases hmissed : ∀ v ∈ s.visits k, v.answer = .ok none
  · rw [hrest hmissed, List.map_nil, List.map_nil, List.append_nil]
  · exact (ChunkStack.firstAnswer_append (by simpa using hmissed) _).symm

/-! ## Loads that come too late -/

theorem unasked_of_not_started (h : Invariant p s) (hcall : p.calls k = .load loc)
    (hstarted : k ∉ s.started) :
    s.visits k = [] ∧ ∀ t l, .load k l ∉ (s.tiers t).queue ∧ .load k l ∉ (s.tiers t).granted := by
  have hlooking : ¬ (s.stage k).Looking := fun hlooking =>
    hstarted (h.flying.inFlight k (h.flying.looking k hlooking (by rw [hcall]; trivial))).1
  refine ⟨?_, fun t l => ?_⟩
  · cases hk : s.stage k with
    | calling | admitted | queued => exact h.coursed.of_eq hk
    | asking | entering | waiting | decided =>
      rw [hk] at hlooking
      exact absurd trivial hlooking
    | returned =>
      obtain ⟨r, hr⟩ := h.answered.exists_reply hk
      have hanswer := h.answered.answer k r hr
      rw [Answer, hcall] at hanswer
      obtain ⟨hmem, -⟩ | ⟨-, hvisits, -⟩ := hanswer
      · exact absurd hmem hstarted
      · exact hvisits
  · rw [h.tiered.load_mem, h.tiered.load_granted]
    cases hk : s.stage k with
    | waiting | entering =>
      rw [hk] at hlooking
      exact absurd trivial hlooking
    | _ => simp [Stage.request?, Stage.entered?]

theorem tier_mem_of_visit (h : Invariant p s) {v : Visit ι τ} (hv : v ∈ s.visits k) :
    ∃ loc tiers, p.lookup? k = some (loc, tiers) ∧ v.tier ∈ tiers := by
  cases hk : s.stage k with
  | calling | admitted | queued =>
    rw [h.coursed.of_eq hk] at hv
    cases hv
  | asking loc rest => exact (h.coursed.of_eq hk).tier_mem hv
  | entering loc t rest => exact (h.coursed.of_eq hk).tier_mem hv
  | waiting loc t rest => exact (h.coursed.of_eq hk).tier_mem hv
  | decided answer =>
    obtain hconcluded | hdenied := h.coursed.of_eq hk
    · exact hconcluded.tier_mem hv
    · rw [hdenied.unvisited] at hv
      cases hv
  | returned =>
    obtain ⟨r, hr⟩ := h.answered.exists_reply hk
    obtain hnil | ⟨answer, hconcluded⟩ := (h.answered.answer k r hr).visits
    · rw [hnil] at hv
      cases hv
    · exact hconcluded.tier_mem hv

theorem visits_of_not_started (h : Invariant p s) (hstack : (p.calls k).ToStack)
    (hstarted : k ∉ s.started) : s.visits k = [] := by
  obtain ⟨loc, hcall⟩ | hcall := hstack.cases
  · exact (unasked_of_not_started h hcall hstarted).1
  · refine List.eq_nil_iff_forall_not_mem.2 fun v hv => ?_
    obtain ⟨loc, tiers, hlookup, -⟩ := tier_mem_of_visit h hv
    simp [StackSetup.lookup?, hcall] at hlookup

/-! ## The queue closed -/

/-- The call waits for room in a closed queue, or was refused there. -/
def TooLate (p : StackSetup ι τ) (s : ServedStack ι τ) (k : ι) : Prop :=
  ¬ s.phase.Open ∧ (s.stage k = .calling ∧ (p.calls k).ToStack ∨ k ∈ s.refused)

attribute [local grind] TooLate

theorem TooLate.step (h : TooLate p s k) (hq : Queued p s) (hs : s.Step p s') :
    TooLate p s' k := by
  have hstage := hq.stage_iff
  cases hs <;> grind -linarith

theorem TooLate.leads (h : TooLate p s k) (hi : Invariant p s) (hrun : s.Leads p s') :
    TooLate p s' k := by
  induction hrun with
  | refl => exact h
  | tail hrun hs ih => exact ih.step (hi.leads hrun).queued hs

theorem TooLate.not_started (h : TooLate p s k) (hi : Invariant p s) : k ∉ s.started := by
  obtain ⟨-, ⟨hcalling, -⟩ | hrefused⟩ := h
  · exact hi.ordered.not_started (by simp [hcalling, Stage.Sent])
  · have hnew := (hi.ordered.refused k hrefused).2
    exact fun hmem => hnew (by simp [hi.ordered.accepted_eq, hmem])

/-- The queue was closed for a shutdown that was taken from it, and every request that is made from
now on is refused at once. -/
structure Closed (p : StackSetup ι τ) (s : ServedStack ι τ) : Prop where
  taken : ∃ k ∈ s.late, p.calls k = .shutdown
  atOnce : ∀ k, s.stage k = .calling → (p.calls k).ToStack →
    s.Step p { s.reply k (p.calls k).refusal with refused := s.refused ++ [k] }
  refused : ∀ k, s.stage k = .calling → (p.calls k).ToStack → ∀ s', s.Leads p s' →
    s'.visits k = [] ∧ ∀ r, (k, r) ∈ s'.replies → r = (p.calls k).refusal

theorem closed_of_not_open (h : Invariant p s) (hclosed : ¬ s.phase.Open) : Closed p s where
  taken := by
    have hphase : s.phase ≠ .serving := fun hphase => hclosed (by rw [hphase]; trivial)
    obtain ⟨first, behind, hlate, hfirst⟩ := h.ordered.late_shutdown hphase
    exact ⟨first, by simp [hlate], hfirst⟩
  atOnce k hk hstack := .refuse hk hstack hclosed
  refused k hk hstack s' hrun := by
    have hlate : TooLate p s k := ⟨hclosed, .inl ⟨hk, hstack⟩⟩
    have h' := h.leads hrun
    have hstarted := (hlate.leads h hrun).not_started h'
    have hvisits := visits_of_not_started h' hstack hstarted
    exact ⟨hvisits, fun r hr => (h'.answered.answer k r hr).refused hstarted hvisits⟩

/-! ## After the shutdown -/

theorem Step.stopped_tier {t : τ} (hs : s.Step p s')
    (hstopped : (s.tiers t).service.stopped = true) :
    (s'.tiers t).service.stopped = true ∧ ∀ v ∈ s'.log, v.tier = t → v ∈ s.log := by
  cases hs <;> grind -linarith

theorem Leads.stopped_tier {t : τ} (hrun : s.Leads p s')
    (hstopped : (s.tiers t).service.stopped = true) :
    (s'.tiers t).service.stopped = true ∧ ∀ v ∈ s'.log, v.tier = t → v ∈ s.log := by
  induction hrun with
  | refl => exact ⟨hstopped, fun _ hv _ => hv⟩
  | tail _ hs ih =>
    obtain ⟨hstopped', hlog⟩ := hs.stopped_tier ih.1
    exact ⟨hstopped', fun v hv ht => ih.2 v (hlog v hv ht) ht⟩

theorem denied_of_stopped (h : Invariant p s) {t : τ}
    (hstopped : (s.tiers t).service.stopped = true) (hk : s.stage k = .calling)
    (hcall : p.calls k = .tier t loc) (hrun : s.Leads p s') :
    s'.visits k = [] ∧ ∀ r, (k, r) ∈ s'.replies → r = (p.calls k).refusal := by
  have h' := h.leads hrun
  have hstarted : k ∉ s'.started := fun hmem => by
    obtain ⟨l, hload⟩ := h'.ordered.started k hmem
    cases hcall.symm.trans hload
  have hvisits : s'.visits k = [] := by
    refine List.eq_nil_iff_forall_not_mem.2 fun v hv => ?_
    obtain ⟨l, tiers, hlookup, htiers⟩ := tier_mem_of_visit h' hv
    obtain ⟨rfl, rfl⟩ : loc = l ∧ [t] = tiers := by
      simpa [StackSetup.lookup?, hcall] using hlookup
    -- The tier had been stopped before the call, so the visit would be older than the call.
    obtain ⟨hlog, hcaller⟩ := List.mem_filter.1 hv
    have hold := (hrun.stopped_tier hstopped).2 v hlog (by simpa using htiers)
    have hmem : v ∈ s.visits k := List.mem_filter.2 ⟨hold, hcaller⟩
    rw [h.coursed.of_eq hk] at hmem
    cases hmem
  exact ⟨hvisits, fun r hr => (h'.answered.answer k r hr).refused hstarted hvisits⟩

/-- The stack has been shut down: besides the queue being closed, the lookups have ended and the
tiers are stopped, and whoever asks them, one by one or all in turn, is turned away. -/
structure Ended (p : StackSetup ι τ) (s : ServedStack ι τ) : Prop extends Closed p s where
  answered : ∀ k ∈ s.started, ∃ r, (k, r) ∈ s.replies
  stopped : ∀ t ∈ p.order, (s.tiers t).service.stopped = true
  denied : ∀ k t loc, s.stage k = .calling → p.calls k = .tier t loc → t ∈ p.order →
    ∀ s', s.Leads p s' → s'.visits k = [] ∧ ∀ r, (k, r) ∈ s'.replies → r = (p.calls k).refusal
  resolved : ∀ files loc,
    (ChunkStack.resolve { tiers := p.order.map fun t => (s.tiers t).service } files loc).1 =
      if p.order.isEmpty then .ok none else .error .serviceStopped

/-- When the tiers are shut down, the lookups have their answers. -/
theorem returned_of_ending (h : Invariant p s) (hending : s.phase.Ending) (hk : k ∈ s.started) :
    s.stage k = .returned := by
  have haccepted : k ∈ s.accepted := by simp [h.ordered.accepted_eq, hk]
  obtain ⟨loc, hcall⟩ := h.ordered.started k hk
  have hsent := h.ordered.sent k haccepted
  cases hstage : s.stage k with
  | calling | admitted => simp [hstage, Stage.Sent] at hsent
  | queued =>
    obtain hmem | hmem := (h.queued.stage_iff k).1 hstage
    · have hnodup := h.ordered.nodup
      rw [h.ordered.accepted_eq, List.append_assoc] at hnodup
      exact absurd hmem fun hmem => (List.nodup_append.1 hnodup).2.2 k hk k (by simp [hmem]) rfl
    · cases hcall.symm.trans (h.queued.shutdown k hmem).1
  | asking | entering | waiting | decided =>
    have hmem := h.flying.looking k (by rw [hstage]; trivial) (by rw [hcall]; trivial)
    rw [h.flying.ended hending] at hmem
    cases hmem
  | returned => rfl

theorem ended_of_over (h : Invariant p s) (hover : s.phase.Over) : Ended p s := by
  have hstopped : ∀ t ∈ p.order, (s.tiers t).service.stopped = true := by
    intro t ht
    obtain hmem | hstopped := h.halted hover.ending t ht
    · rw [hover.left_eq] at hmem
      cases hmem
    · exact hstopped
  exact {
    toClosed := closed_of_not_open h hover.ending.not_open
    answered := fun k hk => h.answered.exists_reply (returned_of_ending h hover.ending hk)
    stopped := hstopped
    denied := fun k t loc hk hcall ht s' hrun =>
      denied_of_stopped h (hstopped t ht) hk hcall hrun
    resolved := fun files loc => by
      rw [ChunkStack.resolve, ChunkStack.search_of_stopped (by simpa using hstopped)]
      simp }

/-! ## The calls of a run -/

/-- A load that is ahead returns with what the running tiers come to. -/
theorem resolved_of_ahead (h : Invariant p s) (hahead : Ahead p s k) (hcall : p.calls k = .load loc)
    {r : StackReply} (hr : (k, r) ∈ s.replies) :
    ∃ answer, r = .chunk answer ∧ Resolved p s k loc answer := by
  have hstarted : k ∈ s.started := by
    obtain hstarted | hqueue := h.ordered.started_of_ahead hahead hcall
    · exact hstarted
    · have hqueued := (h.queued.stage_iff k).2 (.inl hqueue)
      cases hqueued.symm.trans (h.answered.returned hr)
  have hanswer := h.answered.answer k r hr
  rw [Answer, hcall] at hanswer
  obtain ⟨-, answer, rfl, hconcluded⟩ | ⟨hnot, -⟩ := hanswer
  · exact ⟨answer, rfl, .of_concluded h.logged hcall hconcluded⟩
  · exact absurd hstarted hnot

def earlier (s : ServedStack ι τ) (k : ι) : List ι := s.accepted.takeWhile (· ≠ k)

theorem mem_of_earlier (h : Invariant p s) (htold : Told s k) (hreturned : s.stage k = .returned)
    {j : ι} (hj : j ∈ s.earlier k) : j ∈ s.started ∨ j ∈ s.late := by
  have hsplit := h.ordered.accepted_eq
  rw [earlier] at hj
  obtain haccepted | hended := htold.2
  · have hgone : k ∉ s.queue := fun hmem => by
      cases hreturned.symm.trans ((h.queued.stage_iff k).2 (.inl hmem))
    have hbefore : k ∈ s.started ++ s.late := by
      rw [hsplit] at haccepted
      exact (List.mem_append.1 haccepted).resolve_right hgone
    rw [hsplit, List.takeWhile_append] at hj
    split at hj
    · rename_i hlength
      have hall := (List.takeWhile_prefix _).eq_of_length hlength
      rw [List.takeWhile_eq_self_iff] at hall
      simpa using hall k hbefore
    · exact List.mem_append.1 (List.takeWhile_subset _ hj)
  · rw [hsplit, h.ordered.queue_ended hended, List.append_nil] at hj
    exact List.mem_append.1 (List.takeWhile_subset _ hj)

/-- What a shutdown that returns may rely on: at least that the queue is closed, and if it was not
refused that the stack has been shut down and the loads before it have their answers. -/
theorem closed_or_ended_of_shutdown (h : Invariant p s) (hcall : p.calls k = .shutdown)
    {r : StackReply} (hr : (k, r) ∈ s.replies) :
    r = .done ∧ Closed p s ∧ (k ∉ s.refused → Ended p s ∧
      ∀ j ∈ s.earlier k, ∀ loc, p.calls j = .load loc → ∃ r, (j, r) ∈ s.replies) := by
  have hanswer := h.answered.answer k r hr
  rw [Answer, hcall] at hanswer
  obtain ⟨hdone, -, hclosed, htold⟩ := hanswer
  refine ⟨hdone, closed_of_not_open h hclosed, fun hk => ?_⟩
  have hended := ended_of_over h (htold hk).1
  refine ⟨hended, fun j hj loc hload => ?_⟩
  obtain hstarted | hlate := mem_of_earlier h (htold hk) (h.answered.returned hr) hj
  · exact hended.answered j hstarted
  · exact h.answered.exists_reply (h.ordered.late_load j hlate loc hload)

end ServedStack

namespace StackSetup

open ServedStack

variable {ι τ : Type} [DecidableEq ι] [DecidableEq τ]

/-- Whatever the order of the steps, shutting a stack down loses no lookup:
* a load that was sent before any shutdown returns with what the running tiers come to;
* any other load asks no tier and returns with an error;
* no call returns twice, and all of them return;
* when a shutdown returns, the queue is closed, and unless the shutdown found it closed the stack has
  been shut down and all loads sent before have their answers.
-/
theorem shutdown_loses_no_lookup (p : StackSetup ι τ) {s : ServedStack ι τ} (h : p.Reachable s) :
    (∀ k loc, p.calls k = .load loc →
      (Ahead p s k → ∀ r, (k, r) ∈ s.replies →
        ∃ answer, r = .chunk answer ∧ Resolved p s k loc answer) ∧
      (¬ Ahead p s k → (s.visits k = [] ∧
          ∀ t l, .load k l ∉ (s.tiers t).queue ∧ .load k l ∉ (s.tiers t).granted) ∧
        ∀ r, (k, r) ∈ s.replies → r = .chunk (.error .serviceStopped))) ∧
    (s.replies.map Prod.fst).Nodup ∧
    (∀ S : Finset ι, s.Within S →
      Inevitable p S (fun s' => ∀ k ∈ S, ∃ r, (k, r) ∈ s'.replies) s) ∧
    (∀ k, p.calls k = .shutdown → ∀ r, (k, r) ∈ s.replies →
      r = .done ∧ Closed p s ∧ (k ∉ s.refused → Ended p s ∧
        ∀ j ∈ s.earlier k, ∀ loc, p.calls j = .load loc → ∃ r, (j, r) ∈ s.replies)) := by
  have hi := h.invariant
  refine ⟨fun k loc hcall => ⟨fun hahead r hr => ?_, fun hahead => ?_⟩,
    hi.answered.nodup, fun S hwithin => inevitable_replies hi hwithin,
    fun k hcall r hr => closed_or_ended_of_shutdown hi hcall hr⟩
  · exact resolved_of_ahead hi hahead hcall hr
  · have hstarted : k ∉ s.started := fun hmem => hahead (hi.ordered.ahead_of_started hmem)
    have hunasked := unasked_of_not_started hi hcall hstarted
    refine ⟨hunasked, fun r hr => ?_⟩
    rw [(hi.answered.answer k r hr).refused hstarted hunasked.1, hcall, StackCall.refusal]

/-- A load, a shutdown, a load, another shutdown, and a call on the last tier. -/
def interrupted : StackSetup (Fin 5) Bool where
  calls
    | 0 => .load ⟨4, 7⟩
    | 1 => .shutdown
    | 2 => .load ⟨0, 0⟩
    | 3 => .shutdown
    | 4 => .tier true ⟨0, 0⟩
  order := [false, true]
  services
    | false => { source := ⟨"store", fun _ _ _ => some (.ok none)⟩ }
    | true => { source := ⟨"terrain", fun _ _ loc => some (.ok (some (.empty loc)))⟩ }
  running t := by cases t <;> rfl
  capacity := 2
  capacity_pos := by decide
  room _ := 1
  room_pos _ := by decide

/-- The first shutdown comes while the first tier is asked, and the second finds the queue closed.
After that the last tier may still be asked by the fifth call. Or the second load, which had found
room before, comes into the closed queue, and the fifth call comes when all is over. -/
theorem interrupted_run : ∃ s, interrupted.Reachable s ∧
    (s.accepted = [0, 1] ∧ s.replies = [(3, .done)] ∧
      (∀ t, (s.tiers t).service.stopped = false) ∧ s.stage 4 = .calling) ∧
    (∃ s', s.Leads interrupted s' ∧ (4, .chunk (.ok (some (.empty ⟨0, 0⟩)))) ∈ s'.replies) ∧
    ∃ s', s.Leads interrupted s' ∧ s'.accepted = [0, 1, 2] ∧ s'.refused = [3] ∧
      s'.replies = [(3, .done), (0, .chunk (.ok (some (.empty ⟨4, 7⟩)))), (1, .done),
        (2, .chunk (.error .serviceStopped)), (4, .chunk (.error .serviceStopped))] := by
  have hrun : interrupted.initial.Leads interrupted _ :=
    .head (.grant (k := 0) rfl (by trivial) (by trivial) (by decide)) <|
    .head (.push (k := 0) rfl nofun) <|
    .head (.start (k := 0) rfl rfl rfl) <|
    .head (.enter (k := 0) rfl rfl (by decide)) <|
    .head (.ask (k := 0) rfl rfl) <|
    .head (.grant (k := 1) rfl (by trivial) (by trivial) (by decide)) <|
    .head (.grant (k := 2) rfl (by trivial) (by trivial) (by decide)) <|
    .head (.push (k := 1) rfl nofun) <|
    .head (.notice (k := 1) rfl rfl rfl) <|
    .head (.close rfl) <|
    .single (.refuse (k := 3) rfl (by trivial) nofun)
  refine ⟨_, hrun, ⟨rfl, rfl, fun t => by cases t <;> rfl, rfl⟩, ⟨_,
    .head (.direct (k := 4) rfl rfl) <|
    .head (.enter (k := 4) rfl rfl (by decide)) <|
    .head (.ask (k := 4) rfl rfl) <|
    .head (.serve (k := 4) (t := true) FileTree.empty rfl rfl rfl) <|
    .single (.tell (k := 4) rfl), by simp [reply]⟩, _,
    .head (.drain rfl rfl) <|
    .head (.push (k := 2) rfl nofun) <|
    .head (.serve (k := 0) (t := false) FileTree.empty rfl rfl rfl) <|
    .head (.enter (k := 0) rfl rfl (by decide)) <|
    .head (.ask (k := 0) rfl rfl) <|
    .head (.serve (k := 0) (t := true) FileTree.empty rfl rfl rfl) <|
    .head (.tell (k := 0) rfl) <|
    .head (.join (k := 0) (.inr rfl) (by decide) rfl) <|
    .head (.stop rfl rfl) <|
    .head (.reserve rfl rfl (by decide)) <|
    .head (.halt rfl) <|
    .head (.quit (t := false) rfl) <|
    .head (.leave (t := false) rfl rfl rfl) <|
    .head (.halted rfl rfl) <|
    .head (.reserve rfl rfl (by decide)) <|
    .head (.halt rfl) <|
    .head (.quit (t := true) rfl) <|
    .head (.leave (t := true) rfl rfl rfl) <|
    .head (.halted rfl rfl) <|
    .head (.stopped rfl) <|
    .head (.release rfl) <|
    .head (.drop rfl rfl) <|
    .head (.direct (k := 4) rfl rfl) <|
    .head (.fail (k := 4) rfl rfl) <|
    .single (.tell (k := 4) rfl), rfl, rfl, rfl⟩

theorem shutdown_loses_no_lookup_interrupted : ∃ s, interrupted.Reachable s ∧
    s.replies = [(3, .done), (0, .chunk (.ok (some (.empty ⟨4, 7⟩)))), (1, .done),
      (2, .chunk (.error .serviceStopped)), (4, .chunk (.error .serviceStopped))] ∧
    Resolved interrupted s 0 ⟨4, 7⟩ (.ok (some (.empty ⟨4, 7⟩))) ∧ s.visits 2 = [] ∧
    Ended interrupted s := by
  obtain ⟨s₀, hs₀, -, -, s, hlater, haccepted, hrefused, hreplies⟩ := interrupted_run
  have hs : interrupted.Reachable s := hs₀.trans hlater
  obtain ⟨hloads, -, -, hshutdown⟩ := shutdown_loses_no_lookup interrupted hs
  have hahead : Ahead interrupted s 0 := ⟨[], [1, 2], haccepted, by simp⟩
  have hbehind : ¬ Ahead interrupted s 2 := by
    rintro ⟨before, after, heq, hbefore⟩
    have hsplit : [0] ++ 1 :: [2] = before ++ 2 :: after := haccepted.symm.trans heq
    exact hbefore 1 (mem_of_append_cons_eq hsplit (by decide) (by decide)) rfl
  obtain ⟨answer, hanswer, hresolved⟩ := (hloads 0 ⟨4, 7⟩ rfl).1 hahead
    (.chunk (.ok (some (.empty ⟨4, 7⟩)))) (by simp [hreplies])
  have hunasked := (hloads 2 ⟨0, 0⟩ rfl).2 hbehind
  obtain ⟨-, -, hended⟩ := hshutdown 1 rfl .done (by simp [hreplies])
  cases hanswer
  exact ⟨s, hs, hreplies, hresolved, hunasked.1.1, (hended (by simp [hrefused])).1⟩

/-- A shutdown that finds the queue closed returns while a lookup that came before it is under way
and both tiers run; a load on a tier that is made after that has an answer. And a stack without
tiers goes on finding nothing when it has been shut down. -/
theorem refused_shutdown_returns_early : (∃ s, interrupted.Reachable s ∧
      interrupted.calls 3 = .shutdown ∧ s.replies = [(3, .done)] ∧
      0 ∈ s.accepted ∧ interrupted.calls 0 = .load ⟨4, 7⟩ ∧
      (∀ t, (s.tiers t).service.stopped = false) ∧ s.stage 4 = .calling ∧
      ∃ s', s.Leads interrupted s' ∧ (4, .chunk (.ok (some (.empty ⟨0, 0⟩)))) ∈ s'.replies) ∧
    ((ChunkStack.shutdown { tiers := [] }).resolve FileTree.empty ⟨0, 0⟩).1 = .ok none := by
  obtain ⟨s, hs, ⟨haccepted, hreplies, hrunning, hcalling⟩, hlater, -⟩ := interrupted_run
  exact ⟨⟨s, hs, rfl, hreplies, by simp [haccepted], rfl, hrunning, hcalling, hlater⟩, rfl⟩

end StackSetup

end BlockWorld
