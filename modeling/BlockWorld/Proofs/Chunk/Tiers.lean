import BlockWorld.Proofs.Chunk.Requests
import BlockWorld.Proofs.Chunk.Search

/-! # The tiers of a served stack

A tier runs until the stack shuts it down, and the stack does that only at the end, one tier after
the other. What a tier answers is what its source answers after all the requests that it was visited
for before.
-/

namespace BlockWorld

@[grind =] theorem ChunkService.stopped_load (x : ChunkService) (files : FileTree)
    (loc : ChunkLoc) : (x.load files loc).2.stopped = x.stopped := by
  unfold load
  split <;> rfl

@[grind =] theorem ChunkService.stopped_shutdown (x : ChunkService) : x.shutdown.stopped = true :=
  rfl

namespace StackSetup

open ServedStack

variable {ι τ : Type} [DecidableEq τ] {p : StackSetup ι τ}

@[grind =] theorem serviceAfter_concat (log : List (Visit ι τ)) (v : Visit ι τ) (t : τ) :
    p.serviceAfter (log ++ [v]) t = if v.tier = t then
      { p.serviceAfter log t with asked := v.loc :: (p.serviceAfter log t).asked }
      else p.serviceAfter log t := by
  by_cases h : v.tier = t <;> simp [serviceAfter, h]

/-- Each visit finds its tier as the visits before it have left it. -/
inductive Logs (p : StackSetup ι τ) : List (Visit ι τ) → Prop
  | nil : Logs p []
  | concat {log : List (Visit ι τ)} {v : Visit ι τ} : Logs p log →
      v.service = p.serviceAfter log v.tier → Logs p (log ++ [v])

/-- The tier as it runs after some visits of the log, with the files as they are at that moment. -/
def RunsAs (p : StackSetup ι τ) (log : List (Visit ι τ)) (t : τ) (m : ChunkService) : Prop :=
  m.stopped = false ∧
    ∃ earlier files, earlier <+: log ∧ m = (p.serviceAfter earlier t).frozen files

theorem runsAs_of_prefix {earlier log : List (Visit ι τ)} (h : earlier <+: log) (t : τ)
    (files : FileTree) : p.RunsAs log t ((p.serviceAfter earlier t).frozen files) :=
  ⟨p.running t, earlier, files, h, rfl⟩

theorem Logs.runsAs {log : List (Visit ι τ)} (h : p.Logs log) {v : Visit ι τ} (hv : v ∈ log) :
    p.RunsAs log v.tier v.moment := by
  induction h with
  | nil => cases hv
  | @concat log w hlog hservice ih =>
    rcases List.mem_append.1 hv with hv | hv
    · obtain ⟨hrunning, earlier, files, hprefix, hm⟩ := ih hv
      exact ⟨hrunning, earlier, files, hprefix.trans (List.prefix_append _ _), hm⟩
    · obtain rfl := List.mem_singleton.1 hv
      rw [Visit.moment, hservice]
      exact runsAs_of_prefix (List.prefix_append _ _) v.tier v.files

end StackSetup

namespace ServedStack

variable {ι τ : Type} {p : StackSetup ι τ} {s s' : ServedStack ι τ}

/-- What is in the queues of the tiers or has room there, and which of them run. -/
structure Tiered (s : ServedStack ι τ) : Prop where
  nodup : ∀ t, (s.tiers t).queue.Nodup ∧ (s.tiers t).granted.Nodup
  load_mem : ∀ k loc t, .load k loc ∈ (s.tiers t).queue ↔ (s.stage k).request? = some (loc, t)
  load_granted : ∀ k loc t, .load k loc ∈ (s.tiers t).granted ↔ (s.stage k).entered? = some (loc, t)
  shutdown_mem : ∀ t, .shutdown ∈ (s.tiers t).queue →
    (s.tiers t).service.stopped = false ∧ s.phase.awaited? = some t
  shutdown_granted : ∀ t, .shutdown ∈ (s.tiers t).granted ↔ s.phase.entered? = some t
  entered : ∀ t, s.phase.entered? = some t → (s.tiers t).service.stopped = false
  awaited : ∀ t, s.phase.awaited? = some t →
    (s.tiers t).service.stopped = true ∨ .shutdown ∈ (s.tiers t).queue
  ending : ∀ t, (s.tiers t).service.stopped = true → s.phase.Ending
  leaving : ∀ t, (s.tiers t).service.stopped = true →
    (s.tiers t).ended = true ∨ s.phase.awaited? = some t
  ended : ∀ t, (s.tiers t).ended = true →
    (s.tiers t).service.stopped = true ∧ (s.tiers t).queue = []

theorem tiered_initial (p : StackSetup ι τ) : Tiered p.initial where
  nodup _ := ⟨List.nodup_nil, List.nodup_nil⟩
  load_mem k loc t := by simp [StackSetup.initial, Stage.request?]
  load_granted k loc t := by simp [StackSetup.initial, Stage.entered?]
  shutdown_mem t h := by cases h
  shutdown_granted t := by simp [StackSetup.initial, Phase.entered?]
  entered t h := by cases h
  awaited t h := by cases h
  ending t h := by cases (p.running t).symm.trans h
  leaving t h := by cases (p.running t).symm.trans h
  ended t h := by cases h

theorem Tiered.of_eq (h : Tiered s) (htiers : s'.tiers = s.tiers)
    (hrequest : ∀ k, (s'.stage k).request? = (s.stage k).request? ∧
      (s'.stage k).entered? = (s.stage k).entered?)
    (hphase : s'.phase.awaited? = s.phase.awaited? ∧ s'.phase.entered? = s.phase.entered?)
    (hending : s.phase.Ending → s'.phase.Ending) : Tiered s' where
  nodup := htiers ▸ h.nodup
  load_mem k loc t := by
    rw [htiers, (hrequest k).1]
    exact h.load_mem k loc t
  load_granted k loc t := by
    rw [htiers, (hrequest k).2]
    exact h.load_granted k loc t
  shutdown_mem t := by
    rw [htiers, hphase.1]
    exact h.shutdown_mem t
  shutdown_granted t := by
    rw [htiers, hphase.2]
    exact h.shutdown_granted t
  entered t := by
    rw [htiers, hphase.2]
    exact h.entered t
  awaited t := by
    rw [htiers, hphase.1]
    exact h.awaited t
  ending t := by
    rw [htiers]
    exact fun hstopped => hending (h.ending t hstopped)
  leaving t := by
    rw [htiers, hphase.1]
    exact h.leaving t
  ended := htiers ▸ h.ended

/-- While the tiers are shut down, those that are not left have been. -/
def Halted (p : StackSetup ι τ) (s : ServedStack ι τ) : Prop :=
  s.phase.Ending → ∀ t ∈ p.order, t ∈ s.phase.left ∨ (s.tiers t).service.stopped = true

structure Logged [DecidableEq τ] (p : StackSetup ι τ) (s : ServedStack ι τ) : Prop where
  service_eq : ∀ t, (s.tiers t).service =
    { p.serviceAfter s.log t with stopped := (s.tiers t).service.stopped }
  logs : p.Logs s.log

variable [DecidableEq τ]

theorem logged_initial (p : StackSetup ι τ) : Logged p p.initial where
  service_eq _ := rfl
  logs := .nil

/-! ## Steps -/

variable [DecidableEq ι]

attribute [local grind =] List.nodup_append List.Nodup.mem_erase_iff
attribute [local grind ←] List.Nodup.erase

theorem Tiered.step (h : Tiered s) (hq : Queued p s) (hs : s.Step p s') : Tiered s' := by
  cases hs with
  | enter | ask | forfeit | serve | deny | reserve | halt | quit | halted | leave =>
    -- There is room for a request, which comes into a queue or is lost, or the first is taken. Only
    -- the tier that is waited for has a shutdown in its queue.
    obtain ⟨hnodup, hload, hentry, hshutdown, hgranted, hentered, hawaited, hending, hleaving,
      hended⟩ := h
    constructor <;> grind -linarith
  | notice | close | gather | drain | stop | pass | stopped | finish =>
    exact h.of_eq rfl (fun _ => ⟨rfl, rfl⟩) (by grind -linarith) (by grind -linarith)
  | join => exact h.of_eq rfl (fun _ => ⟨rfl, rfl⟩) ⟨rfl, rfl⟩ id
  | grant | push | refuse | lose | direct | start | turnAway | release | drop | fail | exhaust
  | tell =>
    have hstage := hq.stage_iff
    exact h.of_eq rfl (by grind -linarith) (by grind -linarith) (by grind -linarith)

theorem Halted.step (h : Halted p s) (ht : Tiered s) (hs : s.Step p s') : Halted p s' := by
  intro hending
  unfold Halted at h
  have hended := ht.ended
  cases hs with
  | stop => exact fun t ht => .inl ht
  | pass | halted =>
    -- The first tier that was left has been shut down.
    grind -linarith
  | _ => grind -linarith

theorem Logged.step (h : Logged p s) (hs : s.Step p s') : Logged p s' := by
  obtain ⟨hservice, hlogs⟩ := h
  cases hs with
  | @serve k t loc rest queue files hqueue hrunning hstage =>
    have heq : (s.tiers t).service = p.serviceAfter s.log t := by
      rw [hservice t, hrunning, ← p.running t]
      rfl
    refine ⟨fun u => ?_, hlogs.concat heq⟩
    rw [tiers_setStage, tiers_setTier, StackSetup.serviceAfter_concat]
    by_cases hu : u = t
    · subst hu
      rw [if_pos rfl, if_pos rfl, ChunkService.after_load hrunning, heq]
    · rw [if_neg hu, if_neg (Ne.symm hu)]
      exact hservice u
  | @quit t queue hqueue =>
    refine ⟨fun u => ?_, hlogs⟩
    rw [tiers_setTier]
    split
    · subst u
      rw [ChunkService.shutdown, hservice t]
      rfl
    · exact hservice u
  | _ => constructor <;> grind -linarith

end ServedStack

end BlockWorld
