import BlockWorld.Proofs.Chunk.Search
import BlockWorld.Chunk.ServedSource
import Mathlib.Data.List.Nodup
import Mathlib.Data.List.TakeWhile

/-! # The order of the requests

Every request that came into the queue is in one place: the source was asked, the task has it in
hand, it was taken too late, or it is still in the queue; and in this order they came. Up to the
first shutdown all that is taken is loads, and the source is asked for each; from then on it is not
asked any more.
-/

namespace BlockWorld

namespace ServedSource

variable {ι σ : Type} {p : SourceSetup ι σ} {s s' : ServedSource ι σ} {k : ι}

/-- The requests in the queue and in the hand of the task. -/
def pending (s : ServedSource ι σ) : List ι := s.queue ++ s.phase.hand

/-- A request is pending until its caller is answered, or does not care any more. -/
structure Queued (s : ServedSource ι σ) : Prop where
  nodup : s.pending.Nodup
  waits : ∀ k ∈ s.pending, s.stage k = .queued ∨ s.stage k = .gone
  mem : ∀ k, s.stage k = .queued → k ∈ s.pending

theorem queued_initial (p : SourceSetup ι σ) : Queued p.initial where
  nodup := List.nodup_nil
  waits k hk := by cases hk
  mem k hk := by cases hk

theorem Queued.of_hand (h : Queued s) (hk : k ∈ s.phase.hand) :
    s.stage k = .queued ∨ s.stage k = .gone := h.waits k (List.mem_append_right _ hk)

/-- Who has been granted room that is not used yet. -/
structure Granted (s : ServedSource ι σ) : Prop where
  nodup : s.granted.Nodup
  mem_iff : ∀ k, k ∈ s.granted ↔ s.stage k = .admitted

theorem granted_initial (p : SourceSetup ι σ) : Granted p.initial where
  nodup := List.nodup_nil
  mem_iff k := by simp [SourceSetup.initial]

def visited (s : ServedSource ι σ) : List ι := s.log.map (·.caller)

/-- The loads that came into the queue before any shutdown did. -/
def ahead (p : SourceSetup ι σ) (s : ServedSource ι σ) : List ι :=
  s.accepted.takeWhile fun k => (p.calls k).isLoad

/-- What has become of the requests that came into the queue. -/
structure Ordered (s : ServedSource ι σ) : Prop where
  accepted_eq : s.accepted = s.visited ++ s.phase.asked ++ s.late ++ s.queue
  nodup : s.accepted.Nodup
  sent : ∀ k ∈ s.accepted, (s.stage k).Sent

theorem ordered_initial (p : SourceSetup ι σ) : Ordered p.initial where
  accepted_eq := rfl
  nodup := List.nodup_nil
  sent k hk := by cases hk

/-- What the task takes: loads, until there is a shutdown, or until nobody is left to call. -/
structure Sorted (p : SourceSetup ι σ) (s : ServedSource ι σ) : Prop where
  loads : ∀ v ∈ s.log, p.calls v.caller = .load v.loc
  asking : ∀ k loc, s.phase = .asking k loc → p.calls k = .load loc
  serving : s.phase.Serving → s.late = []
  shutdown : ¬ s.phase.Serving →
    (∃ first behind, s.late = first :: behind ∧ p.calls first = .shutdown) ∨
      s.phase = .ended ∧ s.late = [] ∧ s.handles = false
  hand : ¬ s.phase.Serving → ∀ k ∈ s.phase.hand, p.calls k = .shutdown
  ended : s.phase = .ended → s.queue = []
  free : s.handles = false → ∀ k, ¬ (s.stage k).Busy

theorem sorted_initial (p : SourceSetup ι σ) : Sorted p p.initial where
  loads v hv := by cases hv
  asking k loc h := by cases h
  serving _ := rfl
  shutdown h := absurd trivial h
  hand h := absurd trivial h
  ended _ := rfl
  free h := by cases h

theorem Ordered.notMem_visited (h : Ordered s) {queue : List ι} (hqueue : s.queue = k :: queue) :
    k ∉ s.visited := by
  have hnodup := h.nodup
  rw [h.accepted_eq, hqueue] at hnodup
  intro hk
  exact (List.nodup_append.1 hnodup).2.2 k (by simp [hk]) k List.mem_cons_self rfl

theorem Ordered.notMem_visited_of_stage (h : Ordered s) (hk : ¬ (s.stage k).Sent) :
    k ∉ s.visited := fun hmem => hk (h.sent k (by simp [h.accepted_eq, hmem]))

theorem isLoad_of_ahead (h : k ∈ s.ahead p) : (p.calls k).isLoad :=
  List.mem_takeWhile_imp (p := fun k => (p.calls k).isLoad) h

theorem ahead_eq_accepted (h : ∀ k ∈ s.accepted, p.calls k ≠ .shutdown) :
    s.ahead p = s.accepted := by
  refine List.takeWhile_eq_self_iff.2 fun k hk => ?_
  cases hcall : p.calls k with
  | load loc => rfl
  | shutdown => exact absurd hcall (h k hk)

def Stopped (p : SourceSetup ι σ) (s : ServedSource ι σ) : Prop :=
  ∃ j ∈ s.late, p.calls j = .shutdown

namespace Sorted

theorem stopped (h : Sorted p s) (hserving : ¬ s.phase.Serving) (hended : s.phase ≠ .ended) :
    Stopped p s := by
  rcases h.shutdown hserving with ⟨first, behind, hlate, hfirst⟩ | ⟨hphase, -⟩
  · exact ⟨first, by simp [hlate], hfirst⟩
  · exact absurd hphase hended

/-- While someone waits there are handles, so only a shutdown has closed the queue. -/
theorem stopped_of_busy (h : Sorted p s) (hserving : ¬ s.phase.Serving) (hk : (s.stage k).Busy) :
    Stopped p s := by
  rcases h.shutdown hserving with ⟨first, behind, hlate, hfirst⟩ | ⟨-, -, hhandles⟩
  · exact ⟨first, by simp [hlate], hfirst⟩
  · exact absurd hk (h.free hhandles k)

theorem not_serving (h : Sorted p s) (hstopped : Stopped p s) : ¬ s.phase.Serving := by
  rintro hserving
  rcases hstopped with ⟨j, hj, -⟩
  simp [h.serving hserving] at hj

end Sorted

section Ahead

variable (ho : Ordered s) (hs : Sorted p s)

include hs in
theorem Sorted.isLoad_of_visited (hk : k ∈ s.visited) : (p.calls k).isLoad := by
  rcases List.mem_map.1 hk with ⟨v, hv, rfl⟩
  rw [hs.loads v hv]
  rfl

include ho hs

theorem ahead_eq : s.ahead p = s.visited ++
    (s.phase.asked ++ s.late ++ s.queue).takeWhile fun k => (p.calls k).isLoad := by
  rw [ahead, ho.accepted_eq, List.append_assoc, List.append_assoc,
    List.takeWhile_append_of_pos fun k hk => hs.isLoad_of_visited hk, List.append_assoc]

theorem visited_prefix_ahead : s.visited <+: s.ahead p := by
  rw [ahead_eq ho hs]
  exact List.prefix_append _ _

/-- Once a shutdown was taken, the source has been asked for all loads that are ahead. -/
theorem visited_eq_ahead (hserving : ¬ s.phase.Serving) : s.visited = s.ahead p := by
  rw [ahead_eq ho hs, Phase.asked_eq_nil hserving, List.nil_append]
  rcases hs.shutdown hserving with ⟨first, behind, hlate, hfirst⟩ | ⟨hended, hlate, -⟩
  · simp [hlate, hfirst, ServiceCall.isLoad]
  · simp [hlate, hs.ended hended]

/-- A load that is ahead was passed to the source, or it is pending. -/
theorem visited_or_pending (hk : k ∈ s.ahead p) : k ∈ s.visited ∨ k ∈ s.pending := by
  by_cases hserving : s.phase.Serving
  · rw [ahead_eq ho hs, hs.serving hserving, List.append_nil] at hk
    rcases List.mem_append.1 hk with hk | hk
    · exact .inl hk
    · refine .inr ?_
      rcases List.mem_append.1 ((List.takeWhile_sublist _).subset hk) with hk | hk
      · exact List.mem_append_right _ (s.phase.asked_subset_hand hk)
      · exact List.mem_append_left _ hk
  · rw [← visited_eq_ahead ho hs hserving] at hk
    exact .inl hk

end Ahead

/-- The source and the service are as the visits have left them, and the service answers as long as
the queue is open. -/
structure Tied (p : SourceSetup ι σ) (s : ServedSource ι σ) : Prop where
  state : s.state = p.stateAfter s.log
  service : s.service =
    { source := p.source s.state, stopped := !s.phase.isOpen, asked := (s.log.map (·.loc)).reverse }

theorem tied_initial (p : SourceSetup ι σ) : Tied p p.initial where
  state := rfl
  service := rfl

namespace Tied

variable {loc : ChunkLoc}

theorem load_of_open (h : Tied p s) (hopen : s.phase.isOpen = true) (k : ι) (files : FileTree) :
    (s.service.load files loc).1 = p.result s.log ⟨k, loc, files⟩ := by
  rw [h.service, h.state, hopen]
  rfl

theorem load_of_closed (h : Tied p s) (hclosed : s.phase.isOpen = false) (files : FileTree) :
    (s.service.load files loc).1 = .error .serviceStopped := by
  rw [h.service, hclosed]
  rfl

end Tied

/-! ## Steps -/

namespace Queued

theorem perm (h : Queued s) (hperm : s'.pending.Perm s.pending) (hstage : s'.stage = s.stage) :
    Queued s' where
  nodup := hperm.nodup_iff.2 h.nodup
  waits k hk := hstage ▸ h.waits k (hperm.mem_iff.1 hk)
  mem k hk := hperm.mem_iff.2 (h.mem k (hstage ▸ hk))

variable [DecidableEq ι]

theorem change (h : Queued s) {x : Stage} (hpending : s'.pending = s.pending)
    (hstage : s'.stage = (s.setStage k x).stage) (hx : x ≠ .queued)
    (hk : s.stage k ≠ .queued ∧ s.stage k ≠ .gone ∨ x = .gone) : Queued s' := by
  constructor
  · rw [hpending]
    exact h.nodup
  · intro j hj
    have hwaits := h.waits j (hpending ▸ hj)
    rw [hstage, stage_setStage]
    grind
  · intro j hj
    rw [hpending]
    rw [hstage, stage_setStage] at hj
    refine h.mem j ?_
    grind

theorem push (h : Queued s) (hk : s.stage k = .admitted)
    (hpending : s'.pending.Perm (k :: s.pending))
    (hstage : s'.stage = (s.setStage k .queued).stage) : Queued s' := by
  have hnew : k ∉ s.pending := fun hmem => by cases hk ▸ h.waits k hmem <;> contradiction
  constructor
  · exact hpending.nodup_iff.2 (List.nodup_cons.2 ⟨hnew, h.nodup⟩)
  · intro j hj
    rw [hstage, stage_setStage]
    rcases List.mem_cons.1 (hpending.mem_iff.1 hj) with rfl | hj
    · simp
    · have hwaits := h.waits j hj
      grind
  · intro j hj
    rw [hstage, stage_setStage] at hj
    refine hpending.mem_iff.2 (List.mem_cons.2 ?_)
    by_cases hjk : j = k
    · exact .inl hjk
    · exact .inr (h.mem j (by simpa [hjk] using hj))

theorem tell (h : Queued s) (hpending : s.pending.Perm (k :: s'.pending))
    (hstage : s'.stage = (s.tell k .done).stage) : Queued s' := by
  have hnodup := List.nodup_cons.1 (hpending.nodup_iff.1 h.nodup)
  constructor
  · exact hnodup.2
  · intro j hj
    have hwaits := h.waits j (hpending.mem_iff.2 (List.mem_cons_of_mem _ hj))
    have hjk : j ≠ k := by
      rintro rfl
      exact hnodup.1 hj
    rwa [hstage, stage_tell, if_neg fun htold => hjk htold.1]
  · intro j hj
    rw [hstage, stage_tell] at hj
    have hjk : ¬ (j = k ∧ s.stage k = .queued) := fun htold => by simp [htold] at hj
    rw [if_neg hjk] at hj
    rcases List.mem_cons.1 (hpending.mem_iff.1 (h.mem j hj)) with rfl | hmem
    · exact absurd ⟨rfl, hj⟩ hjk
    · exact hmem

theorem act (h : Queued s) (hs : s.Act p s') : Queued s' := by
  cases hs with
  | grant hk | refuse hk | lose hk =>
    exact h.change rfl rfl (by simp) (.inl (by simp [hk]))
  | @push k hk =>
    refine h.push hk ?_ rfl
    rw [pending, List.append_assoc]
    exact List.perm_middle
  | take hphase hqueue | notice hphase hqueue =>
    refine h.perm ?_ rfl
    simp [pending, hphase, hqueue, Phase.hand]
  | @gather k queue callers hphase hqueue =>
    refine h.perm ?_ rfl
    rw [pending, pending, hphase, hqueue, Phase.hand, Phase.hand, ← List.append_assoc]
    exact List.perm_append_singleton k (queue ++ callers)
  | close hphase | drained hphase | finish hphase | quit hphase =>
    refine h.perm ?_ rfl
    simp [pending, hphase, Phase.hand]
  | answer files hphase =>
    refine h.tell ?_ rfl
    simp [pending, hphase, Phase.hand]
  | turnAway files hphase hqueue | drop hphase hqueue =>
    refine h.tell ?_ rfl
    simp [pending, hphase, hqueue, Phase.hand]
  | release hphase =>
    refine h.tell ?_ rfl
    simp [pending, hphase, Phase.hand, List.perm_middle]

theorem whim (h : Queued s) (hs : s.Whim s') : Queued s' := by
  cases hs with
  | call hk => exact h.change rfl rfl (by simp) (.inl (by simp [hk]))
  | abandon => exact h.change rfl rfl (by simp) (.inr rfl)
  | letGo => exact h.perm (List.Perm.refl _) rfl

end Queued

theorem Granted.of_eq (h : Granted s) (hgranted : s'.granted = s.granted)
    (hstage : ∀ k, s'.stage k = .admitted ↔ s.stage k = .admitted) : Granted s' where
  nodup := hgranted ▸ h.nodup
  mem_iff k := by rw [hgranted, h.mem_iff, hstage]

theorem Ordered.of_eq (h : Ordered s) (haccepted : s'.accepted = s.accepted)
    (hplaces : s'.visited ++ s'.phase.asked ++ s'.late ++ s'.queue =
      s.visited ++ s.phase.asked ++ s.late ++ s.queue)
    (hsent : ∀ k, (s.stage k).Sent → (s'.stage k).Sent) : Ordered s' where
  accepted_eq := by rw [haccepted, hplaces, h.accepted_eq]
  nodup := haccepted ▸ h.nodup
  sent k hk := hsent k (h.sent k (haccepted ▸ hk))

theorem Tied.of_eq (h : Tied p s) (hstate : s'.state = s.state) (hlog : s'.log = s.log)
    (hservice : s'.service = s.service) (hopen : s'.phase.isOpen = s.phase.isOpen) :
    Tied p s' where
  state := by rw [hstate, hlog, h.state]
  service := by rw [hservice, hstate, hlog, hopen, h.service]

theorem Tied.close (h : Tied p s) (hstate : s'.state = s.state) (hlog : s'.log = s.log)
    (hservice : s'.service = s.service.shutdown) (hclosed : s'.phase.isOpen = false) :
    Tied p s' where
  state := by rw [hstate, hlog, h.state]
  service := by
    rw [hservice, hstate, hlog, hclosed, h.service]
    rfl

variable [DecidableEq ι]

theorem Granted.act (h : Granted s) (hs : s.Act p s') : Granted s' := by
  cases hs with
  | grant | push | lose =>
    obtain ⟨hnodup, hiff⟩ := h
    constructor <;> grind
  | _ => exact h.of_eq rfl (by grind)

theorem Granted.whim (h : Granted s) (hs : s.Whim s') : Granted s' := by
  cases hs <;> exact h.of_eq rfl (by grind)

theorem Ordered.act (h : Ordered s) (hsorted : Sorted p s) (hs : s.Act p s') : Ordered s' := by
  cases hs with
  | @push k hk =>
    have hnew : k ∉ s.accepted := fun hmem => by simpa [hk, Stage.Sent] using h.sent k hmem
    constructor
    · change s.accepted ++ [k] = s.visited ++ s.phase.asked ++ s.late ++ (s.queue ++ [k])
      rw [h.accepted_eq, List.append_assoc]
    · exact List.nodup_append.2 ⟨h.nodup, by simp, by grind⟩
    · have hsent := h.sent
      grind
  | take hphase hqueue =>
    have hlate : s.late = [] := hsorted.serving (by rw [hphase]; trivial)
    refine h.of_eq rfl ?_ (by grind)
    simp [visited, Phase.asked, hphase, hqueue, hlate]
  | notice hphase hqueue | gather hphase hqueue | turnAway files hphase hqueue
  | drop hphase hqueue =>
    refine h.of_eq rfl ?_ (by grind)
    simp [visited, Phase.asked, hphase, hqueue]
  | answer files hphase | close hphase | drained hphase | release hphase | finish hphase
  | quit hphase =>
    refine h.of_eq rfl ?_ (by grind)
    simp [visited, Phase.asked, hphase]
  | grant | refuse | lose => exact h.of_eq rfl rfl (by grind)

theorem Ordered.whim (h : Ordered s) (hs : s.Whim s') : Ordered s' := by
  cases hs <;> exact h.of_eq rfl rfl (by grind)

theorem Sorted.act (h : Sorted p s) (hs : s.Act p s') : Sorted p s' := by
  obtain ⟨hloads, hasking, hserving, hshutdown, hhand, hended, hfree⟩ := h
  cases hs with
  | take | notice | gather | turnAway | drop =>
    -- Where the first request of the queue goes depends on what was taken before and on its call.
    constructor <;> grind -linarith
  | answer =>
    -- The visit is for the load in hand.
    constructor <;> grind -linarith
  | finish | quit =>
    -- The queue is empty, and nobody can call or a shutdown was taken.
    constructor <;> grind -linarith
  | _ => constructor <;> grind -linarith

theorem Sorted.whim (h : Sorted p s) (hs : s.Whim s') : Sorted p s' := by
  obtain ⟨hloads, hasking, hserving, hshutdown, hhand, hended, hfree⟩ := h
  -- Nobody calls without a handle, and no handle is given up while someone waits.
  cases hs <;> constructor <;> grind -linarith

theorem Tied.act (h : Tied p s) (hs : s.Act p s') : Tied p s' := by
  cases hs with
  | answer files hphase =>
    have hrunning : s.service.stopped = false := by
      rw [h.service, hphase]
      rfl
    constructor
    · simp [SourceSetup.stateAfter_concat, h.state]
    · simp only [ChunkService.after_load hrunning]
      simp [h.service, hphase, Phase.isOpen]
  | close | quit => exact h.close rfl rfl rfl rfl
  | take hphase | notice hphase | gather hphase | drained hphase | release hphase | finish hphase =>
    exact h.of_eq rfl rfl rfl (by rw [hphase]; rfl)
  | grant | push | refuse | lose | turnAway | drop => exact h.of_eq rfl rfl rfl rfl

theorem Tied.whim (h : Tied p s) (hs : s.Whim s') : Tied p s' := by
  cases hs <;> exact h.of_eq rfl rfl rfl rfl

end ServedSource

end BlockWorld
