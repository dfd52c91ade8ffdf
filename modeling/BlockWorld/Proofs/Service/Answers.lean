import BlockWorld.Proofs.Service.Order

/-! # The answers of a served source

A call returns once. A load has what the source came to when it was asked for it, or is refused; and
those that the source was asked for return in the order in which it was asked.
-/

namespace BlockWorld

namespace ServedSource

variable {ι σ : Type} {p : SourceSetup ι σ} {s s' : ServedSource ι σ} {k : ι} {r : ServiceReply}

/-- What the source came to when it was asked for a call. -/
def FromSource (p : SourceSetup ι σ) (s : ServedSource ι σ) (k : ι) (r : ServiceReply) : Prop :=
  ∃ before v after, s.log = before ++ v :: after ∧ v.caller = k ∧ r = .chunk (p.result before v)

def Answer (p : SourceSetup ι σ) (s : ServedSource ι σ) (k : ι) (r : ServiceReply) : Prop :=
  match p.calls k with
  | .load _ =>
    FromSource p s k r ∨ k ∉ s.visited ∧ Stopped p s ∧ r = .chunk (.error .serviceStopped)
  | .shutdown => Stopped p s ∧ r = .done

theorem FromSource.mem_visited (h : FromSource p s k r) : k ∈ s.visited := by
  rcases h with ⟨before, v, after, hlog, rfl, -⟩
  exact List.mem_map.2 ⟨v, by simp [hlog], rfl⟩

theorem FromSource.extend (h : FromSource p s k r) (hlog : s.log <+: s'.log) :
    FromSource p s' k r := by
  rcases h with ⟨before, v, after, heq, hcaller, hr⟩
  rcases hlog with ⟨more, hmore⟩
  exact ⟨before, v, after ++ more, by rw [← hmore, heq]; simp, hcaller, hr⟩

theorem Stopped.extend (h : Stopped p s) (hlate : s.late <+: s'.late) : Stopped p s' := by
  rcases h with ⟨j, hj, hcall⟩
  exact ⟨j, hlate.subset hj, hcall⟩

theorem Answer.extend (h : Answer p s k r) (hlog : s.log <+: s'.log)
    (hlate : s.late <+: s'.late) (hk : k ∈ s'.visited → k ∈ s.visited) : Answer p s' k r := by
  unfold Answer at h ⊢
  split at h
  · rcases h with h | ⟨hnot, hstopped, rfl⟩
    · exact .inl (h.extend hlog)
    · exact .inr ⟨mt hk hnot, hstopped.extend hlate, rfl⟩
  · exact ⟨h.1.extend hlate, h.2⟩

theorem answer_refusal (hk : k ∉ s.visited) (hstopped : Stopped p s) :
    Answer p s k (p.calls k).refusal := by
  unfold Answer
  split <;> rename_i hcall <;> rw [hcall]
  · exact .inr ⟨hk, hstopped, rfl⟩
  · exact ⟨hstopped, rfl⟩

theorem sublist_of_concat {α : Type} {a : α} {l before : List α}
    (h : l.Sublist (before ++ [a])) (ha : a ∉ l) : l.Sublist before := by
  rcases List.sublist_append_iff.1 h with ⟨left, right, rfl, hleft, hright⟩
  have hnil : right = [] := by
    refine List.eq_nil_iff_forall_not_mem.2 fun b hb => ha ?_
    obtain rfl := List.mem_singleton.1 (hright.subset hb)
    exact List.mem_append_right _ hb
  rwa [hnil, List.append_nil]

variable [DecidableEq ι]

structure Answered (p : SourceSetup ι σ) (s : ServedSource ι σ) : Prop where
  returned_iff : ∀ k, s.stage k = .returned ↔ k ∈ s.replies.map Prod.fst
  nodup : (s.replies.map Prod.fst).Nodup
  answer : ∀ k r, (k, r) ∈ s.replies → Answer p s k r
  inOrder : ((s.replies.map Prod.fst).filter (· ∈ s.visited)).Sublist s.visited

theorem answered_initial (p : SourceSetup ι σ) : Answered p p.initial where
  returned_iff k := by simp [SourceSetup.initial]
  nodup := List.nodup_nil
  answer k r h := by cases h
  inOrder := List.nil_sublist _

namespace Answered

theorem returned (h : Answered p s) (hk : (k, r) ∈ s.replies) : s.stage k = .returned :=
  (h.returned_iff k).2 (List.mem_map.2 ⟨(k, r), hk, rfl⟩)

theorem exists_reply (h : Answered p s) (hk : s.stage k = .returned) : ∃ r, (k, r) ∈ s.replies := by
  rcases List.mem_map.1 ((h.returned_iff k).1 hk) with ⟨⟨j, r⟩, hr, rfl⟩
  exact ⟨r, hr⟩

/-! ## Steps -/

theorem of_eq (h : Answered p s) (hreplies : s'.replies = s.replies) (hlog : s'.log = s.log)
    (hlate : s.late <+: s'.late)
    (hstage : ∀ k, s'.stage k = .returned ↔ s.stage k = .returned) : Answered p s' := by
  have hvisited : s'.visited = s.visited := congrArg (List.map _) hlog
  constructor
  · intro k
    rw [hstage, hreplies, h.returned_iff]
  · rw [hreplies]
    exact h.nodup
  · intro k r hr
    rw [hreplies] at hr
    exact (h.answer k r hr).extend (hlog ▸ List.prefix_rfl) hlate (hvisited ▸ id)
  · rw [hreplies, hvisited]
    exact h.inOrder

theorem visit (h : Answered p s) (hreplies : s'.replies = s.replies) (hstage : s'.stage = s.stage)
    (hk : s.stage k ≠ .returned) (hlog : s.log <+: s'.log) (hlate : s.late <+: s'.late)
    (hvisited : s'.visited = s.visited ++ [k]) : Answered p s' := by
  have hiff : ∀ j ∈ s.replies.map Prod.fst, j ∈ s'.visited ↔ j ∈ s.visited := by
    intro j hj
    have hne : j ≠ k := by
      rintro rfl
      exact hk ((h.returned_iff _).2 hj)
    simp [hvisited, hne]
  constructor
  · intro j
    rw [hstage, hreplies, h.returned_iff]
  · rw [hreplies]
    exact h.nodup
  · intro j r hr
    rw [hreplies] at hr
    exact (h.answer j r hr).extend hlog hlate (hiff j (List.mem_map_of_mem hr)).1
  · rw [hreplies, List.filter_congr fun j hj => decide_eq_decide.2 (hiff j hj), hvisited]
    exact h.inOrder.trans (List.sublist_append_left _ _)

theorem concat (h : Answered p s) (hreplies : s'.replies = s.replies ++ [(k, r)])
    (hstage : s'.stage = (s.setStage k .returned).stage) (hlog : s'.log = s.log)
    (hlate : s.late <+: s'.late) (hk : s.stage k ≠ .returned) (hr : Answer p s k r)
    (hlast : k ∈ s.visited → ∃ before, s.visited = before ++ [k]) : Answered p s' := by
  have hvisited : s'.visited = s.visited := congrArg (List.map _) hlog
  have hnew : k ∉ s.replies.map Prod.fst := fun hmem => hk ((h.returned_iff k).2 hmem)
  have hinitial : s.log <+: s'.log := hlog ▸ List.prefix_rfl
  constructor
  · intro j
    have hj := h.returned_iff j
    rw [hreplies, hstage, stage_setStage]
    grind
  · rw [hreplies, List.map_append, List.map_singleton]
    exact List.nodup_append.2 ⟨h.nodup, by simp, by grind⟩
  · intro j q hj
    rw [hreplies] at hj
    rcases List.mem_append.1 hj with hj | hj
    · exact (h.answer j q hj).extend hinitial hlate (hvisited ▸ id)
    · obtain ⟨rfl, rfl⟩ := Prod.mk.injEq .. ▸ List.mem_singleton.1 hj
      exact hr.extend hinitial hlate (hvisited ▸ id)
  · rw [hreplies, hvisited, List.map_append, List.filter_append]
    by_cases hmem : k ∈ s.visited
    · rcases hlast hmem with ⟨before, hbefore⟩
      have hinOrder := h.inOrder
      have hnotMem : k ∉ (s.replies.map Prod.fst).filter (· ∈ s.visited) :=
        fun hmem => hnew (List.mem_of_mem_filter hmem)
      rw [hbefore] at hinOrder hnotMem
      have hsublist := sublist_of_concat hinOrder hnotMem
      simpa [hmem, hbefore] using hsublist.append (List.Sublist.refl [k])
    · simpa [hmem] using h.inOrder

theorem tell (h : Answered p s) (hreplies : s'.replies = (s.tell k r).replies)
    (hstage : s'.stage = (s.tell k r).stage) (hlog : s'.log = s.log)
    (hlate : s.late <+: s'.late) (hr : Answer p s k r)
    (hlast : k ∈ s.visited → ∃ before, s.visited = before ++ [k]) : Answered p s' := by
  by_cases hk : s.stage k = .queued
  · rw [tell_of_queued hk] at hreplies hstage
    exact h.concat hreplies hstage hlog hlate (by simp [hk]) hr hlast
  · rw [tell_of_ne hk] at hreplies hstage
    exact h.of_eq hreplies hlog hlate fun j => by rw [hstage]

theorem refuse (h : Answered p s) (ho : Ordered s) (hsorted : Sorted p s)
    (hk : s.stage k = .calling ∨ s.stage k = .admitted) (hclosed : s.phase.isOpen = false)
    (hreplies : s'.replies = s.replies ++ [(k, (p.calls k).refusal)])
    (hstage : s'.stage = (s.setStage k .returned).stage) (hlog : s'.log = s.log)
    (hlate : s'.late = s.late) : Answered p s' := by
  have hserving : ¬ s.phase.Serving := by
    rintro hserving
    cases hclosed.symm.trans hserving.isOpen
  have hbusy : (s.stage k).Busy ∧ ¬ (s.stage k).Sent := by
    rcases hk with hk | hk <;> simp [hk, Stage.Busy, Stage.Sent]
  have hnew := ho.notMem_visited_of_stage hbusy.2
  have hrefusal := answer_refusal hnew (hsorted.stopped_of_busy hserving hbusy.1)
  refine h.concat hreplies hstage hlog (hlate ▸ List.prefix_rfl) ?_ hrefusal
    fun hmem => absurd hmem hnew
  rcases hk with hk | hk <;> simp [hk]

theorem act (h : Answered p s) (hq : Queued s) (ho : Ordered s) (hsorted : Sorted p s)
    (ht : Tied p s) (hs : s.Act p s') : Answered p s' := by
  cases hs with
  | refuse hk hclosed => exact h.refuse ho hsorted (.inl hk) hclosed rfl rfl rfl rfl
  | lose hk hended =>
    exact h.refuse ho hsorted (.inr hk) (by rw [hended]; rfl) rfl rfl rfl rfl
  | @answer k loc files hphase =>
    have hwaits := hq.of_hand (k := k) (by simp [hphase, Phase.hand])
    -- First the source is asked, then the caller is told.
    let asked : ServedSource ι σ := { s with
      phase := .serving
      state := p.next s.state files loc
      service :=
        { (s.service.load files loc).2 with source := p.source (p.next s.state files loc) }
      log := s.log ++ [⟨k, loc, files⟩] }
    have hvisited : asked.visited = s.visited ++ [k] := by simp [asked, visited]
    have hasked : Answered p asked :=
      h.visit rfl rfl (by grind) (List.prefix_append _ _) List.prefix_rfl hvisited
    have hresult : Answer p asked k (.chunk (s.service.load files loc).1) := by
      rw [Answer, hsorted.asking k loc hphase]
      rw [ht.load_of_open (by rw [hphase]; rfl) k files]
      exact .inl ⟨s.log, _, [], rfl, rfl, rfl⟩
    exact hasked.tell rfl rfl rfl List.prefix_rfl hresult fun _ => ⟨s.visited, hvisited⟩
  | @turnAway k queue loc callers files hphase hqueue hcall =>
    have hnew : k ∉ s.visited := ho.notMem_visited hqueue
    have hstopped := hsorted.stopped (by simp [hphase, Phase.Serving]) (by simp [hphase])
    have hrefused : (s.service.load files loc).1 = .error .serviceStopped :=
      ht.load_of_closed (by rw [hphase]; rfl) files
    refine h.tell rfl rfl rfl (List.prefix_append _ _) ?_ fun hmem => absurd hmem hnew
    have hrefusal := answer_refusal hnew hstopped
    rwa [hcall, ServiceCall.refusal, ← hrefused] at hrefusal
  | @drop k queue hphase hqueue =>
    have hnew : k ∉ s.visited := ho.notMem_visited hqueue
    have hstopped := hsorted.stopped (by simp [hphase, Phase.Serving]) (by simp [hphase])
    exact h.tell rfl rfl rfl (List.prefix_append _ _) (answer_refusal hnew hstopped)
      fun hmem => absurd hmem hnew
  | @release k callers hphase =>
    have hserving : ¬ s.phase.Serving := by simp [hphase, Phase.Serving]
    have hcall := hsorted.hand hserving k (by simp [hphase, Phase.hand])
    have hnew : k ∉ s.visited := fun hmem => by cases hcall ▸ hsorted.isLoad_of_visited hmem
    have hrefusal := answer_refusal hnew (hsorted.stopped hserving (by simp [hphase]))
    rw [hcall] at hrefusal
    exact h.tell rfl rfl rfl List.prefix_rfl hrefusal fun hmem => absurd hmem hnew
  | notice | gather => exact h.of_eq rfl rfl (List.prefix_append _ _) (by grind)
  | _ => exact h.of_eq rfl rfl List.prefix_rfl (by grind)

theorem whim (h : Answered p s) (hs : s.Whim s') : Answered p s' := by
  cases hs <;> exact h.of_eq rfl rfl List.prefix_rfl (by grind)

end Answered

structure Invariant (p : SourceSetup ι σ) (s : ServedSource ι σ) : Prop where
  queued : Queued s
  granted : Granted s
  ordered : Ordered s
  sorted : Sorted p s
  tied : Tied p s
  answered : Answered p s

namespace Invariant

theorem initial : Invariant p p.initial where
  queued := queued_initial p
  granted := granted_initial p
  ordered := ordered_initial p
  sorted := sorted_initial p
  tied := tied_initial p
  answered := answered_initial p

theorem step (h : Invariant p s) (hs : s.Step p s') : Invariant p s' := by
  rcases hs with hs | hs
  · exact {
      queued := h.queued.act hs
      granted := h.granted.act hs
      ordered := h.ordered.act h.sorted hs
      sorted := h.sorted.act hs
      tied := h.tied.act hs
      answered := h.answered.act h.queued h.ordered h.sorted h.tied hs }
  · exact {
      queued := h.queued.whim hs
      granted := h.granted.whim hs
      ordered := h.ordered.whim hs
      sorted := h.sorted.whim hs
      tied := h.tied.whim hs
      answered := h.answered.whim hs }

theorem leads (h : Invariant p s) (hrun : s.Leads p s') : Invariant p s' := by
  induction hrun with
  | refl => exact h
  | tail _ hs ih => exact ih.step hs

end Invariant

end ServedSource

theorem SourceSetup.Reachable.invariant {ι σ : Type} [DecidableEq ι] {p : SourceSetup ι σ}
    {s : ServedSource ι σ} (h : p.Reachable s) : ServedSource.Invariant p s :=
  ServedSource.Invariant.initial.leads h

end BlockWorld
