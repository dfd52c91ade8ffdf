import BlockWorld.Proofs.Chunk.Tiers

/-! # Lookups among running tiers

A lookup visits its tiers in order, and each visit but the last finds nothing. A lookup for the
stack never meets a tier that was shut down, since it is in flight until it has returned; only a
call on a tier itself can come too late.
-/

namespace BlockWorld

namespace ServedStack

variable {ι τ : Type} {p : StackSetup ι τ} {k : ι} {vs : List (Visit ι τ)} {v : Visit ι τ}
  {loc : ChunkLoc} {t : τ} {rest : List τ} {answer : ChunkAnswer}

/-- The visits `vs` of a lookup cover its tiers up to `rest`, and none found the chunk. -/
structure Asked (p : StackSetup ι τ) (k : ι) (vs : List (Visit ι τ)) (loc : ChunkLoc)
    (rest : List τ) : Prop where
  lookup_eq : p.lookup? k = some (loc, vs.map (·.tier) ++ rest)
  loc_eq : ∀ v ∈ vs, v.loc = loc
  missed : ∀ v ∈ vs, v.answer = .ok none

/-- The visits `vs` of a lookup decide it: a tier is left out only if an earlier one answered. -/
structure Concluded (p : StackSetup ι τ) (k : ι) (vs : List (Visit ι τ)) (answer : ChunkAnswer) :
    Prop where
  covered : ∃ loc rest, p.lookup? k = some (loc, vs.map (·.tier) ++ rest) ∧
    (∀ v ∈ vs, v.loc = loc) ∧ ((∀ v ∈ vs, v.answer = .ok none) → rest = [])
  answer_eq : answer = ChunkStack.firstAnswer (vs.map (·.answer))

structure Denied (p : StackSetup ι τ) (k : ι) (vs : List (Visit ι τ)) (answer : ChunkAnswer) :
    Prop where
  direct : ¬ (p.calls k).ToStack
  unvisited : vs = []
  answer_eq : answer = .error .serviceStopped

theorem asked_load (h : p.calls k = .load loc) : Asked p k [] loc p.order where
  lookup_eq := by simp [StackSetup.lookup?, h]
  loc_eq v hv := by cases hv
  missed v hv := by cases hv

theorem asked_tier (h : p.calls k = .tier t loc) : Asked p k [] loc [t] where
  lookup_eq := by simp [StackSetup.lookup?, h]
  loc_eq v hv := by cases hv
  missed v hv := by cases hv

namespace Asked

theorem concat (h : Asked p k vs v.loc (v.tier :: rest)) (hmiss : v.answer = .ok none) :
    Asked p k (vs ++ [v]) v.loc rest where
  lookup_eq := by simp [h.lookup_eq]
  loc_eq := by simpa [or_imp, forall_and] using h.loc_eq
  missed := by simpa [or_imp, forall_and, hmiss] using h.missed

theorem conclude (h : Asked p k vs v.loc (v.tier :: rest)) (hanswer : v.answer ≠ .ok none) :
    Concluded p k (vs ++ [v]) v.answer where
  covered := by
    refine ⟨v.loc, rest, by simp [h.lookup_eq], ?_, fun hmissed => ?_⟩
    · simpa [or_imp, forall_and] using h.loc_eq
    · exact absurd (hmissed v (by simp)) hanswer
  answer_eq := by
    rw [List.map_append, ChunkStack.firstAnswer_of_missed (by simpa using h.missed)]
    exact (ChunkStack.firstAnswer_cons hanswer []).symm

theorem exhaust (h : Asked p k vs loc []) : Concluded p k vs (.ok none) where
  covered := ⟨loc, [], h.lookup_eq, h.loc_eq, fun _ => rfl⟩
  answer_eq := by
    have hmissed : ∀ a ∈ vs.map (·.answer), a = .ok none := by simpa using h.missed
    have hfirst := ChunkStack.firstAnswer_of_missed hmissed []
    rw [List.append_nil] at hfirst
    exact hfirst.symm

theorem deny (h : Asked p k vs loc (t :: rest)) (hdirect : ¬ (p.calls k).ToStack) :
    Denied p k vs (.error .serviceStopped) where
  direct := hdirect
  unvisited := by
    have hlookup := h.lookup_eq
    cases hcall : p.calls k with
    | load loc => simp [hcall, StackCall.ToStack] at hdirect
    | shutdown => simp [hcall, StackCall.ToStack] at hdirect
    | tier t loc =>
      -- The one tier of the lookup is still to be asked.
      cases vs with
      | nil => rfl
      | cons v vs => simp [StackSetup.lookup?, hcall] at hlookup
  answer_eq := rfl

end Asked

theorem Asked.tier_mem (h : Asked p k vs loc rest) (hv : v ∈ vs) :
    ∃ loc tiers, p.lookup? k = some (loc, tiers) ∧ v.tier ∈ tiers :=
  ⟨loc, _, h.lookup_eq, List.mem_append_left _ (List.mem_map_of_mem hv)⟩

theorem Concluded.tier_mem (h : Concluded p k vs answer) (hv : v ∈ vs) :
    ∃ loc tiers, p.lookup? k = some (loc, tiers) ∧ v.tier ∈ tiers := by
  obtain ⟨loc, rest, hlookup, -⟩ := h.covered
  exact ⟨loc, _, hlookup, List.mem_append_left _ (List.mem_map_of_mem hv)⟩

def Course (p : StackSetup ι τ) (k : ι) (vs : List (Visit ι τ)) : Stage τ → Prop
  | .calling | .admitted | .queued => vs = []
  | .asking loc rest => Asked p k vs loc rest
  | .entering loc t rest | .waiting loc t rest => Asked p k vs loc (t :: rest)
  | .decided answer => Concluded p k vs answer ∨ Denied p k vs answer
  | .returned => True

theorem Course.after (h : Asked p k vs v.loc (v.tier :: rest)) :
    Course p k (vs ++ [v]) (.after v.loc rest v.answer) := by
  obtain ⟨hmiss, hafter⟩ | ⟨hanswer, hafter⟩ := Stage.after_cases v.loc rest v.answer
  · rw [hafter]
    exact h.concat hmiss
  · rw [hafter]
    exact .inl (h.conclude hanswer)

section Stopped

variable {s : ServedStack ι τ}

theorem direct_of_stopped (hf : Flying p s) (ht : Tiered s) (hlooking : (s.stage k).Looking)
    (hstopped : (s.tiers t).service.stopped = true) : ¬ (p.calls k).ToStack := by
  intro hstack
  have hnil := hf.ended (ht.ending t hstopped)
  have hmem := hf.looking k hlooking hstack
  rw [hnil] at hmem
  cases hmem

end Stopped

section Coursed

variable [DecidableEq ι] {s s' : ServedStack ι τ}

def Coursed (p : StackSetup ι τ) (s : ServedStack ι τ) : Prop :=
  ∀ k, Course p k (s.visits k) (s.stage k)

namespace Coursed

theorem initial : Coursed p p.initial := fun _ => rfl

theorem of_eq (h : Coursed p s) {x : Stage τ} (hk : s.stage k = x) : Course p k (s.visits k) x :=
  hk ▸ h k

theorem change (h : Coursed p s) {x : Stage τ} (hx : Course p k (s.visits k) x)
    (hlog : s'.log = s.log) (hstage : s'.stage = (s.setStage k x).stage) : Coursed p s' := by
  intro j
  rw [visits, hlog, hstage, stage_setStage]
  split
  · subst j
    exact hx
  · exact h j

theorem deny (h : Coursed p s) (hf : Flying p s) (ht : Tiered s)
    (hasked : Asked p k (s.visits k) loc (t :: rest)) (hlooking : (s.stage k).Looking)
    (hstopped : (s.tiers t).service.stopped = true) (hlog : s'.log = s.log)
    (hstage : s'.stage = (s.setStage k (.decided (.error .serviceStopped))).stage) :
    Coursed p s' :=
  h.change (x := .decided _) (.inr (hasked.deny (direct_of_stopped hf ht hlooking hstopped)))
    hlog hstage

theorem step [DecidableEq τ] (h : Coursed p s) (hq : Queued p s) (hf : Flying p s) (ht : Tiered s)
    (hs : s.Step p s') : Coursed p s' := by
  cases hs with
  | @grant k hk =>
    have hnil : s.visits k = [] := h.of_eq hk
    exact h.change (x := .admitted) hnil rfl rfl
  | @push k hk =>
    have hnil : s.visits k = [] := h.of_eq hk
    exact h.change (x := .queued) hnil rfl rfl
  | @direct k t loc hk hcall =>
    have hnil : s.visits k = [] := h.of_eq hk
    refine h.change (x := .asking loc [t]) ?_ rfl rfl
    rw [hnil]
    exact asked_tier hcall
  | @start k queue loc hphase hqueue hcall =>
    have hk := hq.of_head hqueue
    have hnil : s.visits k = [] := h.of_eq hk
    refine h.change (x := .asking loc p.order) ?_ rfl rfl
    rw [hnil]
    exact asked_load hcall
  | @enter k t loc rest hk =>
    have hasked : Asked p k (s.visits k) loc (t :: rest) := h.of_eq hk
    exact h.change (x := .entering loc t rest) hasked rfl rfl
  | @ask k t loc rest hk =>
    have hasked : Asked p k (s.visits k) loc (t :: rest) := h.of_eq hk
    exact h.change (x := .waiting loc t rest) hasked rfl rfl
  | @fail k t loc rest hk hstopped =>
    have hasked : Asked p k (s.visits k) loc (t :: rest) := h.of_eq hk
    exact h.deny hf ht hasked (by simp [hk, Stage.Looking]) hstopped rfl rfl
  | @forfeit k t loc rest hk hended =>
    have hasked : Asked p k (s.visits k) loc (t :: rest) := h.of_eq hk
    exact h.deny hf ht hasked (by simp [hk, Stage.Looking]) (ht.ended t hended).1 rfl rfl
  | @serve k t loc rest queue files hqueue hrunning hk =>
    have hasked : Asked p k (s.visits k) loc (t :: rest) := h.of_eq hk
    intro j
    rw [visits, visitsBy_concat, stage_setStage, stage_setTier]
    by_cases hj : j = k
    · subst hj
      rw [if_pos rfl, if_pos rfl]
      exact Course.after hasked
    · rw [if_neg (Ne.symm hj), if_neg hj]
      exact h j
  | @deny k t loc rest queue hqueue hstopped hk =>
    have hasked : Asked p k (s.visits k) loc (t :: rest) := h.of_eq hk
    exact h.deny hf ht hasked (by simp [hk, Stage.Looking]) hstopped rfl rfl
  | refuse | lose | turnAway | release | drop | exhaust | tell =>
    exact h.change (x := .returned) trivial rfl rfl
  | _ => exact h

end Coursed

end Coursed

end ServedStack

end BlockWorld
