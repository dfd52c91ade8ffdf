import BlockWorld.Proofs.Chunk.Progress

/-! # The first answer wins

A lookup goes from tier to tier up to the first that does not miss. That tier's answer is the answer
of the lookup, be it a chunk or an error, and no tier behind it is asked. This holds of lookups that
are made one after the other, where every source is as the earlier ones have left it, and of lookups
that run side by side.
-/

namespace BlockWorld

/-- What a lookup comes to, given the answers of the tiers that it has asked, in order, and the
tiers that it has not. -/
inductive FirstWins {α : Type} : List ChunkAnswer → List α → ChunkAnswer → Prop
  | answered {misses : List ChunkAnswer} {answer : ChunkAnswer} (unasked : List α) :
      (∀ a ∈ misses, a = .ok none) → answer ≠ .ok none →
      FirstWins (misses ++ [answer]) unasked answer
  | missed {misses : List ChunkAnswer} : (∀ a ∈ misses, a = .ok none) →
      FirstWins misses [] (.ok none)

theorem FirstWins.cons {α : Type} {answers : List ChunkAnswer} {unasked : List α}
    {answer : ChunkAnswer} (h : FirstWins answers unasked answer) :
    FirstWins (.ok none :: answers) unasked answer := by
  cases h with
  | answered _ hmisses hanswer =>
    rw [← List.cons_append]
    exact .answered unasked (List.forall_mem_cons.2 ⟨rfl, hmisses⟩) hanswer
  | missed hmisses => exact .missed (List.forall_mem_cons.2 ⟨rfl, hmisses⟩)

theorem firstWins_firstAnswer {α : Type} {answers : List ChunkAnswer} {unasked : List α}
    (h : ∀ a ∈ answers.dropLast, a = .ok none)
    (hunasked : (∀ a ∈ answers, a = .ok none) → unasked = []) :
    FirstWins answers unasked (ChunkStack.firstAnswer answers) := by
  obtain rfl | ⟨misses, answer, rfl⟩ := List.eq_nil_or_concat' answers
  · rw [hunasked (by simp)]
    exact .missed (by simp)
  · rw [List.dropLast_concat] at h
    rw [ChunkStack.firstAnswer_of_missed h]
    by_cases hanswer : answer = .ok none
    · have hall : ∀ a ∈ misses ++ [answer], a = .ok none := by
        simpa [or_imp, forall_and, hanswer] using h
      rw [hunasked hall, hanswer]
      exact .missed (hanswer ▸ hall)
    · rw [ChunkStack.firstAnswer_cons hanswer]
      exact .answered unasked h hanswer

/-! ## One lookup after the other -/

namespace ChunkService

/-- What the source comes to over a request that is made now. If it breaks down, the place that it
was asked for is named. -/
def verdict (s : ChunkService) (files : FileTree) (loc : ChunkLoc) : ChunkAnswer :=
  (s.source.load files s.asked loc).getD (.error (.sourceFailed loc))

def noted (loc : ChunkLoc) (s : ChunkService) : ChunkService := { s with asked := loc :: s.asked }

theorem load_eq_verdict {s : ChunkService} (h : s.stopped = false) (files : FileTree)
    (loc : ChunkLoc) : s.load files loc = (s.verdict files loc, s.noted loc) := by
  simp [load, h, verdict, noted]

end ChunkService

namespace ChunkStack

def loadAll : ChunkStack → List (FileTree × ChunkLoc) → List ChunkAnswer × ChunkStack
  | k, [] => ([], k)
  | k, (files, loc) :: requests =>
    let (answer, k) := k.load files loc
    let (answers, k) := k.loadAll requests
    (answer :: answers, k)

/-- Each request in turn is answered by the first of the tiers that does not miss. The sources up to
there are asked, once each, and the others are left alone. -/
inductive FirstAnswers : List ChunkService → List (FileTree × ChunkLoc) → List ChunkAnswer →
    List ChunkService → Prop
  | nil (tiers : List ChunkService) : FirstAnswers tiers [] [] tiers
  | cons {asked unasked tiers : List ChunkService} {files : FileTree} {loc : ChunkLoc}
      {requests : List (FileTree × ChunkLoc)} {answer : ChunkAnswer} {answers : List ChunkAnswer} :
      FirstWins (asked.map fun s => s.verdict files loc) unasked answer →
      FirstAnswers (asked.map (·.noted loc) ++ unasked) requests answers tiers →
      FirstAnswers (asked ++ unasked) ((files, loc) :: requests) (answer :: answers) tiers

variable {tiers : List ChunkService}

theorem search_firstWins (h : ∀ t ∈ tiers, t.stopped = false) (files : FileTree) (loc : ChunkLoc) :
    ∃ asked unasked, tiers = asked ++ unasked ∧
      FirstWins (asked.map fun s => s.verdict files loc) unasked (search files loc tiers).1 ∧
      (search files loc tiers).2 = asked.map (·.noted loc) ++ unasked := by
  induction tiers with
  | nil => exact ⟨[], [], rfl, .missed (by simp), rfl⟩
  | cons s rest ih =>
    have hload := ChunkService.load_eq_verdict (h s List.mem_cons_self) files loc
    by_cases hmiss : s.verdict files loc = .ok none
    · obtain ⟨asked, unasked, rfl, hwins, hafter⟩ := ih fun t ht => h t (List.mem_cons_of_mem s ht)
      rw [search_of_miss (by rw [hload, hmiss]), hload, hafter]
      refine ⟨s :: asked, unasked, rfl, ?_, rfl⟩
      rw [List.map_cons, hmiss]
      exact hwins.cons
    · rw [search_of_answer (by rwa [hload]), hload]
      exact ⟨[s], rest, rfl, @FirstWins.answered _ [] _ rest (by simp) hmiss, rfl⟩

theorem firstAnswers_loadAll (h : ∀ t ∈ tiers, t.stopped = false)
    (requests : List (FileTree × ChunkLoc)) :
    FirstAnswers tiers requests (loadAll { tiers } requests).1
      (loadAll { tiers } requests).2.tiers := by
  induction requests generalizing tiers with
  | nil => exact .nil tiers
  | cons q requests ih =>
    obtain ⟨files, loc⟩ := q
    obtain ⟨asked, unasked, rfl, hwins, hafter⟩ := search_firstWins h files loc
    have hload : load { tiers := asked ++ unasked } files loc =
        ((search files loc (asked ++ unasked)).1,
          { tiers := asked.map (·.noted loc) ++ unasked }) := by
      rw [load_of_serving rfl, hafter]
    -- Asking a service does not stop it.
    have hrunning : ∀ t ∈ asked.map (·.noted loc) ++ unasked, t.stopped = false := by
      intro t ht
      rcases List.mem_append.1 ht with ht | ht
      · obtain ⟨s, hs, rfl⟩ := List.mem_map.1 ht
        exact h s (List.mem_append_left _ hs)
      · exact h t (List.mem_append_right _ ht)
    rw [loadAll, hload]
    exact .cons hwins (ih hrunning)

end ChunkStack

/-! ## Lookups side by side -/

namespace ServedStack

variable {ι τ : Type} {p : StackSetup ι τ} {s s' : ServedStack ι τ} {k : ι} {loc : ChunkLoc}

/-- A lookup ends with the answer that its visits decide. -/
theorem Concluded.firstWins {vs : List (Visit ι τ)} {answer : ChunkAnswer}
    (h : Concluded p k vs answer) (hmissed : ∀ v ∈ vs.dropLast, v.answer = .ok none)
    (hcall : p.calls k = .load loc) :
    ∃ unasked, p.order = vs.map (·.tier) ++ unasked ∧ (∀ v ∈ vs, v.loc = loc) ∧
      FirstWins (vs.map (·.answer)) unasked answer := by
  obtain ⟨l, rest, hlookup, hloc, hrest⟩ := h.covered
  obtain ⟨rfl, horder⟩ : loc = l ∧ p.order = vs.map (·.tier) ++ rest := by
    simpa [StackSetup.lookup?, hcall] using hlookup
  refine ⟨rest, horder, hloc, ?_⟩
  rw [h.answer_eq]
  refine firstWins_firstAnswer ?_ fun hall => hrest (by simpa using hall)
  simpa [← List.map_dropLast] using hmissed

variable [DecidableEq ι]

structure Steady (p : StackSetup ι τ) (s : ServedStack ι τ) : Prop where
  serving : s.phase = .serving
  started : ∀ k loc, p.calls k = .load loc → s.stage k = .returned → k ∈ s.started
  missed : ∀ k, ∀ v ∈ (s.visits k).dropLast, v.answer = .ok none

theorem steady_initial (p : StackSetup ι τ) : Steady p p.initial where
  serving := rfl
  started k loc _ hk := by cases hk
  missed k v hv := by cases hv

variable [DecidableEq τ]

theorem Step.log_cases (hs : s.Step p s') :
    s'.log = s.log ∨ ∃ v rest, s.stage v.caller = .waiting v.loc v.tier rest ∧
      s'.log = s.log ++ [v] := by
  cases hs with
  | @serve k t loc rest queue files hqueue hrunning hk => exact .inr ⟨_, rest, hk, rfl⟩
  | _ => exact .inl rfl

theorem Steady.step (h : Steady p s) (hi : Invariant p s) (hp : ∀ k, p.calls k ≠ .shutdown)
    (hs : s.Step p s') : Steady p s' := by
  have hserving := h.serving
  refine ⟨?_, ?_, ?_⟩
  · cases hs <;> grind
  · have hstarted := h.started
    have hlooking := hi.flying.looking
    have hinFlight := hi.flying.inFlight
    intro k loc hcall hk
    cases hs <;> grind
  · intro k v hv
    rcases hs.log_cases with hlog | ⟨w, rest, hstage, hlog⟩
    · rw [visits, hlog] at hv
      exact h.missed k v hv
    · rw [visits, hlog, visitsBy_concat] at hv
      split at hv
      · rename_i hcaller
        subst hcaller
        rw [List.dropLast_concat] at hv
        exact (show Asked .. from hi.coursed.of_eq hstage).missed v hv
      · exact h.missed k v hv

theorem Steady.leads (h : Steady p s) (hi : Invariant p s) (hp : ∀ k, p.calls k ≠ .shutdown)
    (hrun : s.Leads p s') : Steady p s' := by
  induction hrun with
  | refl => exact h
  | tail hrun hs ih => exact ih.step (hi.leads hrun) hp hs

theorem Steady.service_eq (h : Steady p s) (hi : Invariant p s) (t : τ) :
    (s.tiers t).service = p.serviceAfter s.log t := by
  have hrunning : (s.tiers t).service.stopped = false := by
    refine Bool.eq_false_iff.2 fun hstopped => ?_
    have hending := hi.tiered.ending t hstopped
    rw [h.serving] at hending
    exact hending
  rw [hi.logged.service_eq t, hrunning, ← p.running t]
  rfl

end ServedStack

namespace StackSetup

open ServedStack

variable {ι τ : Type} [DecidableEq τ]

/-- Each visit finds its tier as the visits before it have left it. -/
theorem Logs.service_eq {p : StackSetup ι τ} {log earlier later : List (Visit ι τ)}
    {v : Visit ι τ} (h : p.Logs log) (hlog : log = earlier ++ v :: later) :
    v.service = p.serviceAfter earlier v.tier := by
  induction h generalizing later with
  | nil => simp at hlog
  | @concat log w _ hservice ih =>
    obtain rfl | ⟨later, x, rfl⟩ := List.eq_nil_or_concat' later
    · obtain ⟨rfl, hw⟩ := List.append_inj' hlog rfl
      cases hw
      exact hservice
    · rw [← List.cons_append, ← List.append_assoc] at hlog
      exact ih (List.append_inj' hlog rfl).1

variable [DecidableEq ι]

/-- The answer of a lookup is the first of the tiers' answers that is not a miss, or a miss if there
is none, and just the tiers up to there are asked, each of them once. Of lookups that are made one
after the other this is said tier by tier. Of lookups that run side by side, in whatever order the
parties make their steps, it is said by the visits that they make: `s.visits k` are those of the
call `k`, and a visit finds its tier as all visits before it have left it. Every call returns, and
none returns twice. -/
theorem first_answer_wins {tiers : List ChunkService} (hrunning : ∀ t ∈ tiers, t.stopped = false)
    (requests : List (FileTree × ChunkLoc)) (p : StackSetup ι τ)
    (hp : ∀ k, p.calls k ≠ .shutdown) {s : ServedStack ι τ} (h : p.Reachable s) :
    ChunkStack.FirstAnswers tiers requests (ChunkStack.loadAll { tiers } requests).1
      (ChunkStack.loadAll { tiers } requests).2.tiers ∧
    (∀ k loc r, p.calls k = .load loc → (k, r) ∈ s.replies → ∃ answer unasked,
      r = .chunk answer ∧ p.order = (s.visits k).map (·.tier) ++ unasked ∧
        (∀ v ∈ s.visits k, v.loc = loc) ∧
        FirstWins ((s.visits k).map fun v => v.service.verdict v.files loc) unasked answer) ∧
    (∀ earlier v later, s.log = earlier ++ v :: later →
      v.service = p.serviceAfter earlier v.tier) ∧
    (∀ t, (s.tiers t).service = p.serviceAfter s.log t) ∧
    (s.replies.map Prod.fst).Nodup ∧
    ∀ S : Finset ι, s.Within S →
      Inevitable p S (fun s' => ∀ k ∈ S, ∃ r, (k, r) ∈ s'.replies) s := by
  have hi := h.invariant
  have hsteady := (steady_initial p).leads .initial hp h
  refine ⟨ChunkStack.firstAnswers_loadAll hrunning requests, fun k loc r hcall hr => ?_,
    fun _ _ _ hlog => hi.logged.logs.service_eq hlog, hsteady.service_eq hi,
    hi.answered.nodup, fun S hwithin => inevitable_replies hi hwithin⟩
  have hstarted := hsteady.started k loc hcall (hi.answered.returned hr)
  have hanswer := hi.answered.answer k r hr
  rw [Answer, hcall] at hanswer
  obtain ⟨-, answer, rfl, hconcluded⟩ | ⟨hnot, -⟩ := hanswer
  · obtain ⟨unasked, horder, hloc, hwins⟩ := hconcluded.firstWins (hsteady.missed k) hcall
    have hverdict : (s.visits k).map (fun v => v.service.verdict v.files loc) =
        (s.visits k).map (·.answer) := by
      refine List.map_congr_left fun v hv => ?_
      rw [← hloc v hv, Visit.answer, ChunkService.load_eq_verdict]
      exact (hi.logged.logs.runsAs (List.mem_of_mem_filter hv)).1
    exact ⟨answer, unasked, rfl, horder, hloc, hverdict ▸ hwins⟩
  · exact absurd hstarted hnot

/-- A store that is empty, a store that breaks down over one place, and terrain; two lookups. -/
def brittle : StackSetup Bool (Fin 3) where
  calls k := .load (if k then ⟨0, 0⟩ else ⟨4, 7⟩)
  order := [0, 1, 2]
  services := [
    { source := ⟨"empty", fun _ _ _ => some (.ok none)⟩ },
    { source := ⟨"brittle", fun _ _ loc => if loc.x = 4 then none else some (.ok none)⟩ },
    { source := ⟨"terrain", fun _ _ loc => some (.ok (some (.empty loc)))⟩ }].get
  running := by decide
  capacity := 2
  capacity_pos := Nat.two_pos
  room _ := 1
  room_pos _ := Nat.one_pos

/-- The two lookups run side by side, and each has to wait for the other at a tier. -/
theorem brittle_run : ∃ s, brittle.Reachable s ∧
    s.replies = [(false, .chunk (.error (.sourceFailed ⟨4, 7⟩))),
      (true, .chunk (.ok (some (.empty ⟨0, 0⟩))))] ∧
    (s.visits false).map (·.tier) = [0, 1] ∧ (s.visits true).map (·.tier) = [0, 1, 2] := by
  have hrun : brittle.initial.Leads brittle _ :=
    .head (.grant (k := false) rfl (by trivial) (by trivial) (by decide)) <|
    .head (.push (k := false) rfl nofun) <|
    .head (.grant (k := true) rfl (by trivial) (by trivial) (by decide)) <|
    .head (.push (k := true) rfl nofun) <|
    .head (.start (k := false) rfl rfl rfl) <|
    .head (.start (k := true) rfl rfl rfl) <|
    .head (.enter (k := true) rfl rfl (by decide)) <|
    .head (.ask (k := true) rfl rfl) <|
    .head (.serve (k := true) (t := 0) FileTree.empty rfl rfl rfl) <|
    .head (.enter (k := false) rfl rfl (by decide)) <|
    .head (.ask (k := false) rfl rfl) <|
    .head (.serve (k := false) (t := 0) FileTree.empty rfl rfl rfl) <|
    .head (.enter (k := false) rfl rfl (by decide)) <|
    .head (.ask (k := false) rfl rfl) <|
    .head (.serve (k := false) (t := 1) FileTree.empty rfl rfl rfl) <|
    .head (.enter (k := true) rfl rfl (by decide)) <|
    .head (.ask (k := true) rfl rfl) <|
    .head (.serve (k := true) (t := 1) FileTree.empty rfl rfl rfl) <|
    .head (.tell (k := false) rfl) <|
    .head (.enter (k := true) rfl rfl (by decide)) <|
    .head (.ask (k := true) rfl rfl) <|
    .head (.serve (k := true) (t := 2) FileTree.empty rfl rfl rfl) <|
    .single (.tell (k := true) rfl)
  exact ⟨_, hrun, rfl, rfl, rfl⟩

theorem first_answer_wins_brittle : (∃ s, brittle.Reachable s ∧
      (s.visits false).map (·.tier) = [0, 1] ∧ (s.visits true).map (·.tier) = [0, 1, 2] ∧
      FirstWins ((s.visits false).map fun v => v.service.verdict v.files ⟨4, 7⟩)
        ([2] : List (Fin 3)) (.error (.sourceFailed ⟨4, 7⟩)) ∧
      FirstWins ((s.visits true).map fun v => v.service.verdict v.files ⟨0, 0⟩)
        ([] : List (Fin 3)) (.ok (some (.empty ⟨0, 0⟩)))) ∧
    ∃ after, ChunkStack.FirstAnswers (brittle.order.map brittle.services)
      [(FileTree.empty, ⟨4, 7⟩), (FileTree.empty, ⟨0, 0⟩)]
      [.error (.sourceFailed ⟨4, 7⟩), .ok (some (.empty ⟨0, 0⟩))] after := by
  obtain ⟨s, hs, hreplies, hfalse, htrue⟩ := brittle_run
  have hrunning : ∀ t ∈ brittle.order.map brittle.services, t.stopped = false := by decide
  obtain ⟨hinturn, hlookups, -⟩ := first_answer_wins hrunning
    [(FileTree.empty, ⟨4, 7⟩), (FileTree.empty, ⟨0, 0⟩)] brittle (by rintro (_ | _) ⟨⟩) hs
  obtain ⟨_, unasked, hanswer, horder, -, hwins⟩ :=
    hlookups false ⟨4, 7⟩ (.chunk (.error (.sourceFailed ⟨4, 7⟩))) rfl (by simp [hreplies])
  obtain ⟨_, unasked', hanswer', horder', -, hwins'⟩ :=
    hlookups true ⟨0, 0⟩ (.chunk (.ok (some (.empty ⟨0, 0⟩)))) rfl (by simp [hreplies])
  rw [hfalse] at horder
  rw [htrue] at horder'
  cases hanswer
  cases hanswer'
  cases horder
  cases horder'
  exact ⟨⟨s, hs, hfalse, htrue, hwins, hwins'⟩, _, hinturn⟩

end StackSetup

end BlockWorld
