import BlockWorld.Proofs.Service.Progress

/-! # A service answers in order

What a service does with its requests, whoever makes the next step: the loads before the first
shutdown are passed to the source once each and in order, all others are refused, and no one who
waits is forgotten.
-/

namespace BlockWorld

namespace ServedSource

variable {ι σ : Type} [DecidableEq ι] {p : SourceSetup ι σ} {s : ServedSource ι σ} {k : ι}
  {loc : ChunkLoc} {r : ServiceReply}

theorem Invariant.fromSource (h : Invariant p s) (hcall : p.calls k = .load loc)
    (hahead : k ∈ s.ahead p) (hr : (k, r) ∈ s.replies) : FromSource p s k r := by
  have hreturned := h.answered.returned hr
  have hvisited : k ∈ s.visited := by
    rcases visited_or_pending h.ordered h.sorted hahead with hvisited | hpending
    · exact hvisited
    · rcases h.queued.waits k hpending with hstage | hstage <;> cases hreturned.symm.trans hstage
  have hanswer := h.answered.answer k r hr
  rw [Answer, hcall] at hanswer
  rcases hanswer with hsource | ⟨hnot, -⟩
  · exact hsource
  · exact absurd hvisited hnot

theorem Invariant.refused (h : Invariant p s) (hcall : p.calls k = .load loc)
    (hbehind : k ∉ s.ahead p) (hr : (k, r) ∈ s.replies) :
    r = .chunk (.error .serviceStopped) ∧ Stopped p s := by
  have hanswer := h.answered.answer k r hr
  rw [Answer, hcall] at hanswer
  rcases hanswer with hsource | ⟨-, hstopped, hrefused⟩
  · exact absurd ((visited_prefix_ahead h.ordered h.sorted).subset hsource.mem_visited) hbehind
  · exact ⟨hrefused, hstopped⟩

theorem Invariant.shut (h : Invariant p s) (hcall : p.calls k = .shutdown)
    (hr : (k, r) ∈ s.replies) : r = .done ∧ s.visited = s.ahead p := by
  have hanswer := h.answered.answer k r hr
  rw [Answer, hcall] at hanswer
  exact ⟨hanswer.2, visited_eq_ahead h.ordered h.sorted (h.sorted.not_serving hanswer.1)⟩

theorem Invariant.inOrder (h : Invariant p s) :
    ((s.replies.map Prod.fst).filter (· ∈ s.ahead p)).Sublist (s.ahead p) := by
  have hinitial := visited_prefix_ahead h.ordered h.sorted
  have hiff : ∀ k ∈ s.replies.map Prod.fst, k ∈ s.ahead p ↔ k ∈ s.visited := by
    intro k hk
    rcases List.mem_map.1 hk with ⟨⟨k, r⟩, hr, rfl⟩
    refine ⟨fun hahead => ?_, fun hvisited => hinitial.subset hvisited⟩
    have hload := isLoad_of_ahead hahead
    cases hcall : p.calls k with
    | load loc => exact (h.fromSource hcall hahead hr).mem_visited
    | shutdown => cases hcall ▸ hload
  rw [List.filter_congr fun k hk => decide_eq_decide.2 (hiff k hk)]
  exact h.answered.inOrder.trans hinitial.sublist

end ServedSource

namespace SourceSetup

open ServedSource

variable {ι σ : Type} [DecidableEq ι]

/-- Whatever the source does and whatever the order of the steps, a service answers in order:
* the source is asked for the loads that came into the queue before the first shutdown, once each
  and in order, and each returns with what the source came to;
* any other load never gets to the source, and is refused after a shutdown came into the queue;
* a shutdown that returns finds the source asked for all loads before it;
* no call returns twice, and the answers of the source come in the order of the requests;
* everyone who calls is answered in the end, unless he goes away, and then nothing is left undone;
* when a service ends, its source has been asked for all loads before the first shutdown, and for
  all there were if there was none.
-/
theorem serves_in_order (p : SourceSetup ι σ) {s : ServedSource ι σ} (h : p.Reachable s) :
    (s.accepted.Nodup ∧ s.visited <+: s.ahead p ∧ ∀ v ∈ s.log, p.calls v.caller = .load v.loc) ∧
    (∀ k loc, p.calls k = .load loc →
      (k ∈ s.ahead p → ∀ r, (k, r) ∈ s.replies → FromSource p s k r) ∧
      (k ∉ s.ahead p → k ∉ s.visited ∧ ∀ r, (k, r) ∈ s.replies →
        r = .chunk (.error .serviceStopped) ∧ ∃ j ∈ s.accepted, p.calls j = .shutdown)) ∧
    (∀ k r, p.calls k = .shutdown → (k, r) ∈ s.replies → r = .done ∧ s.visited = s.ahead p) ∧
    ((s.replies.map Prod.fst).Nodup ∧
      ((s.replies.map Prod.fst).filter (· ∈ s.ahead p)).Sublist (s.ahead p)) ∧
    (∀ S : Finset ι, s.Within S →
      Unavoidable (fun s s' => s.Act p s' ∧ s'.Within S) (fun s s' => s.Step p s' ∧ s'.Within S)
        (Settled p) s) ∧
    (s.phase = .ended → s.visited = s.ahead p ∧
      ((∀ k ∈ s.accepted, p.calls k ≠ .shutdown) → s.ahead p = s.accepted)) := by
  have hi := h.invariant
  have hinitial := visited_prefix_ahead hi.ordered hi.sorted
  refine ⟨⟨hi.ordered.nodup, hinitial, hi.sorted.loads⟩, fun k loc hcall => ⟨?_, ?_⟩, ?_,
    ⟨hi.answered.nodup, hi.inOrder⟩, fun S hwithin => unavoidable_settled hi hwithin, ?_⟩
  · intro hahead r hr
    exact hi.fromSource hcall hahead hr
  · intro hbehind
    refine ⟨fun hvisited => hbehind (hinitial.subset hvisited), fun r hr => ?_⟩
    rcases hi.refused hcall hbehind hr with ⟨hrefused, j, hj, hshutdown⟩
    exact ⟨hrefused, j, by simp [hi.ordered.accepted_eq, hj], hshutdown⟩
  · intro k r hcall hr
    exact hi.shut hcall hr
  · intro hended
    have hserving : ¬ s.phase.Serving := by simp [hended, Phase.Serving]
    exact ⟨visited_eq_ahead hi.ordered hi.sorted hserving, ahead_eq_accepted⟩

/-- Two loads, of which the source breaks down over the first, a shutdown, and a load behind it. -/
def breakdown : SourceSetup (Fin 4) Bool where
  calls
    | 0 => .load ⟨4, 7⟩
    | 1 => .load ⟨0, 0⟩
    | 2 => .shutdown
    | 3 => .load ⟨1, 1⟩
  source
    | false => ⟨"terrain", fun _ _ _ => none⟩
    | true => ⟨"terrain", fun _ _ loc => some (.ok (some (.empty loc)))⟩
  next _ _ _ := true
  start := false
  capacity := 2
  capacity_pos := Nat.two_pos

/-- The last load comes into the queue when this is closed. -/
theorem breakdown_run : ∃ s, breakdown.Reachable s ∧ s.phase = .ended ∧
    s.accepted = [0, 1, 2, 3] ∧
    s.replies = [(0, .chunk (.error (.sourceFailed ⟨4, 7⟩))),
      (1, .chunk (.ok (some (.empty ⟨0, 0⟩)))), (3, .chunk (.error .serviceStopped)),
      (2, .done)] := by
  have hrun : breakdown.initial.Leads breakdown _ :=
    .head (.inr (.call (k := 0) rfl rfl)) <|
    .head (.inl (.grant (k := 0) rfl rfl (by decide))) <|
    .head (.inl (.push (k := 0) rfl nofun)) <|
    .head (.inr (.call (k := 1) rfl rfl)) <|
    .head (.inl (.grant (k := 1) rfl rfl (by decide))) <|
    .head (.inl (.push (k := 1) rfl nofun)) <|
    .head (.inl (.take (k := 0) rfl rfl rfl)) <|
    .head (.inr (.call (k := 2) rfl rfl)) <|
    .head (.inl (.grant (k := 2) rfl rfl (by decide))) <|
    .head (.inl (.push (k := 2) rfl nofun)) <|
    .head (.inl (.answer (k := 0) FileTree.empty rfl)) <|
    .head (.inl (.take (k := 1) rfl rfl rfl)) <|
    .head (.inl (.answer (k := 1) FileTree.empty rfl)) <|
    .head (.inl (.notice (k := 2) rfl rfl rfl)) <|
    .head (.inr (.call (k := 3) rfl rfl)) <|
    .head (.inl (.grant (k := 3) rfl rfl (by decide))) <|
    .head (.inl (.close rfl)) <|
    .head (.inl (.push (k := 3) rfl nofun)) <|
    .head (.inl (.turnAway (k := 3) FileTree.empty rfl rfl rfl)) <|
    .head (.inl (.drained rfl rfl)) <|
    .head (.inl (.release (k := 2) rfl)) <|
    .single (.inl (.finish rfl rfl))
  exact ⟨_, hrun, rfl, rfl, rfl⟩

theorem serves_in_order_breakdown : ∃ s, breakdown.Reachable s ∧ s.visited = [0, 1] ∧
    FromSource breakdown s 0 (.chunk (.error (.sourceFailed ⟨4, 7⟩))) ∧
    FromSource breakdown s 1 (.chunk (.ok (some (.empty ⟨0, 0⟩)))) ∧
    3 ∉ s.visited ∧ (3, .chunk (.error .serviceStopped)) ∈ s.replies := by
  rcases breakdown_run with ⟨s, hs, hended, haccepted, hreplies⟩
  obtain ⟨-, hloads, -, -, -, hend⟩ := serves_in_order breakdown hs
  have hahead : s.ahead breakdown = [0, 1] := by
    rw [ahead, haccepted]
    rfl
  refine ⟨s, hs, (hend hended).1.trans hahead, ?_, ?_, ?_, by simp [hreplies]⟩
  · exact (hloads 0 ⟨4, 7⟩ rfl).1 (by simp [hahead]) _ (by simp [hreplies])
  · exact (hloads 1 ⟨0, 0⟩ rfl).1 (by simp [hahead]) _ (by simp [hreplies])
  · exact ((hloads 3 ⟨1, 1⟩ rfl).2 (by simp [hahead])).1

end SourceSetup

end BlockWorld
