import BlockWorld.Game.Queue
import BlockWorld.Proofs.Game.Refinement

/-! # The queue puts commands into one order

Whatever the schedule, the commands that were applied and those that wait are a merge of what the
producers have submitted, and the game, the inboxes and the answers are as if the applied commands
had been submitted one after the other. The invariant has a part about the queue and the game and a
part about each producer, `Producer.Fits`.
-/

namespace BlockWorld

/-- The list holds each of the lists `f i`, in its order, and nothing else. -/
def Interleaves {ι α : Type} [DecidableEq ι] (l : List (ι × α)) (f : ι → List α) : Prop :=
  ∀ i, (l.filter (·.1 = i)).map (·.2) = f i

/-- What the `k`-th call of a producer comes to, given which of its calls were queued and the
answers to those that were applied. -/
def verdict (sent : List Call) (answers : List Reply) (k : ℕ) : Except GameError Reply :=
  match sent[k]? with
  | none => .error .stopped
  | some call =>
    if call.waits then
      match answers[k]? with
      | some r => .ok r
      | none => .error .stopped
    else .ok .none

theorem Game.exchanges_append {g : Game} (es fs : List Event) :
    g.exchanges (es ++ fs) = g.exchanges es ++ (g.run es).exchanges fs := by
  induction es generalizing g with
  | nil => rfl
  | cons e es ih => cases e <;> simp [exchanges, ih]

section Verdict

variable {sent : List Call} {answers : List Reply} {k : ℕ} {call : Call}

theorem verdict_of_length_le (h : sent.length ≤ k) : verdict sent answers k = .error .stopped := by
  rw [verdict, List.getElem?_eq_none h]

theorem verdict_of_submit (h : sent[k]? = some call) (hw : call.waits = false) :
    verdict sent answers k = .ok .none := by
  simp [verdict, h, hw]

theorem verdict_of_answer {r : Reply} (h : sent[k]? = some call) (hw : call.waits = true)
    (hr : answers[k]? = some r) : verdict sent answers k = .ok r := by
  simp [verdict, h, hw, hr]

theorem verdict_of_unanswered (h : sent[k]? = some call) (hw : call.waits = true)
    (hr : answers.length ≤ k) : verdict sent answers k = .error .stopped := by
  simp [verdict, h, hw, List.getElem?_eq_none hr]

theorem verdict_append (sent' : List Call) (answers' : List Reply)
    (h : verdict sent answers k ≠ .error .stopped) :
    verdict (sent ++ sent') (answers ++ answers') k = verdict sent answers k := by
  have hk : k < sent.length := Nat.lt_of_not_le fun hle => h (verdict_of_length_le hle)
  have hc : sent[k]? = some sent[k] := List.getElem?_eq_getElem hk
  have hc' : (sent ++ sent')[k]? = some sent[k] := by rw [List.getElem?_append_left hk, hc]
  cases hw : sent[k].waits with
  | false => rw [verdict_of_submit hc hw, verdict_of_submit hc' hw]
  | true =>
    have ha : k < answers.length := Nat.lt_of_not_le fun hle => h (verdict_of_unanswered hc hw hle)
    have hr : answers[k]? = some answers[k] := List.getElem?_eq_getElem ha
    rw [verdict_of_answer hc hw hr,
      verdict_of_answer hc' hw (by rw [List.getElem?_append_left ha, hr])]

end Verdict

namespace Producer

variable {p : Producer} {calls : List Call} {answers : List Reply} {running : Bool}

/-- The last command sent is one whose answer the producer waits for. -/
structure Awaits (p : Producer) : Prop where
  length_sent : p.sent.length = p.returned.length + 1
  last : ∃ call, p.sent[p.returned.length]? = some call ∧ call.waits = true

def StageFits (p : Producer) (answers : List Reply) (running : Bool) : Prop :=
  match p.stage with
  | .calling => p.sent.length ≤ p.returned.length ∧
      (running = true → p.sent.length = p.returned.length)
  | .asking => p.Awaits ∧ answers.length ≤ p.returned.length
  | .answered r => p.Awaits ∧ answers[p.returned.length]? = some r

/-- What has become of a producer's calls so far, given the answers to its applied commands. -/
structure Sound (p : Producer) (calls : List Call) (answers : List Reply) (running : Bool) :
    Prop where
  calls_eq : p.calls = calls.drop p.returned.length
  prefix_calls : p.sent <+: calls
  length_answers_le : answers.length ≤ p.sent.length
  returned_eq : ∀ k o, p.returned[k]? = some o → o = verdict p.sent answers k
  unrefused : running = true → ∀ o ∈ p.returned, o ≠ .error .stopped

structure Fits (p : Producer) (calls : List Call) (answers : List Reply) (running : Bool) : Prop
    extends p.Sound calls answers running where
  stage : p.StageFits answers running

theorem fits_start (calls : List Call) : Fits { calls := calls } calls [] true where
  calls_eq := rfl
  prefix_calls := List.nil_prefix
  length_answers_le := Nat.le_refl 0
  returned_eq _ _ h := by cases h
  unrefused _ _ h := by cases h
  stage := ⟨Nat.le_refl 0, fun _ => rfl⟩

theorem Sound.verdict_ne (h : p.Sound calls answers true) {k : ℕ} (hk : k < p.returned.length) :
    verdict p.sent answers k ≠ .error .stopped := by
  have ho : p.returned[k]? = some p.returned[k] := List.getElem?_eq_getElem hk
  rw [← h.returned_eq k _ ho]
  exact h.unrefused rfl _ (List.getElem_mem hk)

theorem Sound.extend (h : p.Sound calls answers true) (sent' : List Call) (answers' : List Reply)
    (hp : p.sent ++ sent' <+: calls)
    (hle : (answers ++ answers').length ≤ (p.sent ++ sent').length) (stage : Stage) :
    Sound { p with sent := p.sent ++ sent', stage } calls (answers ++ answers') true where
  calls_eq := h.calls_eq
  prefix_calls := hp
  length_answers_le := hle
  returned_eq k o ho := by
    have hk : k < p.returned.length := (List.getElem?_eq_some_iff.1 ho).1
    rw [verdict_append sent' answers' (h.verdict_ne hk)]
    exact h.returned_eq k o ho
  unrefused := h.unrefused

theorem Sound.conclude (h : p.Sound calls answers running) {o : Except GameError Reply}
    (ho : o = verdict p.sent answers p.returned.length)
    (hr : running = true → o ≠ .error .stopped ∧ p.sent.length = p.returned.length + 1)
    (hl : p.sent.length ≤ p.returned.length + 1) :
    (p.conclude o).Fits calls answers running where
  calls_eq := by
    simp [Producer.conclude, h.calls_eq]
  prefix_calls := h.prefix_calls
  length_answers_le := h.length_answers_le
  returned_eq k o' hk := by
    rw [Producer.conclude, List.getElem?_append] at hk
    split at hk
    · exact h.returned_eq k o' hk
    · obtain ⟨hi, rfl⟩ := List.getElem?_eq_some_iff.1 hk
      rw [List.length_singleton] at hi
      obtain rfl : k = p.returned.length := by omega
      simpa [Producer.conclude] using ho
  unrefused hrun o' ho' := by
    rcases List.mem_append.1 ho' with ho' | ho'
    · exact h.unrefused hrun o' ho'
    · rw [List.mem_singleton.1 ho']
      exact (hr hrun).1
  stage := by
    have hlen : (p.conclude o).returned.length = p.returned.length + 1 := by
      simp [Producer.conclude]
    exact ⟨by rw [hlen]; exact hl, fun hrun => by rw [hlen]; exact (hr hrun).2⟩

namespace Fits

theorem conclude_answered (h : p.Fits calls answers running) {r : Reply}
    (hs : p.stage = .answered r) : (p.conclude (.ok r)).Fits calls answers running := by
  have hst := h.stage
  simp only [StageFits, hs] at hst
  obtain ⟨⟨hlen, call, hc, hw⟩, hr⟩ := hst
  exact h.conclude (verdict_of_answer hc hw hr).symm (fun _ => ⟨nofun, hlen⟩) (Nat.le_of_eq hlen)

theorem conclude_refused (h : p.Fits calls answers false) (hs : ∀ r, p.stage ≠ .answered r) :
    (p.conclude (.error .stopped)).Fits calls answers false := by
  have hst := h.stage
  unfold StageFits at hst
  cases hp : p.stage with
  | calling =>
    simp only [hp] at hst
    exact h.conclude (verdict_of_length_le hst.1).symm nofun (Nat.le_succ_of_le hst.1)
  | asking =>
    simp only [hp] at hst
    obtain ⟨⟨hlen, call, hc, hw⟩, hle⟩ := hst
    exact h.conclude (verdict_of_unanswered hc hw hle).symm nofun (Nat.le_of_eq hlen)
  | answered r => exact absurd hp (hs r)

theorem send (h : p.Fits calls answers true) (hs : p.stage = .calling) {call : Call}
    {rest : List Call} (hc : p.calls = call :: rest) : (p.send call).Fits calls answers true := by
  have hst := h.stage
  simp only [StageFits, hs, forall_const] at hst
  have hlen : p.sent.length = p.returned.length := hst.2
  have hprefix : p.sent ++ [call] <+: calls := by
    obtain ⟨t, ht⟩ := h.prefix_calls
    have hdrop := h.calls_eq
    rw [hc, ← ht, ← hlen, List.drop_left] at hdrop
    exact ⟨rest, by rw [← ht, ← hdrop]; simp⟩
  have hle := h.length_answers_le
  have hlast : (p.sent ++ [call])[p.returned.length]? = some call := by simp [← hlen]
  have hsound (stage : Stage) :
      Sound { p with sent := p.sent ++ [call], stage } calls answers true := by
    have := h.extend [call] [] hprefix (by simp; omega) stage
    rwa [List.append_nil] at this
  unfold Producer.send
  cases hw : call.waits with
  | true =>
    exact ⟨hsound .asking, ⟨by simp [hlen], call, hlast, hw⟩, hle.trans hst.1⟩
  | false =>
    exact (hsound p.stage).conclude (verdict_of_submit hlast hw).symm
      (fun _ => ⟨nofun, by simp [hlen]⟩) (by simp [hlen])

/-- A command in the queue whose answer is waited for is the last one sent: all calls before it have
returned without refusal. -/
theorem awaits_of_waits (h : p.Fits calls answers true) {call : Call}
    (hc : p.sent[answers.length]? = some call) (hw : call.waits = true) :
    p.Awaits ∧ answers.length = p.returned.length := by
  have hlt := (List.getElem?_eq_some_iff.1 hc).1
  have hge : p.returned.length ≤ answers.length := Nat.le_of_not_lt fun hk =>
    h.verdict_ne hk (verdict_of_unanswered hc hw (Nat.le_refl _))
  have hst := h.stage
  unfold StageFits at hst
  cases hp : p.stage with
  | calling =>
    simp only [hp, forall_const] at hst
    omega
  | asking =>
    simp only [hp] at hst
    exact ⟨hst.1, Nat.le_antisymm hst.2 hge⟩
  | answered r =>
    simp only [hp] at hst
    have hanswered := (List.getElem?_eq_some_iff.1 hst.2).1
    have hlen := hst.1.length_sent
    omega

/-- Where the producer stands does not change when a command is applied whose answer nobody waits
for. -/
theorem stage_of_not_waits (h : p.Fits calls answers true) {call : Call} (r : Reply)
    (hc : p.sent[answers.length]? = some call) (hw : call.waits = false) :
    p.StageFits (answers ++ [r]) true := by
  have hst := h.stage
  unfold StageFits at hst ⊢
  cases hp : p.stage with
  | calling => simpa only [hp] using hst
  | asking =>
    simp only [hp] at hst
    obtain ⟨haw, hle⟩ := hst
    obtain ⟨last, hl, hlw⟩ := haw.last
    -- The command that was applied is not the one that is waited for.
    have hne : answers.length ≠ p.returned.length := by
      intro he
      rw [he, hl] at hc
      cases hc
      rw [hw] at hlw
      cases hlw
    refine ⟨haw, ?_⟩
    rw [List.length_append, List.length_singleton]
    omega
  | answered r' =>
    simp only [hp] at hst
    have hanswered := (List.getElem?_eq_some_iff.1 hst.2).1
    exact ⟨hst.1, by rw [List.getElem?_append_left hanswered]; exact hst.2⟩

theorem answer (h : p.Fits calls answers true) {call : Call} (r : Reply)
    (hc : p.sent[answers.length]? = some call) :
    Fits (if call.waits then { p with stage := .answered r } else p) calls (answers ++ [r])
      true := by
  have hlt := (List.getElem?_eq_some_iff.1 hc).1
  have hsound (stage : Stage) : Sound { p with stage } calls (answers ++ [r]) true := by
    have := h.extend [] [r] (by simpa using h.prefix_calls) (by simp; omega) stage
    simpa using this
  cases hw : call.waits with
  | true =>
    obtain ⟨haw, hlen⟩ := h.awaits_of_waits hc hw
    rw [if_pos rfl]
    exact ⟨hsound _, ⟨haw.length_sent, haw.last⟩, by simp [← hlen]⟩
  | false =>
    rw [if_neg (by simp)]
    exact ⟨hsound p.stage, h.stage_of_not_waits r hc hw⟩

theorem stop (h : p.Fits calls answers running) : p.Fits calls answers false where
  toSound := { h.toSound with unrefused := nofun }
  stage := by
    have hst := h.stage
    unfold StageFits at hst ⊢
    cases hp : p.stage with
    | calling =>
      simp only [hp] at hst
      exact ⟨hst.1, nofun⟩
    | asking => simpa only [hp] using hst
    | answered r => simpa only [hp] using hst

end Fits

end Producer

namespace QueuedGame

variable {ι : Type} [DecidableEq ι] {g : Game} {calls : ι → List Call} {s : QueuedGame ι}

structure Recorded (g : Game) (s : QueuedGame ι) : Prop where
  length_queue_le : s.queue.length ≤ s.capacity
  lost_eq : s.running = true → s.lost = []
  queue_eq : s.running = false → s.queue = []
  exchanges_eq : s.applied.map (fun a => (a.call.command, a.reply)) = g.exchanges s.history
  game_eq : s.game = g.run s.history
  departed_eq : s.departed = g.departed s.history

structure Linear (g : Game) (calls : ι → List Call) (s : QueuedGame ι) : Prop
    extends s.Recorded g where
  interleaves : Interleaves s.accepted s.sent
  fits : ∀ i, (s.producers i).Fits (calls i) (s.answers i) s.running

theorem linear_start (g : Game) (calls : ι → List Call) : Linear g calls (start g calls) where
  length_queue_le := Nat.zero_le _
  lost_eq _ := rfl
  queue_eq _ := rfl
  exchanges_eq := rfl
  game_eq := rfl
  departed_eq := rfl
  interleaves _ := rfl
  fits i := Producer.fits_start (calls i)

theorem producers_setProducer (i j : ι) (p : Producer) :
    (s.setProducer i p).producers j = if j = i then p else s.producers j :=
  Function.update_apply ..

theorem producers_enqueue (i j : ι) (call : Call) : (s.enqueue i call).producers j =
    if j = i then (s.producers i).send call else s.producers j :=
  producers_setProducer ..

theorem sent_send (p : Producer) (call : Call) : (p.send call).sent = p.sent ++ [call] := by
  unfold Producer.send
  split <;> rfl

theorem Linear.conclude (h : Linear g calls s) {i : ι} {o : Except GameError Reply}
    (hp : ((s.producers i).conclude o).Fits (calls i) (s.answers i) s.running) :
    Linear g calls (s.conclude i o) where
  toRecorded := ⟨h.length_queue_le, h.lost_eq, h.queue_eq, h.exchanges_eq, h.game_eq, h.departed_eq⟩
  interleaves j := by
    refine (h.interleaves j).trans ?_
    rw [QueuedGame.sent, QueuedGame.sent, QueuedGame.conclude, producers_setProducer]
    split
    · subst j
      rfl
    · rfl
  fits j := by
    rw [QueuedGame.conclude, producers_setProducer]
    split
    · subst j
      exact hp
    · exact h.fits j

theorem accepted_enqueue (hl : s.lost = []) (i : ι) (call : Call) :
    (s.enqueue i call).accepted = s.accepted ++ [(i, call)] := by
  simp [accepted, hl, enqueue, setProducer]

theorem Linear.enqueue (h : Linear g calls s) {i : ι} {call : Call} {rest : List Call}
    (hrun : s.running = true) (hs : (s.producers i).stage = .calling)
    (hc : (s.producers i).calls = call :: rest) (hroom : s.queue.length < s.capacity) :
    Linear g calls (s.enqueue i call) where
  length_queue_le := by
    show (s.queue ++ [(i, call)]).length ≤ s.capacity
    rw [List.length_append, List.length_singleton]
    exact hroom
  lost_eq := h.lost_eq
  queue_eq hr := by
    rw [show s.running = false from hr] at hrun
    cases hrun
  exchanges_eq := h.exchanges_eq
  game_eq := h.game_eq
  departed_eq := h.departed_eq
  interleaves j := by
    rw [accepted_enqueue (h.lost_eq hrun), List.filter_append, List.map_append, h.interleaves j,
      QueuedGame.sent, QueuedGame.sent, producers_enqueue]
    by_cases hij : j = i
    · simp [hij, sent_send]
    · simp [hij, Ne.symm hij]
  fits j := by
    rw [producers_enqueue]
    split
    · subst j
      have hf := h.fits i
      rw [hrun] at hf
      show Producer.Fits _ _ _ s.running
      rw [hrun]
      exact hf.send hs hc
    · exact h.fits j

theorem Linear.turn (h : Linear g calls s) (i : ι) : Linear g calls (s.turn i) := by
  have hf := h.fits i
  have hrefused (hr : ¬ s.running = true) (hs : ∀ r, (s.producers i).stage ≠ .answered r) :
      Linear g calls (s.conclude i (.error .stopped)) := by
    rw [Bool.not_eq_true] at hr
    refine h.conclude ?_
    rw [hr] at hf ⊢
    exact hf.conclude_refused hs
  unfold QueuedGame.turn
  split
  · exact h
  · rename_i hs
    exact h.conclude (hf.conclude_answered hs)
  · rename_i hs
    split
    · exact h
    · exact hrefused ‹_› fun r hr => by simp [hs] at hr
  · rename_i hc hs
    split
    · split
      · exact h.enqueue ‹_› hs hc ‹_›
      · exact h
    · exact hrefused ‹_› fun r hr => by simp [hs] at hr

omit [DecidableEq ι] in
theorem Recorded.happen (h : s.Recorded g) {e : Event} (applied : List (Application ι))
    (ha : applied.map (fun a => (a.call.command, a.reply)) = s.game.exchanges [e]) :
    Recorded g { s.happen e with applied := s.applied ++ applied } where
  length_queue_le := h.length_queue_le
  lost_eq := h.lost_eq
  queue_eq := h.queue_eq
  exchanges_eq := by
    show (s.applied ++ applied).map _ = g.exchanges (s.history ++ [e])
    rw [List.map_append, h.exchanges_eq, ha, Game.exchanges_append, h.game_eq]
  game_eq := by
    show s.game.step e = g.run (s.history ++ [e])
    rw [Game.run_append, ← h.game_eq]
    rfl
  departed_eq := by
    show s.departed ++ s.game.departures e = g.departed (s.history ++ [e])
    rw [Game.departed_append, ← h.game_eq, h.departed_eq]
    simp [Game.departed]

theorem Linear.happen (h : Linear g calls s) {e : Event} (he : s.game.exchanges [e] = []) :
    Linear g calls (s.happen e) where
  toRecorded := by
    have := h.toRecorded.happen [] he.symm
    rwa [List.append_nil] at this
  interleaves := h.interleaves
  fits := h.fits

/-- The command that has waited longest is the oldest of its producer's that is not applied. -/
theorem Linear.sent_of_queue (h : Linear g calls s) {i : ι} {call : Call}
    {queue : List (ι × Call)} (hq : s.queue = (i, call) :: queue) :
    (s.producers i).sent[(s.answers i).length]? = some call := by
  have hi := h.interleaves i
  rw [QueuedGame.sent] at hi
  rw [← hi, accepted, hq, List.append_assoc, List.filter_append, List.map_append, List.cons_append,
    List.filter_cons_of_pos (by simp), List.map_cons, List.getElem?_append_right]
  · simp [answers, List.filter_map, Function.comp_def]
  · simp [answers, List.filter_map, Function.comp_def]

theorem answers_serve (i j : ι) (call : Call) : (s.serve i call).answers j =
    if i = j then s.answers j ++ [(s.game.apply call.command).reply] else s.answers j := by
  have happ : (s.serve i call).applied =
      s.applied ++ [⟨i, call, (s.game.apply call.command).reply⟩] := rfl
  rw [answers, answers, happ]
  by_cases hij : i = j <;> simp [hij]

theorem producers_serve (i j : ι) (call : Call) : (s.serve i call).producers j =
    if j = i then
      if call.waits then
        { s.producers i with stage := .answered (s.game.apply call.command).reply }
      else s.producers i
    else s.producers j :=
  producers_setProducer ..

theorem sent_serve (i : ι) (call : Call) : (s.serve i call).sent = s.sent := by
  funext j
  rw [sent, sent, producers_serve]
  split
  · subst j
    split <;> rfl
  · rfl

theorem Linear.apply (h : Linear g calls s) : Linear g calls s.apply := by
  unfold QueuedGame.apply
  split
  · exact h
  · rename_i i call queue hq
    have hrun : s.running = true := by
      by_contra hr
      rw [h.queue_eq (Bool.eq_false_of_not_eq_true hr)] at hq
      cases hq
    have hle := h.length_queue_le
    rw [hq, List.length_cons] at hle
    have hshort : Recorded g { s with queue } :=
      ⟨Nat.le_of_succ_le hle, h.lost_eq, fun hr => by simp [hrun] at hr, h.exchanges_eq, h.game_eq,
        h.departed_eq⟩
    constructor
    · have hrec := hshort.happen (e := .submit call.command)
        [⟨i, call, (s.game.apply call.command).reply⟩] rfl
      exact ⟨hrec.length_queue_le, hrec.lost_eq, hrec.queue_eq, hrec.exchanges_eq, hrec.game_eq,
        hrec.departed_eq⟩
    · intro j
      rw [sent_serve]
      refine Eq.trans ?_ (h.interleaves j)
      rw [accepted, accepted, hq]
      simp [serve, QueuedGame.happen, QueuedGame.setProducer]
    · intro j
      rw [answers_serve, producers_serve]
      show Producer.Fits _ _ _ s.running
      by_cases hij : j = i
      · subst j
        have hf := h.fits i
        rw [hrun] at hf ⊢
        rw [if_pos rfl, if_pos rfl]
        exact hf.answer _ (h.sent_of_queue hq)
      · rw [if_neg hij, if_neg (Ne.symm hij)]
        exact h.fits j

theorem Linear.abort (h : Linear g calls s) : Linear g calls s.abort where
  length_queue_le := Nat.zero_le _
  lost_eq := nofun
  queue_eq _ := rfl
  exchanges_eq := h.exchanges_eq
  game_eq := h.game_eq
  departed_eq := h.departed_eq
  interleaves j := by
    refine Eq.trans ?_ (h.interleaves j)
    cases hr : s.running with
    | true => simp [accepted, QueuedGame.abort, h.lost_eq hr]
    | false => simp [accepted, QueuedGame.abort, h.queue_eq hr]
  fits j := (h.fits j).stop

theorem Linear.step (h : Linear g calls s) (m : Move ι) : Linear g calls (s.step m) := by
  cases m with
  | turn i => exact h.turn i
  | apply => exact h.apply
  | read connection n => exact h.happen rfl
  | hangUp connection => exact h.happen rfl
  | abort => exact h.abort

theorem Linear.run (h : Linear g calls s) (ms : List (Move ι)) : Linear g calls (s.run ms) := by
  induction ms generalizing s with
  | nil => exact h
  | cons m ms ih => exact ih (h.step m)

/-! ## What a move can do -/

theorem turn_cases (s : QueuedGame ι) (i : ι) :
    s.turn i = s ∨ (∃ o, s.turn i = s.conclude i o) ∨
      s.running = true ∧ ∃ call, s.turn i = s.enqueue i call := by
  unfold turn
  split
  · exact .inl rfl
  · exact .inr (.inl ⟨_, rfl⟩)
  · split
    · exact .inl rfl
    · exact .inr (.inl ⟨_, rfl⟩)
  · split
    · split
      · exact .inr (.inr ⟨‹_›, _, rfl⟩)
      · exact .inl rfl
    · exact .inr (.inl ⟨_, rfl⟩)

theorem history_step (s : QueuedGame ι) (m : Move ι) :
    (s.step m).history.filter (·.command?.isNone) =
      s.history.filter (·.command?.isNone) ++ m.client?.toList := by
  cases m with
  | turn i =>
    rw [step]
    rcases s.turn_cases i with h | ⟨o, h⟩ | ⟨-, call, h⟩ <;>
      simp [h, conclude, enqueue, setProducer, Move.client?]
  | apply =>
    rw [step, QueuedGame.apply]
    split <;>
      simp [serve, QueuedGame.happen, QueuedGame.setProducer, Event.command?, Move.client?]
  | abort => simp [step, QueuedGame.abort, Move.client?]
  | _ => simp [step, QueuedGame.happen, Event.command?, Move.client?]

theorem history_run (s : QueuedGame ι) (ms : List (Move ι)) :
    (s.run ms).history.filter (·.command?.isNone) =
      s.history.filter (·.command?.isNone) ++ ms.filterMap Move.client? := by
  induction ms generalizing s with
  | nil => simp [run]
  | cons m ms ih =>
    show ((s.step m).run ms).history.filter _ = _
    rw [ih, history_step, List.append_assoc]
    cases hm : m.client? <;> simp [hm]

theorem running_step (s : QueuedGame ι) {m : Move ι} (hm : m ≠ .abort) :
    (s.step m).running = s.running := by
  cases m with
  | turn i =>
    rw [step]
    rcases s.turn_cases i with h | ⟨o, h⟩ | ⟨-, call, h⟩ <;> rw [h] <;> rfl
  | apply =>
    rw [step, QueuedGame.apply]
    split <;> rfl
  | abort => exact absurd rfl hm
  | _ => rfl

theorem running_run (s : QueuedGame ι) (ms : List (Move ι)) :
    (s.run ms).running = true ↔ s.running = true ∧ .abort ∉ ms := by
  induction ms generalizing s with
  | nil => simp [run]
  | cons m ms ih =>
    show ((s.step m).run ms).running = true ↔ _
    rw [ih]
    by_cases hm : m = .abort
    · subst hm
      simp [step, abort]
    · rw [running_step s hm, List.mem_cons, not_or]
      simp [Ne.symm hm]

theorem capacity_step (s : QueuedGame ι) (m : Move ι) : (s.step m).capacity = s.capacity := by
  cases m with
  | turn i =>
    rw [step]
    rcases s.turn_cases i with h | ⟨o, h⟩ | ⟨-, call, h⟩ <;> rw [h] <;> rfl
  | apply =>
    rw [step, QueuedGame.apply]
    split <;> rfl
  | _ => rfl

theorem capacity_run (s : QueuedGame ι) (ms : List (Move ι)) :
    (s.run ms).capacity = s.capacity := by
  induction ms generalizing s with
  | nil => rfl
  | cons m ms ih => exact (ih (s.step m)).trans (s.capacity_step m)

/-- The task has stopped: a call that goes on returns with its answer if that was given before, else
it is refused, and no command is queued or applied any more. -/
structure Halted (s : QueuedGame ι) : Prop where
  queue_eq : s.queue = []
  returned_of_answered : ∀ i r, (s.producers i).stage = .answered r → (s.producers i).calls ≠ [] →
    ((s.turn i).producers i).returned = (s.producers i).returned ++ [.ok r]
  returned_of_unanswered : ∀ i, (∀ r, (s.producers i).stage ≠ .answered r) →
    (s.producers i).calls ≠ [] →
    ((s.turn i).producers i).returned = (s.producers i).returned ++ [.error .stopped]
  settled : ∀ ms, (s.run ms).applied = s.applied ∧ (s.run ms).sent = s.sent

theorem stopped_step (hr : s.running = false) (hq : s.queue = []) (m : Move ι) :
    (s.step m).running = false ∧ (s.step m).queue = [] ∧ (s.step m).applied = s.applied ∧
      (s.step m).sent = s.sent := by
  cases m with
  | turn i =>
    rw [step]
    rcases s.turn_cases i with h | ⟨o, h⟩ | ⟨h, -⟩
    · rw [h]
      exact ⟨hr, hq, rfl, rfl⟩
    · rw [h]
      refine ⟨hr, hq, rfl, ?_⟩
      funext j
      rw [sent, sent, conclude, producers_setProducer]
      split
      · subst j
        rfl
      · rfl
    · rw [hr] at h
      cases h
  | apply =>
    rw [step, QueuedGame.apply, hq]
    exact ⟨hr, hq, rfl, rfl⟩
  | read connection n => exact ⟨hr, hq, rfl, rfl⟩
  | hangUp connection => exact ⟨hr, hq, rfl, rfl⟩
  | abort => exact ⟨rfl, rfl, rfl, rfl⟩

theorem settled_of_stopped (hr : s.running = false) (hq : s.queue = []) (ms : List (Move ι)) :
    (s.run ms).applied = s.applied ∧ (s.run ms).sent = s.sent := by
  induction ms generalizing s with
  | nil => exact ⟨rfl, rfl⟩
  | cons m ms ih =>
    obtain ⟨hr', hq', ha, hs⟩ := stopped_step hr hq m
    obtain ⟨iha, ihs⟩ := ih hr' hq'
    exact ⟨iha.trans ha, ihs.trans hs⟩

theorem Linear.halted (h : Linear g calls s) (hr : s.running = false) : s.Halted where
  queue_eq := h.queue_eq hr
  returned_of_answered i r hs hc := by
    obtain ⟨call, rest, hc⟩ := List.exists_cons_of_ne_nil hc
    have ht : s.turn i = s.conclude i (.ok r) := by simp only [QueuedGame.turn, hc, hs]
    rw [ht, QueuedGame.conclude, producers_setProducer, if_pos rfl]
    rfl
  returned_of_unanswered i hs hc := by
    obtain ⟨call, rest, hc⟩ := List.exists_cons_of_ne_nil hc
    have ht : s.turn i = s.conclude i (.error .stopped) := by
      cases hst : (s.producers i).stage with
      | calling => simp [QueuedGame.turn, hc, hst, hr]
      | asking => simp [QueuedGame.turn, hc, hst, hr]
      | answered r => exact absurd hst (hs r)
    rw [ht, QueuedGame.conclude, producers_setProducer, if_pos rfl]
    rfl
  settled := settled_of_stopped hr (h.queue_eq hr)

/-- The task serves the command that has waited longest, and the call that waits for its answer goes
on to return it. -/
structure ServesHead (s : QueuedGame ι) (i : ι) (call : Call) : Prop where
  applied : s.apply.applied = s.applied ++ [⟨i, call, (s.game.apply call.command).reply⟩]
  game : s.apply.game = (s.game.apply call.command).game
  returned : call.waits = true → ((s.apply.turn i).producers i).returned =
    (s.producers i).returned ++ [.ok (s.game.apply call.command).reply]

theorem Linear.servesHead (h : Linear g calls s) {i : ι} {call : Call} {queue : List (ι × Call)}
    (hq : s.queue = (i, call) :: queue) : s.ServesHead i call := by
  have happly : s.apply = { s with queue }.serve i call := by
    rw [QueuedGame.apply, hq]
  refine ⟨by rw [happly]; rfl, by rw [happly]; rfl, fun hw => ?_⟩
  have hrun : s.running = true := by
    by_contra hr
    rw [h.queue_eq (Bool.eq_false_of_not_eq_true hr)] at hq
    cases hq
  have hf := h.fits i
  rw [hrun] at hf
  obtain ⟨haw, -⟩ := hf.awaits_of_waits (h.sent_of_queue hq) hw
  have hne : (s.producers i).calls ≠ [] := by
    -- the call is still to return, so it is among those that remain
    have hle := hf.prefix_calls.length_le
    rw [haw.length_sent] at hle
    rw [hf.calls_eq, ne_eq, List.drop_eq_nil_iff]
    omega
  obtain ⟨next, rest, hcalls⟩ := List.exists_cons_of_ne_nil hne
  have hproducer : s.apply.producers i =
      { s.producers i with stage := .answered (s.game.apply call.command).reply } := by
    rw [happly, producers_serve, if_pos rfl, if_pos hw]
  have hturn : s.apply.turn i = s.apply.conclude i (.ok (s.game.apply call.command).reply) := by
    simp only [QueuedGame.turn, hproducer, hcalls]
  rw [hturn, QueuedGame.conclude, producers_setProducer, if_pos rfl, hproducer]
  rfl

/-- Whatever the schedule, the queue keeps to its capacity, and the commands applied, queued and
lost are a merge of what the producers have submitted, each in the order of its own calls. The game,
the inboxes of those who have parted from it and all answers are those of a run that applies the
commands one after the other, with what the clients did in between. No call is refused while the
task runs; once it is stopped all calls are whose answer has not been given, and nothing more is
applied. Of the queued commands the oldest is the next that is applied and answered. -/
theorem run_linear (config : GameConfig) (time : Int64) (calls : ι → List Call)
    (ms : List (Move ι)) :
    let g := Game.new config time
    let s := (start g calls).run ms
    s.queue.length ≤ max config.queueCapacity 1 ∧
    Interleaves s.accepted s.sent ∧
    (∀ i, s.sent i <+: calls i) ∧
    s.applied.map (fun a => (a.call.command, a.reply)) = g.exchanges s.history ∧
    s.history.filter (·.command?.isNone) = ms.filterMap Move.client? ∧
    s.game = g.run s.history ∧
    s.departed = g.departed s.history ∧
    (∀ i k o, (s.producers i).returned[k]? = some o → o = verdict (s.sent i) (s.answers i) k) ∧
    (s.running = true ↔ .abort ∉ ms) ∧
    (s.running = true → s.lost = [] ∧ ∀ i, ∀ o ∈ (s.producers i).returned, o ≠ .error .stopped) ∧
    (s.running = false → s.Halted) ∧
    ∀ i call queue, s.queue = (i, call) :: queue → s.ServesHead i call := by
  intro g s
  have h : Linear g calls s := (linear_start g calls).run ms
  have hcap : s.capacity = max config.queueCapacity 1 := capacity_run (start g calls) ms
  refine ⟨hcap ▸ h.length_queue_le, h.interleaves, fun i => (h.fits i).prefix_calls, h.exchanges_eq,
    ?_, h.game_eq, h.departed_eq, fun i => (h.fits i).returned_eq, ?_, ?_, h.halted,
    fun _ _ _ => h.servesHead⟩
  · exact history_run (start g calls) ms
  · exact (running_run (start g calls) ms).trans (and_iff_right rfl)
  · intro hr
    refine ⟨h.lost_eq hr, fun i => ?_⟩
    exact (h.fits i).unrefused hr

/-- Where one command may wait, the second of two producers has to wait for the first; the task is
stopped when an answer has been given but not fetched and a command waits. -/
theorem run_linear_full_queue :
    let calls : Bool → List Call
      | false => [.allocateId, .ask .time]
      | true => [.submit .tick, .allocateId]
    let ms : List (Move Bool) := [.turn false, .turn true, .apply, .turn false, .turn true, .apply,
      .turn false, .turn true, .apply, .turn true, .abort, .turn false, .turn true]
    let full := (start (Game.new { queueCapacity := 1 } 0) calls).run (ms.take 2)
    let s := (start (Game.new { queueCapacity := 1 } 0) calls).run ms
    full.queue = [(false, .allocateId)] ∧ full.sent true = [] ∧ full.ServesHead false .allocateId ∧
      s.lost.map (·.1) = [true] ∧
      (s.producers false).returned = [.ok (.id 1), .ok (.time 20)] ∧
      (s.producers true).returned = [.ok .none, .error .stopped] ∧
      Interleaves s.accepted s.sent ∧ s.Halted := by
  intro calls ms full s
  have hqueue : full.queue = [(false, .allocateId)] := rfl
  have hstopped : s.running = false := by decide +kernel
  obtain ⟨-, -, -, -, -, -, -, -, -, -, -, hhead⟩ :=
    run_linear { queueCapacity := 1 } 0 calls (ms.take 2)
  obtain ⟨-, hmerge, -, -, -, -, -, -, -, -, hhalted, -⟩ :=
    run_linear { queueCapacity := 1 } 0 calls ms
  exact ⟨hqueue, rfl, hhead false .allocateId [] hqueue, by decide +kernel, by decide +kernel,
    by decide +kernel, hmerge, hhalted hstopped⟩

end QueuedGame

end BlockWorld
