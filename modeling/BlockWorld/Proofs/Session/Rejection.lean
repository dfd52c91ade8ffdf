import BlockWorld.Proofs.Session.Script
import BlockWorld.Session.Hub

/-! # Rejected connections

Many connections talk to one game, their octets and their steps interleaved in any way, one command
at a time. A connection that is turned away before it has entered the game has submitted nothing
till then: without it the game and all others are as they are with it.
-/

namespace BlockWorld

namespace Session

/-- All that is asked of a session for its being let in has come. -/
inductive Entering (w : World) (files : FileTree) (s : Session) : Prop
  | intro {username : String} {login : Wire.Login} {rest : Bytes} {position : Position}
      (hphase : s.phase = .login username) (hread : s.find Wire.Read.login = .value login rest)
      (hposition : w.entryPosition files username = .ok position)

/-- The session was let in. It may have ended since. -/
inductive Inside (s : Session) : Prop
  | playing {username : String} {id : EntityId} (hphase : s.phase = .play username id)
  | ended {outcome : Except Failure Unit} (hphase : s.phase = .ended outcome)
      (hrejected : s.isRejected = false)

variable {σ : Type} {submit : Handle σ} {w : World} {files : FileTree} {s s' : Session} {t t' : σ}
  {c : Command} {answers : List (Except GameError Reply)}

theorem Entering.not_rejected (h : s.Entering w files) : s.isRejected = false := by
  rcases h with ⟨hphase, -, -⟩
  rw [isRejected, hphase]

theorem Inside.not_rejected (h : s.Inside) : s.isRejected = false := by
  rcases h with hphase | ⟨-, hrejected⟩
  · rw [isRejected, hphase]
  · exact hrejected

theorem submits_nothing (hentering : ¬ s.Entering w files) (hinside : ¬ s.Inside)
    (hs : s.step submit w files t = some (s', t')) : t' = t := by
  rw [step] at hs
  split at hs
  case h_1 hp =>
    split at hs <;> cases hs <;> rfl
  case h_2 username hp =>
    split at hs
    · rename_i hv
      rw [enter] at hs
      split at hs
      · cases hs
        rfl
      · exact absurd ⟨hp, hv, ‹_›⟩ hentering
    · cases hs
    · cases hs
      rfl
    · cases hs
      rfl
  case h_3 hp => exact absurd (.playing hp) hinside
  case h_4 => cases hs

theorem inside_fail (s : Session) (e : GameError) : (s.fail e.message).Inside := by
  cases e
  exact .ended rfl rfl

theorem inside_enter {username : String} {position : Position}
    (hposition : w.entryPosition files username = .ok position) (s : Session) (t : σ) :
    (enter submit w files username s t).1.Inside := by
  simp only [enter, hposition]
  split
  · exact inside_fail _ _
  · split
    · exact inside_fail _ _
    · exact .playing rfl

theorem Entering.step (h : s.Entering w files) (hs : s.step submit w files t = some (s', t')) :
    s'.Inside := by
  rcases h with ⟨hphase, hread, hposition⟩
  simp only [Session.step, hphase, hread, Option.some.injEq] at hs
  obtain rfl : _ = s' := congrArg Prod.fst hs
  exact inside_enter hposition _ t

theorem Inside.step (h : s.Inside) (hs : s.step submit w files t = some (s', t')) : s'.Inside := by
  rcases h with hphase | ⟨hphase, -⟩
  · simp only [Session.step, hphase] at hs
    split at hs
    · split at hs
      · cases hs
        exact .playing rfl
      · cases hs
        exact .ended rfl rfl
      · split at hs
        · cases hs
          exact .playing rfl
        · cases hs
          exact .ended rfl rfl
    · cases hs
    · cases hs
      exact .ended rfl rfl
  · simp only [Session.step, hphase] at hs
    cases hs

theorem Entering.receive (h : s.Entering w files) (b : Bytes) :
    (s.receive b).Entering w files := by
  rw [Session.receive]
  split
  · exact h
  -- What has been read so far is read in the same way with more behind it.
  rcases h with @⟨username, login, rest, position, hphase, hread, hposition⟩
  rcases Wire.Read.steady_login.reads (find_eq_value_iff.1 hread) with ⟨taken, htaken, hreads⟩
  have hmore : Wire.Read.login (s.unread ++ b) = .ok (login, rest ++ b) := by
    rw [htaken, List.append_assoc]
    exact hreads _
  exact .intro hphase (find_eq_value_iff.2 hmore) hposition

theorem Entering.finish (h : s.Entering w files) : s.finish.Entering w files := by
  rcases h with ⟨hphase, hread, hposition⟩
  have hread' := find_eq_value_iff.1 hread
  exact .intro hphase (find_eq_value_iff.2 hread') hposition

theorem Inside.congr (h : s.Inside) (hphase : s'.phase = s.phase) : s'.Inside := by
  rcases h with hp | ⟨hp, hrejected⟩
  · exact .playing (hphase.trans hp)
  · refine .ended (hphase.trans hp) ?_
    rwa [isRejected, hphase]

theorem receive_phase (s : Session) (b : Bytes) : (s.receive b).phase = s.phase := by
  rw [receive]
  split <;> rfl

theorem entering_or_inside_of_asks (h : s.next w files answers = .asks c) :
    s.Entering w files ∨ s.Inside := by
  by_contra hs
  rw [not_or] at hs
  rw [next] at h
  split at h
  · cases h
  · rename_i hstep
    cases submits_nothing hs.1 hs.2 hstep
  · cases h

theorem inside_of_acts (h : s.Entering w files ∨ s.Inside)
    (hs : s.next w files answers = .acts s') : s'.Inside := by
  rw [next] at hs
  split at hs
  · cases hs
  · cases hs
  · rename_i hstep
    cases hs
    rcases h with h | h
    · exact h.step hstep
    · exact h.step hstep

theorem inside_of_isServed (h : s.isServed) : s.Inside := by
  rw [isServed] at h
  split at h
  · exact .playing ‹_›
  · rename_i hphase
    exact .ended hphase (by rw [isRejected, hphase])
  · cases h

theorem Entering.breakOff (h : s.Entering w files) (hasked : answers ≠ []) :
    (s.breakOff answers).Entering w files ∨ (s.breakOff answers).Inside := by
  have hentering := h
  rcases h with ⟨hphase, -, -⟩
  unfold Session.breakOff
  rw [hphase]
  split
  · contradiction
  · contradiction
  · exact .inr (.ended rfl rfl)
  · contradiction
  · exact .inl hentering

theorem Inside.breakOff (h : s.Inside) : (s.breakOff answers).Inside := by
  have hinside := h
  unfold Session.breakOff
  rcases h with hphase | ⟨hphase, -⟩ <;> rw [hphase]
  · exact .playing hphase
  · exact hinside

end Session

/-! ## Many connections -/

namespace Line

variable {w : World} {files : FileTree} {l : Line}

/-- The session was let in, or has asked the game for an answer so that it will be. -/
def Admitted (w : World) (files : FileTree) (l : Line) : Prop :=
  l.session.Entering w files ∧ l.answers ≠ [] ∨ l.session.Inside

theorem Admitted.not_rejected (h : l.Admitted w files) : l.session.isRejected = false := by
  rcases h with ⟨h, -⟩ | h
  · exact h.not_rejected
  · exact h.not_rejected

/-- Whatever has an effect on the game admits the session. -/
theorem admitted_or_react_eq (l : Line) (t : GameTask) (x : Signal) :
    (l.react w files t x).1.Admitted w files ∨ (l.react w files t x).2 = (t, []) := by
  cases x with
  | receive b | finish | breakOff => exact .inr rfl
  | act =>
    rw [react]
    split
    · exact .inr rfl
    · rename_i hasks
      refine .inl ?_
      rcases Session.entering_or_inside_of_asks hasks with h | h
      · exact .inl ⟨h, by simp⟩
      · exact .inr h
    · exact .inr rfl
  | deliver n =>
    rw [react]
    split
    · exact .inl (.inr ((Session.inside_of_isServed ‹_›).congr rfl))
    · exact .inr rfl
  | vanish =>
    rw [react]
    split
    · exact .inl (.inr ((Session.inside_of_isServed ‹_›).congr rfl))
    · exact .inr rfl

theorem Admitted.react (h : l.Admitted w files) (t : GameTask) (x : Signal) :
    (l.react w files t x).1.Admitted w files := by
  cases x with
  | receive b =>
    rcases h with ⟨h, hasked⟩ | h
    · exact .inl ⟨h.receive b, hasked⟩
    · exact .inr (h.congr (l.session.receive_phase b))
  | finish | vanish =>
    rcases h with ⟨h, hasked⟩ | h
    · exact .inl ⟨h.finish, hasked⟩
    · exact .inr (h.congr rfl)
  | breakOff =>
    rcases h with ⟨h, hasked⟩ | h
    · exact (h.breakOff hasked).imp (fun h => ⟨h, hasked⟩) id
    · exact .inr h.breakOff
  | act =>
    have hin : l.session.Entering w files ∨ l.session.Inside := h.imp_left And.left
    rw [Line.react]
    split
    · exact h
    · exact hin.imp (fun h => ⟨h, by simp⟩) id
    · exact .inr (Session.inside_of_acts hin ‹_›)
  | deliver n =>
    rw [Line.react]
    split
    · exact .inr ((Session.inside_of_isServed ‹_›).congr rfl)
    · exact h

end Line

namespace Hub

variable {w : World} {files : FileTree} {H K : Hub} {connection : ℕ}

theorem run_of_dialogue {answers : List (Except GameError Reply)} {s s' : Session}
    {t t' : GameTask} (h : Session.Dialogue GameTask.submit w files s answers t s' t') {H : Hub}
    (hline : H.lines connection = ⟨s, answers⟩) (htask : H.task = t) :
    ∃ n, ((H.run w files (.replicate n (.signal connection .act))).lines connection).session = s' ∧
      (H.run w files (.replicate n (.signal connection .act))).task = t' := by
  induction h generalizing H with
  | @ask answers t t' s' c h rest ih =>
    let K := H.step w files (.signal connection .act)
    have hreact : (H.lines connection).react w files H.task .act
        = (⟨s, answers ++ [(t.submit c).1]⟩, (t.submit c).2, [c]) := by
      rw [hline, htask, Line.react, h]
    obtain ⟨n, hn⟩ := ih (H := K) (by simp [K, step, hreact]) (by simp [K, step, hreact])
    exact ⟨n + 1, hn⟩
  | @act answers t s' h =>
    have hreact : (H.lines connection).react w files H.task .act = (⟨s', []⟩, t, []) := by
      rw [hline, htask, Line.react, h]
    exact ⟨1, by simp [run, step, hreact], by simp [run, step, hreact]⟩

/-- Undisturbed, a connection that is let act makes the step of its session. -/
theorem run_act_of_step {s' : Session} {task' : GameTask}
    (hfresh : (H.lines connection).answers = [])
    (hstep : (H.lines connection).session.step GameTask.submit w files H.task
      = some (s', task')) :
    ∃ n, ((H.run w files (.replicate n (.signal connection .act))).lines connection).session = s' ∧
      (H.run w files (.replicate n (.signal connection .act))).task = task' :=
  run_of_dialogue (Session.dialogue_of_step hstep) (by rw [← hfresh]) rfl

/-! ## Admission is for good -/

theorem line_step (H : Hub) (connection : ℕ) (x : Signal) :
    (H.step w files (.signal connection x)).lines connection =
      ((H.lines connection).react w files H.task x).1 := by
  simp only [step, Function.update_self]

theorem admitted_step (h : (H.lines connection).Admitted w files) (i : Incident) :
    ((H.step w files i).lines connection).Admitted w files := by
  cases i with
  | signal other x =>
    by_cases hc : connection = other
    · subst hc
      rw [line_step]
      exact h.react H.task x
    · simp only [step, Function.update_of_ne hc]
      exact h
  | other f => exact h

theorem admitted_run (h : (H.lines connection).Admitted w files) (is : List Incident) :
    ((H.run w files is).lines connection).Admitted w files := by
  induction is generalizing H with
  | nil => exact h
  | cons i is ih => exact ih (admitted_step h i)

def Traced (w : World) (files : FileTree) (H : Hub) : Prop :=
  ∀ e ∈ H.submitted, (H.lines e.1).Admitted w files

theorem Traced.step (h : H.Traced w files) (i : Incident) : (H.step w files i).Traced w files := by
  intro e he
  cases i with
  | signal connection x =>
    rcases List.mem_append.1 he with he | he
    · exact admitted_step (h e he) _
    · rcases List.mem_map.1 he with ⟨c, hc, rfl⟩
      rw [line_step]
      rcases Line.admitted_or_react_eq (H.lines connection) H.task x with hadmitted | hnone
      · exact hadmitted
      · cases congrArg Prod.snd hnone ▸ hc
  | other f => exact h e he

theorem Traced.run (h : H.Traced w files) (is : List Incident) :
    (H.run w files is).Traced w files := by
  induction is generalizing H with
  | nil => exact h
  | cons i is ih => exact ih (h.step i)

/-! ## The run without them -/

/-- Two hubs whose games are the same, and the connections except these. -/
structure Alike (gone : ℕ → Bool) (H K : Hub) : Prop where
  task : K.task = H.task
  submitted : K.submitted = H.submitted
  lines : ∀ connection, gone connection = false → K.lines connection = H.lines connection

variable {gone : ℕ → Bool}

theorem Alike.step (h : Alike gone H K) {i : Incident} (hi : i.concerns gone = false) :
    Alike gone (H.step w files i) (K.step w files i) := by
  cases i with
  | signal connection x =>
    have hline := h.lines connection hi
    refine ⟨?_, ?_, fun other hother => ?_⟩
    · simp only [Hub.step, hline, h.task]
    · simp only [Hub.step, hline, h.task, h.submitted]
    · simp only [Hub.step, hline, h.task, Function.update_apply, h.lines other hother]
  | other f => exact ⟨congrArg f h.task, h.submitted, h.lines⟩

/-- What happens to one of these that is not admitted by it, the others do not notice. -/
theorem Alike.skip (h : Alike gone H K) {connection : ℕ} (hgone : gone connection) {x : Signal}
    (hno : ¬ ((H.step w files (.signal connection x)).lines connection).Admitted w files) :
    Alike gone (H.step w files (.signal connection x)) K := by
  rw [line_step] at hno
  have hreact := (Line.admitted_or_react_eq _ H.task x).resolve_left hno
  refine ⟨?_, ?_, fun other hother => ?_⟩
  · simp only [Hub.step, hreact, h.task]
  · simp only [Hub.step, hreact, h.submitted, List.map_nil, List.append_nil]
  · have hne : other ≠ connection := by
      rintro rfl
      cases hother.symm.trans hgone
    simp only [Hub.step, Function.update_of_ne hne, h.lines other hother]

theorem Alike.run (h : Alike gone H K) (is : List Incident)
    (hgone : ∀ connection, gone connection → (H.run w files is).isRejected connection) :
    Alike gone (H.run w files is) (K.run w files (is.filter fun i => !i.concerns gone)) := by
  induction is generalizing H K with
  | nil => exact h
  | cons i is ih =>
    cases hi : i.concerns gone with
    | false =>
      rw [List.filter_cons_of_pos (by rw [hi]; rfl)]
      exact ih (h.step hi) hgone
    | true =>
      rw [List.filter_cons_of_neg (by rw [hi]; simp)]
      cases i with
      | other f => cases hi
      | signal connection x =>
        refine ih (h.skip hi fun hadmitted => ?_) hgone
        -- Once admitted, it would not be rejected in the end.
        have hend := (admitted_run hadmitted is).not_rejected
        cases hend.symm.trans (hgone connection hi)

/-- Connections that are rejected leave no trace. Without anything that happens to those that a run
rejects, the game is the same in the end, and so is every other connection with all that was written
to it; and no command was submitted by a rejected one. -/
theorem rejected_leave_no_trace (w : World) (files : FileTree) (task : GameTask)
    (is : List Incident) :
    let after := (new task).run w files is
    let without := (new task).run w files (is.filter fun i => !i.concerns after.isRejected)
    without.task = after.task ∧ without.submitted = after.submitted ∧
    (∀ connection, after.isRejected connection = false →
      without.lines connection = after.lines connection) ∧
    ∀ e ∈ after.submitted, after.isRejected e.1 = false := by
  intro after without
  have hstart : Alike after.isRejected (new task) (new task) := ⟨rfl, rfl, fun _ _ => rfl⟩
  have halike : Alike after.isRejected after without := hstart.run is fun _ h => h
  have htraced : after.Traced w files :=
    Traced.run (fun e he => absurd he List.not_mem_nil) is
  exact ⟨halike.task, halike.submitted, halike.lines, fun e he => (htraced e he).not_rejected⟩

/-- A connection is rejected that begins with no handshake. -/
example (w : World) (files : FileTree) (task : GameTask) :
    ((new task).run w files [.signal 7 (.receive [0]), .signal 7 .act]).isRejected 7 = true := by
  rfl

end Hub

end BlockWorld
