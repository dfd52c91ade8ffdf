import BlockWorld.Proofs.Wire.Client
import BlockWorld.Session.Moment

/-! # What a session lives through

Octets come to a session in pieces, the stream of its client ends at some point, and in between the
session is let act. Until it has acted on all that was sent, `input` is what it has yet to act on;
once the stream has ended, every act takes an octet of it or ends the session.
-/

namespace BlockWorld

theorem arriving_append_finish (before after : List Moment) :
    arriving (before ++ .finish :: after) = arriving before := by
  induction before with
  | nil => rfl
  | cons m before ih => cases m <;> simp [arriving, ih]

namespace Session

/-- What has come and is not acted on, and what is still to come. -/
def input (s : Session) (ms : List Moment) : Bytes :=
  s.unread ++ if s.finished then [] else arriving ms

/-- How much there is left for a session to do that nothing more is sent to. -/
def load (s : Session) : ℕ :=
  match s.phase with
  | .ended _ => 0
  | _ => s.unread.length + 1

variable {s : Session} {ms : List Moment} {α : Type} {r : Wire.Read α}

theorem input_receive (b : Bytes) : (s.receive b).input ms = s.input (.receive b :: ms) := by
  cases hf : s.finished <;> simp [receive, input, hf, arriving]

theorem input_finish : s.finish.input ms = s.input (.finish :: ms) := by
  simp [finish, input, arriving]

/-! ## Finding -/

section Find

variable {a : α} {rest : Bytes} {e : WireError}

theorem find_eq_value_iff : s.find r = .value a rest ↔ r s.unread = .ok (a, rest) := by
  unfold find
  split
  · rename_i h
    simp [h]
  · rename_i h
    split <;> simp [h]
  · rename_i h
    simp [h]

theorem find_ne_waiting (hf : s.finished = true) : s.find r ≠ .waiting := by
  unfold find
  split
  · exact nofun
  · rw [if_pos hf]
    exact nofun
  · exact nofun

/-- What a steady reader finds in the whole input it finds, or waits for, in what has come. -/
theorem find_of_ok (hr : Wire.Read.Steady r) (h : r (s.input ms) = .ok (a, rest)) :
    s.find r = .waiting ∨ ∃ left, s.find r = .value a left ∧
      rest = left ++ if s.finished then [] else arriving ms := by
  cases hu : r s.unread with
  | ok x =>
    obtain ⟨a', left⟩ := x
    obtain ⟨c, hc, hreads⟩ := hr.reads hu
    rw [input, hc, List.append_assoc, hreads] at h
    cases h
    exact .inr ⟨left, find_eq_value_iff.2 hu, rfl⟩
  | error e =>
    by_cases he : e = .truncated
    · cases hf : s.finished with
      | true =>
        rw [input, if_pos hf, List.append_nil, hu] at h
        cases h
      | false => exact .inl (by simp [find, hu, he, hf])
    · rw [input, hr.refuses hu he] at h
      cases h

/-- An error in the whole input is met, or waited for, in what has come. -/
theorem find_of_error (hr : Wire.Read.Steady r) (h : r (s.input ms) = .error e) :
    s.find r = .waiting ∨ s.find r = .error e := by
  cases hu : r s.unread with
  | ok x =>
    obtain ⟨a', left⟩ := x
    obtain ⟨c, hc, hreads⟩ := hr.reads hu
    rw [input, hc, List.append_assoc, hreads] at h
    cases h
  | error e' =>
    by_cases he : e' = .truncated
    · cases hf : s.finished with
      | true =>
        rw [input, if_pos hf, List.append_nil, hu] at h
        cases h
        exact .inr (by simp [find, hu, he, hf])
      | false => exact .inl (by simp [find, hu, he, hf])
    · rw [input, hr.refuses hu he] at h
      cases h
      refine .inr ?_
      unfold find
      split <;> simp_all

end Find

/-! ## Progress -/

section Progress

variable {σ : Type} {submit : Handle σ} {w : World} {files : FileTree} {s' : Session} {t t' : σ}
  {x : Session × σ}

theorem load_le (s : Session) : s.load ≤ s.unread.length + 1 := by
  unfold load
  split
  · exact Nat.zero_le _
  · exact Nat.le_refl _

/-- A session that no longer reads less than it has read, and has less to do. -/
structure Later (s s' : Session) : Prop where
  finished : s'.finished = s.finished
  length_le : s'.unread.length ≤ s.unread.length
  load_lt : s'.load < s.load

theorem Later.of_taken (hs : s.load = s.unread.length + 1) (hf : s'.finished = s.finished)
    (hlt : s'.unread.length < s.unread.length) : Later s s' where
  finished := hf
  length_le := Nat.le_of_lt hlt
  load_lt := by
    have hle := s'.load_le
    omega

theorem Later.of_ended (hs : s.load = s.unread.length + 1) (hf : s'.finished = s.finished)
    (hu : s'.unread = []) (hl : s'.load = 0) : Later s s' where
  finished := hf
  length_le := by simp [hu]
  load_lt := by omega

theorem enter_keeps (u : String) (s : Session) (t : σ) :
    (enter submit w files u s t).1.finished = s.finished ∧
      (enter submit w files u s t).1.unread.length ≤ s.unread.length := by
  unfold enter
  split
  · exact ⟨rfl, Nat.zero_le _⟩
  · split
    · exact ⟨rfl, Nat.zero_le _⟩
    · dsimp only
      split
      · exact ⟨rfl, Nat.zero_le _⟩
      · exact ⟨rfl, Nat.le_refl _⟩

theorem step_later (h : s.step submit w files t = some (s', t')) : Later s s' := by
  rw [step] at h
  split at h
  case h_1 hp =>
    have hs : s.load = s.unread.length + 1 := by rw [load, hp]
    split at h
    · rename_i hv
      cases h
      exact .of_taken hs rfl (Wire.Read.steady_handshake.length_lt rfl (find_eq_value_iff.1 hv))
    · cases h
    · cases h
      exact .of_ended hs rfl rfl rfl
  case h_2 username hp =>
    have hs : s.load = s.unread.length + 1 := by rw [load, hp]
    split at h
    · rename_i rest hv
      have hlt := Wire.Read.steady_login.length_lt rfl (find_eq_value_iff.1 hv)
      have he : enter submit w files username { s with unread := rest } t = (s', t') :=
        Option.some.inj h
      obtain ⟨hf, hle⟩ := he ▸ enter_keeps username { s with unread := rest } t
      exact .of_taken hs hf (Nat.lt_of_le_of_lt hle hlt)
    · cases h
    · cases h
      exact .of_ended hs rfl rfl rfl
    · cases h
      exact .of_ended hs rfl rfl rfl
  case h_3 hp =>
    have hs : s.load = s.unread.length + 1 := by rw [load, hp]
    split at h
    · rename_i hv
      have hlt := Wire.Read.steady_clientPacket.length_lt rfl (find_eq_value_iff.1 hv)
      dsimp only at h
      split at h
      · cases h
        exact .of_taken hs rfl hlt
      · cases h
        exact .of_ended hs rfl rfl rfl
      · split at h
        · cases h
          exact .of_taken hs rfl hlt
        · cases h
          exact .of_ended hs rfl rfl rfl
    · cases h
    · cases h
      exact .of_ended hs rfl rfl rfl
  case h_4 => cases h

theorem load_eq_zero_of_step (hf : s.finished = true)
    (h : s.step submit w files t = none) : s.load = 0 := by
  rw [step] at h
  split at h
  case h_4 hp => rw [load, hp]
  case h_1 =>
    split at h
    · cases h
    · exact absurd ‹_› (find_ne_waiting hf)
    · cases h
  case h_2 =>
    split at h
    · cases h
    · exact absurd ‹_› (find_ne_waiting hf)
    · cases h
    · cases h
  case h_3 =>
    split at h
    · dsimp only at h
      split at h
      · cases h
      · cases h
      · split at h <;> cases h
    · exact absurd ‹_› (find_ne_waiting hf)
    · cases h

theorem length_input_moment (x : Session × σ) (m : Moment) (ms : List Moment) :
    ((moment submit w files x m).1.input ms).length ≤ (x.1.input (m :: ms)).length := by
  cases m with
  | receive b => exact Nat.le_of_eq (congrArg _ (input_receive b))
  | finish => exact Nat.le_of_eq (congrArg _ input_finish)
  | act =>
    rw [moment]
    cases hs : x.1.step submit w files x.2 with
    | none => exact Nat.le_refl _
    | some y =>
      have hl := step_later hs
      simp only [Option.getD_some, input, hl.finished, arriving, List.length_append]
      exact Nat.add_le_add_right hl.length_le _

theorem length_input_live (x : Session × σ) (before ms : List Moment) :
    ((live submit w files x before).1.input ms).length ≤ (x.1.input (before ++ ms)).length := by
  induction before generalizing x with
  | nil => exact Nat.le_refl _
  | cons m before ih =>
    exact Nat.le_trans (ih (moment submit w files x m)) (length_input_moment x m (before ++ ms))

theorem load_live (hf : x.1.finished = true) (hle : x.1.load ≤ ms.count .act) :
    (live submit w files x ms).1.load = 0 := by
  induction ms generalizing x with
  | nil => exact Nat.le_zero.1 hle
  | cons m ms ih =>
    show (live submit w files (moment submit w files x m) ms).1.load = 0
    cases m with
    | receive b =>
      have hx : moment submit w files x (.receive b) = x := by simp [moment, Session.receive, hf]
      rw [hx]
      exact ih hf (by simpa using hle)
    | finish =>
      have hx : moment submit w files x .finish = x := by simp [moment, finish, ← hf]
      rw [hx]
      exact ih hf (by simpa using hle)
    | act =>
      rw [List.count_cons_self] at hle
      rw [moment]
      cases hs : x.1.step submit w files x.2 with
      | none =>
        have hload : x.1.load = 0 := load_eq_zero_of_step hf hs
        exact ih hf (hload ▸ Nat.zero_le _)
      | some y =>
        have hl := step_later hs
        have hlt : y.1.load < x.1.load := hl.load_lt
        refine ih (hl.finished.trans hf) ?_
        rw [Option.getD_some]
        omega

theorem exists_ended_of_load (h : s.load = 0) : ∃ outcome, s.phase = .ended outcome := by
  cases hp : s.phase with
  | ended outcome => exact ⟨outcome, rfl⟩
  | _ => simp [load, hp] at h

/-- After its stream has ended, a session needs no more acts than octets were sent, and one. -/
theorem live_ends {before after : List Moment} (hfresh : x.1.unread = [])
    (hturns : (arriving before).length < after.count .act) :
    ∃ outcome, (live submit w files x (before ++ .finish :: after)).1.phase = .ended outcome := by
  have hsplit : live submit w files x (before ++ .finish :: after) =
      live submit w files (moment submit w files (live submit w files x before) .finish) after :=
    List.foldl_append
  rw [hsplit]
  refine exists_ended_of_load (load_live rfl ?_)
  calc ((live submit w files x before).1.finish).load
      ≤ (live submit w files x before).1.unread.length + 1 := load_le _
    _ ≤ ((live submit w files x before).1.input []).length + 1 := by
        rw [input, List.length_append]
        omega
    _ ≤ (x.1.input (before ++ [])).length + 1 := Nat.succ_le_succ (length_input_live x before [])
    _ ≤ (arriving before).length + 1 := by
        rw [List.append_nil, input, hfresh, List.nil_append]
        split <;> simp
    _ ≤ after.count .act := hturns

end Progress

end Session

end BlockWorld
