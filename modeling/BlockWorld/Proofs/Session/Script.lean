import BlockWorld.Proofs.Session.Moment
import BlockWorld.Session.Script

/-! # A session that waits for its answers

Given the answers of a game as it asks for them one by one, a session does what it does with that
game at hand.
-/

namespace BlockWorld

namespace Session

variable {σ : Type} {submit : Handle σ} {w : World} {files : FileTree} {s s' : Session} {t t' : σ}
  {answers : List (Except GameError Reply)}

/-- A session and a game in turn: the one asks, the other answers, until the session acts. -/
inductive Dialogue (submit : Handle σ) (w : World) (files : FileTree) (s : Session) :
    List (Except GameError Reply) → σ → Session → σ → Prop
  | ask {answers : List (Except GameError Reply)} {t t' : σ} {s' : Session} {c : Command}
      (h : s.next w files answers = .asks c)
      (rest : Dialogue submit w files s (answers ++ [(submit t c).1]) (submit t c).2 s' t') :
      Dialogue submit w files s answers t s' t'
  | act {answers : List (Except GameError Reply)} {t : σ} {s' : Session}
      (h : s.next w files answers = .acts s') : Dialogue submit w files s answers t s' t

theorem dialogue_of_enter {username : String} {login : Wire.Login} {rest : Bytes}
    (hp : s.phase = .login username) (hv : s.find Wire.Read.login = .value login rest)
    (h : enter submit w files username { s with unread := rest } t = (s', t')) :
    Dialogue submit w files s [] t s' t' := by
  rw [enter] at h
  split at h
  · rename_i hposition
    cases h
    exact .act (by simp [next, step, hp, hv, enter, hposition])
  rename_i position hposition
  -- Of the answers to the three commands, one each lets the session go on.
  refine .ask (c := .allocateId)
    (by simp [next, step, hp, hv, enter, hposition, enroll, Script.submit]) ?_
  rw [enroll] at h
  generalize submit t .allocateId = r at h ⊢
  obtain ⟨_ | reply, u⟩ := r
  · cases h
    exact .act (by simp [next, step, hp, hv, enter, hposition, enroll, Script.submit])
  cases reply with
  | id id =>
    refine .ask (c := .query .time)
      (by simp [next, step, hp, hv, enter, hposition, enroll, Script.submit]) ?_
    dsimp only at h
    generalize submit u (.query .time) = r at h ⊢
    obtain ⟨_ | reply, v⟩ := r
    · cases h
      exact .act (by simp [next, step, hp, hv, enter, hposition, enroll, Script.submit])
    cases reply with
    | time time =>
      let player : Player := {
        id, name := username, position, connection := s.connection
        inbox := .new (some outboundCapacity) }
      refine .ask (c := .addPlayer player)
        (by simp [next, step, hp, hv, enter, hposition, enroll, Script.submit, write, player]) ?_
      dsimp only [write] at h
      generalize submit v (.addPlayer player) = r at h ⊢
      obtain ⟨_ | reply, v⟩ := r
      · cases h
        exact .act
          (by simp [next, step, hp, hv, enter, hposition, enroll, Script.submit, write])
      · cases h
        exact .act
          (by simp [next, step, hp, hv, enter, hposition, enroll, Script.submit, write])
    | _ =>
      cases h
      exact .act (by simp [next, step, hp, hv, enter, hposition, enroll, Script.submit])
  | _ =>
    cases h
    exact .act (by simp [next, step, hp, hv, enter, hposition, enroll, Script.submit])

/-- Asked for its answers one by one, a game is left as it is left by a step. -/
theorem dialogue_of_step (h : s.step submit w files t = some (s', t')) :
    Dialogue submit w files s [] t s' t' := by
  rw [step] at h
  split at h
  case h_1 hp =>
    split at h
    · rename_i hv
      cases h
      exact .act (by simp [next, step, hp, hv])
    · cases h
    · rename_i hv
      cases h
      exact .act (by simp [next, step, hp, hv])
  case h_2 username hp =>
    split at h
    · rename_i rest hv
      have he : enter submit w files username { s with unread := rest } t = (s', t') :=
        Option.some.inj h
      exact dialogue_of_enter hp hv he
    · cases h
    · rename_i hv
      cases h
      exact .act (by simp [next, step, hp, hv])
    · rename_i hne hv
      cases h
      refine .act ?_
      simp [next, step, hp, hv]
  case h_3 username id hp =>
    split at h
    · rename_i hv
      dsimp only at h
      split at h
      · rename_i hr
        cases h
        exact .act (by simp [next, step, hp, hv, hr])
      · rename_i hr
        cases h
        refine .ask (c := .removePlayer id) ?_ (.act ?_) <;>
          simp [next, step, hp, hv, hr, leave, Script.submit]
      · rename_i c hr
        refine .ask (c := c) (by simp [next, step, hp, hv, hr, leave, Script.submit]) ?_
        generalize submit t c = r at h ⊢
        obtain ⟨_ | reply, u⟩ := r
        · cases h
          refine .ask (c := .removePlayer id) ?_ (.act ?_) <;>
            simp [next, step, hp, hv, hr, leave, Script.submit]
        · cases h
          exact .act (by simp [next, step, hp, hv, hr, Script.submit])
    · cases h
    · rename_i hv
      cases h
      refine .ask (c := .removePlayer id) ?_ (.act ?_) <;>
        simp [next, step, hp, hv, leave, Script.submit]
  case h_4 => cases h

end Session

end BlockWorld
