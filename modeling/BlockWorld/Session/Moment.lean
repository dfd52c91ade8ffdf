import BlockWorld.Session.Basic
import Mathlib.Data.Nat.Notation

/-! # What a session lives through

Octets come to a session in pieces, the stream of its client ends at some point, and in between the
session is let act. Others act on the game before each of its commands.
-/

namespace BlockWorld

inductive Moment
  | receive (b : Bytes)
  | finish
  | act
  deriving DecidableEq

/-- All that comes before the stream ends. -/
def arriving : List Moment → Bytes
  | [] => []
  | .receive b :: ms => b ++ arriving ms
  | .finish :: _ => []
  | .act :: ms => arriving ms

namespace Session

variable {σ : Type} (submit : Handle σ) (w : World) (files : FileTree)

def moment (x : Session × σ) : Moment → Session × σ
  | .receive b => (x.1.receive b, x.2)
  | .finish => (x.1.finish, x.2)
  | .act => (x.1.step submit w files x.2).getD x

def live (x : Session × σ) (ms : List Moment) : Session × σ := ms.foldl (moment submit w files) x

end Session

/-- The game together with what one session has said to it, and the answers. -/
structure Talk where
  task : GameTask
  said : List (Command × Except GameError Reply) := []

namespace Talk

/-- A session submits a command. Before that, others act on the game. -/
def submit (others : ℕ → GameTask → GameTask) : Session.Handle Talk := fun t c =>
  let (r, task) := (others t.said.length t.task).submit c
  (r, { task, said := t.said ++ [(c, r)] })

end Talk

end BlockWorld
