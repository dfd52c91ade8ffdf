import BlockWorld.Game.Run
import BlockWorld.Session.Script
import Mathlib.Logic.Function.Basic

/-! # Connections to one game

Many connections talk to one game, their octets and their steps interleaved in any way, one command
at a time. A connection may break at any moment, while its session waits for octets or for answers.
-/

namespace BlockWorld

namespace Session

/-- The session was ended by an error in its handshake or its login. -/
def isRejected (s : Session) : Bool :=
  match s.phase with
  | .ended (.error f) => f.message == "handshake" || f.message == "login"
  | _ => false

/-- Whether what the game sends to the player is written to the client: that begins when the player
is registered and goes on behind the end of the session. -/
def isServed (s : Session) : Bool :=
  match s.phase with
  | .play _ _ | .ended (.ok ()) => true
  | _ => false

/-- Reading or writing fails. A session that waits for the client to say who it is ends with that
error, and so does one that greets the player; later on nothing more comes from the client. -/
def breakOff (s : Session) (answers : List (Except GameError Reply)) : Session :=
  match s.phase, answers with
  | .handshake, _ => s.fail "handshake"
  | .login _, [] => s.fail "login"
  | .login _, [_, _] => s.fail "connection"
  | .play _ _, _ => s.finish
  | _, _ => s

end Session

/-- Takes the next `n` packets for a connection, or all that is left if its player has parted. -/
def Host.take (h : Host) (connection n : ℕ) : Bytes × Host :=
  match h.game.players.values.find? (·.connection == connection) with
  | some p => ((p.inbox.waiting.take n).flatten,
      { h with game := h.game.attend connection (·.read n) })
  | none =>
    let (d, h) := h.collect connection
    (d.packets.flatten, h)

/-- A session and the answers that it has got in the step that it is making. -/
structure Line where
  session : Session
  answers : List (Except GameError Reply) := []

inductive Signal
  | receive (b : Bytes)
  | finish
  /-- The connection breaks. -/
  | breakOff
  /-- The session goes on: it submits one command, or acts. -/
  | act
  /-- Packets from the game are written to the client. -/
  | deliver (n : ℕ)
  /-- The client goes away. -/
  | vanish

namespace Line

variable (w : World) (files : FileTree)

/-- The line after a signal, the game, and the commands that were submitted to it. -/
def react (l : Line) (t : GameTask) : Signal → Line × GameTask × List Command
  | .receive b => ({ l with session := l.session.receive b }, t, [])
  | .finish => ({ l with session := l.session.finish }, t, [])
  | .breakOff => ({ l with session := l.session.breakOff l.answers }, t, [])
  | .act =>
    match l.session.next w files l.answers with
    | .waits => (l, t, [])
    | .asks c =>
      let (answer, t) := t.submit c
      ({ l with answers := l.answers ++ [answer] }, t, [c])
    | .acts s => ({ session := s }, t, [])
  | .deliver n =>
    if l.session.isServed then
      let (b, host) := t.host.take l.session.connection n
      ({ l with session := { l.session with written := l.session.written ++ b } },
        { t with host }, [])
    else (l, t, [])
  | .vanish =>
    ({ l with session := l.session.finish },
      if l.session.isServed then { t with host := t.host.hangUp l.session.connection } else t, [])

end Line

/-- Something happens to a connection, or to the game by itself or by others. -/
inductive Incident
  | signal (connection : ℕ) (x : Signal)
  | other (f : GameTask → GameTask)

def Incident.concerns (among : ℕ → Bool) : Incident → Bool
  | .signal connection _ => among connection
  | .other _ => false

/-- A game, its connections by number, and the commands that they submitted, in order. -/
structure Hub where
  task : GameTask
  lines : ℕ → Line
  submitted : List (ℕ × Command)

namespace Hub

def new (task : GameTask) : Hub where
  task := task
  lines connection := { session := { connection } }
  submitted := []

variable (w : World) (files : FileTree)

def step (H : Hub) : Incident → Hub
  | .signal connection x =>
    let (l, task, cs) := (H.lines connection).react w files H.task x
    { task
      lines := Function.update H.lines connection l
      submitted := H.submitted ++ cs.map (connection, ·) }
  | .other f => { H with task := f H.task }

def run (H : Hub) (is : List Incident) : Hub := is.foldl (step w files) H

def isRejected (H : Hub) (connection : ℕ) : Bool := (H.lines connection).session.isRejected

end Hub

end BlockWorld
