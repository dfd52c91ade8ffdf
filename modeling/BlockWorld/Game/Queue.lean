import BlockWorld.Game.Run
import BlockWorld.Game.Timed
import Mathlib.Logic.Function.Basic

/-! # The game behind its queue

Producers call the game through a queue of bounded capacity, from which one task takes commands and
applies them. A call first waits for room in the queue; most calls are then done, the others wait
for an answer. A schedule says who moves next, and may stop the task at any time: then the commands
in the queue are lost, and whoever still waits or calls later is told so.
-/

namespace BlockWorld

/-- A call on the game: a command to be queued, or a question whose answer is waited for. -/
inductive Call
  | submit (c : Command)
  | allocateId
  | ask (q : Query)

namespace Call

def command : Call → Command
  | .submit c => c
  | .allocateId => .allocateId
  | .ask q => .query q

def waits : Call → Bool
  | .submit _ => false
  | .allocateId => true
  | .ask _ => true

end Call

/-- Where a producer stands with the first of the calls it has yet to finish. -/
inductive Stage
  /-- The command is not in the queue yet. -/
  | calling
  | asking
  | answered (r : Reply)

structure Producer where
  /-- The calls that have not returned. -/
  calls : List Call
  stage : Stage := .calling
  /-- The calls whose commands found room in the queue. -/
  sent : List Call := []
  /-- What the calls that have returned came to. -/
  returned : List (Except GameError Reply) := []

namespace Producer

def conclude (p : Producer) (o : Except GameError Reply) : Producer :=
  { p with calls := p.calls.tail, stage := .calling, returned := p.returned ++ [o] }

def send (p : Producer) (call : Call) : Producer :=
  let p := { p with sent := p.sent ++ [call] }
  if call.waits then { p with stage := .asking } else p.conclude (.ok .none)

end Producer

structure Application (ι : Type) where
  producer : ι
  call : Call
  reply : Reply

/-- Producers, named by `ι`, their queue and the game, with a record of what has happened. -/
structure QueuedGame (ι : Type) where
  game : Game
  capacity : ℕ
  producers : ι → Producer
  queue : List (ι × Call) := []
  running : Bool := true
  applied : List (Application ι) := []
  /-- The commands that were in the queue when the task was stopped. -/
  lost : List (ι × Call) := []
  /-- What has happened to the game. -/
  history : List Event := []
  departed : List Game.Departure := []

inductive Move (ι : Type)
  /-- A producer goes on with its call. Where it has to wait nothing happens. -/
  | turn (i : ι)
  /-- The task applies the command that has waited longest. -/
  | apply
  | read (connection n : ℕ)
  | hangUp (connection : ℕ)
  | abort

def Event.command? : Event → Option Command
  | .submit c => some c
  | _ => none

def Move.client? {ι : Type} : Move ι → Option Event
  | .read connection n => some (.read connection n)
  | .hangUp connection => some (.hangUp connection)
  | _ => none

namespace QueuedGame

variable {ι : Type} [DecidableEq ι]

def start (g : Game) (calls : ι → List Call) : QueuedGame ι where
  game := g
  capacity := g.config.queueCapacity
  producers i := { calls := calls i }

def setProducer (s : QueuedGame ι) (i : ι) (p : Producer) : QueuedGame ι :=
  { s with producers := Function.update s.producers i p }

def enqueue (s : QueuedGame ι) (i : ι) (call : Call) : QueuedGame ι :=
  { s.setProducer i ((s.producers i).send call) with queue := s.queue ++ [(i, call)] }

def conclude (s : QueuedGame ι) (i : ι) (o : Except GameError Reply) : QueuedGame ι :=
  s.setProducer i ((s.producers i).conclude o)

def turn (s : QueuedGame ι) (i : ι) : QueuedGame ι :=
  match (s.producers i).calls, (s.producers i).stage with
  | [], _ => s
  | _ :: _, .answered r => s.conclude i (.ok r)
  | _ :: _, .asking => if s.running then s else s.conclude i (.error .stopped)
  | call :: _, .calling =>
    if s.running then if s.queue.length < s.capacity then s.enqueue i call else s
    else s.conclude i (.error .stopped)

def happen (s : QueuedGame ι) (e : Event) : QueuedGame ι :=
  { s with
    game := s.game.step e
    history := s.history ++ [e]
    departed := s.departed ++ s.game.departures e }

/-- The task applies a command and answers whoever waits for that. -/
def serve (s : QueuedGame ι) (i : ι) (call : Call) : QueuedGame ι :=
  let reply := (s.game.apply call.command).reply
  let p := s.producers i
  let s := s.happen (.submit call.command)
  { s.setProducer i (if call.waits then { p with stage := .answered reply } else p) with
    applied := s.applied ++ [⟨i, call, reply⟩] }

def apply (s : QueuedGame ι) : QueuedGame ι :=
  match s.queue with
  | [] => s
  | (i, call) :: queue => { s with queue }.serve i call

def abort (s : QueuedGame ι) : QueuedGame ι :=
  { s with running := false, lost := s.lost ++ s.queue, queue := [] }

def step (s : QueuedGame ι) : Move ι → QueuedGame ι
  | .turn i => s.turn i
  | .apply => s.apply
  | .read connection n => s.happen (.read connection n)
  | .hangUp connection => s.happen (.hangUp connection)
  | .abort => s.abort

def run (s : QueuedGame ι) (ms : List (Move ι)) : QueuedGame ι := ms.foldl step s

/-- The commands that have gone into the queue, with who submitted them, in order. -/
def accepted (s : QueuedGame ι) : List (ι × Call) :=
  s.applied.map (fun a => (a.producer, a.call)) ++ s.queue ++ s.lost

def sent (s : QueuedGame ι) (i : ι) : List Call := (s.producers i).sent

def answers (s : QueuedGame ι) (i : ι) : List Reply :=
  (s.applied.filter (·.producer = i)).map (·.reply)

end QueuedGame

end BlockWorld
