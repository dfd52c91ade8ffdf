import BlockWorld.Game.Host

/-! # The game task on a virtual clock

The task applies submitted commands until it is stopped; from then on a submission fails. Tick
timers submit a tick at each of their deadlines, the first one period after the start, and end at
the first tick they cannot submit. Time passes from deadline to deadline.
-/

namespace BlockWorld

inductive GameError
  | stopped
  deriving DecidableEq

def GameError.message : GameError → String
  | .stopped => "game task has stopped"

structure Timer where
  period : Nat
  deadline : Nat
  ended : Bool := false

structure GameTask where
  host : Host
  running : Bool := true
  now : Nat := 0
  timers : List Timer := []

namespace GameTask

/-- Submits a command. Once the task has stopped, the command is lost, and a connection whose player
it would have added is closed. -/
def submit (t : GameTask) (c : Command) : Except GameError Reply × GameTask :=
  if t.running then
    let (host, reply) := t.host.submit c
    (.ok reply, { t with host })
  else
    match c with
    | .addPlayer p => (.error .stopped, { t with host := t.host.dismiss p })
    | _ => (.error .stopped, t)

def stop (t : GameTask) : GameTask :=
  if t.running then { t with host := t.host.stop, running := false } else t

/-- The last handle is given up. The task then ends by itself, unless a timer still holds one. -/
def release (t : GameTask) : GameTask := if t.timers.all (·.ended) then t.stop else t

/-- A period of nothing counts as one millisecond. -/
def startTimer (t : GameTask) (period : Nat) : GameTask :=
  let period := max period 1
  { t with timers := t.timers ++ [{ period, deadline := t.now + period }] }

def nextDeadline (timers : List Timer) : Option Nat :=
  ((timers.filter fun r => !r.ended).map (·.deadline)).min?

/-- All timers due at `instant` fire: they submit a tick each, or end if they cannot. -/
def fire (t : GameTask) (instant : Nat) : GameTask :=
  let due (r : Timer) : Bool := !r.ended && r.deadline == instant
  let after (r : Timer) : Timer :=
    if due r then
      if t.running then { r with deadline := r.deadline + r.period } else { r with ended := true }
    else r
  let ticks := if t.running then List.replicate (t.timers.countP due) Command.tick else []
  { t with host := t.host.submitAll ticks, timers := t.timers.map after, now := instant }

/-- Fires what is due up to `till`, at no more than `n` instants. -/
def run (till : Nat) : (n : Nat) → GameTask → GameTask
  | 0, t => t
  | n + 1, t =>
    match nextDeadline t.timers with
    | some d => if d ≤ till then run till n (t.fire d) else t
    | none => t

/-- Lets time pass. Between two instants at which timers fire lies a millisecond at least. -/
def sleep (t : GameTask) (ms : Nat) : GameTask :=
  { run (t.now + ms) ms t with now := t.now + ms }

def new (config : GameConfig) (time : Int64) : GameTask := { host := .new config time }

inductive Action
  | submit (c : Command)
  | startTimer (period : Nat)
  | sleep (ms : Nat)
  | collect (connection : Nat)
  | hangUp (connection : Nat)
  | stop
  | release

def act (t : GameTask) : Action → GameTask
  | .submit c => (t.submit c).2
  | .startTimer period => t.startTimer period
  | .sleep ms => t.sleep ms
  | .collect connection => { t with host := (t.host.collect connection).2 }
  | .hangUp connection => { t with host := t.host.hangUp connection }
  | .stop => t.stop
  | .release => t.release

def acts (t : GameTask) (as : List Action) : GameTask := as.foldl act t

end GameTask

end BlockWorld
