import BlockWorld.Game.Command
import Mathlib.Data.Nat.Notation

/-! # Runs

A run starts with an empty game. Commands are applied one at a time; between them the clients take
packets from their inboxes, as many as they like, or leave.
-/

namespace BlockWorld

/-- The client takes the next `n` packets, or all if fewer wait. -/
def Inbox.read (i : Inbox) (n : ℕ) : Inbox :=
  { i with taken := min (i.taken + n) i.log.size, taken_le := Nat.min_le_right .. }

inductive Event
  | submit (c : Command)
  | read (connection n : ℕ)
  | hangUp (connection : ℕ)

namespace Game

def attend (g : Game) (connection : ℕ) (f : Inbox → Inbox) : Game :=
  { g with players := g.players.map fun p =>
      if p.connection = connection then { p with inbox := f p.inbox } else p }

def step (g : Game) : Event → Game
  | .submit c => (g.apply c).game
  | .read connection n => g.attend connection (·.read n)
  | .hangUp connection => g.attend connection (·.abandon)

def run (g : Game) (es : List Event) : Game := es.foldl step g

@[simp] theorem run_nil (g : Game) : g.run [] = g := rfl

@[simp] theorem run_cons (g : Game) (e : Event) (es : List Event) :
    g.run (e :: es) = (g.step e).run es := rfl

theorem run_append (g : Game) (es fs : List Event) : g.run (es ++ fs) = (g.run es).run fs :=
  List.foldl_append

/-- A player that parted from the game, and whether it was evicted. -/
structure Departure where
  player : Player
  evicted : Bool

def departures (g : Game) : Event → List Departure
  | .submit c => (g.apply c).parted.toList.map (⟨·, false⟩) ++ (g.apply c).evicted.map (⟨·, true⟩)
  | _ => []

/-- Everyone who has parted from the game by the end of a run, in order. -/
def departed (g : Game) : List Event → List Departure
  | [] => []
  | e :: es => g.departures e ++ (g.step e).departed es

def exchanges (g : Game) : List Event → List (Command × Reply)
  | [] => []
  | .submit c :: es => (c, (g.apply c).reply) :: (g.step (.submit c)).exchanges es
  | e :: es => (g.step e).exchanges es

end Game

end BlockWorld
