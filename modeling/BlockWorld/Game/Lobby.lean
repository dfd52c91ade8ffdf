import BlockWorld.Game.Run
import Mathlib.Logic.Function.Basic

/-! # Clients of a game

An id is handed out before anything is registered under it, and nothing keeps it for the client that
got it. Each client takes an id once, adds one entity under it, and moves or removes what has that
id at any time. Ids are also handed out that nobody claims, and other things happen to the game.
-/

namespace BlockWorld

/-- Where a client stands: it has no id, or one that it has not used yet, or it has added an entity
under its id. -/
inductive Standing
  | outside
  | holding (id : EntityId)
  | added (id : EntityId)

def Standing.id? : Standing → Option EntityId
  | .outside => none
  | .holding id => some id
  | .added id => some id

/-- What a client adds, whatever id it says it has. -/
inductive Newcomer
  | player (p : Player)
  | item (item : DroppedItem)

namespace Newcomer

def kind : Newcomer → EntityKind
  | .player _ => .player
  | .item _ => .item

def command (id : EntityId) : Newcomer → Command
  | .player p => .addPlayer { p with id }
  | .item d => .addItem { d with id }

end Newcomer

inductive Deed
  | move (position : Option Position) (orientation : Option Orientation)
  | remove

def Deed.command (id : EntityId) : Deed → Command
  | .move position orientation => .movePlayer id position orientation
  | .remove => .removePlayer id

/-- Neither an entity nor an id is asked for or changed. -/
def Event.Impersonal : Event → Prop
  | .submit (.multicast _ _) | .submit (.say _) | .submit .tick | .submit (.query _) => True
  | .submit _ => False
  | .read _ _ | .hangUp _ => True

/-- What happens next. A client takes an id once, adds one entity under it, and moves or removes
what has that id at any time. -/
inductive Turn (κ : Type)
  | allocate (k : κ)
  /-- The one who asked for the id has gone. -/
  | allocateUnclaimed
  | add (k : κ) (newcomer : Newcomer)
  | act (k : κ) (deed : Deed)
  | other (e : Event) (h : e.Impersonal)

/-- A game, where its clients stand, and what was answered to the allocations, in order. -/
structure Lobby (κ : Type) where
  game : Game
  standing : κ → Standing
  replies : List Reply

namespace Lobby

variable {κ : Type}

def new (config : GameConfig) (time : Int64) : Lobby κ where
  game := .new config time
  standing _ := .outside
  replies := []

/-- An id is handed out, to nobody yet. -/
def grant (L : Lobby κ) : Lobby κ :=
  let s := L.game.apply .allocateId
  { L with game := s.game, replies := L.replies ++ [s.reply] }

def submit (L : Lobby κ) (c : Command) : Lobby κ := { L with game := (L.game.apply c).game }

variable [DecidableEq κ]

def stand (L : Lobby κ) (k : κ) (now : Standing) : Lobby κ :=
  { L with standing := Function.update L.standing k now }

/-- Whoever has no id has no other turn than taking one. -/
def step (L : Lobby κ) : Turn κ → Lobby κ
  | .allocate k =>
    match L.standing k, (L.game.apply .allocateId).reply with
    | .outside, .id id => L.grant.stand k (.holding id)
    | .outside, _ => L.grant
    | _, _ => L
  | .allocateUnclaimed => L.grant
  | .add k newcomer =>
    match L.standing k with
    | .holding id => (L.submit (newcomer.command id)).stand k (.added id)
    | _ => L
  | .act k deed =>
    match (L.standing k).id? with
    | some id => L.submit (deed.command id)
    | none => L
  | .other e _ => { L with game := L.game.step e }

def run (L : Lobby κ) (turns : List (Turn κ)) : Lobby κ := turns.foldl step L

end Lobby

end BlockWorld
