import BlockWorld.Session.Basic

/-! # Answers one by one

One step of a session submits up to three commands, and between them the game does what others ask
of it. To look at the commands one by one, the session is let act on a list of the answers that it
has so far: it acts, or it asks for one more.
-/

namespace BlockWorld

/-- The answers to come, and the first command that there was no answer to. -/
structure Script where
  answers : List (Except GameError Reply)
  asked : Option Command := none

/-- Answers from the list. What is answered after its end does not matter. -/
def Script.submit : Session.Handle Script
  | ⟨answer :: answers, none⟩, _ => (answer, ⟨answers, none⟩)
  | ⟨[], none⟩, c => (.error .stopped, ⟨[], some c⟩)
  | ⟨answers, some c⟩, _ => (.error .stopped, ⟨answers, some c⟩)

namespace Session

/-- What a session does with the answers that it has so far. -/
inductive Next
  | waits
  | asks (c : Command)
  | acts (s : Session)

def next (w : World) (files : FileTree) (s : Session) (answers : List (Except GameError Reply)) :
    Next :=
  match s.step Script.submit w files ⟨answers, none⟩ with
  | none => .waits
  | some (_, ⟨_, some c⟩) => .asks c
  | some (s', ⟨_, none⟩) => .acts s'

end Session

end BlockWorld
