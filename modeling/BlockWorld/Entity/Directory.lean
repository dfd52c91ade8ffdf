import BlockWorld.Entity.Map

/-! # The entity directory

The directory knows which ids are live and of what kind, and hands out fresh ids by walking
cyclically through `1 .. 2147483647`, past those that are live. It registers any id it is given.
-/

namespace BlockWorld

inductive EntityKind
  | player
  | item
  deriving DecidableEq

inductive DirectoryError
  | alreadyRegistered (id : EntityId)
  | notRegistered (id : EntityId)
  deriving DecidableEq

def DirectoryError.message : DirectoryError → String
  | .alreadyRegistered id => "entity " ++ toString id.toInt ++ " is already registered"
  | .notRegistered id => "entity " ++ toString id.toInt ++ " is not registered"

structure Directory where
  /-- Where the next search for a free id begins. -/
  next : EntityId
  live : EntityMap EntityKind

namespace Directory

def empty : Directory := ⟨1, .empty⟩

def successor (id : EntityId) : EntityId := if id = Int32.maxValue then 1 else id + 1

/-- The first of `n` ids from `id` on that is not live. -/
def firstFree (live : EntityMap EntityKind) : (n : Nat) → (id : EntityId) → Option EntityId
  | 0, _ => none
  | n + 1, id => if live.contains id then firstFree live n (successor id) else some id

/-- The next id to hand out. One more id is tried than are live, so one is found unless the live
ones fill the cycle. -/
def free? (d : Directory) : Option EntityId := firstFree d.live (d.live.size + 1) d.next

/-- Hands out a free id without registering it. -/
def allocate (d : Directory) : Option EntityId × Directory :=
  match d.free? with
  | some id => (some id, { d with next := successor id })
  | none => (none, d)

def kind? (d : Directory) (id : EntityId) : Option EntityKind := d.live.get? id

def contains (d : Directory) (id : EntityId) : Bool := d.live.contains id

def size (d : Directory) : Nat := d.live.size

def register (d : Directory) (id : EntityId) (kind : EntityKind) :
    Except DirectoryError Directory :=
  if d.contains id then .error (.alreadyRegistered id)
  else .ok { d with live := d.live.insert id kind }

def unregister (d : Directory) (id : EntityId) : Except DirectoryError (EntityKind × Directory) :=
  match d.live.get? id with
  | some kind => .ok (kind, { d with live := d.live.erase id })
  | none => .error (.notRegistered id)

end Directory

end BlockWorld
