import BlockWorld.Bytes.Basic

/-! # Inboxes

An inbox holds the packets sent to one client: all that were ever accepted, in order, and how many
of them the client has taken. What is still waiting never exceeds the capacity.
-/

namespace BlockWorld

structure Inbox where
  /-- How many packets may wait; no limit if absent. -/
  capacity : Option Nat
  log : Array Bytes := #[]
  taken : Nat := 0
  /-- Whether the client still listens. -/
  attended : Bool := true
  taken_le : taken ≤ log.size := by simp

namespace Inbox

def new (capacity : Option Nat) : Inbox := { capacity }

/-- The packets that wait, oldest first. -/
def waiting (i : Inbox) : List Bytes := i.log.toList.drop i.taken

def isFull (i : Inbox) : Bool := i.capacity.any fun n => decide (n ≤ i.log.size - i.taken)

/-- Whether a packet sent now would be dropped for want of room. -/
def overflows (i : Inbox) : Bool := i.attended && i.isFull

/-- Accepts a packet, unless the client is gone or there is no room. -/
def post (i : Inbox) (packet : Bytes) : Inbox :=
  if i.attended && !i.isFull then
    { i with log := i.log.push packet, taken_le := by have := i.taken_le; simp; omega }
  else i

def drain (i : Inbox) : Inbox := { i with taken := i.log.size, taken_le := Nat.le_refl _ }

/-- The client leaves: what waits is thrown away. -/
def abandon (i : Inbox) : Inbox :=
  { i with taken := i.log.size, attended := false, taken_le := Nat.le_refl _ }

theorem post_of_overflows {i : Inbox} {packet : Bytes} (h : i.overflows) : i.post packet = i := by
  simp_all [post, overflows]

end Inbox

end BlockWorld
