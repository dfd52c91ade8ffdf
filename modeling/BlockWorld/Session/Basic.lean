import BlockWorld.Failure
import BlockWorld.Game.Timed
import BlockWorld.Wire.ClientPacket
import BlockWorld.World.Basic

/-! # Sessions

A session leads one connection from its handshake to its end. It reads a packet once all its octets
have come; until the stream of the client ends, a packet that is cut short is waited for. An error
before the player is registered ends the session with a failure and without a trace in the game;
afterwards whatever ends it only removes the player. All that a session knows of the game is a
handle, which takes its commands.
-/

namespace BlockWorld

namespace Session

inductive Phase
  | handshake
  | login (username : String)
  | play (username : String) (id : EntityId)
  | ended (outcome : Except Failure Unit)

end Session

structure Session where
  /-- The number of the connection. -/
  connection : Nat
  phase : Session.Phase := .handshake
  /-- What has come from the client and is not yet read. -/
  unread : Bytes := []
  /-- Whether the stream from the client has ended. -/
  finished : Bool := false
  /-- What was written to the client and is not yet delivered. -/
  written : Bytes := []

namespace Session

/-- How many packets may wait for a client. One that reads no more is evicted. -/
def outboundCapacity : Nat := 1024

def encodeAll (packets : List Wire.ServerPacket) : Bytes :=
  packets.flatMap fun p =>
    match p.encode with
    | .ok b => b
    | .error _ => []

def write (s : Session) (packets : List Wire.ServerPacket) : Session :=
  { s with written := s.written ++ encodeAll packets }

/-- Octets come from the client. Those after the end of its stream are none of it. -/
def receive (s : Session) (b : Bytes) : Session :=
  if s.finished then s else { s with unread := s.unread ++ b }

def finish (s : Session) : Session := { s with finished := true }

def fail (s : Session) (message : String) (cause : Option Cause := none) : Session :=
  { s with phase := .ended (.error { message, cause }), unread := [] }

/-- The answer to a handshake: nobody is asked to prove who they are. -/
def offlineHash : String := "-"

def greeting (w : World) (id : EntityId) (time : Int64) (position : Position) :
    List Wire.ServerPacket :=
  [.loginResponse id w.seed .normal, .spawnPosition w.spawn, .timeUpdate time,
    .positionLook position .ahead false]

/-- How a session reaches the game: a command goes in, its answer comes out. -/
abbrev Handle (σ : Type) := σ → Command → Except GameError Reply × σ

section

variable {σ : Type} (submit : Handle σ)

def enroll (t : σ) : Except GameError (EntityId × Int64) × σ :=
  match submit t .allocateId with
  | (.ok (.id id), t) =>
    match submit t (.query .time) with
    | (.ok (.time time), t) => (.ok (id, time), t)
    | (_, t) => (.error .stopped, t)
  | (_, t) => (.error .stopped, t)

/-- Logs a user in whose request has been read, and registers the player. -/
def enter (w : World) (files : FileTree) (username : String) (s : Session) (t : σ) :
    Session × σ :=
  match w.entryPosition files username with
  | .error e => (s.fail "login" (some (.player e)), t)
  | .ok position =>
    match enroll submit t with
    | (.error e, t) => (s.fail e.message, t)
    | (.ok (id, time), t) =>
      let s := s.write (greeting w id time position)
      let player : Player := {
        id, name := username, position, connection := s.connection
        inbox := .new (some outboundCapacity) }
      match submit t (.addPlayer player) with
      | (.error e, t) => (s.fail e.message, t)
      | (.ok _, t) => ({ s with phase := .play username id }, t)

end

/-- What a packet asks of the game: a command, nothing, or to end the session. -/
inductive Request
  | command (c : Command)
  | nothing
  | leave

def isPlace (x y z : Float) : Bool := x.isFinite && y.isFinite && z.isFinite

def request (username : String) (id : EntityId) : Wire.ClientPacket → Request
  | .keepAlive => .nothing
  | .flying _ => .nothing
  | .chat text => .command (.say ("<" ++ username ++ "> " ++ text))
  | .position x y _ z _ =>
    if isPlace x y z then .command (.movePlayer id (some ⟨x, y, z⟩) none) else .leave
  | .look yaw pitch _ => .command (.movePlayer id none (some ⟨yaw, pitch⟩))
  | .positionLook x y _ z yaw pitch _ =>
    if isPlace x y z then .command (.movePlayer id (some ⟨x, y, z⟩) (some ⟨yaw, pitch⟩))
    else .leave
  | .disconnect _ => .leave

def leave {σ : Type} (submit : Handle σ) (id : EntityId) (s : Session) (t : σ) : Session × σ :=
  ({ s with phase := .ended (.ok ()), unread := [] }, (submit t (.removePlayer id)).2)

/-- What a reader finds: a value and the rest, that more has to come, or an error. -/
inductive Found (α : Type)
  | value (a : α) (rest : Bytes)
  | waiting
  | error (e : WireError)

def find {α : Type} (s : Session) (r : Wire.Read α) : Found α :=
  match r s.unread with
  | .ok (a, rest) => .value a rest
  | .error .truncated => if s.finished then .error .truncated else .waiting
  | .error e => .error e

/-- Reads one packet and acts on it. There is nothing to do while one is waited for, and after the
end. -/
def step {σ : Type} (submit : Handle σ) (w : World) (files : FileTree) (s : Session) (t : σ) :
    Option (Session × σ) :=
  match s.phase with
  | .handshake =>
    match s.find Wire.Read.handshake with
    | .value username rest =>
      let s := { s with phase := .login username, unread := rest }
      some (s.write [.handshake offlineHash], t)
    | .waiting => none
    | .error e => some (s.fail "handshake" (some (.wire e)), t)
  | .login username =>
    match s.find Wire.Read.login with
    | .value _ rest => some (enter submit w files username { s with unread := rest } t)
    | .waiting => none
    | .error (.unsupportedVersion v) =>
      let s := s.write [.disconnect "Unsupported protocol version"]
      some (s.fail "login" (some (.wire (.unsupportedVersion v))), t)
    | .error e => some (s.fail "login" (some (.wire e)), t)
  | .play username id =>
    match s.find Wire.Read.clientPacket with
    | .value packet rest =>
      let s := { s with unread := rest }
      match request username id packet with
      | .nothing => some (s, t)
      | .leave => some (leave submit id s t)
      | .command c =>
        match submit t c with
        | (.ok _, t) => some (s, t)
        | (.error _, t) => some (leave submit id s t)
    | .waiting => none
    | .error _ => some (leave submit id s t)
  | .ended _ => none

end Session

end BlockWorld
