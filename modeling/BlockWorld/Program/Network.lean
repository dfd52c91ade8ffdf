import BlockWorld.Session.Server
import BlockWorld.SocketAddress
import Std.Internal.UV.TCP

/-! # Serving a network

One loop waits for connections, for what clients send and for the ticks of the clock. It tells the
server and sends what the server has written. A connection that breaks down ends alone.
-/

namespace BlockWorld

namespace Network

open Std.Internal.UV

inductive Event
  | connection (r : Except IO.Error TCP.Socket)
  | octets (connection : Nat) (r : Except IO.Error (Option ByteArray))
  | tick

structure Hub where
  listener : TCP.Socket
  server : Server
  /-- The time between two ticks, in milliseconds. -/
  period : UInt32
  /-- The connections that are open, by their numbers. -/
  clients : List (Nat × TCP.Socket) := []
  awaited : List (Task Event) := []

def address (a : SocketAddress) : Std.Net.SocketAddress :=
  match a.host with
  | .octets a1 a2 a3 a4 => .v4 ⟨⟨#v[a1, a2, a3, a4]⟩, a.portNumber⟩
  | .groups g _ => .v6 ⟨⟨.ofFn fun i => g.getD i.val 0⟩, a.portNumber⟩

def portion : UInt64 := 65536

/-- The result of a promise; one that is never kept is an error. -/
def outcome {α : Type} (p : IO.Promise (Except IO.Error α)) : Task (Except IO.Error α) :=
  p.result?.map fun r => r.getD (.error (.userError "interrupted"))

namespace Hub

def await (h : Hub) (t : Task Event) : Hub := { h with awaited := t :: h.awaited }

def awaitConnection (h : Hub) : IO Hub := do
  return h.await ((outcome (← h.listener.accept)).map .connection)

def awaitOctets (h : Hub) (n : Nat) (s : TCP.Socket) : IO Hub := do
  try
    return h.await ((outcome (← s.recv? portion)).map (.octets n))
  catch _ => return { h with server := h.server.vanish n }

def awaitTick (h : Hub) : IO Hub := do
  let t ← IO.asTask (IO.sleep h.period) .dedicated
  return h.await (t.map fun _ => .tick)

/-- Does what an event asks for and waits for the next of its kind. -/
def act (h : Hub) (e : Event) : IO Hub := do
  match e with
  | .tick =>
    let h := { h with server := (h.server.submit .tick).2 }
    h.awaitTick
  | .connection (.ok s) =>
    let n := h.server.sessions.length
    let h := { h with server := h.server.connect, clients := (n, s) :: h.clients }
    (← h.awaitOctets n s).awaitConnection
  | .connection (.error _) => h.awaitConnection
  | .octets n (.ok (some b)) =>
    let h := { h with server := h.server.receive n b.toList }
    match h.clients.lookup n with
    | some s => h.awaitOctets n s
    | none => return h
  | .octets n (.ok none) => return { h with server := h.server.finish n }
  | .octets n (.error _) => return { h with server := h.server.vanish n }

/-- Sends what the server has written, and ends the connections that it has closed. -/
def send (h : Hub) : IO Hub := do
  h.clients.foldlM (fun h (n, s) => do
    let (b, server) := h.server.collect n
    try
      if !b.isEmpty then discard <| s.send #[⟨b.toArray⟩]
      if server.closed.contains n then discard <| s.shutdown
    catch _ => pure ()
    let clients := if server.closed.contains n then h.clients else (n, s) :: h.clients
    return { h with server, clients }) { h with clients := [] }

/-- Waits for something and then does all that is at hand. -/
partial def run (h : Hub) : IO Unit := do
  match h.awaited with
  | [] => return
  | t :: rest =>
    discard <| IO.waitAny (t :: rest) (by simp)
    let h ← (t :: rest).foldlM (fun (h : Hub) t => do
      if ← IO.hasFinished t then h.act t.get else return h.await t) { h with awaited := [] }
    (← h.send).run

end Hub

def serve (a : SocketAddress) (server : Server) (period : UInt64) : IO Unit := do
  let listener ← TCP.Socket.new
  listener.bind (address a)
  listener.listen 128
  let h : Hub := { listener, server, period := UInt32.ofNat (min period.toNat 4294967295) }
  (← (← h.awaitConnection).awaitTick).run

end Network

end BlockWorld
