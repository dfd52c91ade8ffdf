import BlockWorld.Session.Basic

/-! # Servers

A server holds a world, the game that is played in it and a session for each connection. What comes
from one client is acted on packet by packet, and what the game sends is handed over to the clients
in between.
-/

namespace BlockWorld

structure Server where
  world : World
  files : FileTree
  task : GameTask
  /-- The sessions by the number of their connection. -/
  sessions : List Session := []
  /-- The connections that the server has closed. -/
  closed : List Nat := []

namespace Server

def new (world : World) (files : FileTree) (config : GameConfig) : Server :=
  { world, files, task := { host := .new config world.time } }

def connect (v : Server) : Server :=
  { v with sessions := v.sessions ++ [{ connection := v.sessions.length }] }

def deliverTo (v : Server) (s : Session) : Session × Server :=
  let (d, host) := v.task.host.collect s.connection
  let failed := match s.phase with
    | .ended (.error _) => true
    | _ => false
  let closed :=
    if (d.closed || failed) && !v.closed.contains s.connection then s.connection :: v.closed
    else v.closed
  ({ s with written := s.written ++ d.packets.flatten },
    { v with task := { v.task with host }, closed })

def deliver (v : Server) : Server :=
  let (v, sessions) := v.sessions.foldl (fun (v, done) s =>
    let (s, v) := v.deliverTo s
    (v, s :: done)) (v, [])
  { v with sessions := sessions.reverse }

def replace (v : Server) (s : Session) : Server :=
  { v with sessions := v.sessions.set s.connection s }

/-- Lets a session act until it has to wait, on no more than `n` packets. -/
def advance : (n : Nat) → (connection : Nat) → Server → Server
  | 0, _, v => v
  | n + 1, connection, v =>
    match v.sessions[connection]? with
    | none => v
    | some s =>
      match s.step GameTask.submit v.world v.files v.task with
      | none => v
      | some (s, task) => advance n connection ({ v with task }.replace s).deliver

def update (v : Server) (connection : Nat) (f : Session → Session) : Server :=
  match v.sessions[connection]? with
  | none => v
  | some s =>
    match s.phase with
    | .ended _ => v
    | _ =>
      let s := f s
      ((v.replace s).advance (s.unread.length + 2) connection).deliver

def receive (v : Server) (connection : Nat) (b : Bytes) : Server :=
  v.update connection (·.receive b)

def finish (v : Server) (connection : Nat) : Server :=
  v.update connection Session.finish

/-- A client goes away: its stream ends and it reads nothing more. -/
def vanish (v : Server) (connection : Nat) : Server :=
  let host := v.task.host.hangUp connection
  { v with task := { v.task with host } }.finish connection

def submit (v : Server) (c : Command) : Except GameError Reply × Server :=
  let (r, task) := v.task.submit c
  (r, { v with task }.deliver)

def stopGame (v : Server) : Server := { v with task := v.task.stop }.deliver

def collect (v : Server) (connection : Nat) : Bytes × Server :=
  match v.sessions[connection]? with
  | some s => (s.written, v.replace { s with written := [] })
  | none => ([], v)

end Server

end BlockWorld
