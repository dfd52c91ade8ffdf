import BlockWorld.CommandLine.Invocation
import BlockWorld.Config
import BlockWorld.World.Creation
import BlockWorld.World.Relief
import BlockWorld.World.Summary

/-! # Outcomes

Carrying out a request changes the files and has an outcome, which decides what is printed and the
exit code. A server goes on from there: its outcome is the world to serve and the settings.
-/

namespace BlockWorld

namespace CommandLine

inductive Outcome
  | done (output : List String)
  | failed (f : Failure)
  | refused (e : UsageError)
  | serve (config : Config) (world : World)

namespace Outcome

/-- The exit code; a server has none as long as it runs. -/
def code? : Outcome → Option Nat
  | .done _ => some 0
  | .failed _ => some 1
  | .refused _ => some 2
  | .serve .. => none

def output : Outcome → List String
  | .done lines => lines
  | _ => []

def errors : Outcome → List String
  | .failed f => f.report
  | .refused e => ["error: " ++ e.message]
  | _ => []

def ofLines : Except Failure (List String) → Outcome
  | .ok lines => .done lines
  | .error f => .failed f

def unbound (config : Config) : Outcome :=
  .failed { message := "bind " ++ config.listen.text }

end Outcome

def ServeRequest.settings (r : ServeRequest) (files : FileTree) : Except ConfigError Config := do
  let c ← Config.load files r.config
  { c with
    listen := r.listen.getD c.listen
    worldPath := r.world.getD c.worldPath
    chunkRadius := r.chunkRadius.getD c.chunkRadius }.validate

def ServeRequest.run (r : ServeRequest) (files : FileTree) (freshSeed : Int64) : Outcome :=
  match r.settings files with
  | .error e => .failed { message := e.message }
  | .ok config =>
    match World.load files config.worldPath freshSeed with
    | .ok world => .serve config world
    | .error e => .failed { message := "load world " ++ config.worldPath, cause := some (.load e) }

/-- Carries out a request. `freshSeed` serves where a seed is needed and none is given. -/
def Request.run (r : Request) (files : FileTree) (freshSeed : Int64) : Outcome × FileTree :=
  match r with
  | .serve r => (r.run files freshSeed, files)
  | .create r =>
    match World.create files r.path (r.seed.getD freshSeed) r.spawn r.pregenRadius with
    | (.ok (), files) => (.done [], files)
    | (.error e, files) => (.failed e.failure, files)
  | .info path json =>
    (.ofLines ((Summary.ofWorld files path).map fun s => if json then s.json else s.text), files)
  | .chunk r => (.ofLines (World.showChunk files r.path freshSeed ⟨r.x, r.z⟩), files)

def run (arguments : List String) (files : FileTree) (freshSeed : Int64) : Outcome × FileTree :=
  match Invocation.read arguments with
  | .ok i => i.request.run files freshSeed
  | .error .help => (.done help, files)
  | .error (.error e) => (.refused e, files)

end CommandLine

end BlockWorld
