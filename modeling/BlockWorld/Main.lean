import BlockWorld.CommandLine.Outcome
import BlockWorld.Program.Disk
import BlockWorld.Program.Network

/-! # The program -/

namespace BlockWorld

namespace CommandLine

/-- Whether the content of the file at a place matters to a request about a world. -/
def Request.reads (r : Request) (world : String) (place : List String) : Bool :=
  place = Path.names (Path.join world Level.fileName) ||
    match r with
    | .serve _ => !(place.getLast?.any (·.endsWith Region.suffix))
    | .chunk r => place = Path.names (Region.path world .normal ⟨r.x, r.z⟩)
    | _ => false

def Request.world (r : Request) (files : FileTree) : Option String :=
  match r with
  | .serve r => (r.settings files).toOption.map (·.worldPath)
  | .create r => some r.path
  | .info path _ => some path
  | .chunk r => some r.path

def Request.files (r : Request) : IO FileTree := do
  let files ← match r with
    | .serve { config := some path, .. } => Disk.takePath (fun _ => true) path .empty
    | _ => pure .empty
  match r.world files with
  | some world => Disk.takePath (r.reads world) world files
  | none => return files

/-- Runs a program whose outcome is printed, or the server that is asked for. -/
def execute (arguments : List String) : IO UInt32 := do
  let request := (Invocation.read arguments).toOption.map (·.request)
  let before ← match request with
    | some r => r.files
    | none => pure .empty
  let seed := Int64.ofNat (← IO.rand 0 9223372036854775807)
  let (o, after) := run arguments before seed
  let fromTop := ((request.bind (·.world before)).any (·.startsWith "/"))
  Disk.put fromTop before after
  let o ← match o with
    | .serve config world =>
      try
        Network.serve config.listen (.new world after config.game) config.tickPeriod
        pure (Outcome.done [])
      catch _ => pure (Outcome.unbound config)
    | o => pure o
  o.output.forM IO.println
  o.errors.forM IO.eprintln
  return UInt32.ofNat (o.code?.getD 0)

end CommandLine

end BlockWorld

def main (arguments : List String) : IO UInt32 := BlockWorld.CommandLine.execute arguments
