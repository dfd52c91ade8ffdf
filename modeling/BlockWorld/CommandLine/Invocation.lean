import BlockWorld.CommandLine.Usage
import BlockWorld.Grid.PositionText
import BlockWorld.SocketAddress
import BlockWorld.Text.Digits

/-! # Invocations

The program is invoked with one of its commands. `Invocation.read` tells what is asked for, or why
nothing can be done.
-/

namespace BlockWorld

namespace CommandLine

/-- What the server is to be run with. What is given here goes before the settings of the file. -/
structure ServeRequest where
  config : Option String := none
  listen : Option SocketAddress := none
  world : Option String := none
  chunkRadius : Option Int32 := none

structure CreateRequest where
  path : String := ""
  /-- The seed of the terrain; one is made up where none is given. -/
  seed : Option Int64 := none
  spawn : Position := ⟨0, 64, 0⟩
  pregenRadius : UInt16 := 0

structure ChunkRequest where
  path : String := ""
  x : Int32 := 0
  z : Int32 := 0

inductive Request
  | serve (r : ServeRequest)
  | create (r : CreateRequest)
  | info (path : String) (json : Bool)
  | chunk (r : ChunkRequest)

structure Invocation where
  request : Request
  verbose : Bool := false

/-! ## Values -/

/-- A path is never empty. -/
def path? (s : String) : Option String := if s = "" then none else some s

def int32? (s : String) : Option Int32 :=
  (Text.integerIn? (-2147483648) 2147483647 s.toList).map Int32.ofInt

def int64? (s : String) : Option Int64 :=
  (Text.integerIn? (-9223372036854775808) 9223372036854775807 s.toList).map Int64.ofInt

def uint16? (s : String) : Option UInt16 :=
  (Text.integerIn? 0 65535 s.toList).map fun n => UInt16.ofNat n.toNat

/-! ## Commands -/

variable {α : Type}

def common : List (Switch α) :=
  [{ name := "verbose", letter := some 'v', effect := .flag },
    { name := "help", letter := some 'h', effect := .help }]

def serveUsage : Usage ServeRequest where
  switches :=
    [{ name := "config", letter := some 'c'
       effect := .value false fun s r => (path? s).map fun v => { r with config := some v } },
      { name := "listen"
        effect := .value false fun s r =>
          (SocketAddress.read? s).map fun v => { r with listen := some v } },
      { name := "world"
        effect := .value false fun s r => (path? s).map fun v => { r with world := some v } },
      { name := "chunk-radius"
        effect := .value false fun s r =>
          (int32? s).map fun v => { r with chunkRadius := some v } }] ++ common

def createUsage : Usage CreateRequest where
  switches :=
    [{ name := "seed"
       effect := .value true fun s r => (int64? s).map fun v => { r with seed := some v } },
      { name := "spawn"
        effect := .value true fun s r =>
          (Position.read s).toOption.map fun v => { r with spawn := v } },
      { name := "pregen-radius"
        effect := .value false fun s r =>
          (uint16? s).map fun v => { r with pregenRadius := v } }] ++ common
  operands := [{ name := "PATH", put := fun s r => (path? s).map fun v => { r with path := v } }]

def infoUsage : Usage String where
  switches := { name := "json", effect := .flag } :: common
  operands := [{ name := "PATH", put := fun s _ => path? s }]

def chunkUsage : Usage ChunkRequest where
  switches := common
  operands :=
    [{ name := "PATH", put := fun s r => (path? s).map fun v => { r with path := v } },
      { name := "X", hyphens := true
        put := fun s r => (int32? s).map fun v => { r with x := v } },
      { name := "Z", hyphens := true
        put := fun s r => (int32? s).map fun v => { r with z := v } }]

def programUsage : Usage Unit where
  switches := common

structure CommandForm where
  name : String
  arguments : String
  purpose : String

def commands : List CommandForm :=
  [⟨"serve", "[-c PATH] [--listen ADDRESS] [--world PATH] [--chunk-radius CHUNKS]",
      "Run the server"⟩,
    ⟨"new-world", "PATH [--seed SEED] [--spawn X,Y,Z] [--pregen-radius CHUNKS]",
      "Create a new world directory"⟩,
    ⟨"info", "PATH [--json]", "Print world metadata"⟩,
    ⟨"chunk", "PATH X Z", "Resolve one chunk and print its column heights"⟩,
    ⟨"help", "[COMMAND]", "Print this message"⟩]

def help : List String :=
  ["Multiplayer world server and world tools", "", "Usage: blockworld [-v] [-h] COMMAND", "",
    "Commands:"] ++
  commands.flatMap fun c => ["  " ++ c.name ++ " " ++ c.arguments, "      " ++ c.purpose]

def readRequest (command : String) (arguments : List String) :
    Except Stop (Request × List String) := do
  match command with
  | "serve" =>
    let (r, seen) ← serveUsage.read {} arguments
    return (.serve r, seen)
  | "new-world" =>
    let (r, seen) ← createUsage.read {} arguments
    return (.create r, seen)
  | "info" =>
    let (path, seen) ← infoUsage.read "" arguments
    return (.info path (seen.contains "json"), seen)
  | "chunk" =>
    let (r, seen) ← chunkUsage.read {} arguments
    return (.chunk r, seen)
  | _ => throw (.error (.unknownCommand command))

/-- What comes of asking for help about a command, or about none. Commands have no commands. -/
def readTopic : List String → Stop
  | [] => .help
  | command :: rest =>
    if commands.any (·.name = command) then
      match rest with
      | [] => .help
      | name :: _ => .error (.unknownCommand name)
    else .error (.unknownCommand command)

def Invocation.read (arguments : List String) : Except Stop Invocation := do
  let before := arguments.takeWhile fun a => decide (Argument.of a ≠ .plain)
  let ((), seen) ← programUsage.read () before
  match arguments.drop before.length with
  | [] => throw (.error .noCommand)
  | command :: rest =>
    if before.contains "--" then throw (.error (.unknown command))
    else if command = "help" then throw (readTopic rest)
    else
      let (request, more) ← readRequest command rest
      return { request, verbose := seen.contains "verbose" || more.contains "verbose" }

end CommandLine

end BlockWorld
