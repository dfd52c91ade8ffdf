import BlockWorld.Files.Tree
import BlockWorld.Game.Basic
import BlockWorld.SocketAddress
import BlockWorld.Yaml.Number

/-! # Server settings

The settings of a server are read from YAML. Each has a default, so a file may give any of them;
names that are not known are passed over, but none may be given twice.
-/

namespace BlockWorld

structure Config where
  listen : SocketAddress := ⟨.octets 0 0 0 0, 25565⟩
  worldPath : String := "world"
  chunkRadius : Int32 := 10
  queueCapacity : UInt64 := 256
  /-- The milliseconds from tick to tick. -/
  tickPeriod : UInt64 := 1000
  tickStep : Int64 := 20
  deriving DecidableEq

inductive ConfigError
  | file (path : String)
  | yaml
  | negativeRadius
  | noCapacity
  | noPeriod
  deriving DecidableEq

def ConfigError.message : ConfigError → String
  | .file path => "read config: " ++ path
  | .yaml => "parse config yaml"
  | .negativeRadius => "chunk_radius must not be negative"
  | .noCapacity => "queue_capacity must be positive"
  | .noPeriod => "tick_period_ms must be positive"

namespace Config

open Yaml

def set? (c : Config) (name : String) (value : Option Scalar) : Option Config := do
  match name with
  | "listen_addr" =>
    let a ← SocketAddress.read? (String.ofList (← value).text)
    return { c with listen := a }
  | "world_path" => return { c with worldPath := String.ofList (← value).text }
  | "chunk_radius" =>
    let v ← (← value).inRange? integer? (-2147483648) 2147483647
    return { c with chunkRadius := Int32.ofInt v }
  | "queue_capacity" =>
    let v ← (← value).inRange? natural? 0 18446744073709551615
    return { c with queueCapacity := UInt64.ofNat v.toNat }
  | "tick_period_ms" =>
    let v ← (← value).inRange? natural? 0 18446744073709551615
    return { c with tickPeriod := UInt64.ofNat v.toNat }
  | "tick_step" =>
    let v ← (← value).inRange? integer? (-9223372036854775808) 9223372036854775807
    return { c with tickStep := Int64.ofInt v }
  | _ => return c

def names : List String :=
  ["listen_addr", "world_path", "chunk_radius", "queue_capacity", "tick_period_ms", "tick_step"]

/-- Sets the settings of a mapping, except those in `given`, which must not come again. -/
def setAll? (d : Document) : (given : List String) → Config → List (Node × Node) → Option Config
  | _, c, [] => some c
  | given, c, (key, value) :: rest => do
    let name := String.ofList (← d.scalar? key).text
    if given.contains name then none
    else
      let c ← c.set? name (d.scalar? value)
      setAll? d (if names.contains name then name :: given else given) c rest

/-- The settings of a document. One that is absent sets nothing. -/
def ofDocument? : Option (Node × Document) → Option Config
  | none => some {}
  | some (.mapping entries, d) => setAll? d [] {} entries
  | some (.scalar s, _) => if s = .absent then some {} else none
  | some _ => none

def validate (c : Config) : Except ConfigError Config :=
  if c.chunkRadius < 0 then .error .negativeRadius
  else if c.queueCapacity = 0 then .error .noCapacity
  else if c.tickPeriod = 0 then .error .noPeriod
  else .ok c

def ofYaml (s : String) : Except ConfigError Config :=
  match (Token.scan? s.toList).bind fun tokens => (Node.ofTokens? tokens).bind ofDocument? with
  | some c => c.validate
  | none => .error .yaml

def load (files : FileTree) (path : Option String) : Except ConfigError Config :=
  match path with
  | none => .ok {}
  | some path =>
    match files.readFile path with
    | .ok content =>
      match content.text? with
      | some s => ofYaml s
      | none => .error (.file path)
    | .error _ => .error (.file path)

def game (c : Config) : GameConfig where
  chunkRadius := c.chunkRadius
  queueCapacity := c.queueCapacity.toNat
  tickStep := c.tickStep

end Config

end BlockWorld
