/-! # Arguments

A command takes switches in any order and operands one after the other. `Usage.read` goes through
the arguments once and fills in a draft of what is asked for. A switch has a long name, after two
hyphens, and perhaps a letter, after one. A value follows its switch, as the next argument or in the
same one. What begins with a hyphen is a switch, unless a value or an operand is due that may begin
so; after two hyphens alone all is operands.
-/

namespace BlockWorld

namespace CommandLine

inductive Effect (α : Type)
  | help
  /-- It is only noted. -/
  | flag
  /-- Its value is put into the draft, if it is one that can be. -/
  | value (hyphens : Bool) (put : String → α → Option α)

structure Switch (α : Type) where
  name : String
  letter : Option Char := none
  effect : Effect α

structure Operand (α : Type) where
  name : String
  /-- Whether it may begin with a hyphen. -/
  hyphens : Bool := false
  put : String → α → Option α

inductive UsageError
  | unknown (argument : String)
  | noValue (switch : String)
  | unwantedValue (switch : String)
  | repeated (switch : String)
  | invalid (name value : String)
  | missing (operand : String)
  | noCommand
  | unknownCommand (name : String)
  deriving DecidableEq

def UsageError.message : UsageError → String
  | .unknown argument => "unexpected argument '" ++ argument ++ "' found"
  | .noValue name => "a value is required for '--" ++ name ++ "' but none was supplied"
  | .unwantedValue name => "no value is expected for '--" ++ name ++ "'"
  | .repeated name => "the argument '--" ++ name ++ "' cannot be used multiple times"
  | .invalid name value => "invalid value '" ++ value ++ "' for '" ++ name ++ "'"
  | .missing name => "the following required argument was not provided: " ++ name
  | .noCommand => "a command is required but none was provided"
  | .unknownCommand name => "unrecognized command '" ++ name ++ "'"

inductive Stop
  | help
  | error (e : UsageError)
  deriving DecidableEq

structure Progress (α : Type) where
  draft : α
  /-- The names of the switches met so far. -/
  seen : List String := []
  /-- The operands to come. -/
  due : List (Operand α)

/-- A switch whose value has to come next. -/
structure Pending (α : Type) where
  name : String
  hyphens : Bool
  put : String → α → Option α

variable {α : Type}

namespace Progress

def note (p : Progress α) (name : String) : Except Stop (Progress α) :=
  if p.seen.contains name then .error (.error (.repeated name))
  else .ok { p with seen := name :: p.seen }

def give (p : Progress α) (w : Pending α) (value : String) : Except Stop (Progress α) := do
  let p ← p.note w.name
  match w.put value p.draft with
  | some draft => return { p with draft }
  | none => throw (.error (.invalid w.name value))

def operand (p : Progress α) (value : String) : Except Stop (Progress α) :=
  match p.due with
  | [] => .error (.error (.unknown value))
  | o :: due =>
    match o.put value p.draft with
    | some draft => .ok { p with draft, due }
    | none => .error (.error (.invalid o.name value))

/-- Whether the operand that is due may begin with a hyphen. -/
def takesHyphens (p : Progress α) : Bool := p.due.head?.any (·.hyphens)

end Progress

inductive Argument
  | separator
  | long (name : String) (value : Option String)
  | letters (l : List Char)
  | plain
  deriving DecidableEq

def Argument.of (s : String) : Argument :=
  match s.toList with
  | ['-', '-'] => .separator
  | '-' :: '-' :: l =>
    let value := match l.dropWhile (· != '=') with
      | _ :: v => some (String.ofList v)
      | [] => none
    .long (String.ofList (l.takeWhile (· != '='))) value
  | '-' :: c :: l => .letters (c :: l)
  | _ => .plain

structure Usage (α : Type) where
  switches : List (Switch α)
  operands : List (Operand α) := []

namespace Usage

def named? (u : Usage α) (name : String) : Option (Switch α) := u.switches.find? (·.name = name)

def lettered? (u : Usage α) (c : Char) : Option (Switch α) := u.switches.find? (·.letter = some c)

/-- Reads switches given by their letters. The first that takes a value takes the rest for it. -/
def readLetters (u : Usage α) :
    List Char → Progress α → Except Stop (Progress α × Option (Pending α))
  | [], p => .ok (p, none)
  | c :: rest, p =>
    match u.lettered? c with
    | none => .error (.error (.unknown ("-" ++ String.singleton c)))
    | some s =>
      match s.effect with
      | .help => .error .help
      | .flag => do u.readLetters rest (← p.note s.name)
      | .value hyphens put =>
        let w : Pending α := ⟨s.name, hyphens, put⟩
        match rest with
        | [] => .ok (p, some w)
        | '=' :: value => do return (← p.give w (String.ofList value), none)
        | value => do return (← p.give w (String.ofList value), none)

def readLong (s : Switch α) (value : Option String) (p : Progress α) :
    Except Stop (Progress α × Option (Pending α)) :=
  match s.effect, value with
  | .value hyphens put, some value => do return (← p.give ⟨s.name, hyphens, put⟩ value, none)
  | .value hyphens put, none => .ok (p, some ⟨s.name, hyphens, put⟩)
  | _, some _ => .error (.error (.unwantedValue s.name))
  | .help, none => .error .help
  | .flag, none => do return (← p.note s.name, none)

def readArgument (u : Usage α) (argument : String) (p : Progress α) :
    Except Stop (Progress α × Option (Pending α)) :=
  let operand := do return (← p.operand argument, none)
  match Argument.of argument with
  | .long name value =>
    match u.named? name with
    | some s => readLong s value p
    | none => if p.takesHyphens then operand else .error (.error (.unknown argument))
  | .letters l =>
    if p.takesHyphens && l.any fun c => (u.lettered? c).isNone then operand
    else u.readLetters l p
  | _ => operand

/-- Reads arguments from `p` on, with a value to come first if one is pending. -/
def readFrom (u : Usage α) :
    List String → Progress α → Option (Pending α) → Except Stop (Progress α)
  | [], p, none => .ok p
  | [], _, some w => .error (.error (.noValue w.name))
  | argument :: rest, p, some w =>
    if w.hyphens || Argument.of argument = .plain then do
      u.readFrom rest (← p.give w argument) none
    else .error (.error (.noValue w.name))
  | argument :: rest, p, none =>
    if Argument.of argument = .separator then rest.foldlM Progress.operand p
    else do
      let (p, w) ← u.readArgument argument p
      u.readFrom rest p w

/-- Reads all arguments. The answer is the filled draft and the names of the switches met. -/
def read (u : Usage α) (draft : α) (arguments : List String) :
    Except Stop (α × List String) := do
  let p ← u.readFrom arguments { draft, due := u.operands } none
  match p.due with
  | [] => return (p.draft, p.seen)
  | o :: _ => throw (.error (.missing o.name))

end Usage

end CommandLine

end BlockWorld
