import BlockWorld.Yaml.Token

/-! # Nodes

`Node.ofTokens?` builds the tree of a document from its tokens. Anchored nodes are numbered as they
come, each by the count of anchor names before it, and an alias refers to a node by its number.
-/

namespace BlockWorld

namespace Yaml

structure Scalar where
  /-- Whether it is written without quotes and in no block. -/
  plain : Bool
  text : List Char
  deriving DecidableEq

def Scalar.absent : Scalar := ⟨true, []⟩

inductive Node
  | scalar (s : Scalar)
  | alias (number : Nat)
  | sequence (items : List Node)
  | mapping (entries : List (Node × Node))

structure Document where
  tokens : List Token
  /-- The handles of tags that are known. -/
  handles : List (List Char)
  /-- The names of anchors with their latest numbers. -/
  anchors : List (List Char × Nat) := []
  /-- Numbered scalars; a number whose node is none has no scalar. -/
  scalars : List (Nat × Option Scalar) := []

namespace Node

abbrev Parse := StateT Document Option

def peek : Parse (Option Token) := return (← get).tokens.head?

def skip : Parse Unit := modify fun d => { d with tokens := d.tokens.drop 1 }

def accept (t : Token) : Parse Bool := do
  if (← peek) = some t then
    skip
    return true
  else return false

def expect (t : Token) : Parse Unit := do
  if ← accept t then pure () else failure

def number (name : List Char) : Parse Nat := do
  let d ← get
  let n := d.anchors.length
  set { d with anchors := (name, n) :: d.anchors.filter (·.1 ≠ name) }
  return n

/-- Tells what scalar a number stands for, if it is one. The latest word counts. -/
def define (n : Option Nat) (s : Option Scalar) : Parse Unit :=
  match n with
  | some n => modify fun d => { d with scalars := (n, s) :: d.scalars }
  | none => pure ()

def checkHandle (handle : List Char) : Parse Unit := do
  if handle.isEmpty || (← get).handles.contains handle then pure () else failure

/-- Reads the anchor and the tag before a node, in either order. Tells whether there was any. -/
def properties : Parse (Bool × Option Nat) := do
  match ← peek with
  | some (.anchor name) =>
    skip
    match ← peek with
    | some (.tag handle) =>
      skip
      checkHandle handle
    | _ => pure ()
    return (true, some (← number name))
  | some (.tag handle) =>
    skip
    match ← peek with
    | some (.anchor name) =>
      skip
      checkHandle handle
      return (true, some (← number name))
    | _ =>
      checkHandle handle
      return (true, none)
  | _ => return (false, none)

/-- Where a node stands decides which collections it may be. -/
inductive Place
  | flow
  | block
  /-- Within a mapping a sequence may stand as far left as its key. -/
  | mappingEntry
  deriving DecidableEq

/-- Reads a node unless one of `ends` comes next; then it is absent. -/
def orAbsent (ends : List Token) (r : Parse Node) : Parse Node := do
  match ← peek with
  | some t => if ends.contains t then return .scalar .absent else r
  | none => r

mutual

/-- Reads a node. Each call takes a token or is followed by one that does; `n` bounds them all. -/
def node : (n : Nat) → Place → Parse Node
  | 0, _ => failure
  | n + 1, place => do
    match ← peek with
    | some (.alias name) =>
      skip
      match (← get).anchors.lookup name with
      | some k => return .alias k
      | none => failure
    | _ =>
      let (any, anchor) ← properties
      let block := place ≠ .flow
      match ← peek with
      | some (.scalar plain text) =>
        skip
        define anchor (some ⟨plain, text⟩)
        return .scalar ⟨plain, text⟩
      | some .flowSequenceStart =>
        skip
        define anchor none
        return .sequence (← flowItems n true [])
      | some .flowMappingStart =>
        skip
        define anchor none
        return .mapping (← flowEntries n true [])
      | t =>
        if place = .mappingEntry ∧ t = some .entry then
          define anchor none
          return .sequence (← openItems n [])
        else if block ∧ t = some .sequenceStart then
          skip
          define anchor none
          return .sequence (← blockItems n [])
        else if block ∧ t = some .mappingStart then
          skip
          define anchor none
          return .mapping (← blockEntries n [])
        else if any then
          define anchor (some .absent)
          return .scalar .absent
        else failure

def blockItems : (n : Nat) → (done : List Node) → Parse (List Node)
  | 0, _ => failure
  | n + 1, done => do
    if ← accept .entry then
      let v ← orAbsent [.entry, .blockEnd] (node n .block)
      blockItems n (v :: done)
    else
      expect .blockEnd
      return done.reverse

/-- The items of a sequence that stands as far left as the key it belongs to. -/
def openItems : (n : Nat) → (done : List Node) → Parse (List Node)
  | 0, _ => failure
  | n + 1, done => do
    if ← accept .entry then
      let v ← orAbsent [.entry, .key, .value, .blockEnd] (node n .block)
      openItems n (v :: done)
    else return done.reverse

def blockEntries : (n : Nat) → (done : List (Node × Node)) → Parse (List (Node × Node))
  | 0, _ => failure
  | n + 1, done => do
    if ← accept .key then
      let k ← orAbsent [.key, .value, .blockEnd] (node n .mappingEntry)
      let v ←
        if ← accept .value then orAbsent [.key, .value, .blockEnd] (node n .mappingEntry)
        else pure (.scalar .absent)
      blockEntries n ((k, v) :: done)
    else
      expect .blockEnd
      return done.reverse

/-- The items of a flow sequence and its end. An item with a key is a mapping of one entry. -/
def flowItems : (n : Nat) → (first : Bool) → (done : List Node) → Parse (List Node)
  | 0, _, _ => failure
  | n + 1, first, done => do
    if ← accept .flowSequenceEnd then return done.reverse
    else
      if !first then expect .separator
      if ← accept .flowSequenceEnd then return done.reverse
      else if ← accept .key then
        let k ← do
          match ← peek with
          | some .value | some .separator | some .flowSequenceEnd =>
            skip
            pure (.scalar .absent)
          | _ => node n .flow
        let v ←
          if ← accept .value then orAbsent [.separator, .flowSequenceEnd] (node n .flow)
          else pure (.scalar .absent)
        flowItems n false (.mapping [(k, v)] :: done)
      else
        let v ← node n .flow
        flowItems n false (v :: done)

def flowEntries : (n : Nat) → (first : Bool) → (done : List (Node × Node)) →
    Parse (List (Node × Node))
  | 0, _, _ => failure
  | n + 1, first, done => do
    if ← accept .flowMappingEnd then return done.reverse
    else
      if !first then expect .separator
      if ← accept .flowMappingEnd then return done.reverse
      else if ← accept .key then
        let k ← orAbsent [.value, .separator, .flowMappingEnd] (node n .flow)
        let v ←
          if ← accept .value then orAbsent [.separator, .flowMappingEnd] (node n .flow)
          else pure (.scalar .absent)
        flowEntries n false ((k, v) :: done)
      else
        let k ← node n .flow
        flowEntries n false ((k, .scalar .absent) :: done)

end

/-- Reads the directives before a document. None may be given twice. -/
def directives : (n : Nat) → (version : Bool) → (handles : List (List Char)) →
    Parse (Bool × List (List Char))
  | 0, _, _ => failure
  | n + 1, version, handles => do
    match ← peek with
    | some .version =>
      skip
      if version then failure else directives n true handles
    | some (.tagHandle h) =>
      skip
      if handles.contains h then failure else directives n version (h :: handles)
    | _ => return (version || !handles.isEmpty, handles)

/-- Reads a document that is not empty, and what closes it. -/
def document (n : Nat) : Parse Node := do
  let (any, handles) ← directives n false []
  modify fun d => { d with handles := handles ++ d.handles }
  let root ←
    if ← accept .documentStart then
      match ← peek with
      | none => pure (.scalar .absent)
      | _ => orAbsent [.documentStart, .documentEnd] (node n .block)
    else if any then failure
    else node n .block
  modify fun d => { d with tokens := d.tokens.dropWhile (· = .documentEnd) }
  if (← peek).isSome then failure
  return root

/-- The document of some tokens. Without tokens there is none, and more than one is refused. -/
def ofTokens? (tokens : List Token) : Option (Option (Node × Document)) :=
  if tokens.isEmpty then some none
  else some <$> (document (2 * tokens.length + 2)).run { tokens, handles := [['!'], ['!', '!']] }

end Node

end Yaml

end BlockWorld
