import BlockWorld.Yaml.Scalar

/-! # Tokens

`Token.scan?` cuts a text into tokens. Indentation is made explicit: a block collection is opened
where its first entry is seen and closed by the first token that stands further left. That something
is a key is known only at the colon after it, so the lexer remembers where a key may begin and
inserts its token there; such a key is short and does not go over a line.
-/

namespace BlockWorld

namespace Yaml

inductive Token
  | version
  | tagHandle (name : List Char)
  | documentStart
  | documentEnd
  | sequenceStart
  | mappingStart
  | blockEnd
  | flowSequenceStart
  | flowSequenceEnd
  | flowMappingStart
  | flowMappingEnd
  | entry
  | separator
  | key
  | value
  | alias (name : List Char)
  | anchor (name : List Char)
  /-- A tag, of which only the handle counts. -/
  | tag (handle : List Char)
  | scalar (plain : Bool) (text : List Char)
  deriving DecidableEq

namespace Token

/-! ## Anchors, tags and directives -/

def readName? (s : List Glyph) : Option (List Char × List Glyph) :=
  let (name, s) := spanChars isWord s
  let c := next s
  if !name.isEmpty && (isGap c || ['?', ':', ',', ']', '\x7d', '%', '@', '\x60'].contains c) then
    some (name, s)
  else none

def percentOctet? (s : List Glyph) : Option (Nat × List Glyph) := do
  let ds := chars ((s.drop 1).take 2)
  if next s = '%' ∧ ds.length = 2 then return (← ofHex? ds, s.drop 3) else none

def skipContinuation? : (n : Nat) → List Glyph → Option (List Glyph)
  | 0, s => some s
  | n + 1, s => do
    let (d, s) ← percentOctet? s
    if d / 64 = 2 then skipContinuation? n s else none

def skipPercent? (s : List Glyph) : Option (List Glyph) := do
  let (d, s) ← percentOctet? s
  if d < 0x80 then some s
  else if d / 32 = 6 then skipContinuation? 1 s
  else if d / 16 = 14 then skipContinuation? 2 s
  else if d / 8 = 30 then skipContinuation? 3 s
  else none

def isUriChar (verbatim : Bool) (c : Char) : Bool :=
  isWord c || ";/?:@&=+$.!~*'()".toList.contains c || (verbatim && [',', '[', ']'].contains c)

/-- Passes over the characters of a URI, at most `n` of them, and counts them. -/
def skipUri? (verbatim : Bool) : (n : Nat) → (count : Nat) → List Glyph →
    Option (Nat × List Glyph)
  | 0, _, _ => none
  | n + 1, count, s =>
    if next s = '%' then do skipUri? verbatim n (count + 1) (← skipPercent? s)
    else if isUriChar verbatim (next s) then skipUri? verbatim n (count + 1) (s.drop 1)
    else some (count, s)

/-- Reads the characters between the marks of a handle, of which the second may be missing. -/
def readHandle? (s : List Glyph) : Option (List Char × List Glyph) :=
  if next s = '!' then
    let (w, s) := spanChars isWord (s.drop 1)
    if next s = '!' then some ('!' :: w ++ ['!'], s.drop 1) else some ('!' :: w, s)
  else none

def isClosed (handle : List Char) : Bool := 1 < handle.length && handle.getLast? == some '!'

def readTag? (flow : Bool) (s : List Glyph) : Option (Token × List Glyph) := do
  let (handle, s) ←
    if ahead s 1 = '<' then do
      let (count, r) ← skipUri? true (s.length + 1) 0 (s.drop 2)
      if count ≠ 0 ∧ next r = '>' then some ([], r.drop 1) else none
    else do
      let (handle, r) ← readHandle? s
      let (count, r) ← skipUri? false (s.length + 1) 0 r
      if isClosed handle then
        if count ≠ 0 then some (handle, r) else none
      else some (if handle.length + count = 1 then [] else ['!'], r)
  if isGap (next s) || (flow && next s == ',') then some (.tag handle, s) else none

/-- Reads the digits of a version number, of which there are at most nine. -/
def readVersionNumber? (s : List Glyph) : Option (List Char × List Glyph) :=
  let (ds, s) := spanChars (·.isDigit) s
  if 1 ≤ ds.length ∧ ds.length ≤ 9 then some (ds, s) else none

def stripZeros (ds : List Char) : List Char := ds.dropWhile (· == '0')

/-- Reads a directive. The version must be 1.1 or 1.2. -/
def readDirective? (s : List Glyph) : Option (Token × List Glyph) := do
  let (name, s) := spanChars isWord (s.drop 1)
  if !isGap (next s) then none
  else
    let s := skipWhile isBlank s
    if name = ['Y', 'A', 'M', 'L'] then
      let (major, s) ← readVersionNumber? s
      if next s ≠ '.' then none
      else
        let (minor, s) ← readVersionNumber? (s.drop 1)
        if stripZeros major = ['1'] ∧ (stripZeros minor = ['1'] ∨ stripZeros minor = ['2']) then
          return (.version, ← endLine? s)
        else none
    else if name = ['T', 'A', 'G'] then
      let (handle, s) ← readHandle? s
      if !(isClosed handle || handle == ['!']) || !isBlank (next s) then none
      else
        let (count, s) ← skipUri? true (s.length + 1) 0 (skipWhile isBlank s)
        if count = 0 ∨ !isGap (next s) then none else return (.tagHandle handle, ← endLine? s)
    else none

end Token

/-! ## The lexer -/

structure KeyPlace where
  /-- How many tokens come before the key. -/
  position : Nat
  line : Nat
  column : Nat
  index : Nat
  /-- Whether a key must stand here, since the line would mean nothing else. -/
  required : Bool

structure Lexer where
  rest : List Glyph
  tokens : List Token := []
  /-- The column of the innermost block collection. -/
  indent : Int := -1
  /-- The columns of those around it. -/
  outer : List Int := []
  /-- For each flow collection around, and for the block that holds them, the place of its latest
  key. -/
  keys : List (Option KeyPlace) := [none]
  /-- Whether a key may begin here. -/
  keyAllowed : Bool := true

namespace Lexer

def inFlow (x : Lexer) : Bool := 1 < x.keys.length

def push (x : Lexer) (t : Token) : Lexer := { x with tokens := x.tokens ++ [t] }

def insertAt (x : Lexer) (position : Nat) (t : Token) : Lexer :=
  { x with tokens := x.tokens.take position ++ t :: x.tokens.drop position }

/-- Passes over blanks, comments and ends of lines. At the start of a line a tab does not count as a
blank. -/
def skipSpace : (n : Nat) → Lexer → Lexer
  | 0, x => x
  | n + 1, x =>
    let tabs := x.inFlow || !x.keyAllowed
    let s := skipWhile (fun c => c == ' ' || (tabs && c == '\t')) x.rest
    let s := if next s = '#' then skipWhile (!isBreakOrEnd ·) s else s
    if isBreak (next s) then
      skipSpace n { x with rest := s.drop 1, keyAllowed := x.keyAllowed || !x.inFlow }
    else { x with rest := s }

/-- A place is given up when its line has ended or it lies too far back. -/
def isStale (s : List Glyph) (k : KeyPlace) : Bool :=
  match s with
  | c :: _ => k.line < c.line || k.index + 1024 < c.index
  | [] => true

/-- Gives up stale places. None of them may be required. -/
def dropStale? (x : Lexer) : Option Lexer :=
  let stale := isStale x.rest
  if x.keys.any fun k => k.any fun p => stale p && p.required then none
  else some { x with keys := x.keys.map (·.filter (!stale ·)) }

/-- Forgets the latest place, which must not be required. -/
def forgetKey? (x : Lexer) : Option Lexer :=
  match x.keys with
  | some p :: keys => if p.required then none else some { x with keys := none :: keys }
  | _ => some x

def rememberKey? (x : Lexer) : Option Lexer :=
  if x.keyAllowed then do
    let x ← x.forgetKey?
    match x.rest with
    | c :: _ =>
      let place : KeyPlace := {
        position := x.tokens.length, line := c.line, column := c.column, index := c.index
        required := !x.inFlow && decide (x.indent = c.column) }
      return { x with keys := some place :: x.keys.drop 1 }
    | [] => return x
  else some x

/-- Opens a block collection at a column, if it is further right than those around. -/
def openBlock (x : Lexer) (at_ : Nat) (position : Nat) (t : Token) : Lexer :=
  if !x.inFlow && decide (x.indent < at_) then
    { x.insertAt position t with indent := at_, outer := x.indent :: x.outer }
  else x

def closeBlocks (at_ : Int) : (n : Nat) → Lexer → Lexer
  | 0, x => x
  | n + 1, x =>
    if !x.inFlow && decide (at_ < x.indent) then
      closeBlocks at_ n
        { x.push .blockEnd with indent := x.outer.headD (-1), outer := x.outer.drop 1 }
    else x

def closeTo (x : Lexer) (at_ : Int) : Lexer := closeBlocks at_ x.outer.length x

/-- Passes over `n` glyphs and adds a token for them. -/
def emit (x : Lexer) (n : Nat) (t : Token) : Lexer := { x.push t with rest := x.rest.drop n }

def take (x : Lexer) : Token × List Glyph → Lexer
  | (t, s) => { x.push t with rest := s }

/-- Opens a collection inside a block, unless in a flow collection; there must be room for a key. -/
def startEntry? (x : Lexer) (t : Token) : Option Lexer :=
  if x.inFlow then some x
  else if x.keyAllowed then some (x.openBlock (column x.rest) x.tokens.length t)
  else none

/-- The colon after a key. If a key may have begun before, it did. -/
def readValue? (x : Lexer) : Option Lexer :=
  match x.keys with
  | some p :: keys =>
    let x := { x with keys := none :: keys, keyAllowed := false }
    some (((x.insertAt p.position .key).openBlock p.column p.position .mappingStart).emit 1 .value)
  | _ => do
    let x ← x.startEntry? .mappingStart
    return { x.emit 1 .value with keyAllowed := !x.inFlow }

/-- Reads a token that is no scalar and may begin a key. -/
def readProperty? (x : Lexer) (r : Option (Token × List Glyph)) : Option Lexer := do
  let x ← x.rememberKey?
  return { x.take (← r) with keyAllowed := false }

def readPlain? (x : Lexer) : Option Lexer := do
  let x ← x.rememberKey?
  let (text, broken, s) ← Yaml.readPlain? x.inFlow (x.indent + 1) (x.rest.length + 1) {} [] x.rest
  return { x.take (.scalar true text, s) with keyAllowed := broken }

def readQuoted? (x : Lexer) (quote : Char) : Option Lexer :=
  x.readProperty? <|
    (Yaml.readQuoted? quote (x.rest.length + 1) [] (x.rest.drop 1)).map fun (text, s) =>
      (.scalar false text, s)

def readBlock? (x : Lexer) (literal : Bool) : Option Lexer := do
  let x ← x.forgetKey?
  let (text, s) ← Yaml.readBlock? literal x.indent (x.rest.drop 1)
  return { x.take (.scalar false text, s) with keyAllowed := true }

def openFlow? (x : Lexer) (t : Token) : Option Lexer := do
  let x ← x.rememberKey?
  return { x.emit 1 t with keys := none :: x.keys, keyAllowed := true }

def closeFlow? (x : Lexer) (t : Token) : Option Lexer := do
  let x ← x.forgetKey?
  return { x.emit 1 t with
    keys := if x.inFlow then x.keys.drop 1 else x.keys, keyAllowed := false }

/-- A line that bounds a document, or a directive, closes all blocks. -/
def atMargin? (x : Lexer) (r : Option (Token × List Glyph)) : Option Lexer := do
  let x ← (x.closeTo (-1)).forgetKey?
  return { x.take (← r) with keyAllowed := false }

def startsPlain (flow : Bool) (s : List Glyph) : Bool :=
  let c := next s
  let d := ahead s 1
  !(isGap c || "-?:,[]\x7b\x7d#&*!|>'\"%@\x60".toList.contains c) ||
    (c == '-' && !isBlank d) || (!flow && (c == '?' || c == ':') && !isGap d)

def readToken? (x : Lexer) : Option Lexer :=
  let s := x.rest
  let c := next s
  let gap := isGap (ahead s 1)
  let flow := x.inFlow
  if column s = 0 ∧ c = '%' then x.atMargin? (Token.readDirective? s)
  else if atMarker ['-', '-', '-'] s then x.atMargin? (some (.documentStart, s.drop 3))
  else if atMarker ['.', '.', '.'] s then x.atMargin? (some (.documentEnd, s.drop 3))
  else if c = '[' then x.openFlow? .flowSequenceStart
  else if c = '\x7b' then x.openFlow? .flowMappingStart
  else if c = ']' then x.closeFlow? .flowSequenceEnd
  else if c = '\x7d' then x.closeFlow? .flowMappingEnd
  else if c = ',' then do
    let x ← x.forgetKey?
    return { x.emit 1 .separator with keyAllowed := true }
  else if c = '-' ∧ gap then do
    let x ← (← x.startEntry? .sequenceStart).forgetKey?
    return { x.emit 1 .entry with keyAllowed := true }
  else if c = '?' ∧ (flow ∨ gap) then do
    let x ← (← x.startEntry? .mappingStart).forgetKey?
    return { x.emit 1 .key with keyAllowed := !flow }
  else if c = ':' ∧ (flow ∨ gap) then x.readValue?
  else if c = '*' then
    x.readProperty? ((Token.readName? (s.drop 1)).map fun (n, s) => (.alias n, s))
  else if c = '&' then
    x.readProperty? ((Token.readName? (s.drop 1)).map fun (n, s) => (.anchor n, s))
  else if c = '!' then x.readProperty? (Token.readTag? flow s)
  else if c = '|' ∧ !flow then x.readBlock? true
  else if c = '>' ∧ !flow then x.readBlock? false
  else if c = '\'' ∨ c = '"' then x.readQuoted? c
  else if startsPlain flow s then x.readPlain?
  else none

def run? : (n : Nat) → Lexer → Option (List Token)
  | 0, _ => none
  | n + 1, x => do
    let x ← (x.skipSpace (x.rest.length + 1)).dropStale?
    let x := x.closeTo (column x.rest)
    if isEnd (next x.rest) then
      let x ← (x.closeTo (-1)).forgetKey?
      return x.tokens
    else run? n (← x.readToken?)

end Lexer

/-- The tokens of a text. A byte order mark at its start is passed over. -/
def Token.scan? (s : List Char) : Option (List Token) := do
  let s ← place? s
  let s := if next s = byteOrderMark then s.drop 1 else s
  Lexer.run? (s.length + 1) { rest := s }

end Yaml

end BlockWorld
