import BlockWorld.Bytes.Hex
import BlockWorld.Yaml.Glyph

/-! # Scalars

A scalar is written plain, between quotes, or as an indented block. Line breaks inside are folded: a
single one becomes a space, and of several the first is dropped; in a literal block they all stay.
Each reader takes the scalar from the front of the input, and its `n` bounds the pieces it may have.
-/

namespace BlockWorld

namespace Yaml

/-! ## Gaps between words -/

/-- Blanks and breaks after a word. Once a line is broken, blanks no longer count. -/
structure Gap where
  blanks : List Char := []
  /-- The first break. -/
  first : List Char := []
  /-- Further breaks. -/
  more : List Char := []
  broken : Bool := false

def Gap.text (g : Gap) : List Char :=
  if g.broken then
    if g.first = ['\n'] then
      if g.more.isEmpty then [' '] else g.more
    else g.first ++ g.more
  else g.blanks

/-- Extends a gap. On a new line no tab may stand before column `indent`. -/
def readGap? (indent : Int) : Gap → List Glyph → Option (Gap × List Glyph)
  | g, [] => some (g, [])
  | g, c :: s =>
    if isBlank c.char then
      if g.broken ∧ (c.column : Int) < indent ∧ c.char = '\t' then none
      else readGap? indent (if g.broken then g else { g with blanks := g.blanks ++ [c.char] }) s
    else if isBreak c.char then
      if g.broken then readGap? indent { g with more := g.more ++ [c.char] } s
      else readGap? indent { g with blanks := [], first := [c.char], broken := true } s
    else some (g, c :: s)

/-! ## Plain scalars -/

def isFlowIndicator (c : Char) : Bool := [',', '[', ']', '\x7b', '\x7d'].contains c

/-- Reads up to a gap, a colon before a gap or, in a flow collection, an indicator. There a colon
must not stand right before an indicator. -/
def readPlainWord? (flow : Bool) : List Glyph → Option (List Char × List Glyph)
  | [] => some ([], [])
  | c :: s =>
    let after := next s
    if isGap c.char then some ([], c :: s)
    else if flow ∧ c.char = ':' ∧ (isFlowIndicator after ∨ after = '?') then none
    else if c.char = ':' ∧ isGap after then some ([], c :: s)
    else if flow ∧ isFlowIndicator c.char then some ([], c :: s)
    else (readPlainWord? flow s).map fun (w, r) => (c.char :: w, r)

/-- Reads the words of a plain scalar whose lines begin at column `indent` or later. Tells also
whether it ended on a new line. -/
def readPlain? (flow : Bool) (indent : Int) :
    (n : Nat) → Gap → (done : List Char) → List Glyph → Option (List Char × Bool × List Glyph)
  | 0, _, _, _ => none
  | n + 1, g, done, s =>
    if atBoundary s || next s == '#' then some (done, g.broken, s)
    else do
      let (w, s) ← readPlainWord? flow s
      let (g, done) := if w.isEmpty then (g, done) else ({}, done ++ g.text ++ w)
      if !isBlank (next s) && !isBreak (next s) then some (done, g.broken, s)
      else
        let (g, s) ← readGap? indent g s
        if !flow && decide ((column s : Int) < indent) then some (done, g.broken, s)
        else readPlain? flow indent n g done s

/-! ## Quoted scalars -/

def ofHex? (ds : List Char) : Option Nat :=
  ds.foldlM (fun n c => (Hex.value? c).map fun d => 16 * n + d) 0

def codedChar? (w : Nat) (s : List Glyph) : Option (Char × List Glyph) := do
  let n ← ofHex? (chars (s.take w))
  if n.isValidChar then some (Char.ofNat n, s.drop w) else none

/-- The character that stands for what follows a backslash. -/
def escaped? : List Glyph → Option (Char × List Glyph)
  | [] => none
  | c :: s =>
    match c.char with
    | '0' => some ('\x00', s)
    | 'a' => some ('\x07', s)
    | 'b' => some ('\x08', s)
    | 't' | '\t' => some ('\t', s)
    | 'n' => some ('\n', s)
    | 'v' => some ('\x0b', s)
    | 'f' => some ('\x0c', s)
    | 'r' => some ('\r', s)
    | 'e' => some ('\x1b', s)
    | ' ' => some (' ', s)
    | '"' => some ('"', s)
    | '/' => some ('/', s)
    | '\\' => some ('\\', s)
    | 'N' => some ('\u0085', s)
    | '_' => some ('\u00a0', s)
    | 'L' => some (lineSeparator, s)
    | 'P' => some (paragraphSeparator, s)
    | 'x' => codedChar? 2 s
    | 'u' => codedChar? 4 s
    | 'U' => codedChar? 8 s
    | _ => none

/-- Reads up to a gap or the closing quote. Tells also whether a break was escaped at the end. -/
def readQuotedWord? (quote : Char) :
    (n : Nat) → (done : List Char) → List Glyph → Option (List Char × Bool × List Glyph)
  | 0, _, _ => none
  | _, done, [] => some (done, false, [])
  | n + 1, done, c :: s =>
    if isGap c.char then some (done, false, c :: s)
    else if c.char = quote then
      if quote = '\'' ∧ next s = quote then readQuotedWord? quote n (done ++ [quote]) (s.drop 1)
      else some (done, false, c :: s)
    else if quote = '"' ∧ c.char = '\\' then
      if isBreak (next s) then some (done, true, s.drop 1)
      else do
        let (d, s) ← escaped? s
        readQuotedWord? quote n (done ++ [d]) s
    else readQuotedWord? quote n (done ++ [c.char]) s

/-- Reads the words of a quoted scalar, after its opening quote, and the closing quote. -/
def readQuoted? (quote : Char) :
    (n : Nat) → (done : List Char) → List Glyph → Option (List Char × List Glyph)
  | 0, _, _ => none
  | n + 1, done, s =>
    if atBoundary s || isEnd (next s) then none
    else do
      let (w, broken, s) ← readQuotedWord? quote (s.length + 1) [] s
      if next s = quote then some (done ++ w, s.drop 1)
      else
        let (g, s) ← readGap? 0 { broken } s
        readQuoted? quote n (done ++ w ++ g.text) s

/-! ## Block scalars -/

/-- What becomes of the breaks at the end of a block. -/
inductive Chomping
  | strip
  | clip
  | keep
  deriving DecidableEq

def chomping? (c : Char) : Option Chomping :=
  if c = '+' then some .keep else if c = '-' then some .strip else none

/-- A digit that tells the indentation, which is not zero. -/
def indentation? (c : Char) : Option Nat :=
  if c.isDigit ∧ c ≠ '0' then some (c.toNat - 48) else none

/-- Reads what may stand after the indicator of a block, in either order, to the end of the line. -/
def readBlockHeader? (s : List Glyph) : Option (Chomping × Option Nat × List Glyph) := do
  let (chomping, indentation, s) ←
    match chomping? (next s) with
    | some k =>
      let d := ahead s 1
      if d.isDigit then (indentation? d).map fun i => (k, some i, s.drop 2)
      else some (k, none, s.drop 1)
    | none =>
      if (next s).isDigit then do
        let i ← indentation? (next s)
        match chomping? (ahead s 1) with
        | some k => some (k, some i, s.drop 2)
        | none => some (.clip, some i, s.drop 1)
      else some (.clip, none, s)
  return (chomping, indentation, ← endLine? s)

/-- Reads the breaks before the next line of a block indented by `indent`, or by an unknown amount.
Tells also the widest indentation met. -/
def readBlockBreaks? (indent : Option Nat) :
    (widest : Nat) → List Glyph → Option (List Char × Nat × List Glyph)
  | widest, [] => some ([], widest, [])
  | widest, c :: s =>
    let before := indent.all (c.column < ·)
    if c.char = ' ' ∧ before then readBlockBreaks? indent widest s
    else
      let widest := max widest c.column
      if c.char = '\t' ∧ before then none
      else if isBreak c.char then
        (readBlockBreaks? indent widest s).map fun (l, r) => (c.char :: l, r)
      else some ([], widest, c :: s)

structure BlockLines where
  text : List Char := []
  /-- The break after the last line. -/
  first : List Char := []
  /-- The breaks of empty lines after it. -/
  more : List Char
  /-- Whether the last line began with a blank. -/
  blank : Bool := false

/-- What stands between the lines read so far and the next. A folded break between two lines that
begin with no blank becomes a space. -/
def BlockLines.glue (b : BlockLines) (literal blank : Bool) : List Char :=
  if !literal && b.first == ['\n'] && !b.blank && !blank then
    if b.more.isEmpty then [' '] else b.more
  else b.first ++ b.more

def readBlockLines? (literal : Bool) (indent : Nat) :
    (n : Nat) → BlockLines → List Glyph → Option (BlockLines × List Glyph)
  | 0, _, _ => none
  | n + 1, b, s =>
    if column s = indent ∧ !isEnd (next s) then do
      let blank := isBlank (next s)
      let (line, s) := spanChars (!isBreakOrEnd ·) s
      let (first, s) := if isBreak (next s) then ([next s], s.drop 1) else ([], s)
      let (more, _, s) ← readBlockBreaks? (some indent) 0 s
      readBlockLines? literal indent n
        { text := b.text ++ b.glue literal blank ++ line, first, more, blank } s
    else some (b, s)

/-- Reads a block scalar after its indicator; `parent` is the indentation around it. -/
def readBlock? (literal : Bool) (parent : Int) (s : List Glyph) :
    Option (List Char × List Glyph) := do
  let (chomping, indentation, s) ← readBlockHeader? s
  let told := indentation.map fun i => (max parent 0).toNat + i
  let (more, widest, s) ← readBlockBreaks? told 0 s
  let indent := told.getD (max widest (max (parent + 1) 1).toNat)
  let (b, s) ← readBlockLines? literal indent (s.length + 1) { more } s
  let tail := match chomping with
    | .strip => []
    | .clip => b.first
    | .keep => b.first ++ b.more
  return (b.text ++ tail, s)

end Yaml

end BlockWorld
