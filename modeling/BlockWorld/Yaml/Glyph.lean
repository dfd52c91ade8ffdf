/-! # Placed characters

A text is read as a list of glyphs, characters that know their place. Line breaks are brought to one
form, and a NUL, which no text may contain, stands at the end.
-/

namespace BlockWorld

namespace Yaml

structure Glyph where
  char : Char
  line : Nat
  column : Nat
  /-- How many characters of the text come before. -/
  index : Nat

def isAllowed (c : Char) : Bool :=
  let n := c.toNat
  n == 9 || n == 10 || n == 13 || (0x20 ≤ n && n ≤ 0x7e) || n == 0x85 ||
    (0xa0 ≤ n && n ≤ 0xfffd) || 0x10000 ≤ n

def byteOrderMark : Char := '\ufeff'

def lineSeparator : Char := '\u2028'

def paragraphSeparator : Char := '\u2029'

def isBreak (c : Char) : Bool := c == '\n' || c == lineSeparator || c == paragraphSeparator

def isBlank (c : Char) : Bool := c == ' ' || c == '\t'

def isEnd (c : Char) : Bool := c == '\x00'

def isBreakOrEnd (c : Char) : Bool := isBreak c || isEnd c

/-- Separates words: a blank, a break or the end. -/
def isGap (c : Char) : Bool := isBlank c || isBreakOrEnd c

/-- Occurs in the names of anchors and handles. -/
def isWord (c : Char) : Bool := c.isAlphanum || c == '_' || c == '-'

/-- Places characters from a point on. The two old forms of a break become the common one. -/
def placeFrom (line column index : Nat) : List Char → List Glyph
  | [] => [⟨'\x00', line, column, index⟩]
  | '\r' :: '\n' :: r => ⟨'\n', line, column, index⟩ :: placeFrom (line + 1) 0 (index + 2) r
  | c :: r =>
    let d := if c = '\r' ∨ c = '\u0085' then '\n' else c
    ⟨d, line, column, index⟩ ::
      if isBreak d then placeFrom (line + 1) 0 (index + 1) r
      else placeFrom line (column + 1) (index + 1) r

/-- Places a text that holds allowed characters only. A byte order mark at its start is left out. -/
def place? (s : List Char) : Option (List Glyph) :=
  let s := match s with
    | c :: r => if c = byteOrderMark then r else s
    | [] => s
  if s.all isAllowed then some (placeFrom 0 0 0 s) else none

/-! ## Looking ahead -/

def ahead (s : List Glyph) (n : Nat) : Char := (s[n]?.map (·.char)).getD '\x00'

def next (s : List Glyph) : Char := ahead s 0

def column (s : List Glyph) : Nat := (s.head?.map (·.column)).getD 0

def chars (s : List Glyph) : List Char := s.map (·.char)

/-- Whether `mark` stands at the start of a line, with a gap after it. -/
def atMarker (mark : List Char) (s : List Glyph) : Bool :=
  column s == 0 && chars (s.take 3) == mark && isGap (ahead s 3)

def atBoundary (s : List Glyph) : Bool :=
  atMarker ['-', '-', '-'] s || atMarker ['.', '.', '.'] s

def spanChars (p : Char → Bool) (s : List Glyph) : List Char × List Glyph :=
  let (taken, rest) := s.span (p ·.char)
  (chars taken, rest)

def skipWhile (p : Char → Bool) (s : List Glyph) : List Glyph := s.dropWhile (p ·.char)

/-- Passes over blanks and a comment. The line must end then, and its end is passed over too. -/
def endLine? (s : List Glyph) : Option (List Glyph) :=
  let s := skipWhile isBlank s
  let s := if next s = '#' then skipWhile (!isBreakOrEnd ·) s else s
  if isBreak (next s) then some (s.drop 1) else if isEnd (next s) then some s else none

end Yaml

end BlockWorld
