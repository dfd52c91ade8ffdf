import BlockWorld.Bytes.Hex

/-! # Strings in JSON

A string in JSON stands between double quotes. Quotes, backslashes and control characters are
escaped, the common ones by a letter and the others by four digits; all else stands for itself.
-/

namespace BlockWorld

namespace Text

def jsonEscape (c : Char) : List Char :=
  match c with
  | '"' => ['\\', '"']
  | '\\' => ['\\', '\\']
  | '\n' => ['\\', 'n']
  | '\r' => ['\\', 'r']
  | '\t' => ['\\', 't']
  | '\x08' => ['\\', 'b']
  | '\x0c' => ['\\', 'f']
  | c => if c.toNat < 32 then '\\' :: 'u' :: (Hex.ofNat 4 c.toNat).toList else [c]

def jsonQuoted (s : String) : String :=
  String.ofList ('"' :: s.toList.flatMap jsonEscape ++ ['"'])

end Text

end BlockWorld
