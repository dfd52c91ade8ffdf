import BlockWorld.Bytes.Hex
import BlockWorld.Text.Hidden

/-! # Quoted text

Text in an error message stands between double quotes. Quotes, backslashes and the common control
characters are written after a backslash, other characters that do not show by number.
-/

namespace BlockWorld

namespace Text

def escape (c : Char) : List Char :=
  match c with
  | '"' => ['\\', '"']
  | '\\' => ['\\', '\\']
  | '\n' => ['\\', 'n']
  | '\r' => ['\\', 'r']
  | '\t' => ['\\', 't']
  | '\x00' => ['\\', '0']
  | c =>
    if isHidden c then
      '\\' :: 'u' :: '\x7b' :: (Hex.ofNat 1 c.toNat).toList ++ ['\x7d']
    else [c]

def quoted (s : String) : String := String.ofList ('"' :: s.toList.flatMap escape ++ ['"'])

end Text

end BlockWorld
