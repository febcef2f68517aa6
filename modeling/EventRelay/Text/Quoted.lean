import EventRelay.Text.Digits
import EventRelay.Text.Visible

/-!
Text between quotes as error messages show it: what cannot be seen, and what would combine with its
neighbour, is written as an escape.
-/

namespace EventRelay.Text

/-- One character between quotes. -/
def quotedChar (c : Char) : List Char :=
  if c = '\x00' then ['\\', '0']
  else if c = '\t' then ['\\', 't']
  else if c = '\r' then ['\\', 'r']
  else if c = '\n' then ['\\', 'n']
  else if c = '\\' then ['\\', '\\']
  else if c = '"' then ['\\', '"']
  else if extendsGrapheme c || !isVisible c then
    '\\' :: 'u' :: '\x7b' :: Digits.hexadecimal c.toNat ++ ['\x7d']
  else [c]

def quoted (s : String) : String :=
  String.ofList ('"' :: s.toList.flatMap quotedChar ++ ['"'])

end EventRelay.Text
