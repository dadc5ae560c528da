import WideGraph.Text.Unprintable
import WideGraph.Text.Combining

/-!
# Quoted text

A text between double quotes, in which every character can be seen: quotes, backslashes and the
common controls have a short escape, and a character that would leave no mark of its own is
written by its number. An apostrophe stands for itself.
-/

namespace WideGraph.Text

/-- The escape of one character inside double quotes. -/
def quotedChar (c : Char) : List Char :=
  if c = '"' then ['\\', '"']
  else if c = '\\' then ['\\', '\\']
  else if c = '\n' then ['\\', 'n']
  else if c = '\r' then ['\\', 'r']
  else if c = '\t' then ['\\', 't']
  else if c = '\x00' then ['\\', '0']
  else if isUnprintable c || isCombining c then
    ['\\', 'u', '{'] ++ Nat.toDigits 16 c.toNat ++ ['}']
  else [c]

/-- The text between double quotes, with its escapes. -/
def quoted (s : String) : String :=
  String.ofList ('"' :: s.toList.flatMap quotedChar ++ ['"'])

end WideGraph.Text
