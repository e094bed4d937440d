import SeamlessTunnel.Text.Numeral
import SeamlessTunnel.Text.Shown
/-
  SeamlessTunnel.Text.Quoted — a text between double quotes, for descriptions.

  Quotes and backslashes are escaped, and so is every character that does not show by
  itself: some by a letter, the others by their number in hexadecimal between braces.
-/

namespace SeamlessTunnel.Text

/-- The escape of a character inside quotes, or the character itself. -/
def quotedChar (c : Char) : List Char :=
  if c = '\x00' then ['\\', '0']
  else if c = '\t' then ['\\', 't']
  else if c = '\n' then ['\\', 'n']
  else if c = '\r' then ['\\', 'r']
  else if c = '"' then ['\\', '"']
  else if c = '\\' then ['\\', '\\']
  else if isShown c then [c]
  else ['\\', 'u', '\x7b'] ++ render 16 c.toNat ++ ['\x7d']

def quoted (cs : List Char) : List Char :=
  '"' :: cs.flatMap quotedChar ++ ['"']

end SeamlessTunnel.Text
