import Bourse.Text.Printable

/-!
# Quoted texts

Messages show a text that somebody else wrote in quotes, so that one sees where it begins and ends
and what is in it (`quoted`). The quote and the backslash are escaped, tab, line ends and the null
character have letters, and a character without a printable form is shown by its code point.
-/

namespace Bourse.Text

/-- A character between quotes. -/
def escapeQuoted (c : Char) : List Char :=
  if c = '\x00' then ['\\', '0']
  else if c = '\t' then ['\\', 't']
  else if c = '\r' then ['\\', 'r']
  else if c = '\n' then ['\\', 'n']
  else if c = '"' then ['\\', '"']
  else if c = '\\' then ['\\', '\\']
  else if isPrintable c then [c]
  else ['\\', 'u', '\x7b'] ++ Nat.toDigits 16 c.toNat ++ ['\x7d']

/-- The text in quotes. -/
def quoted (s : String) : String :=
  String.ofList ('"' :: s.toList.flatMap escapeQuoted ++ ['"'])

end Bourse.Text
