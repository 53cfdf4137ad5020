import EquationPractice.Text.Unprinted

/-!
# Quoted text

Messages show what was typed between quotes.  A quote, a backslash and the characters that cannot be
shown by themselves are escaped; everything else stands as it is.  In quoted text only the double
quote is escaped, in a quoted character only the single one.
-/

namespace EquationPractice.Text

/-- One character inside a pair of `quote` marks. -/
def escapeChar (quote c : Char) : List Char :=
  if c == '\x00' then ['\\', '0']
  else if c == '\t' then ['\\', 't']
  else if c == '\n' then ['\\', 'n']
  else if c == '\r' then ['\\', 'r']
  else if c == '\\' || c == quote then ['\\', c]
  else if isUnprinted c then
    ['\\', 'u', '\x7b'] ++ Nat.toDigits 16 c.toNat ++ ['\x7d']
  else [c]

/-- Text between double quotes. -/
def quoted (text : String) : String :=
  String.ofList ('"' :: text.toList.flatMap (escapeChar '"') ++ ['"'])

/-- A character between single quotes. -/
def quotedChar (c : Char) : String :=
  String.ofList ('\'' :: escapeChar '\'' c ++ ['\''])

end EquationPractice.Text
