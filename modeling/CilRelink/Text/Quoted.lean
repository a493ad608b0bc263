import CilRelink.Text.Hex
import CilRelink.Text.Printable

/-!
# Quoted strings

Two ways to show a string. A listing keeps to printable ASCII and escapes both kinds of quotes, so that a line
of code stays a line. A diagnostic escapes only what cannot be shown, and the quote that encloses it.
-/
namespace CilRelink.Text

/-- The character written by its number. -/
def numbered (c : Char) : String := "\\u\x7b" ++ hex 1 c.toNat ++ "\x7d"

/-- How a listing shows a character inside a string. -/
def listed (c : Char) : String :=
  if c = '\t' then "\\t"
  else if c = '\r' then "\\r"
  else if c = '\n' then "\\n"
  else if c = '\'' then "\\'"
  else if c = '"' then "\\\""
  else if c = '\\' then "\\\\"
  else if ' ' ≤ c ∧ c ≤ '~' then c.toString
  else numbered c

/-- How a diagnostic shows a character enclosed in `quote`. -/
def diagnosed (quote c : Char) : String :=
  if c = '\x00' then "\\0"
  else if c = '\t' then "\\t"
  else if c = '\r' then "\\r"
  else if c = '\n' then "\\n"
  else if c = '\\' then "\\\\"
  else if c = quote then "\\" ++ c.toString
  else if isPrintable c then c.toString
  else numbered c

/-- A string as an operand in a listing. -/
def listedString (text : String) : String :=
  "\"" ++ String.join (text.toList.map listed) ++ "\""

/-- A string in a diagnostic. -/
def quotedString (text : String) : String :=
  "\"" ++ String.join (text.toList.map (diagnosed '"')) ++ "\""

/-- A character in a diagnostic. -/
def quotedChar (c : Char) : String := "'" ++ diagnosed '\'' c ++ "'"

end CilRelink.Text
