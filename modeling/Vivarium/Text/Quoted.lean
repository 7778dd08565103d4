import Vivarium.Text.Unprintable

/-!
Quoted text: between quotation marks, with a quotation mark or backslash behind a backslash, the
common control characters by a letter, and every other unprintable character by its number.
-/
namespace Vivarium.Text

/-- How one character stands inside a quoted text. -/
def escapeChar (c : Char) : String :=
  if c = '"' then "\\\""
  else if c = '\\' then "\\\\"
  else if c = '\n' then "\\n"
  else if c = '\r' then "\\r"
  else if c = '\t' then "\\t"
  else if c.toNat = 0 then "\\0"
  else if isUnprintable c then "\\u\x7b" ++ String.ofList (Nat.toDigits 16 c.toNat) ++ "\x7d"
  else c.toString

def quoted (s : String) : String := "\"" ++ String.join (s.toList.map escapeChar) ++ "\""

end Vivarium.Text
