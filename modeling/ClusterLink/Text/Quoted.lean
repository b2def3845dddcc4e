/-!
# Quoted text

A text between quotes. Quotes, backslashes and the usual control characters in it are written as a
backslash and a character, so that the quoted text stays on one line.
-/

namespace ClusterLink

/-- How a character is written between quotes. -/
def quotedChar (c : Char) : List Char :=
  if c = '"' ∨ c = '\\' then ['\\', c]
  else if c = '\n' then ['\\', 'n']
  else if c = '\r' then ['\\', 'r']
  else if c = '\t' then ['\\', 't']
  else if c.toNat = 0 then ['\\', '0']
  else [c]

/-- A text between quotes. -/
def quoted (text : String) : String := "\"" ++ String.ofList (text.toList.flatMap quotedChar) ++ "\""

end ClusterLink
