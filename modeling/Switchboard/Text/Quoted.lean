import Switchboard.Text.Shown

/-!
# Quoted text

How diagnostic texts show a text or a character: between quotes, with escapes
for the quote itself, the backslash, the common control characters, and, by
code point, for every character that has no look of its own.
-/

namespace Switchboard.Text

/-- The code point of a character as `\u` and braces write it. -/
def codePointEscape (c : Char) : String :=
  "\\u\x7b" ++ String.ofList (Nat.toDigits 16 c.toNat) ++ "\x7d"

/-- One character inside quotes of the given kind. -/
def escapeIn (quote c : Char) : String :=
  if c = '\x00' then "\\0"
  else if c = '\t' then "\\t"
  else if c = '\r' then "\\r"
  else if c = '\n' then "\\n"
  else if c = quote ∨ c = '\\' then String.ofList ['\\', c]
  else if isShown c then String.singleton c
  else codePointEscape c

/-- A text in double quotes. -/
def quoted (s : String) : String :=
  "\"" ++ String.join (s.toList.map (escapeIn '"')) ++ "\""

/-- A character in single quotes. -/
def quotedChar (c : Char) : String :=
  "'" ++ escapeIn '\'' c ++ "'"

/-- Items between brackets, separated by commas. -/
def bracketed (items : List String) : String :=
  "[" ++ ", ".intercalate items ++ "]"

end Switchboard.Text
