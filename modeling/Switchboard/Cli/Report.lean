import Switchboard.Dispatcher

/-!
# Reports of failures

How a failed dispatch is reported: as a line of text, or as an indented JSON
object with its keys in order.
-/

namespace Switchboard.Cli

/-- Four hexadecimal digits. -/
def fourDigits (n : Nat) : String :=
  let digits := Nat.toDigits 16 n
  String.ofList (List.replicate (4 - digits.length) '0' ++ digits)

/-- One character of a JSON string. -/
def jsonEscape (c : Char) : String :=
  if c = '"' then "\\\""
  else if c = '\\' then "\\\\"
  else if c = '\n' then "\\n"
  else if c = '\r' then "\\r"
  else if c = '\t' then "\\t"
  else if c = '\x08' then "\\b"
  else if c = '\x0c' then "\\f"
  else if c.toNat < 0x20 then "\\u" ++ fourDigits c.toNat
  else String.singleton c

def jsonString (s : String) : String :=
  "\"" ++ String.join (s.toList.map jsonEscape) ++ "\""

/-- A JSON object on several lines, two spaces deep. -/
def jsonObject (fields : List (String × String)) : String :=
  let shown := fields.map fun field => "  " ++ jsonString field.1 ++ ": " ++ field.2
  "\x7b\n" ++ ",\n".intercalate shown ++ "\n\x7d"

/-- A failure as a JSON object. -/
def jsonReport (e : DispatchError) : String :=
  jsonObject
    [("error", jsonString e.message),
      ("input", match e.input? with
        | some input => jsonString input
        | none => "null"),
      ("status", jsonString "error"), ("type", jsonString e.kind)]

/-- A failure as a line of text. -/
def textReport (e : DispatchError) : String :=
  "error: " ++ e.message

end Switchboard.Cli
