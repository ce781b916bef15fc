import Switchboard.Number.Whole

/-!
# Lexemes of TOML

The smallest parts of a document, numbers apart: blanks and comments, quoted
strings, keys, and dates and times. A scanner takes what it is for from the
front of a text and gives it with the rest of the text, or gives nothing.
-/

namespace Switchboard.Toml

/-- Take something from the front of a text. -/
abbrev Scan (α : Type) := List Char → Option (α × List Char)

/-! ### Blanks -/

def isGap (c : Char) : Bool :=
  c == ' ' || c == '\t'

/-- Whether a character may stand in a comment or, unescaped, in a string. -/
def isVisible (c : Char) : Bool :=
  c == '\t' || (0x20 ≤ c.toNat && c.toNat != 0x7F)

def skipGaps (cs : List Char) : List Char :=
  cs.dropWhile isGap

/-- Take a line end. -/
def newline? : List Char → Option (List Char)
  | '\n' :: cs => some cs
  | '\r' :: '\n' :: cs => some cs
  | _ => none

/-- Take the rest of a line that holds nothing but blanks and a comment. -/
def endOfLine? (cs : List Char) : Option (List Char) :=
  let atComment := skipGaps cs
  let atEnd :=
    match atComment with
    | '#' :: ds => ds.dropWhile isVisible
    | ds => ds
  if atEnd.isEmpty then some [] else newline? atEnd

/-- Skip blanks, line ends and comments. -/
def skipLines (inComment : Bool) : List Char → Option (List Char)
  | [] => some []
  | '\n' :: cs => skipLines false cs
  | '\r' :: '\n' :: cs => skipLines false cs
  | c :: cs =>
    if inComment then if isVisible c then skipLines true cs else none
    else if isGap c then skipLines false cs
    else if c = '#' then skipLines true cs
    else some (c :: cs)

/-! ### Strings -/

/-- The character an escape letter stands for. -/
def escaped? : Char → Option Char
  | 'b' => some '\x08'
  | 'e' => some '\x1b'
  | 't' => some '\t'
  | 'n' => some '\n'
  | 'f' => some '\x0c'
  | 'r' => some '\r'
  | '"' => some '"'
  | '\\' => some '\\'
  | _ => none

/-- The value of a hexadecimal digit. -/
def hexValue? (c : Char) : Option Nat :=
  if c.isDigit then some (c.toNat - 0x30)
  else if 'a' ≤ c ∧ c ≤ 'f' then some (c.toNat - 0x57)
  else if 'A' ≤ c ∧ c ≤ 'F' then some (c.toNat - 0x37)
  else none

/-- The character with the code point that hexadecimal digits give. -/
def codePoint? (digits : List Char) : Option Char :=
  match digits.mapM hexValue? with
  | none => none
  | some values =>
    let n := values.foldl (fun sofar v => 16 * sofar + v) 0
    if n.isValidChar then some (Char.ofNat n) else none

/-- Put a character before what is taken next. -/
def before (c : Option Char) (next : Option (List Char × List Char)) :
    Option (List Char × List Char) :=
  match c, next with
  | some c, some (taken, rest) => some (c :: taken, rest)
  | _, _ => none

/-- The rest of a string in double quotes. -/
def basicBody : Scan (List Char)
  | [] => none
  | '"' :: cs => some ([], cs)
  | '\\' :: 'x' :: a :: b :: cs => before (codePoint? [a, b]) (basicBody cs)
  | '\\' :: 'u' :: a :: b :: c :: d :: cs => before (codePoint? [a, b, c, d]) (basicBody cs)
  | '\\' :: 'U' :: a :: b :: c :: d :: e :: f :: g :: h :: cs =>
    before (codePoint? [a, b, c, d, e, f, g, h]) (basicBody cs)
  | '\\' :: e :: cs => before (escaped? e) (basicBody cs)
  | c :: cs => if isVisible c ∧ c ≠ '\\' then before (some c) (basicBody cs) else none

/-- The rest of a string in single quotes. -/
def literalBody : Scan (List Char)
  | [] => none
  | c :: cs =>
    if c = '\'' then some ([], cs)
    else if isVisible c then before (some c) (literalBody cs)
    else none

/-- Whether nothing but blanks comes before the next line end. -/
def foldsLine (cs : List Char) : Bool :=
  (newline? (skipGaps cs)).isSome

/-- The rest of a string in three double quotes. A backslash at the end of a line is skipped
with the blanks and line ends after it (`skipping`). Up to two quotes just before the closing
ones belong to the string. -/
def multilineBody (skipping : Bool) : Scan (List Char)
  | [] => none
  | '"' :: '"' :: '"' :: '"' :: '"' :: cs => some (['"', '"'], cs)
  | '"' :: '"' :: '"' :: '"' :: cs => some (['"'], cs)
  | '"' :: '"' :: '"' :: cs => some ([], cs)
  | '\\' :: 'x' :: a :: b :: cs => before (codePoint? [a, b]) (multilineBody false cs)
  | '\\' :: 'u' :: a :: b :: c :: d :: cs =>
    before (codePoint? [a, b, c, d]) (multilineBody false cs)
  | '\\' :: 'U' :: a :: b :: c :: d :: e :: f :: g :: h :: cs =>
    before (codePoint? [a, b, c, d, e, f, g, h]) (multilineBody false cs)
  | '\\' :: e :: cs =>
    if foldsLine (e :: cs) then multilineBody true (e :: cs)
    else before (escaped? e) (multilineBody false cs)
  | '\r' :: '\n' :: cs =>
    if skipping then multilineBody true cs
    else before (some '\r') (before (some '\n') (multilineBody false cs))
  | c :: cs =>
    if skipping ∧ (c = '\n' ∨ isGap c) then multilineBody true cs
    else if c = '\n' ∨ (isVisible c ∧ c ≠ '\\') then before (some c) (multilineBody false cs)
    else none

/-- The rest of a string in three single quotes. -/
def multilineLiteralBody : Scan (List Char)
  | [] => none
  | '\'' :: '\'' :: '\'' :: '\'' :: '\'' :: cs => some (['\'', '\''], cs)
  | '\'' :: '\'' :: '\'' :: '\'' :: cs => some (['\''], cs)
  | '\'' :: '\'' :: '\'' :: cs => some ([], cs)
  | '\r' :: '\n' :: cs => before (some '\r') (before (some '\n') (multilineLiteralBody cs))
  | c :: cs => if c = '\n' ∨ isVisible c then before (some c) (multilineLiteralBody cs) else none

/-- A line end just after the opening quotes is not part of a string. -/
def dropFirstNewline (cs : List Char) : List Char :=
  (newline? cs).getD cs

/-- A string of any kind, from its opening quotes on. -/
def quotedString : Scan String := fun cs =>
  let body :=
    match cs with
    | '"' :: '"' :: '"' :: ds => multilineBody false (dropFirstNewline ds)
    | '"' :: ds => basicBody ds
    | '\'' :: '\'' :: '\'' :: ds => multilineLiteralBody (dropFirstNewline ds)
    | '\'' :: ds => literalBody ds
    | _ => none
  body.map fun taken => (String.ofList taken.1, taken.2)

/-! ### Keys -/

def isBareKeyChar (c : Char) : Bool :=
  c.isAlphanum || c == '_' || c == '-'

/-- One part of a key: bare, or quoted on one line. -/
def keyPart : Scan String
  | '"' :: cs => (basicBody cs).map fun taken => (String.ofList taken.1, taken.2)
  | '\'' :: cs => (literalBody cs).map fun taken => (String.ofList taken.1, taken.2)
  | cs =>
    let part := cs.takeWhile isBareKeyChar
    if part.isEmpty then none else some (String.ofList part, cs.dropWhile isBareKeyChar)

/-- Parts of a key with points and blanks between them, at most the given number of them. -/
def keyParts : Nat → Scan (List String)
  | 0, _ => none
  | more + 1, cs => do
    let (part, rest) ← keyPart cs
    match skipGaps rest with
    | '.' :: ds =>
      let (parts, last) ← keyParts more (skipGaps ds)
      return (part :: parts, last)
    | ds => return ([part], ds)

/-- A key has at most this many parts, and arrays and inline tables may be nested this deep. -/
def depthLimit : Nat := 80

/-- A key, with the blanks after it. -/
def key : Scan (List String) :=
  keyParts depthLimit

/-! ### Dates and times -/

/-- The number of a run of decimal digits, if it lies between two bounds. -/
def field? (low high : Nat) (digits : List Char) : Option Nat :=
  (natOfDigits? digits).filter fun n => low ≤ n && n ≤ high

def isLeapYear (year : Nat) : Bool :=
  year % 4 == 0 && (year % 100 != 0 || year % 400 == 0)

def daysInMonth (year month : Nat) : Nat :=
  if month = 2 then if isLeapYear year then 29 else 28
  else if month = 4 ∨ month = 6 ∨ month = 9 ∨ month = 11 then 30
  else 31

/-- What follows a date, if the text starts with one. -/
def afterDate? : List Char → Option (List Char)
  | y1 :: y2 :: y3 :: y4 :: '-' :: m1 :: m2 :: '-' :: d1 :: d2 :: cs => do
    let year ← field? 0 9999 [y1, y2, y3, y4]
    let month ← field? 1 12 [m1, m2]
    let _ ← field? 1 (daysInMonth year month) [d1, d2]
    return cs
  | _ => none

/-- What follows the seconds of a time of day, which may be left out. -/
def afterSeconds? : List Char → Option (List Char)
  | ':' :: s1 :: s2 :: cs => do
    let _ ← field? 0 60 [s1, s2]
    match cs with
    | '.' :: d :: ds => if d.isDigit then return ds.dropWhile Char.isDigit else none
    | _ => return cs
  | cs => some cs

/-- What follows a time of day, if the text starts with one. -/
def afterTime? : List Char → Option (List Char)
  | h1 :: h2 :: ':' :: m1 :: m2 :: cs => do
    let _ ← field? 0 23 [h1, h2]
    let _ ← field? 0 59 [m1, m2]
    afterSeconds? cs
  | _ => none

/-- Whether a text is the offset of a time zone. -/
def isOffset : List Char → Bool
  | ['Z'] => true
  | ['z'] => true
  | [sign, h1, h2, ':', m1, m2] =>
    (sign == '+' || sign == '-') && (field? 0 23 [h1, h2]).isSome && (field? 0 59 [m1, m2]).isSome
  | _ => false

/-- Whether a text is a date, a time, or both, then perhaps with an offset. -/
def isMoment (cs : List Char) : Bool :=
  match afterDate? cs with
  | some [] => true
  | some (mark :: ds) =>
    (mark == 'T' || mark == 't' || mark == ' ') &&
      match afterTime? ds with
      | some rest => rest.isEmpty || isOffset rest
      | none => false
  | none =>
    match afterTime? cs with
    | some rest => rest.isEmpty
    | none => false

end Switchboard.Toml
