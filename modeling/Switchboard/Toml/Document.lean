import Switchboard.Toml.Item

/-!
# TOML documents

A document is read line by line, each line a header, a key with its value, or
nothing. Headers open tables; keys are assigned in the table opened last. A
document with any fault is refused as a whole.
-/

namespace Switchboard.Toml

/-! ### Values -/

/-- Whether a character may stand in an unquoted value. -/
def isBare (c : Char) : Bool :=
  !(isGap c || ['=', ',', '[', ']', '{', '}', '#', '\r', '\n'].contains c)

/-- The unquoted value that a text starts with. Blanks belong to it if more of it follows; a
quote does only inside a word, where `fresh` says that a word starts. -/
def bareText : (fresh : Bool) → List Char → List Char
  | _, [] => []
  | fresh, c :: cs =>
    if isGap c then
      match bareText true cs with
      | [] => []
      | more => c :: more
    else if isBare c && !(fresh && (c == '"' || c == '\'')) then c :: bareText (c == '.') cs
    else []

/-- The value that an unquoted text stands for. -/
def atomValue? (cs : List Char) : Option Item :=
  if cs = ['t', 'r', 'u', 'e'] then some (.boolean true)
  else if cs = ['f', 'a', 'l', 's', 'e'] then some (.boolean false)
  else if isMoment cs then some (.moment (String.ofList cs))
  else (number? cs).map .number

/-- An unquoted value. -/
def atom : Scan Item := fun cs =>
  let text := bareText true cs
  (atomValue? text).map fun item => (item, cs.drop text.length)

/-- The elements of an array up to its closing bracket, at most `fuel` of them. -/
def arrayElements (element : Scan Item) : Nat → Scan (List Item)
  | 0, _ => none
  | fuel + 1, cs => do
    match ← skipLines false cs with
    | ']' :: ds => return ([], ds)
    | ds =>
      let (item, rest) ← element ds
      match ← skipLines false rest with
      | ']' :: es => return ([item], es)
      | ',' :: es =>
        let (items, last) ← arrayElements element fuel es
        return (item :: items, last)
      | _ => none

/-- A key, an equals sign and a value, with what may be skipped around the sign. -/
def keyValue (skip : List Char → Option (List Char)) (value : Scan Item) :
    Scan (List String × Item) := fun cs => do
  let (path, rest) ← key cs
  match ← skip rest with
  | '=' :: ds =>
    let (item, last) ← value (← skip ds)
    return ((path, item), last)
  | _ => none

/-- The entries of an inline table up to its closing brace, at most `fuel` of them. As in an
array, line ends and comments may stand between its parts, and a comma after the last. -/
def inlineEntries (value : Scan Item) : Nat → Entries → Scan Entries
  | 0, _, _ => none
  | fuel + 1, entries, cs => do
    match ← skipLines false cs with
    | '}' :: ds => return (entries, ds)
    | ds =>
      let ((path, item), rest) ← keyValue (skipLines false) value ds
      let more ← entries.assign item path
      match ← skipLines false rest with
      | '}' :: es => return (more, es)
      | ',' :: es => inlineEntries value fuel more es
      | _ => none

/-- The inline table after an opening brace. -/
def inlineTable (value : Scan Item) : Scan Entries := fun cs =>
  inlineEntries value (cs.length + 1) .empty cs

/-- A value with at most the given number of arrays and inline tables inside one another. -/
def value : Nat → Scan Item
  | levels, '[' :: cs =>
    match levels with
    | 0 => none
    | below + 1 =>
      (arrayElements (value below) (cs.length + 1) cs).map fun taken => (.array taken.1, taken.2)
  | levels, '{' :: cs =>
    match levels with
    | 0 => none
    | below + 1 =>
      (inlineTable (value below) cs).map fun taken => (.table .inline taken.1, taken.2)
  | _, '"' :: cs => (quotedString ('"' :: cs)).map fun taken => (.string taken.1, taken.2)
  | _, '\'' :: cs => (quotedString ('\'' :: cs)).map fun taken => (.string taken.1, taken.2)
  | _, cs => atom cs

/-! ### Lines -/

/-- A document as read so far: its entries, and the path of the table opened last. -/
structure Draft where
  root : Entries
  opened : List String

namespace Draft

def empty : Draft := ⟨.empty, []⟩

/-- Open what a header names. -/
def openAt (d : Draft) (openKey : String → Entries → Option Entries) (path : List String) :
    Option Draft :=
  match path.getLast? with
  | none => none
  | some last => (d.root.under (openKey last) path.dropLast).map fun root => ⟨root, path⟩

/-- Assign a value in the table opened last. -/
def assign (d : Draft) (path : List String) (item : Item) : Option Draft :=
  (d.root.under (fun e => e.assign item path) d.opened).map fun root => { d with root }

end Draft

/-- One line with all that belongs to its value. -/
def line (d : Draft) (cs : List Char) : Option (Draft × List Char) :=
  match skipGaps cs with
  | '[' :: '[' :: ds => do
    let (path, rest) ← key (skipGaps ds)
    match rest with
    | ']' :: ']' :: es => return (← d.openAt Entries.openElement path, ← endOfLine? es)
    | _ => none
  | '[' :: ds => do
    let (path, rest) ← key (skipGaps ds)
    match rest with
    | ']' :: es => return (← d.openAt Entries.openTable path, ← endOfLine? es)
    | _ => none
  | ds =>
    match endOfLine? ds with
    | some rest => some (d, rest)
    | none => do
      let ((path, item), rest) ← keyValue (fun es => some (skipGaps es)) (value depthLimit) ds
      return (← d.assign path item, ← endOfLine? rest)

/-- The lines of a document, at most `fuel` of them. -/
def lines : Nat → Draft → List Char → Option Entries
  | _, d, [] => some d.root
  | 0, _, _ :: _ => none
  | fuel + 1, d, cs =>
    match line d cs with
    | some (next, rest) => lines fuel next rest
    | none => none

/-- A byte order mark at the start of a text is not part of it. -/
def dropMark : List Char → List Char
  | '\uFEFF' :: cs => cs
  | cs => cs

/-- The entries of a document; nothing if it has a fault. -/
def document? (text : String) : Option Entries :=
  let cs := dropMark text.toList
  lines cs.length .empty cs

end Switchboard.Toml
