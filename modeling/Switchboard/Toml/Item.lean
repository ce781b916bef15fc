import Switchboard.Table
import Switchboard.Toml.Number

/-!
# Contents of a TOML document

What a key of a document may lead to. A table remembers how it came to be,
since that decides whether later lines may add to it or open it again.
-/

namespace Switchboard.Toml

/-- How a table came to be. -/
inductive Origin where
  /-- Written between braces; closed for good. -/
  | inline
  /-- Opened by its own header. -/
  | header
  /-- Passed by the header of a table below it. -/
  | passed
  /-- Passed by a dotted key. -/
  | dotted
deriving DecidableEq, Repr

inductive Item where
  | string (content : String)
  | number (value : Number)
  | boolean (b : Bool)
  /-- A date, a time of day or both. -/
  | moment (text : String)
  | array (items : List Item)
  | table (origin : Origin) (entries : Table String Item)
  /-- The tables opened by headers in double brackets; the last is still open. -/
  | tables (before : List (Table String Item)) (last : Table String Item)

/-- The entries of a table. -/
abbrev Entries := Table String Item

namespace Item

/-- The entries, if this is a table. -/
def entries? : Item → Option Entries
  | table _ entries => some entries
  | _ => none

/-- The elements, if this is an array of any kind. -/
def elements? : Item → Option (List Item)
  | array items => some items
  | tables before last => some ((before ++ [last]).map (table .header))
  | _ => none

def content? : Item → Option String
  | string content => some content
  | _ => none

mutual

/-- Whether every number in an item has a value. -/
def hasValue : Item → Bool
  | number value => value.hasValue
  | array items => haveValues items
  | table _ ⟨entries⟩ => entriesHaveValues entries
  | tables before ⟨entries⟩ => tablesHaveValues before && entriesHaveValues entries
  | _ => true

/-- The same of the elements of an array. -/
def haveValues : List Item → Bool
  | [] => true
  | item :: items => item.hasValue && haveValues items

/-- The same of the entries of a table. -/
def entriesHaveValues : List (String × Item) → Bool
  | [] => true
  | (_, item) :: entries => item.hasValue && entriesHaveValues entries

/-- The same of an array of tables. -/
def tablesHaveValues : List (Table String Item) → Bool
  | [] => true
  | ⟨entries⟩ :: rest => entriesHaveValues entries && tablesHaveValues rest

end

end Item

/-! ### Headers and keys -/

namespace Entries

/-- Change the entries a path of headers leads to. Missing tables are made on the way; of
tables in an array the last one is meant. -/
def under (f : Entries → Option Entries) : List String → Entries → Option Entries
  | [], e => f e
  | key :: path, e =>
    match e.find? key with
    | none => (under f path .empty).map fun below => e.insert key (.table .passed below)
    | some (.table .inline _) => none
    | some (.table origin entries) =>
      (under f path entries).map fun below => e.insert key (.table origin below)
    | some (.tables before last) =>
      (under f path last).map fun below => e.insert key (.tables before below)
    | some _ => none

/-- Open a table: a new one, or one that headers of tables below it have passed. -/
def openTable (key : String) (e : Entries) : Option Entries :=
  match e.find? key with
  | none => some (e.insert key (.table .header .empty))
  | some (.table .passed entries) => some (e.insert key (.table .header entries))
  | some _ => none

/-- Open a further table of an array of tables. -/
def openElement (key : String) (e : Entries) : Option Entries :=
  match e.find? key with
  | none => some (e.insert key (.tables [] .empty))
  | some (.tables before last) => some (e.insert key (.tables (before ++ [last]) .empty))
  | some _ => none

/-- Give a key its value. Every part of a dotted key but the last names a table, which dotted
keys alone have made; on the way to it a table that a header passed may lie. -/
def assign (value : Item) : List String → Entries → Option Entries
  | [], _ => none
  | [key], e => if e.contains key then none else some (e.insert key value)
  | key :: path@(_ :: rest), e =>
    match e.find? key with
    | none => (assign value path .empty).map fun below => e.insert key (.table .dotted below)
    | some (.table .dotted entries) =>
      (assign value path entries).map fun below => e.insert key (.table .dotted below)
    | some (.table .passed entries) =>
      if rest.isEmpty then none
      else (assign value path entries).map fun below => e.insert key (.table .passed below)
    | some (.tables before last) =>
      if rest.isEmpty then none
      else (assign value path last).map fun below => e.insert key (.tables before below)
    | some _ => none

end Entries

end Switchboard.Toml
