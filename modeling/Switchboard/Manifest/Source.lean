import Switchboard.Manifest
import Switchboard.Toml.Document

/-!
# Manifest files

How a manifest is written down: a TOML document with a table of settings and
an array of commands. Keys that mean nothing to a manifest are ignored, though
the numbers under them must have values. A record may also be written as an
array that holds its fields in order, of which no further element is looked
at, and a date or time counts as a record without fields.
-/

namespace Switchboard

open Toml (Item)

/-- The fields of a record, by name or by place. -/
abbrev Fields := String → Nat → Option Item

namespace Fields

/-- The fields of a table. Numbers under other names than theirs must have values. -/
def ofEntries? (names : List String) (entries : Toml.Entries) : Option Fields :=
  if entries.entries.all fun entry => names.contains entry.1 || entry.2.hasValue then
    some fun name _ => entries.find? name
  else none

def ofElements (items : List Item) : Fields :=
  fun _ place => items[place]?

/-- The fields of an item, if it is a table or an array. A date or time has none. -/
def ofItem? (names : List String) : Item → Option Fields
  | .moment _ => ofEntries? names .empty
  | item =>
    match item.entries? with
    | some entries => ofEntries? names entries
    | none => item.elements?.map ofElements

/-- Read a field that has a default; a field that is there must be readable. -/
def optional {α : Type} (fields : Fields) (name : String) (place : Nat) (absent : α)
    (read : Item → Option α) : Option α :=
  match fields name place with
  | none => some absent
  | some item => read item

/-- Read a field that must be there. -/
def required {α : Type} (fields : Fields) (name : String) (place : Nat)
    (read : Item → Option α) : Option α :=
  (fields name place).bind read

end Fields

namespace Toml.Item

/-- Read all elements of an array. -/
def listOf? {α : Type} (read : Item → Option α) (item : Item) : Option (List α) :=
  item.elements?.bind fun items => items.mapM read

end Toml.Item

/-! ### Records -/

namespace AliasEntry

def ofItem? (item : Item) : Option AliasEntry :=
  match item.content? with
  | some text => some (joined text)
  | none => (item.listOf? Item.content?).map list

end AliasEntry

namespace ParamEntry

def ofItem? (item : Item) : Option ParamEntry := do
  let fields ← Fields.ofItem? ["type", "default"] item
  let type ← fields.required "type" 0 Item.content?
  let default? ← fields.optional "default" 1 none fun item => item.content?.map some
  return ⟨type, default?⟩

end ParamEntry

namespace CommandEntry

def ofItem? (item : Item) : Option CommandEntry := do
  let fields ← Fields.ofItem? ["name", "parent", "aliases", "params", "reply"] item
  let name ← fields.required "name" 0 Item.content?
  let parent ← fields.optional "parent" 1 [] (Item.listOf? Item.content?)
  let aliases ← fields.optional "aliases" 2 (.list []) AliasEntry.ofItem?
  let params ← fields.optional "params" 3 [] (Item.listOf? ParamEntry.ofItem?)
  let reply? ← fields.optional "reply" 4 none fun item => item.content?.map some
  return ⟨name, parent, aliases, params, reply?⟩

end CommandEntry

namespace Manifest

def promptOfItem? (item : Item) : Option String := do
  let fields ← Fields.ofItem? ["prompt"] item
  fields.optional "prompt" 0 defaultPrompt Item.content?

/-- Read a manifest from the text of a file. -/
def ofText? (text : String) : Option Manifest := do
  let fields ← Fields.ofEntries? ["settings", "commands"] (← Toml.document? text)
  let prompt ← fields.optional "settings" 0 defaultPrompt promptOfItem?
  let commands ← fields.optional "commands" 1 [] (Item.listOf? CommandEntry.ofItem?)
  return ⟨prompt, commands⟩

/-- What was found where a manifest should be. -/
inductive File where
  | content (bytes : ByteArray)
  | missing
  | unreadable

/-- Load and validate the manifest of a file. -/
def load (path : String) (file : File) : Except ManifestError Manifest :=
  let text? :=
    match file with
    | .content bytes => String.fromUTF8? bytes
    | .missing => none
    | .unreadable => none
  match text? with
  | none => .error (.unreadable path)
  | some text =>
    match ofText? text with
    | none => .error (.malformed path)
    | some m =>
      match m.validate with
      | .ok () => .ok m
      | .error e => .error e

/-- Load the default manifest; where there is no such file, it is empty. -/
def loadDefault (path : String) : File → Except ManifestError Manifest
  | .missing => .ok empty
  | file => load path file

end Manifest

end Switchboard
