import Switchboard.Text.Blank
import Switchboard.Trailing

/-!
# Names of commands

What may be the name or alias of a command, and alias lists written as one
text with commas.

* `isValidName_iff`: a valid name is not empty and holds no forbidden character
* `space_not_mem_of_isValidName`, `comma_not_mem_of_isValidName`: in particular no space and no
  comma
-/

namespace Switchboard

/-- Punctuation that no name may hold. -/
def namePunctuation : List Char :=
  [',', '.', '<', '>', '[', ']', '{', '}']

/-- Whether a character may stand in a name. -/
def isNameChar (c : Char) : Bool :=
  !(Text.isBlank c || namePunctuation.contains c)

/-- A valid name is not empty and holds neither white space nor the forbidden punctuation. -/
def isValidName (name : String) : Bool :=
  !name.toList.isEmpty && name.toList.all isNameChar

theorem isValidName_iff (name : String) :
    isValidName name = true ↔ name.toList ≠ [] ∧ ∀ c ∈ name.toList, isNameChar c = true := by
  simp [isValidName]

theorem isNameChar_space : isNameChar ' ' = false := by decide

theorem isNameChar_comma : isNameChar ',' = false := by decide

theorem space_not_mem_of_isValidName {name : String} (h : isValidName name = true) :
    ' ' ∉ name.toList := by
  intro hm
  have := ((isValidName_iff name).mp h).2 ' ' hm
  simp [isNameChar_space] at this

theorem comma_not_mem_of_isValidName {name : String} (h : isValidName name = true) :
    ',' ∉ name.toList := by
  intro hm
  have := ((isValidName_iff name).mp h).2 ',' hm
  simp [isNameChar_comma] at this

/-! ### Alias lists -/

/-- The items of a text between commas, without the spaces around them. -/
def aliasItems (list : List Char) : List (List Char) :=
  (list.splitOn ',').map (Text.trimBy (· == ' '))

/-- The aliases in a text. Without a comma the text is one alias as it stands; else each
comma ends an item, spaces around it are dropped, and so are empty items at the end. -/
def splitAliases (list : String) : List String :=
  if list.toList.contains ',' then
    let items := aliasItems list.toList
    (items.take (upToLast (!·.isEmpty) items)).map String.ofList
  else [list]

theorem splitAliases_of_not_mem {list : String} (h : ',' ∉ list.toList) :
    splitAliases list = [list] := by
  simp [splitAliases, h]

end Switchboard
