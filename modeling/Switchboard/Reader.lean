import Switchboard.Text.Words

/-!
# Reading a line word by word

A reader stands somewhere in a line: it holds the characters it has passed and
those that remain, so every position it can take lies between two characters.
Positions are counted in UTF-8 bytes.

* `length_rest_readWord?`: reading a word makes progress
* `readWord?_eq_none_iff`: a word can be read as long as something remains
* `readWord_of_ne_nil`, `readRemaining_start` and those beside them: each way a reading can end
-/

namespace Switchboard

/-- Reading was tried at the end of the line. -/
structure OutOfRange where
  position : Nat
deriving DecidableEq, Repr

namespace OutOfRange

def message (e : OutOfRange) : String :=
  s!"read past end of input at position {e.position}"

end OutOfRange

/-- A place in a line. -/
structure Reader where
  passed : List Char
  rest : List Char
deriving DecidableEq, Repr

namespace Reader

/-- A reader before the first character of a line. -/
def ofString (line : String) : Reader :=
  ⟨[], line.toList⟩

/-- The whole line. -/
def input (r : Reader) : String :=
  String.ofList (r.passed ++ r.rest)

theorem input_ofString (line : String) : (ofString line).input = line :=
  String.ofList_toList

/-- The size of the text passed, in bytes. -/
def position (r : Reader) : Nat :=
  (String.ofList r.passed).utf8ByteSize

/-- Whether another word, perhaps an empty one, can be read. -/
def canRead (r : Reader) : Bool :=
  !r.rest.isEmpty

/-- Back to the first character. -/
def reset (r : Reader) : Reader :=
  ⟨[], r.passed ++ r.rest⟩

/-! ### Words -/

/-- The spaces before the next word. -/
def gap (cs : List Char) : List Char :=
  cs.takeWhile (· == ' ')

/-- What follows the leading spaces. -/
def afterGap (cs : List Char) : List Char :=
  cs.dropWhile (· == ' ')

/-- The characters up to the next space. -/
def unspaced (cs : List Char) : List Char :=
  cs.takeWhile (· != ' ')

/-- What follows the characters up to the next space. -/
def afterUnspaced (cs : List Char) : List Char :=
  cs.dropWhile (· != ' ')

theorem gap_append_afterGap (cs : List Char) : gap cs ++ afterGap cs = cs :=
  List.takeWhile_append_dropWhile

theorem unspaced_append_afterUnspaced (cs : List Char) : unspaced cs ++ afterUnspaced cs = cs :=
  List.takeWhile_append_dropWhile

/-- The next word. -/
def firstWord (cs : List Char) : List Char :=
  unspaced (afterGap cs)

/-- The next word with the spaces around it. -/
def wordSpan (cs : List Char) : List Char :=
  gap cs ++ firstWord cs ++ gap (afterUnspaced (afterGap cs))

/-- What follows the next word and the spaces after it. -/
def afterWord (cs : List Char) : List Char :=
  afterGap (afterUnspaced (afterGap cs))

theorem wordSpan_append_afterWord (cs : List Char) : wordSpan cs ++ afterWord cs = cs := by
  simp only [wordSpan, afterWord, firstWord, List.append_assoc, gap_append_afterGap,
    unspaced_append_afterUnspaced]

theorem wordSpan_ne_nil {cs : List Char} (h : cs ≠ []) : wordSpan cs ≠ [] := by
  cases cs with
  | nil => exact absurd rfl h
  | cons c cs =>
    by_cases hc : c = ' '
    · simp [wordSpan, gap, hc]
    · simp [wordSpan, gap, firstWord, unspaced, afterGap, hc]

theorem length_afterWord_lt {cs : List Char} (h : cs ≠ []) :
    (afterWord cs).length < cs.length := by
  have hl := congrArg List.length (wordSpan_append_afterWord cs)
  have hp := List.length_pos_iff.mpr (wordSpan_ne_nil h)
  simp only [List.length_append] at hl
  omega

/-- Read the next word and the spaces around it; nothing at the end of the line. -/
def readWord? (r : Reader) : Option (String × Reader) :=
  if r.canRead then
    some (String.ofList (firstWord r.rest), ⟨r.passed ++ wordSpan r.rest, afterWord r.rest⟩)
  else none

theorem readWord?_eq_none_iff (r : Reader) : r.readWord? = none ↔ r.canRead = false := by
  simp [readWord?]

theorem length_rest_readWord? {r next : Reader} {word : String}
    (h : r.readWord? = some (word, next)) : next.rest.length < r.rest.length := by
  simp only [readWord?] at h
  split at h
  next hc =>
    simp only [Option.some.injEq, Prod.mk.injEq] at h
    rw [← h.2]
    exact length_afterWord_lt (by simpa [canRead] using hc)
  · simp at h

/-- Read words to the end of the line. -/
def readAll (r : Reader) : List String × Reader :=
  match _h : r.readWord? with
  | none => ([], r)
  | some (word, next) =>
    let (words, last) := next.readAll
    (word :: words, last)
termination_by r.rest.length
decreasing_by exact length_rest_readWord? _h

/-! ### The remaining text -/

/-- Read everything that remains, unsplit. At the first character this is the whole line,
even an empty one, and the reader stays where it is. -/
def readRemaining? (r : Reader) : Option (String × Reader) :=
  if r.passed.isEmpty then some (r.input, r)
  else if r.canRead then some (String.ofList r.rest, ⟨r.passed ++ r.rest, []⟩)
  else none

/-! ### Reading with errors -/

/-- The failure of a reading at the present position. -/
def outOfRange (r : Reader) : OutOfRange :=
  ⟨r.position⟩

def readWord (r : Reader) : Except OutOfRange (String × Reader) :=
  match r.readWord? with
  | some step => .ok step
  | none => .error r.outOfRange

def readRemaining (r : Reader) : Except OutOfRange (String × Reader) :=
  match r.readRemaining? with
  | some step => .ok step
  | none => .error r.outOfRange

theorem canRead_iff (r : Reader) : r.canRead = true ↔ r.rest ≠ [] := by
  simp [canRead]

theorem canRead_eq_false_iff (r : Reader) : r.canRead = false ↔ r.rest = [] := by
  simp [canRead]

theorem readWord_of_ne_nil {r : Reader} (h : r.rest ≠ []) :
    r.readWord = .ok (String.ofList (firstWord r.rest),
      ⟨r.passed ++ wordSpan r.rest, afterWord r.rest⟩) := by
  simp [readWord, readWord?, canRead, h]

theorem readWord_of_nil {r : Reader} (h : r.rest = []) : r.readWord = .error ⟨r.position⟩ := by
  simp [readWord, readWord?, canRead, outOfRange, h]

theorem readRemaining_start {r : Reader} (h : r.passed = []) :
    r.readRemaining = .ok (r.input, r) := by
  simp [readRemaining, readRemaining?, h]

theorem readRemaining_of_ne_nil {r : Reader} (hpassed : r.passed ≠ []) (hrest : r.rest ≠ []) :
    r.readRemaining = .ok (String.ofList r.rest, ⟨r.passed ++ r.rest, []⟩) := by
  simp [readRemaining, readRemaining?, canRead, hpassed, hrest]

theorem readRemaining_of_nil {r : Reader} (hpassed : r.passed ≠ []) (hrest : r.rest = []) :
    r.readRemaining = .error ⟨r.position⟩ := by
  simp [readRemaining, readRemaining?, canRead, outOfRange, hpassed, hrest]

end Reader

end Switchboard
