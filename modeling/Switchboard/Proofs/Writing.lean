import Switchboard.Parsers
import Switchboard.Proofs.Reading

/-!
# Writing a line word by word

A line is written by putting words behind it, each after one space or more.
What is put there is read back, word by word: a text counts as a word when it
is neither empty nor cut by a space. The text of a scalar other than a
floating-point number stands for that scalar, so values can be written as well.

* `Text.written`: a line with words put behind it
* `Reader.wordsOf_written`: those words are read behind the words it had
* `Reader.wordsOf_append_spaces`, `Reader.wordsOf_spaces_append`: spaces at the ends do not count
* `Scalar.read?_text`: the text of a content is read as that content
* `Value.IsTypable`, `Value.isWord_text`: the values whose text is one word
-/

namespace Switchboard

namespace Text

/-- A text that is one word of a line. -/
def IsWord (text : String) : Prop :=
  text ≠ "" ∧ ' ' ∉ text.toList

instance (text : String) : Decidable (IsWord text) :=
  inferInstanceAs (Decidable (_ ∧ _))

def spaces (n : Nat) : String :=
  String.ofList (List.replicate n ' ')

/-- A line with words put behind it, each after one space and some more. -/
def written (line : String) (words : List (Nat × String)) : String :=
  words.foldl (fun line next => line ++ " " ++ (spaces next.1 ++ next.2)) line

theorem written_cons (line : String) (next : Nat × String) (words : List (Nat × String)) :
    written line (next :: words) = written (line ++ " " ++ (spaces next.1 ++ next.2)) words := rfl

theorem eq_space_of_mem_spaces {n : Nat} : ∀ c ∈ (spaces n).toList, c = ' ' := by
  intro c hc
  rw [spaces, String.toList_ofList] at hc
  exact List.eq_of_mem_replicate hc

/-- A text of spaces has no runs. -/
theorem runs_of_blank {cs : List Char} (h : ∀ c ∈ cs, c = ' ') : runs cs = [] := by
  have happ := runs_append_of_spaces h []
  rwa [List.append_nil] at happ

theorem runs_spaces (n : Nat) : runs (spaces n).toList = [] :=
  runs_of_blank eq_space_of_mem_spaces

theorem IsWord.runs_eq {text : String} (h : IsWord text) : runs text.toList = [text.toList] :=
  runs_eq_singleton h.2 fun hnil => h.1 (String.toList_eq_nil_iff.mp hnil)

/-- A word is no blank text. -/
theorem IsWord.exists_ne_space {text : String} (h : IsWord text) : ∃ c ∈ text.toList, c ≠ ' ' := by
  cases hcs : text.toList with
  | nil => exact absurd (String.toList_eq_nil_iff.mp hcs) h.1
  | cons c cs =>
    refine ⟨c, List.mem_cons_self, fun hc => h.2 ?_⟩
    rw [hcs, hc]
    exact List.mem_cons_self

theorem runs_spaces_append (n : Nat) (text : String) :
    runs (spaces n ++ text).toList = runs text.toList := by
  rw [String.toList_append, runs_append_of_spaces eq_space_of_mem_spaces]

end Text

/-! ### Reading what was written -/

namespace Reader

variable {line : String}

/-- A line of spaces has one word, which is empty, or none. -/
theorem wordsOf_of_blank (h : ∀ c ∈ line.toList, c = ' ') :
    Text.wordsOf line = [] ∨ Text.wordsOf line = [""] := by
  rw [Text.wordsOf, Text.words, Text.runs_of_blank h]
  by_cases hempty : line.toList.isEmpty = true
  · rw [if_pos hempty]
    exact .inl rfl
  · rw [if_neg hempty]
    exact .inr rfl

theorem wordsOf_word {word : String} (h : Text.IsWord word) : Text.wordsOf word = [word] := by
  rw [wordsOf_of_runs (by rw [h.runs_eq]; exact List.cons_ne_nil _ _), h.runs_eq]
  simp

theorem wordsOf_spaces_append (n : Nat) (h : ∃ c ∈ line.toList, c ≠ ' ') :
    Text.wordsOf (Text.spaces n ++ line) = Text.wordsOf line := by
  have hruns := runs_ne_nil h
  rw [wordsOf_of_runs hruns, wordsOf_of_runs (by rwa [Text.runs_spaces_append]),
    Text.runs_spaces_append]

theorem wordsOf_append_spaces (n : Nat) (h : ∃ c ∈ line.toList, c ≠ ' ') :
    Text.wordsOf (line ++ Text.spaces n) = Text.wordsOf line := by
  cases n with
  | zero => rw [show Text.spaces 0 = "" from rfl, String.append_empty]
  | succ n =>
    have hsplit : line ++ Text.spaces (n + 1) = line ++ " " ++ Text.spaces n := by
      apply String.toList_injective
      simp [Text.spaces, List.replicate_succ]
    rw [hsplit, wordsOf_append_space h, Text.runs_spaces, List.map_nil, List.append_nil]

/-- A word put behind a line that is not blank is read behind its words. -/
theorem wordsOf_append_word (n : Nat) {word : String} (h : ∃ c ∈ line.toList, c ≠ ' ')
    (hword : Text.IsWord word) :
    Text.wordsOf (line ++ " " ++ (Text.spaces n ++ word)) = Text.wordsOf line ++ [word] := by
  rw [wordsOf_append_space h, Text.runs_spaces_append, hword.runs_eq, List.map_singleton,
    String.ofList_toList]

theorem exists_ne_space_append (h : ∃ c ∈ line.toList, c ≠ ' ') (more : String) :
    ∃ c ∈ (line ++ more).toList, c ≠ ' ' := by
  obtain ⟨c, hc, hne⟩ := h
  refine ⟨c, ?_, hne⟩
  rw [String.toList_append]
  exact List.mem_append_left _ hc

theorem exists_ne_space_written (h : ∃ c ∈ line.toList, c ≠ ' ') (words : List (Nat × String)) :
    ∃ c ∈ (Text.written line words).toList, c ≠ ' ' := by
  induction words generalizing line with
  | nil => exact h
  | cons next words ih =>
    rw [Text.written_cons]
    exact ih (exists_ne_space_append (exists_ne_space_append h " ") _)

/-- The words put behind a line are read behind those it had. -/
theorem wordsOf_written (h : ∃ c ∈ line.toList, c ≠ ' ') {words : List (Nat × String)}
    (hwords : ∀ next ∈ words, Text.IsWord next.2) :
    Text.wordsOf (Text.written line words) = Text.wordsOf line ++ words.map Prod.snd := by
  induction words generalizing line with
  | nil => exact (List.append_nil _).symm
  | cons next words ih =>
    obtain ⟨hnext, hrest⟩ := List.forall_mem_cons.mp hwords
    have hline := exists_ne_space_append (exists_ne_space_append h " ")
      (Text.spaces next.1 ++ next.2)
    rw [Text.written_cons, ih hline hrest, wordsOf_append_word next.1 h hnext, List.append_assoc]
    rfl

end Reader

/-! ### Writing values -/

namespace IntKind

/-- A decimal numeral is a word. -/
theorem isWord_text (k : IntKind) (n : k.Range) : Text.IsWord (String.ofList (k.text n)) := by
  have hdigits : ∀ m : Nat, ' ' ∉ Nat.toDigits 10 m := by
    intro m hm
    exact absurd (Nat.isDigit_of_mem_toDigits (by omega) (by omega) hm) (by decide)
  constructor
  · intro hempty
    have hread := k.read?_text n
    rw [String.ofList_eq_empty_iff.mp hempty] at hread
    cases hread
  · rw [String.toList_ofList, text]
    cases n.val with
    | ofNat m => exact hdigits m
    | negSucc m =>
      intro hm
      rcases List.mem_cons.mp hm with hm | hm
      · cases hm
      · exact hdigits (m + 1) hm

end IntKind

namespace Scalar

def isFloat : Scalar → Bool
  | float _ => true
  | _ => false

/-- The text of a content stands for that content. -/
theorem read?_text {s : Scalar} (h : s.isFloat = false) (x : s.Carrier) :
    s.read? (s.text x) = some x := by
  cases s with
  | string => rfl
  | char => simp [read?, text]
  | bool => cases x <;> rfl
  | int k =>
    show k.read? (String.ofList (k.text x)).toList = some x
    rw [String.toList_ofList]
    exact k.read?_text x
  | float k => cases h

/-- What can be typed as one argument: of texts the non-empty ones without a space, of characters
all but the space. -/
def IsTypable : (s : Scalar) → s.Carrier → Prop
  | string, x => Text.IsWord x
  | char, x => x ≠ ' '
  | _, _ => True

instance : (s : Scalar) → (x : s.Carrier) → Decidable (s.IsTypable x)
  | string, x => inferInstanceAs (Decidable (Text.IsWord x))
  | char, x => inferInstanceAs (Decidable (x ≠ ' '))
  | bool, _ => isTrue trivial
  | int _, _ => isTrue trivial
  | float _, _ => isTrue trivial

theorem isWord_text {s : Scalar} (h : s.isFloat = false) {x : s.Carrier} (hx : s.IsTypable x) :
    Text.IsWord (s.text x) := by
  cases s with
  | string => exact hx
  | char =>
    have hx : ' ' ≠ x := Ne.symm hx
    simpa [Text.IsWord, text] using hx
  | bool => cases x <;> decide
  | int k => exact k.isWord_text x
  | float k => cases h

end Scalar

namespace Value

/-- A scalar that can be typed as one argument. -/
def IsTypable : Value → Prop
  | scalar s x => s.IsTypable x
  | _ => False

instance : (v : Value) → Decidable v.IsTypable
  | null => isFalse id
  | scalar s x => inferInstanceAs (Decidable (s.IsTypable x))
  | custom _ => isFalse id

end Value

/-- The built-in types other than the floating-point numbers. -/
def ParamType.IsExact : ParamType → Prop
  | .builtin s => s.isFloat = false
  | .custom _ => False

instance : (type : ParamType) → Decidable type.IsExact
  | .builtin s => inferInstanceAs (Decidable (s.isFloat = false))
  | .custom _ => isFalse id

theorem Value.isWord_text {type : ParamType} {v : Value} (htype : type.IsExact)
    (ha : type.accepts v = true) (hv : v.IsTypable) : Text.IsWord v.text := by
  cases type with
  | builtin s =>
    obtain ⟨x, rfl⟩ := (ParamType.accepts_builtin_iff s v).mp ha
    exact Scalar.isWord_text htype hv
  | custom tag => exact htype.elim

/-- The text of a value is read as that value. -/
theorem ParserRegistry.parse_text (parsers : ParserRegistry) {type : ParamType} {v : Value}
    (htype : type.IsExact) (ha : type.accepts v = true) : parsers.parse v.text type = .ok v := by
  cases type with
  | builtin s =>
    obtain ⟨x, rfl⟩ := (ParamType.accepts_builtin_iff s v).mp ha
    have hread : s.parse (s.text x) = .ok x := by
      rw [Scalar.parse, Scalar.read?_text htype]
    show (s.parse (s.text x)).map (Value.scalar s) = .ok (.scalar s x)
    rw [hread]
    rfl
  | custom tag => exact htype.elim

end Switchboard
