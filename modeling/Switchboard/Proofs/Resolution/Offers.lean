import Mathlib.Data.List.Induction
import Switchboard.Proofs.Resolution.Entries

/-!
# Words offered to parsers

A word is offered to the parser of a type where the words before it lead to a
command whose next parameter has the type. A resolution asks nothing else of
the parsers: an argument that does not parse was offered, and two dispatchers
over one tree go the same way up to a word that both offer to the parser of one
type, which the two parsers read differently.

* `Offer`: a moment of a line at which a word is offered to the parser of a type
* `exists_offer_of_parse`: a text that does not parse was offered
* `walk_eq_or_differs`: two runs over one tree part at a word that is read differently
* `exists_offers_of_ne`: the same, of lines that resolve differently
-/

namespace Switchboard

variable {σ : Type}

/-- A moment in the resolution of a line: the words before lead to a command whose next parameter
has the type, and the next word is to be read as it. -/
structure Offer (d : Dispatcher σ) (context : Option Value) (line : String) (type : ParamType) where
  before : List String
  word : String
  after : List String
  place : Place σ
  words_eq : Reader.wordsRead line = before ++ word :: after
  stands : d.walk context before = .ok place
  opens : place.chain.nextType? = some type

namespace Offer

variable {d : Dispatcher σ} {context : Option Value} {line : String} {type : ParamType}

/-- The parameter that the word is offered for. -/
theorem exists_parameter (o : Offer d context line type) :
    ∃ p, o.place.command.parameters[o.place.chain.cursor]? = some p ∧ p.type = type := by
  have hparameters : o.place.chain.parameters = o.place.command.parameters :=
    congrArg Chain.parameters (Dispatcher.grounded_of_walk o.stands).chain_eq
  have hopens := o.opens
  rw [Chain.nextType?, hparameters] at hopens
  exact Option.map_eq_some_iff.mp hopens

/-- The first parameter is not offered a word where it takes the context. -/
theorem cursor_ne_zero (o : Offer d context line type) {ctx : Value} (hctx : context = some ctx)
    (hr : Recognisable context) (ha : type.accepts ctx = true) : o.place.chain.cursor ≠ 0 := by
  intro hzero
  obtain ⟨p, hp, htype⟩ := o.exists_parameter
  obtain ⟨typed, _, hplace⟩ := Dispatcher.isSeated_of_walk hr o.stands
  have hbound : o.place.chain.bound = o.place.command.injected context ++ typed := by
    rw [hplace]
    rfl
  have hinjected : o.place.command.injected context = [] := by
    rw [Chain.cursor, hbound] at hzero
    exact (List.append_eq_nil_iff.mp (List.length_eq_zero_iff.mp hzero)).1
  have hfirst : o.place.command.firstType? = some type := by
    rw [hzero, ← List.head?_eq_getElem?] at hp
    rw [Command.firstType?, hp, ← htype]
    rfl
  simp only [Command.injected, hfirst, hctx, ha, if_true] at hinjected
  cases hinjected

end Offer

/-! ### Arguments that do not parse -/

namespace Place

/-- Entering a command reads no word. -/
theorem ne_parse_of_enter {n : Node σ} {context : Option Value} {carry : List Value}
    {word : String} {e : DispatchError} (h : n.enter context carry word = .error e)
    (source : ParseError) : e ≠ .parse source := by
  rintro rfl
  cases hchild : n.child word with
  | error e =>
    rw [Node.enter_of_child_error hchild, Node.child_error hchild] at h
    cases h
  | ok found =>
    rw [Node.enter_of_child hchild] at h
    split at h
    next => cases h
    next => cases h

theorem exists_type_of_parse {parsers : ParserRegistry} {context : Option Value} {p : Place σ}
    {word : String} {source : ParseError}
    (h : p.step parsers context word = .error (.parse source)) :
    ∃ type, p.chain.nextType? = some type ∧ parsers.parse word type = .error source := by
  unfold step at h
  split at h
  next type hnext =>
    refine ⟨type, hnext, ?_⟩
    unfold bind at h
    split at h
    next e hparse =>
      rw [hparse, DispatchError.parse.inj (Except.error.inj h)]
    next =>
      split at h
      next => cases h
      next => cases h
  next => exact absurd rfl (ne_parse_of_enter h source)

/-- A step asks the parsers for one thing at most: the word, read as the next type. -/
theorem step_congr {parsers parsers' : ParserRegistry} {p : Place σ} {word : String}
    (h : ∀ type, p.chain.nextType? = some type →
      parsers.parse word type = parsers'.parse word type) (context : Option Value) :
    p.step parsers context word = p.step parsers' context word := by
  unfold step
  cases hnext : p.chain.nextType? with
  | none => rfl
  | some type =>
    show p.bind parsers type word = p.bind parsers' type word
    rw [bind, bind, h type hnext]

end Place

namespace Dispatcher

/-- An argument that does not parse is a word that was offered. -/
theorem exists_offer_of_parse {d : Dispatcher σ} {context : Option Value} {line : String}
    {source : ParseError} (h : d.resolve context line = .error (.parse source)) :
    ∃ type, ∃ o : Offer d context line type, d.parsers.parse o.word type = .error source := by
  have hstep := exists_step_of_fault h trivial fun word he => by cases he
  obtain ⟨before, word, after, place, hwords, hstands, hword⟩ := hstep
  obtain ⟨type, hopens, hparse⟩ := Place.exists_type_of_parse hword
  exact ⟨type, ⟨before, word, after, place, hwords, hstands, hopens⟩, hparse⟩

/-! ### Two runs over one tree -/

variable {d d' : Dispatcher σ}

/-- Over one tree two dispatchers go the same way, or come to one place where a word is offered
that their parsers read differently. -/
theorem walk_eq_or_differs (hroot : d.root = d'.root) (context : Option Value)
    (words : List String) :
    d.walk context words = d'.walk context words ∨
      ∃ before word after place type, words = before ++ word :: after ∧
        d.walk context before = .ok place ∧ d'.walk context before = .ok place ∧
        place.chain.nextType? = some type ∧
        d.parsers.parse word type ≠ d'.parsers.parse word type := by
  -- by induction on the words taken: what differs before the last word differs in all of them
  induction words using List.reverseRecOn with
  | nil => exact .inl rfl
  | append_singleton words word ih =>
    rcases ih with hsame | ⟨before, early, after, place, type, hsplit, hrest⟩
    · cases hwalk : d.walk context words with
      | error e =>
        by_cases hnil : words = []
        · left
          rw [hnil]
          show (d.root.enter context [] word >>= pure) = (d'.root.enter context [] word >>= pure)
          rw [hroot]
        · left
          rw [walk_append_of_error [word] hnil hwalk,
            walk_append_of_error [word] hnil (hsame.symm.trans hwalk)]
      | ok place =>
        have hwalk' := hsame.symm.trans hwalk
        by_cases hread : ∀ type, place.chain.nextType? = some type →
            d.parsers.parse word type = d'.parsers.parse word type
        · left
          rw [walk_concat hwalk, walk_concat hwalk', Place.step_congr hread context]
        · right
          push Not at hread
          obtain ⟨type, hopens, hdiffers⟩ := hread
          exact ⟨words, word, [], place, type, rfl, hwalk, hwalk', hopens, hdiffers⟩
    · right
      refine ⟨before, early, after ++ [word], place, type, ?_, hrest⟩
      rw [hsplit, List.append_assoc, List.cons_append]

/-- A line that two dispatchers over one tree resolve differently has a word that both offer to
the parser of one type, at one place, and that the two parsers read differently. -/
theorem exists_offers_of_ne (hroot : d.root = d'.root) {context : Option Value} {line : String}
    (h : d.resolve context line ≠ d'.resolve context line) :
    ∃ type, ∃ (o : Offer d context line type) (o' : Offer d' context line type),
      o'.before = o.before ∧ o'.word = o.word ∧ o'.place = o.place ∧
        d.parsers.parse o.word type ≠ d'.parsers.parse o.word type := by
  rcases walk_eq_or_differs hroot context (Reader.wordsRead line) with hsame | hdiffers
  · rw [resolve_eq, resolve_eq, hsame] at h
    exact absurd rfl h
  · obtain ⟨before, word, after, place, type, hwords, hstands, hstands', hopens, hparse⟩ := hdiffers
    exact ⟨type, ⟨before, word, after, place, hwords, hstands, hopens⟩,
      ⟨before, word, after, place, hwords, hstands', hopens⟩, rfl, rfl, rfl, hparse⟩

end Dispatcher

end Switchboard
