import Switchboard.Proofs.ByteScans

/-!
# A reader over many steps

Words and what remains of a line can be asked for in any order, and the reader
can be taken back to the start at any time; a reading that fails leaves it where
it stands. It never leaves its line. Read from the start, the words come in the
order in which they stand in the line, and behind any of them the rest of the line
starts with the next one.

* `Step`, `perform`, `after`: what is done with a reader, and what becomes of it
* `Spaced`, `spaced_iff`: a text laid out as words and spaces, in one way only
* `ReadTo`, `readTo_afterWords`: where a reader stands after a number of words
* `reads_line`: any steps on a reader of a line, and reading it word by word
-/

namespace Switchboard

namespace Reader

/-! ### Steps -/

/-- What is done with a reader. -/
inductive Step where
  | word
  | remaining
  | reset
deriving DecidableEq, Repr

/-- The reader after a step. A reading that fails leaves it as it was. -/
def perform (r : Reader) : Step → Reader
  | .word =>
    match r.readWord with
    | .ok (_, next) => next
    | .error _ => r
  | .remaining =>
    match r.readRemaining with
    | .ok (_, next) => next
    | .error _ => r
  | .reset => r.reset

/-- The reader after one step after another. -/
def after (r : Reader) (steps : List Step) : Reader :=
  steps.foldl perform r

theorem after_append (r : Reader) (steps more : List Step) :
    r.after (steps ++ more) = (r.after steps).after more :=
  List.foldl_append

theorem perform_word_of_ne_nil {r : Reader} (h : r.rest ≠ []) :
    r.perform .word = ⟨r.passed ++ wordSpan r.rest, afterWord r.rest⟩ := by
  simp only [perform, readWord_of_ne_nil h]

theorem perform_word_of_nil {r : Reader} (h : r.rest = []) : r.perform .word = r := by
  simp only [perform, readWord_of_nil h]

theorem perform_remaining_start {r : Reader} (h : r.passed = []) : r.perform .remaining = r := by
  simp only [perform, readRemaining_start h]

theorem perform_remaining_of_ne_nil {r : Reader} (h : r.passed ≠ []) :
    r.perform .remaining = ⟨r.passed ++ r.rest, []⟩ := by
  by_cases hrest : r.rest = []
  · simp only [perform, readRemaining_of_nil h hrest]
    rw [hrest, List.append_nil, ← hrest]
  · simp only [perform, readRemaining_of_ne_nil h hrest]

/-- A step moves within the line. -/
theorem line_perform (r : Reader) (step : Step) :
    (r.perform step).passed ++ (r.perform step).rest = r.passed ++ r.rest := by
  cases step with
  | word =>
    by_cases hrest : r.rest = []
    · rw [perform_word_of_nil hrest]
    · rw [perform_word_of_ne_nil hrest, List.append_assoc, wordSpan_append_afterWord]
  | remaining =>
    by_cases hpassed : r.passed = []
    · rw [perform_remaining_start hpassed]
    · rw [perform_remaining_of_ne_nil hpassed, List.append_nil]
  | reset => rfl

theorem line_after (r : Reader) (steps : List Step) :
    (r.after steps).passed ++ (r.after steps).rest = r.passed ++ r.rest := by
  induction steps generalizing r with
  | nil => rfl
  | cons step steps ih => exact (ih (r.perform step)).trans (line_perform r step)

theorem input_after (line : String) (steps : List Step) :
    ((ofString line).after steps).input = line := by
  rw [input, line_after]
  exact input_ofString line

/-- Taken back to the start, a reader is as new. -/
theorem reset_after (line : String) (steps : List Step) :
    ((ofString line).after steps).reset = ofString line := by
  rw [reset, line_after]
  rfl

end Reader

/-! ### The layout of a line -/

namespace Text

/-- A text laid out as words with spaces between and around them. -/
inductive Spaced : List Char → List (List Char) → Prop
  | blank {gap : List Char} : (∀ c ∈ gap, c = ' ') → Spaced gap []
  | word {gap word rest : List Char} {words : List (List Char)} :
      (∀ c ∈ gap, c = ' ') → word ≠ [] → ' ' ∉ word → (rest = [] ∨ ∃ more, rest = ' ' :: more) →
      Spaced rest words → Spaced (gap ++ (word ++ rest)) (word :: words)

/-- The words of a layout are the runs of the text. -/
theorem Spaced.runs_eq {line : List Char} {words : List (List Char)} (h : Spaced line words) :
    runs line = words := by
  induction h with
  | blank hgap =>
    have hruns := runs_append_of_spaces hgap []
    rwa [List.append_nil] at hruns
  | word hgap hword hspace hrest _ ih =>
    rw [runs_append_of_spaces hgap, runs_append_of_break hrest, runs_eq_singleton hspace hword, ih]
    exact List.singleton_append

/-- Every text has a layout. -/
theorem exists_spaced (line : List Char) : ∃ words, Spaced line words := by
  induction hn : line.length using Nat.strongRecOn generalizing line with
  | ind n ih =>
    have hline := Reader.gap_append_afterGap line
    by_cases hg : Reader.afterGap line = []
    · -- nothing but spaces
      rw [hg, List.append_nil] at hline
      exact ⟨[], .blank (hline ▸ Reader.eq_space_of_mem_gap)⟩
    · -- a word, and what follows it
      have hcut := Reader.unspaced_append_afterUnspaced (Reader.afterGap line)
      have hgap : ∀ c ∈ Reader.gap line, c = ' ' := Reader.eq_space_of_mem_gap
      have hword := Reader.unspaced_ne_nil_of_afterGap hg
      have hlt : (Reader.afterUnspaced (Reader.afterGap line)).length < n := by
        have hlength := congrArg List.length hline
        have hlength' := congrArg List.length hcut
        have hpos := List.length_pos_iff.mpr hword
        rw [List.length_append] at hlength hlength'
        omega
      obtain ⟨words, hwords⟩ := ih _ hlt _ rfl
      have hspaced := Spaced.word hgap hword (Reader.space_not_mem_unspaced _)
        (Reader.afterUnspaced_eq_nil_or_cons _) hwords
      rw [hcut, hline] at hspaced
      exact ⟨_, hspaced⟩

theorem spaced_iff {line : List Char} {words : List (List Char)} :
    Spaced line words ↔ runs line = words := by
  constructor
  · exact Spaced.runs_eq
  · rintro rfl
    obtain ⟨words, h⟩ := exists_spaced line
    rwa [h.runs_eq]

/-- A text, cut before a word that has others before it: up to the cut stand those others and at
last a space, and behind the word a space or nothing. -/
structure CutAt (line : List Char) (k : Nat) (before word after : List Char) : Prop where
  line_eq : line = before ++ (word ++ after)
  word_eq : (runs line)[k]? = some word
  spaced_before : Spaced before ((runs line).take k)
  space_before : ∃ front, before = front ++ [' ']
  space_after : after = [] ∨ ∃ more, after = ' ' :: more

end Text

namespace Reader

/-! ### Reading word by word -/

/-- The reader after a number of words. -/
def afterWords (r : Reader) (k : Nat) : Reader :=
  r.after (List.replicate k .word)

theorem afterWords_succ (r : Reader) (k : Nat) :
    r.afterWords (k + 1) = (r.afterWords k).perform .word := by
  rw [afterWords, List.replicate_succ', after_append]
  rfl

/-- Where no space comes first, none is skipped. -/
theorem afterGap_of_head?_ne {cs : List Char} (h : cs.head? ≠ some ' ') : afterGap cs = cs := by
  cases cs with
  | nil => rfl
  | cons c cs =>
    rw [afterGap, List.dropWhile_cons, if_neg]
    intro hc
    rw [beq_iff_eq.mp hc] at h
    exact h rfl

/-- Where a reader of a line stands after a number of words: what remains has the other words of
the line, and starts with the first character of the next one, behind a space. -/
structure ReadTo (line : List Char) (k : Nat) (r : Reader) : Prop where
  line_eq : r.passed ++ r.rest = line
  words_rest : Text.words r.rest = (Text.words line).drop k
  at_word : k ≠ 0 → r.rest ≠ [] →
    r.rest.head? ≠ some ' ' ∧ ∃ front, r.passed = front ++ [' ']

/-- Only a space that is passed ends a word before the end of the line. -/
theorem exists_wordSpan_eq {cs : List Char} (h : afterWord cs ≠ []) :
    ∃ front, wordSpan cs = front ++ [' '] := by
  rcases afterUnspaced_eq_nil_or_cons (afterGap cs) with hnil | ⟨more, hmore⟩
  · exact absurd (by rw [afterWord, hnil]; rfl) h
  · rcases List.eq_nil_or_concat (gap (' ' :: more)) with hgap | ⟨spaces, last, hgap⟩
    · simp [gap] at hgap
    · have hmem : last ∈ gap (' ' :: more) := by
        rw [hgap, List.concat_eq_append]
        exact List.mem_append_right _ List.mem_cons_self
      have hlast : last = ' ' := eq_space_of_mem_gap last hmem
      rw [wordSpan, hmore, hgap, hlast, List.concat_eq_append, ← List.append_assoc]
      exact ⟨_, rfl⟩

namespace ReadTo

variable {line : List Char} {k : Nat} {r : Reader}

/-- One more word. -/
theorem next (h : ReadTo line k r) : ReadTo line (k + 1) (r.perform .word) := by
  have hdrop : (Text.words line).drop (k + 1) = (Text.words r.rest).drop 1 := by
    rw [h.words_rest, List.drop_drop]
  refine ⟨(line_perform r .word).trans h.line_eq, ?_, fun _ => ?_⟩
  · rw [hdrop]
    by_cases hrest : r.rest = []
    · rw [perform_word_of_nil hrest, hrest]
      rfl
    · rw [perform_word_of_ne_nil hrest, words_eq_cons hrest]
      rfl
  · intro hne
    by_cases hrest : r.rest = []
    · rw [perform_word_of_nil hrest] at hne
      exact absurd hrest hne
    · rw [perform_word_of_ne_nil hrest] at hne ⊢
      obtain ⟨front, hfront⟩ := exists_wordSpan_eq hne
      refine ⟨head?_afterGap_ne _, r.passed ++ front, ?_⟩
      rw [hfront, List.append_assoc]

/-- The next word of the line is the first word of what remains. -/
theorem firstWord_eq {word : List Char} (h : ReadTo line k r)
    (hword : (Text.words line)[k]? = some word) : r.rest ≠ [] ∧ firstWord r.rest = word := by
  have hfirst : (Text.words r.rest)[0]? = some word := by
    rw [h.words_rest, List.getElem?_drop]
    exact hword
  have hrest : r.rest ≠ [] := by
    intro hnil
    rw [hnil] at hfirst
    cases hfirst
  rw [words_eq_cons hrest] at hfirst
  exact ⟨hrest, Option.some.inj hfirst⟩

/-- As long as there is another word, reading gives it. -/
theorem readWord_eq {word : List Char} (h : ReadTo line k r)
    (hword : (Text.words line)[k]? = some word) :
    r.canRead = true ∧ r.readWord = .ok (String.ofList word, r.perform .word) := by
  obtain ⟨hrest, rfl⟩ := h.firstWord_eq hword
  rw [perform_word_of_ne_nil hrest, readWord_of_ne_nil hrest]
  exact ⟨(canRead_iff r).mpr hrest, rfl⟩

/-- After the last word nothing remains. -/
theorem rest_eq_nil (h : ReadTo line k r) (hk : (Text.words line).length ≤ k) : r.rest = [] := by
  rw [← Text.words_eq_nil_iff, h.words_rest]
  exact List.drop_eq_nil_iff.mpr hk

theorem position_eq (h : ReadTo line k r) (hk : (Text.words line).length ≤ k) :
    r.position = (String.ofList line).utf8ByteSize := by
  rw [position, ← h.line_eq, h.rest_eq_nil hk, List.append_nil]

/-- Behind some words the line is cut into their runs and the others. -/
theorem runs_eq (h : ReadTo line k r) (hk : k ≠ 0) (hrest : r.rest ≠ []) :
    Text.runs r.passed = (Text.runs line).take k ∧ Text.runs r.rest = (Text.runs line).drop k := by
  obtain ⟨hhead, front, hfront⟩ := h.at_word hk hrest
  have hsplit : Text.runs line = Text.runs r.passed ++ Text.runs r.rest := by
    have hpassed : Text.runs r.passed = Text.runs front := by
      rw [hfront, Text.runs_append_space]
      exact List.append_nil _
    rw [hpassed, ← Text.runs_append_space, ← h.line_eq, hfront, List.append_assoc,
      List.singleton_append]
  have hne : Text.runs r.rest ≠ [] := by
    rw [runs_eq_cons (by rwa [afterGap_of_head?_ne hhead])]
    exact List.cons_ne_nil _ _
  have hline : Text.runs line ≠ [] := by
    rw [hsplit]
    exact List.append_ne_nil_of_right_ne_nil _ hne
  have hdrop : Text.runs r.rest = (Text.runs line).drop k := by
    rw [← Text.words_of_runs_ne_nil hne, h.words_rest, Text.words_of_runs_ne_nil hline]
  have htake : Text.runs r.passed ++ Text.runs r.rest =
      (Text.runs line).take k ++ Text.runs r.rest := by
    rw [← hsplit, hdrop, List.take_append_drop]
  exact ⟨List.append_cancel_right htake, hdrop⟩

/-- Behind some words, what remains starts with the next one. -/
theorem exists_cutAt {word : List Char} (h : ReadTo line k r) (hk : k ≠ 0)
    (hword : (Text.words line)[k]? = some word) :
    ∃ before after next, Text.CutAt line k before word after ∧
      r.readRemaining = .ok (String.ofList (word ++ after), next) := by
  obtain ⟨hrest, rfl⟩ := h.firstWord_eq hword
  obtain ⟨hhead, hspace⟩ := h.at_word hk hrest
  obtain ⟨htake, hdrop⟩ := h.runs_eq hk hrest
  have hpassed : r.passed ≠ [] := by
    obtain ⟨front, hfront⟩ := hspace
    rw [hfront]
    exact List.append_ne_nil_of_right_ne_nil _ (List.cons_ne_nil _ _)
  -- no space is left to skip, so the next word comes first
  have hgap : afterGap r.rest = r.rest := afterGap_of_head?_ne hhead
  have hcut : firstWord r.rest ++ afterUnspaced r.rest = r.rest := by
    rw [firstWord, hgap, unspaced_append_afterUnspaced]
  have hrun : (Text.runs line)[k]? = some (firstWord r.rest) := by
    rw [← List.head?_drop, ← hdrop, runs_eq_cons (by rwa [hgap])]
    rfl
  refine ⟨r.passed, afterUnspaced r.rest, ⟨r.passed ++ r.rest, []⟩,
    ⟨?_, hrun, Text.spaced_iff.mpr htake, hspace, afterUnspaced_eq_nil_or_cons _⟩, ?_⟩
  · rw [hcut, h.line_eq]
  · rw [readRemaining_of_ne_nil hpassed hrest, hcut]

/-- Behind the last word nothing remains to be read. -/
theorem readRemaining_eq (h : ReadTo line k r) (hk : (Text.words line).length ≤ k)
    (hline : line ≠ []) : r.readRemaining = .error ⟨(String.ofList line).utf8ByteSize⟩ := by
  have hrest := h.rest_eq_nil hk
  have hpassed : r.passed ≠ [] := by
    intro hnil
    rw [← h.line_eq, hnil, hrest] at hline
    exact hline rfl
  rw [readRemaining_of_nil hpassed hrest, h.position_eq hk]

end ReadTo

theorem readTo_afterWords (line : String) (k : Nat) :
    ReadTo line.toList k ((ofString line).afterWords k) := by
  induction k with
  | zero => exact ⟨rfl, rfl, fun h => absurd rfl h⟩
  | succ k ih =>
    rw [afterWords_succ]
    exact ih.next

/-- A reader of a line, after any steps. Where it stands is a position of the line between two
characters, and whatever it reads is the slice of the line that a search of its bytes finds from
there. Taken back to the start it is as new; then it gives the words of the line in order, which
are its runs, or one empty word when it is blank, and fails at the end of the line. Behind some
words the rest of the line starts with the next one, or there is none. -/
theorem reads_line (line : String) (steps : List Step) :
    ((ofString line).after steps).Located line ∧
      ((ofString line).after steps).reset = ofString line ∧
      Text.Spaced line.toList (Text.runs line.toList) ∧
      (∀ k word, (Text.words line.toList)[k]? = some word →
        ((ofString line).afterWords k).canRead = true ∧
          ((ofString line).afterWords k).readWord =
            .ok (String.ofList word, (ofString line).afterWords (k + 1))) ∧
      (∀ k, (Text.words line.toList).length ≤ k →
        ((ofString line).afterWords k).canRead = false ∧
          ((ofString line).afterWords k).readWord = .error ⟨line.utf8ByteSize⟩) ∧
      ∀ k, k ≠ 0 → k ≤ (Text.words line.toList).length →
        (∀ word, (Text.words line.toList)[k]? = some word →
          ∃ before after next, Text.CutAt line.toList k before word after ∧
            ((ofString line).afterWords k).readRemaining =
              .ok (String.ofList (word ++ after), next)) ∧
        ((Text.words line.toList)[k]? = none →
          ((ofString line).afterWords k).readRemaining = .error ⟨line.utf8ByteSize⟩) := by
  have hsize : (String.ofList line.toList).utf8ByteSize = line.utf8ByteSize := by
    rw [String.ofList_toList]
  refine ⟨?_, reset_after line steps, Text.spaced_iff.mpr rfl, fun k word hword => ?_,
    fun k hk => ?_, fun k hk hle => ⟨fun word hword => ?_, fun hnone => ?_⟩⟩
  · have hlocated := located ((ofString line).after steps)
    rwa [input_after] at hlocated
  · rw [afterWords_succ]
    exact (readTo_afterWords line k).readWord_eq hword
  · have hread := readTo_afterWords line k
    have hrest := hread.rest_eq_nil hk
    rw [readWord_of_nil hrest, hread.position_eq hk, hsize]
    exact ⟨(canRead_eq_false_iff _).mpr hrest, rfl⟩
  · exact (readTo_afterWords line k).exists_cutAt hk hword
  · have hline : line.toList ≠ [] := by
      intro hnil
      rw [hnil] at hle
      exact hk (Nat.le_zero.mp hle)
    rw [← hsize]
    exact (readTo_afterWords line k).readRemaining_eq (List.getElem?_eq_none_iff.mp hnone) hline

end Reader

end Switchboard
