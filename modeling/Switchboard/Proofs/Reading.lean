import Mathlib.Data.List.TakeWhile
import Switchboard.Reader

/-!
# The words a reader hands out

A reader goes over a line character by character: it skips a gap, takes the
characters up to the next space and skips the gap behind them. Here that loop
is tied to the split of the line at its spaces.

* `words_eq_cons`: the first word of a text, and the words of what follows it
* `readAll_words`: a reader hands out the words of the text that remains
* `wordsRead_eq`: read from its start, a line gives its words
* `wordsOf_append_space`: further text behind a space only adds words
-/

namespace Switchboard

namespace Text

theorem runs_append_of_spaces {gap : List Char} (h : ∀ c ∈ gap, c = ' ') (line : List Char) :
    runs (gap ++ line) = runs line := by
  induction gap with
  | nil => rfl
  | cons c gap ih =>
    have hc : c = ' ' := h c List.mem_cons_self
    rw [hc, List.cons_append, runs_cons_space]
    exact ih fun c hm => h c (List.mem_cons_of_mem _ hm)

theorem runs_eq_singleton {word : List Char} (hs : ' ' ∉ word) (hw : word ≠ []) :
    runs word = [word] := by
  rw [runs, List.splitOn_eq_singleton hs]
  simp [hw]

/-- A text is cut where a space follows or nothing does. -/
theorem runs_append_of_break {rest : List Char} (h : rest = [] ∨ ∃ more, rest = ' ' :: more)
    (word : List Char) : runs (word ++ rest) = runs word ++ runs rest := by
  rcases h with hn | ⟨more, hm⟩
  · rw [hn, List.append_nil]
    exact (List.append_nil _).symm
  · rw [hm, runs_append_space, runs_cons_space]

end Text

namespace Reader

theorem eq_space_of_mem_gap {cs : List Char} : ∀ c ∈ gap cs, c = ' ' := by
  intro c hc
  simpa using List.mem_takeWhile_imp hc

theorem space_not_mem_unspaced (cs : List Char) : ' ' ∉ unspaced cs := by
  intro hm
  simpa using List.mem_takeWhile_imp hm

/-- What follows a gap is nothing or starts with the first character of a word. -/
theorem unspaced_ne_nil_of_afterGap {cs : List Char} (h : afterGap cs ≠ []) :
    unspaced (afterGap cs) ≠ [] := by
  have hhead := List.head?_dropWhile_not (· == ' ') cs
  cases hg : afterGap cs with
  | nil => exact absurd hg h
  | cons c rest =>
    rw [show cs.dropWhile (· == ' ') = c :: rest from hg] at hhead
    have hc : c ≠ ' ' := by simpa using hhead
    rw [unspaced, List.takeWhile_cons, if_pos (by simpa using hc)]
    exact List.cons_ne_nil c _

/-- What follows the characters of a word is nothing or starts with a space. -/
theorem afterUnspaced_eq_nil_or_cons (cs : List Char) :
    afterUnspaced cs = [] ∨ ∃ rest, afterUnspaced cs = ' ' :: rest := by
  have hhead := List.head?_dropWhile_not (· != ' ') cs
  cases hr : afterUnspaced cs with
  | nil => exact .inl rfl
  | cons c rest =>
    rw [show cs.dropWhile (· != ' ') = c :: rest from hr] at hhead
    have hc : c = ' ' := by simpa using hhead
    exact .inr ⟨rest, by rw [hc]⟩

theorem runs_afterGap (cs : List Char) : Text.runs (afterGap cs) = Text.runs cs := by
  rw [← Text.runs_append_of_spaces eq_space_of_mem_gap (afterGap cs), gap_append_afterGap]

/-- The first run of a text that is not all spaces is its first word. -/
theorem runs_eq_cons {cs : List Char} (h : afterGap cs ≠ []) :
    Text.runs cs = firstWord cs :: Text.runs (afterWord cs) := by
  have hfirst : Text.runs (unspaced (afterGap cs)) = [firstWord cs] :=
    Text.runs_eq_singleton (space_not_mem_unspaced _) (unspaced_ne_nil_of_afterGap h)
  have hafter : Text.runs (afterWord cs) = Text.runs (afterUnspaced (afterGap cs)) :=
    runs_afterGap _
  calc Text.runs cs = Text.runs (afterGap cs) := (runs_afterGap cs).symm
    _ = Text.runs (unspaced (afterGap cs) ++ afterUnspaced (afterGap cs)) := by
      rw [unspaced_append_afterUnspaced]
    _ = Text.runs (unspaced (afterGap cs)) ++ Text.runs (afterUnspaced (afterGap cs)) :=
      Text.runs_append_of_break (afterUnspaced_eq_nil_or_cons _) _
    _ = firstWord cs :: Text.runs (afterWord cs) := by
      rw [hfirst, hafter]
      exact List.singleton_append

/-- Behind a gap no blank text is left, so the exception for blank lines is out of reach. -/
theorem words_afterGap (cs : List Char) : Text.words (afterGap cs) = Text.runs (afterGap cs) := by
  by_cases h : afterGap cs = []
  · rw [h]
    rfl
  · apply Text.words_of_runs_ne_nil
    rw [runs_afterGap, runs_eq_cons h]
    exact List.cons_ne_nil _ _

theorem words_eq_cons {cs : List Char} (h : cs ≠ []) :
    Text.words cs = firstWord cs :: Text.words (afterWord cs) := by
  by_cases hg : afterGap cs = []
  · -- a blank text: its one word is empty, and nothing follows
    have hr : Text.runs cs = [] := by
      rw [← runs_afterGap, hg]
      rfl
    have hf : firstWord cs = [] := by
      rw [firstWord, hg]
      rfl
    have ha : afterWord cs = [] := by
      rw [afterWord, hg]
      rfl
    rw [hf, ha, Text.words, hr]
    simp [h, Text.words]
  · have hr := runs_eq_cons hg
    rw [Text.words_of_runs_ne_nil (by rw [hr]; exact List.cons_ne_nil _ _), hr]
    congr 1
    exact (words_afterGap _).symm

/-! ### The loop of a reader -/

/-- The loop reads off the words of the text that remains, wherever the reader stands. -/
theorem readAll_words (r : Reader) : r.readAll.1 = (Text.words r.rest).map String.ofList := by
  induction hn : r.rest.length using Nat.strongRecOn generalizing r with
  | ind n ih =>
    rw [readAll]
    split
    next hread =>
      have hrest : r.rest = [] := by
        simpa [canRead] using (readWord?_eq_none_iff r).mp hread
      rw [hrest]
      rfl
    next word next hread =>
      have hlt := length_rest_readWord? hread
      have htail := ih next.rest.length (hn ▸ hlt) next rfl
      simp only [readWord?] at hread
      split at hread
      next hcan =>
        have hne : r.rest ≠ [] := by simpa [canRead] using hcan
        simp only [Option.some.injEq, Prod.mk.injEq] at hread
        obtain ⟨rfl, rfl⟩ := hread
        rw [words_eq_cons hne, List.map_cons, ← htail]
      next => exact absurd hread (by simp)

/-- The words that reading a line from its start hands out, one after another. -/
def wordsRead (line : String) : List String :=
  (ofString line).readAll.1

theorem wordsRead_eq (line : String) : wordsRead line = Text.wordsOf line :=
  readAll_words (ofString line)

theorem runs_ne_nil {line : List Char} (h : ∃ c ∈ line, c ≠ ' ') : Text.runs line ≠ [] := by
  have hg : afterGap line ≠ [] := by
    intro hn
    obtain ⟨c, hc, hs⟩ := h
    have hall : ∀ c ∈ line, (c == ' ') = true := by
      exact List.dropWhile_eq_nil_iff.mp hn
    exact hs (by simpa using hall c hc)
  rw [runs_eq_cons hg]
  exact List.cons_ne_nil _ _

/-- The words of a line with runs are its runs. -/
theorem wordsOf_of_runs {line : String} (h : Text.runs line.toList ≠ []) :
    Text.wordsOf line = (Text.runs line.toList).map String.ofList := by
  rw [Text.wordsOf, Text.words_of_runs_ne_nil h]

theorem wordsOf_ne_nil {line : String} (h : ∃ c ∈ line.toList, c ≠ ' ') :
    Text.wordsOf line ≠ [] := by
  rw [wordsOf_of_runs (runs_ne_nil h)]
  simpa using runs_ne_nil h

/-- A line that is not blank keeps its words when a space and more text follow. -/
theorem wordsOf_append_space {line : String} (h : ∃ c ∈ line.toList, c ≠ ' ') (more : String) :
    Text.wordsOf (line ++ " " ++ more) =
      Text.wordsOf line ++ (Text.runs more.toList).map String.ofList := by
  have hl := runs_ne_nil h
  have hr : Text.runs (line ++ " " ++ more).toList =
      Text.runs line.toList ++ Text.runs more.toList := by
    have hcs : (line ++ " " ++ more).toList = line.toList ++ ' ' :: more.toList := by
      simp
    rw [hcs, Text.runs_append_space]
  have hne : Text.runs (line ++ " " ++ more).toList ≠ [] := by
    rw [hr]
    simp [hl]
  rw [wordsOf_of_runs hne, hr, List.map_append, wordsOf_of_runs hl]

end Reader

end Switchboard
