/-!
# Words of a line

A word is a maximal run of characters other than the space U+0020. A line of
spaces only has one word, the empty one, and the empty line has none.

* `runs_append_space`: a space between two texts joins their runs
* `words_eq_nil_iff`: only the empty line has no word
-/

namespace Switchboard.Text

/-- The maximal runs of characters other than the space, in order. -/
def runs (line : List Char) : List (List Char) :=
  (line.splitOn ' ').filter fun run => !run.isEmpty

/-- The words of a line: its runs, or one empty word when it holds nothing but spaces. -/
def words (line : List Char) : List (List Char) :=
  if line.isEmpty then []
  else if (runs line).isEmpty then [[]]
  else runs line

/-- The words of a line as texts. -/
def wordsOf (line : String) : List String :=
  (words line.toList).map String.ofList

theorem splitOn_append_space (line rest : List Char) :
    (line ++ ' ' :: rest).splitOn ' ' = line.splitOn ' ' ++ rest.splitOn ' ' := by
  exact List.splitOn_append_cons_self line rest

theorem runs_append_space (line rest : List Char) :
    runs (line ++ ' ' :: rest) = runs line ++ runs rest := by
  simp only [runs, splitOn_append_space, List.filter_append]

theorem runs_cons_space (line : List Char) : runs (' ' :: line) = runs line := by
  simpa [runs] using runs_append_space [] line

theorem words_eq_nil_iff (line : List Char) : words line = [] ↔ line = [] := by
  unfold words
  split
  next h => simpa using h
  next h =>
    split
    next => simpa using h
    next hr =>
      simp only [List.isEmpty_iff] at h hr
      simp [h, hr]

theorem words_of_runs_ne_nil {line : List Char} (h : runs line ≠ []) :
    words line = runs line := by
  unfold words
  split
  next he =>
    simp only [List.isEmpty_iff] at he
    subst he
    exact absurd rfl h
  next =>
    simp [h]

end Switchboard.Text
