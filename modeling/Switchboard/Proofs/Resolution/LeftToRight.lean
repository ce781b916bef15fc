import Switchboard.Proofs.Resolution.Grammar

/-!
# Lines are read from left to right

A resolution sees the words of a line and nothing else of it, apart from the
one failure that repeats the line. It takes no word back: a fault found at
some word is the answer for every line that goes on behind it.

* `resolve_congr_walk`: lines whose words lead the same way have the same outcome
* `resolve_congr_words`: so have lines with the same words
* `resolve_append_of_fault`: a fault stays when more text follows
* `resolve_left_to_right`: both, with the line that a lack of arguments repeats
-/

namespace Switchboard

variable {σ : Type}

namespace DispatchError

/-- The failure as another line with the same words has it. -/
def about (line : String) : DispatchError → DispatchError
  | tooFewArguments _ => tooFewArguments line
  | e => e

theorem about_of_ne {e : DispatchError} (h : ∀ found, e ≠ .tooFewArguments found)
    (line : String) : e.about line = e := by
  cases e with
  | tooFewArguments found => exact absurd rfl (h found)
  | _ => rfl

end DispatchError

namespace Dispatcher

variable {d : Dispatcher σ} {context : Option Value}

/-- Lines whose words lead to one place, or fail alike, have one outcome. -/
theorem resolve_congr_walk {line other : String}
    (h : d.walk context (Reader.wordsRead line) = d.walk context (Reader.wordsRead other)) :
    d.resolve context other = (d.resolve context line).mapError (DispatchError.about other) := by
  rw [resolve_eq, resolve_eq, h]
  cases hw : d.walk context (Reader.wordsRead other) with
  | error e =>
    show Except.error e = Except.error (e.about other)
    rw [DispatchError.about_of_ne (ne_tooFewArguments_of_walk hw)]
  | ok place =>
    simp only [Place.settle_eq]
    by_cases hlen : place.chain.cursor < place.chain.boundary
    · rw [if_pos hlen, if_pos hlen]
      rfl
    · rw [if_neg hlen, if_neg hlen]
      rfl

/-- Only the words of a line matter. -/
theorem resolve_congr_words {line other : String}
    (h : Reader.wordsRead line = Reader.wordsRead other) :
    d.resolve context other = (d.resolve context line).mapError (DispatchError.about other) :=
  resolve_congr_walk (congrArg (d.walk context) h)

/-- A lack of arguments repeats the line as it was written. -/
theorem line_of_tooFewArguments {line found : String}
    (h : d.resolve context line = .error (.tooFewArguments found)) : found = line := by
  have hsame : d.resolve context line =
      (d.resolve context line).mapError (DispatchError.about line) := resolve_congr_words rfl
  rw [h] at hsame
  have herror := Except.error.inj hsame
  exact DispatchError.tooFewArguments.inj herror

/-- A fault comes from the words, before the end of the line is looked at. -/
theorem walk_of_fault {line : String} {e : DispatchError}
    (h : d.resolve context line = .error e) (he : e.IsFault) :
    d.walk context (Reader.wordsRead line) = .error e := by
  rw [resolve_eq] at h
  cases hw : d.walk context (Reader.wordsRead line) with
  | error e' =>
    rw [hw] at h
    rw [Except.error.inj h]
  | ok place =>
    simp only [hw, Place.settle_eq] at h
    split at h
    next =>
      rw [← Except.error.inj h] at he
      exact he.elim
    next => cases h

theorem resolve_append_of_fault {line : String} {e : DispatchError}
    (hline : ∃ c ∈ line.toList, c ≠ ' ') (h : d.resolve context line = .error e)
    (he : e.IsFault) (more : String) : d.resolve context (line ++ " " ++ more) = .error e := by
  have hwalk := walk_of_fault h he
  rw [Reader.wordsRead_eq] at hwalk
  rw [resolve_eq, Reader.wordsRead_eq, Reader.wordsOf_append_space hline,
    walk_append_of_error _ (Reader.wordsOf_ne_nil hline) hwalk]

/-- A line is resolved from its words alone, and what has gone wrong at one of them stays wrong
whatever follows. -/
theorem resolve_left_to_right (d : Dispatcher σ) (context : Option Value) :
    (∀ line other, Reader.wordsRead line = Reader.wordsRead other →
      d.resolve context other = (d.resolve context line).mapError (DispatchError.about other)) ∧
    (∀ line found, d.resolve context line = .error (.tooFewArguments found) → found = line) ∧
    ∀ line more e, (∃ c ∈ line.toList, c ≠ ' ') → d.resolve context line = .error e → e.IsFault →
      d.resolve context (line ++ " " ++ more) = .error e :=
  ⟨fun _ _ => resolve_congr_words, fun _ _ => line_of_tooFewArguments,
    fun _ more _ hline h he => resolve_append_of_fault hline h he more⟩

/-- Spaces around a call at the desk change nothing but the line repeated, and without a session
a call is refused whatever follows. -/
theorem resolve_left_to_right_desk :
    desk.resolve none " c " = (desk.resolve none "c").mapError (DispatchError.about " c ") ∧
      desk.resolve none ("c paris" ++ " " ++ "hold") =
        .error (.parse ⟨"no parser for type 'session'", "paris"⟩) := by
  have hwords : Reader.wordsRead "c" = Reader.wordsRead " c " := by
    rw [Reader.wordsRead_eq, Reader.wordsRead_eq]
    decide +kernel
  have hfault : desk.resolve none "c paris" =
      .error (.parse ⟨"no parser for type 'session'", "paris"⟩) := by
    rw [← failure?_eq_some_iff]
    decide +kernel
  obtain ⟨hsame, _, hstays⟩ := resolve_left_to_right desk none
  exact ⟨hsame _ _ hwords, hstays _ "hold" _ ⟨'c', by decide, by decide⟩ hfault trivial⟩

end Dispatcher

end Switchboard
