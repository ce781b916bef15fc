import Switchboard.Proofs.Attempts
import Switchboard.Proofs.Reading
import Switchboard.Proofs.Resolution.Place

/-!
# How a resolution ends

A word of a line can be at fault in three ways. A line none of whose words is
at fault resolves at its end, or lacks arguments: that is the one failure that
is found only there.

* `isFault_of_walk`: a walk over words fails for one of three reasons
* `settle_eq`: the end of a line, where the place it led to has its arguments or lacks some
* `resolve_eq`: a line goes through its words and is settled at its end
* `resolve_of_step`: it fails as the first word does that shows a fault
-/

namespace Switchboard

variable {σ : Type}

/-! ### Faults -/

namespace DispatchError

/-- The failures that a word of the line shows: it finds no command, does not parse, or enters a
command that the values do not fit. -/
def IsFault : DispatchError → Prop
  | noMatchingCommand _ | parse _ | incompatibleArguments _ _ => True
  | _ => False

end DispatchError

namespace Node

theorem isFault_of_enter {n : Node σ} {context : Option Value} {carry : List Value}
    {word : String} {e : DispatchError} (h : n.enter context carry word = .error e) :
    e.IsFault := by
  cases hc : n.child word with
  | error e' =>
    rw [enter_of_child_error hc] at h
    have he : e' = e := Except.error.inj h
    rw [← he, child_error hc]
    trivial
  | ok found =>
    rw [enter_of_child hc] at h
    split at h
    next =>
      rw [← Except.error.inj h]
      trivial
    next => simp at h

end Node

namespace Place

theorem isFault_of_step {p : Place σ} {parsers : ParserRegistry} {context : Option Value}
    {word : String} {e : DispatchError} (h : p.step parsers context word = .error e) :
    e.IsFault := by
  cases hl : p.chain.left with
  | nil =>
    rw [step_of_left_nil hl] at h
    exact Node.isFault_of_enter h
  | cons next more =>
    rw [step_of_left_cons hl] at h
    split at h
    next =>
      rw [← Except.error.inj h]
      trivial
    next =>
      split at h
      next => simp at h
      next =>
        rw [← Except.error.inj h]
        trivial

/-- At the end of a line a place gives its arguments, or lacks some. -/
theorem settle_eq (p : Place σ) (line : String) :
    p.settle line =
      if p.chain.cursor < p.chain.boundary then .error (.tooFewArguments line)
      else .ok ⟨p.node, p.command,
        ⟨p.chain.bound ++ (p.chain.parameters.drop p.chain.cursor).map Parameter.fallback⟩⟩ := by
  unfold settle Chain.complete Chain.requiresFurther
  by_cases h : p.chain.cursor < p.chain.boundary
  · simp [h]
  · simp [h]

theorem settle_holding (node : Node σ) (command : Command σ) (values : List Value)
    (line : String) :
    settle ⟨node, command, command.holding values⟩ line =
      if values.length < command.boundary then .error (.tooFewArguments line)
      else .ok ⟨node, command, command.filled values⟩ := by
  rw [settle_eq, Command.boundary_holding]
  rfl

end Place

namespace Dispatcher

theorem isFault_of_walk {d : Dispatcher σ} {context : Option Value} {words : List String}
    {e : DispatchError} (hw : words ≠ []) (h : d.walk context words = .error e) : e.IsFault := by
  cases words with
  | nil => exact absurd rfl hw
  | cons first rest =>
    rw [walk] at h
    rcases bind_eq_error_iff.mp h with hfirst | ⟨start, _, hrest⟩
    · exact Node.isFault_of_enter hfirst
    · obtain ⟨place, word, _, hword⟩ := exists_of_foldlM_eq_error hrest
      exact Place.isFault_of_step hword

/-- A lack of arguments is not found at a word. -/
theorem ne_tooFewArguments_of_walk {d : Dispatcher σ} {context : Option Value}
    {words : List String} {e : DispatchError} (h : d.walk context words = .error e)
    (line : String) : e ≠ .tooFewArguments line := by
  intro he
  by_cases hw : words = []
  · rw [hw, walk, he] at h
    cases h
  · have hfault := isFault_of_walk hw h
    rw [he] at hfault
    exact hfault

theorem resolve_eq (d : Dispatcher σ) (context : Option Value) (line : String) :
    d.resolve context line =
      match d.walk context (Reader.wordsRead line) with
      | .error e => .error e
      | .ok place => place.settle line := by
  rw [resolve, Reader.wordsRead_eq]
  cases d.walk context (Text.wordsOf line) with
  | error e => rfl
  | ok place => rfl

theorem ne_nil_of_walk {d : Dispatcher σ} {context : Option Value} {words : List String}
    {place : Place σ} (h : d.walk context words = .ok place) : words ≠ [] := by
  intro hnil
  rw [hnil] at h
  cases h

theorem walk_concat {d : Dispatcher σ} {context : Option Value} {before : List String}
    {place : Place σ} (hstands : d.walk context before = .ok place) (word : String) :
    d.walk context (before ++ [word]) = place.step d.parsers context word := by
  rw [walk_append d context [word] (ne_nil_of_walk hstands), hstands]
  show [word].foldlM (Place.step d.parsers context) place = _
  simp only [List.foldlM_cons, List.foldlM_nil, bind_pure]

/-- What goes wrong at a word of a line is the answer for the line. -/
theorem resolve_of_step {d : Dispatcher σ} {context : Option Value} {line word : String}
    {before after : List String} {place : Place σ} {e : DispatchError}
    (hwords : Reader.wordsRead line = before ++ word :: after)
    (hstands : d.walk context before = .ok place)
    (hstep : place.step d.parsers context word = .error e) : d.resolve context line = .error e := by
  have hwalk : d.walk context (before ++ word :: after) = .error e := by
    rw [walk_append d context (word :: after) (ne_nil_of_walk hstands), hstands]
    show (word :: after).foldlM (Place.step d.parsers context) place = _
    rw [List.foldlM_cons, hstep]
    rfl
  rw [resolve_eq, hwords, hwalk]

/-- How a line fails, if it does. -/
def failure? (d : Dispatcher σ) (context : Option Value) (line : String) : Option DispatchError :=
  match d.resolve context line with
  | .error e => some e
  | .ok _ => none

theorem failure?_eq_some_iff {d : Dispatcher σ} {context : Option Value} {line : String}
    {e : DispatchError} : d.failure? context line = some e ↔ d.resolve context line = .error e := by
  unfold failure?
  cases d.resolve context line with
  | error e' => simp
  | ok r => simp

end Dispatcher

end Switchboard
