import Mathlib.Data.List.Induction
import Switchboard.Proofs.ReaderRuns

/-!
# Texts handed out once

Between two resets a reader moves forward, and what it hands out lies behind
everything it handed out before, with one exception: asked for what remains while
it stands at the start of a line, it gives the whole line and stays there, and
then gives the same text again.

* `Piece`, `pieces`: the texts handed out over a list of steps, with their places in the line
* `HandsOutOnce`: nothing can be read behind what remained, and no text is handed out twice
* `AsksAtStart`: what remains is asked for before anything was read
* `handsOutOnce_iff`: any steps on any line
-/

namespace Switchboard

namespace Reader

open Text

/-! ### What is handed out -/

/-- A text handed out, with the positions of the line it lies between. -/
structure Piece where
  start : Nat
  stop : Nat
  text : String
deriving DecidableEq, Repr

/-- What a step hands out; nothing if it fails or reads nothing. -/
def piece? (r : Reader) : Step → Option Piece
  | .word =>
    match r.readWord with
    | .ok (word, _) =>
      some ⟨(cuts r.input r.position).start, (cuts r.input r.position).stop, word⟩
    | .error _ => none
  | .remaining =>
    match r.readRemaining with
    | .ok (text, _) => some ⟨r.position, r.input.utf8ByteSize, text⟩
    | .error _ => none
  | .reset => none

/-- What is handed out step by step. -/
def pieces (r : Reader) : List Step → List Piece
  | [] => []
  | step :: steps => (r.piece? step).toList ++ (r.perform step).pieces steps

/-- What is handed out lies in the line. -/
theorem isSlice_of_piece? {r : Reader} {step : Step} {p : Piece} (h : r.piece? step = some p) :
    IsSlice r.input p.start p.stop p.text := by
  have hlocated := located r
  cases step with
  | word =>
    cases hcan : r.canRead with
    | false =>
      rw [piece?, hlocated.noWord hcan] at h
      cases h
    | true =>
      obtain ⟨word, next, hread, hslice, _⟩ := hlocated.word hcan
      rw [piece?, hread] at h
      obtain rfl := Option.some.inj h
      exact hslice
  | remaining =>
    by_cases hsome : r.position = 0 ∨ r.canRead = true
    · obtain ⟨text, next, hread, hslice, _⟩ := hlocated.remaining hsome
      rw [piece?, hread] at h
      obtain rfl := Option.some.inj h
      exact hslice
    · rw [not_or, Bool.not_eq_true] at hsome
      rw [piece?, hlocated.noRemaining hsome.1 hsome.2] at h
      cases h
  | reset => cases h

theorem isSlice_of_mem_pieces {r : Reader} {steps : List Step} {p : Piece}
    (h : p ∈ r.pieces steps) : IsSlice r.input p.start p.stop p.text := by
  induction steps generalizing r with
  | nil => cases h
  | cons step steps ih =>
    rcases List.mem_append.mp h with hhere | hlater
    · exact isSlice_of_piece? (Option.mem_toList.mp hhere)
    · have hslice := ih hlater
      rwa [input, line_perform] at hslice

/-- Over the given steps no text of the line is handed out twice. -/
structure HandsOutOnce (line : String) (steps : List Step) : Prop where
  exhausted : ∀ before later rest text next,
    steps = before ++ .remaining :: (later ++ rest) → .reset ∉ later →
      ((ofString line).after before).readRemaining = .ok (text, next) →
        (next.after later).canRead = false
  disjoint : ∀ before stretch rest, steps = before ++ (stretch ++ rest) → .reset ∉ stretch →
    (∀ p ∈ ((ofString line).after before).pieces stretch, IsSlice line p.start p.stop p.text) ∧
      (((ofString line).after before).pieces stretch).Pairwise fun p q => p.stop ≤ q.start

/-- What remains is asked for first of all, or first after a reset. -/
def AsksAtStart (steps : List Step) : Prop :=
  ∃ before rest, steps = before ++ .remaining :: rest ∧
    (before = [] ∨ ∃ front, before = front ++ [.reset])

/-! ### Where a reader stands between two resets -/

/-- At the end of a line a reader stays there. -/
theorem rest_after_eq_nil {r : Reader} {steps : List Step} (h : r.rest = [])
    (hsteps : .reset ∉ steps) : (r.after steps).rest = [] := by
  induction steps generalizing r with
  | nil => exact h
  | cons step steps ih =>
    rw [List.mem_cons, not_or] at hsteps
    apply ih (r := r.perform step) _ hsteps.2
    cases step with
    | word => rwa [perform_word_of_nil h]
    | remaining =>
      by_cases hpassed : r.passed = []
      · rwa [perform_remaining_start hpassed]
      · rw [perform_remaining_of_ne_nil hpassed]
    | reset => exact absurd rfl hsteps.1

/-- Behind what remained nothing is left, unless it was asked for at the start of a line. -/
theorem rest_of_readRemaining {r next : Reader} {text : String}
    (h : r.readRemaining = .ok (text, next)) (hr : r.passed ≠ [] ∨ r.rest = []) :
    next.rest = [] := by
  by_cases hpassed : r.passed = []
  · rw [readRemaining_start hpassed] at h
    obtain ⟨_, rfl⟩ := Prod.mk.inj (Except.ok.inj h)
    exact hr.resolve_left (not_not.mpr hpassed)
  · by_cases hrest : r.rest = []
    · rw [readRemaining_of_nil hpassed hrest] at h
      cases h
    · rw [readRemaining_of_ne_nil hpassed hrest] at h
      obtain ⟨_, rfl⟩ := Prod.mk.inj (Except.ok.inj h)
      rfl

/-- Where what remains is asked for behind other readings only, the reader has left the start. -/
theorem passed_ne_nil {line : String} {before rest : List Step} (hline : line ≠ "")
    (h : ¬ AsksAtStart (before ++ .remaining :: rest)) :
    ((ofString line).after before).passed ≠ [] := by
  induction before using List.reverseRecOn generalizing rest with
  | nil => exact absurd ⟨[], rest, rfl, .inl rfl⟩ h
  | append_singleton before step ih =>
    rw [List.append_assoc, List.singleton_append] at h
    rw [after_append]
    show (((ofString line).after before).perform step).passed ≠ []
    cases step with
    | word =>
      by_cases hrest : ((ofString line).after before).rest = []
      · rw [perform_word_of_nil hrest]
        -- at the end of the line all of it is passed
        have hwhole := line_after (ofString line) before
        rw [hrest, List.append_nil] at hwhole
        rw [hwhole]
        exact mt String.toList_eq_nil_iff.mp hline
      · rw [perform_word_of_ne_nil hrest]
        exact List.append_ne_nil_of_right_ne_nil _ (wordSpan_ne_nil hrest)
    | remaining =>
      have hpassed := ih h
      rw [perform_remaining_of_ne_nil hpassed]
      exact List.append_ne_nil_of_left_ne_nil hpassed _
    | reset =>
      refine absurd ⟨before ++ [.reset], rest, ?_, .inr ⟨before, rfl⟩⟩ h
      rw [List.append_assoc, List.singleton_append]

/-! ### The order of what is handed out -/

theorem position_le_perform {r : Reader} {step : Step} (h : step ≠ .reset) :
    r.position ≤ (r.perform step).position := by
  have hsize : ∀ more, r.position ≤ (String.ofList (r.passed ++ more)).utf8ByteSize := by
    intro more
    rw [String.ofList_append, String.utf8ByteSize_append]
    exact Nat.le_add_right _ _
  cases step with
  | word =>
    by_cases hrest : r.rest = []
    · rw [perform_word_of_nil hrest]
    · rw [perform_word_of_ne_nil hrest]
      exact hsize _
  | remaining =>
    by_cases hpassed : r.passed = []
    · rw [perform_remaining_start hpassed]
    · rw [perform_remaining_of_ne_nil hpassed]
      exact hsize _
  | reset => exact absurd rfl h

/-- A step hands out something in front of the reader and moves the reader behind it, unless it
asks for what remains at the start of a line. -/
theorem position_le_of_piece? {r : Reader} {step : Step} {p : Piece} (h : r.piece? step = some p)
    (hstep : step = .remaining → r.passed ≠ [] ∨ r.rest = []) :
    r.position ≤ p.start ∧ p.stop ≤ (r.perform step).position := by
  have hlocated := located r
  cases step with
  | word =>
    cases hcan : r.canRead with
    | false =>
      rw [piece?, hlocated.noWord hcan] at h
      cases h
    | true =>
      obtain ⟨word, next, hread, _, hnext⟩ := hlocated.word hcan
      rw [piece?, hread] at h
      obtain rfl := Option.some.inj h
      have hperform : r.perform .word = next := by simp only [perform, hread]
      rw [hperform, hnext]
      exact ⟨le_skipBytes _ _ _, le_skipBytes _ _ _⟩
  | remaining =>
    by_cases hpassed : r.passed = []
    · -- at the start of an empty line
      have hrest := (hstep rfl).resolve_left (not_not.mpr hpassed)
      rw [piece?, readRemaining_start hpassed] at h
      obtain rfl := Option.some.inj h
      rw [perform_remaining_start hpassed, input, hrest, List.append_nil]
      exact ⟨Nat.le_refl _, Nat.le_refl _⟩
    · by_cases hrest : r.rest = []
      · rw [piece?, readRemaining_of_nil hpassed hrest] at h
        cases h
      · rw [piece?, readRemaining_of_ne_nil hpassed hrest] at h
        obtain rfl := Option.some.inj h
        rw [perform_remaining_of_ne_nil hpassed]
        exact ⟨Nat.le_refl _, Nat.le_refl _⟩
  | reset => cases h

/-- A stretch of readings that does not ask for what remains at the start of a line hands out one
text behind the other. -/
theorem pairwise_pieces {r : Reader} {steps : List Step} (hsteps : .reset ∉ steps)
    (h : ∀ front rest, steps = front ++ .remaining :: rest →
      (r.after front).passed ≠ [] ∨ (r.after front).rest = []) :
    (∀ p ∈ r.pieces steps, r.position ≤ p.start) ∧
      (r.pieces steps).Pairwise fun p q => p.stop ≤ q.start := by
  induction steps generalizing r with
  | nil => exact ⟨fun p hp => (nomatch hp), .nil⟩
  | cons step steps ih =>
    rw [List.mem_cons, not_or] at hsteps
    have hmove : r.position ≤ (r.perform step).position :=
      position_le_perform (Ne.symm hsteps.1)
    have hhere : ∀ p ∈ (r.piece? step).toList,
        r.position ≤ p.start ∧ p.stop ≤ (r.perform step).position := by
      intro p hp
      apply position_le_of_piece? (Option.mem_toList.mp hp)
      rintro rfl
      exact h [] steps rfl
    obtain ⟨hlater, hpairwise⟩ := ih (r := r.perform step) hsteps.2 fun front rest heq =>
      h (step :: front) rest (by rw [heq]; rfl)
    refine ⟨fun p hp => ?_, List.pairwise_append.mpr ⟨?_, hpairwise, fun p hp q hq => ?_⟩⟩
    · rcases List.mem_append.mp hp with hp | hp
      · exact (hhere p hp).1
      · exact hmove.trans (hlater p hp)
    · cases r.piece? step with
      | none => exact .nil
      | some p => exact List.pairwise_singleton _ p
    · exact (hhere p hp).2.trans (hlater q hq)

/-- A line that is not empty is handed out at its start, and can still be read. -/
theorem not_handsOutOnce {line : String} {steps : List Step} (hline : line ≠ "")
    (h : AsksAtStart steps) : ¬ HandsOutOnce line steps := by
  intro honce
  obtain ⟨before, rest, rfl, hbefore⟩ := h
  have hstart : (ofString line).after before = ofString line := by
    rcases hbefore with rfl | ⟨front, rfl⟩
    · rfl
    · rw [after_append]
      exact reset_after line front
  have hread : ((ofString line).after before).readRemaining = .ok (line, ofString line) := by
    rw [hstart, readRemaining_start rfl, input_ofString]
  have hcan := honce.exhausted before [] rest _ _ rfl List.not_mem_nil hread
  exact hline (String.toList_eq_nil_iff.mp ((canRead_eq_false_iff (ofString line)).mp hcan))

/-- Over any steps on any line, the reader hands out no text twice, and nothing behind what
remained, exactly when the line is empty or what remains is never asked for before something was
read. -/
theorem handsOutOnce_iff (line : String) (steps : List Step) :
    HandsOutOnce line steps ↔ line = "" ∨ ¬ AsksAtStart steps := by
  constructor
  · intro h
    by_cases hline : line = ""
    · exact .inl hline
    · exact .inr fun hasks => not_handsOutOnce hline hasks h
  · intro h
    -- what remains is asked for on an empty line, or when the reader has left the start
    have hforward : ∀ before rest, steps = before ++ .remaining :: rest →
        ((ofString line).after before).passed ≠ [] ∨ ((ofString line).after before).rest = [] := by
      intro before rest hsteps
      by_cases hline : line = ""
      · right
        have hwhole := line_after (ofString line) before
        rw [hline] at hwhole ⊢
        exact (List.append_eq_nil_iff.mp hwhole).2
      · left
        rw [hsteps] at h
        exact passed_ne_nil hline (h.resolve_left hline)
    refine ⟨fun before later rest text next hsteps hlater hread => ?_,
      fun before stretch rest hsteps hstretch => ⟨fun p hp => ?_, ?_⟩⟩
    · rw [canRead_eq_false_iff]
      exact rest_after_eq_nil (rest_of_readRemaining hread (hforward before _ hsteps)) hlater
    · have hslice := isSlice_of_mem_pieces hp
      rwa [input_after] at hslice
    · refine (pairwise_pieces hstretch fun front more heq => ?_).2
      rw [← after_append]
      apply hforward (before ++ front) (more ++ rest)
      rw [hsteps, heq, List.append_assoc, List.append_assoc, List.cons_append]

/-- A line of one letter is handed out whole, and then its only word. -/
theorem letter_handed_out_twice :
    (ofString "a").pieces [.remaining, .word] = [⟨0, 1, "a"⟩, ⟨0, 1, "a"⟩] ∧
      ¬ HandsOutOnce "a" [.remaining, .word] := by
  have hpieces : (ofString "a").pieces [.remaining, .word] = [⟨0, 1, "a"⟩, ⟨0, 1, "a"⟩] := by
    decide +kernel
  refine ⟨hpieces, fun honce => ?_⟩
  have hpairwise := (honce.disjoint [] [.remaining, .word] [] rfl (by decide)).2
  have horder := List.rel_of_pairwise_cons (hpieces ▸ hpairwise) List.mem_cons_self
  exact absurd horder (by decide)

end Reader

end Switchboard
