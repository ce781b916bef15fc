import Switchboard.Text.CaseTable

/-!
# Lower-casing of names

Names of commands are compared after full lower-casing in the sense of
Unicode: each character by its mapping, U+0130 by two characters, and the
capital sigma by its place, since it has its own form at the end of a word.

* `lowerFrom_append_space`: a space cuts the text, each side is lower-cased alone
* `lowerFrom_eq_nil_iff`: only the empty text becomes empty
* `space_mem_lowerFrom_iff`: no space appears and none is lost
-/

namespace Switchboard.Text

def isCased (c : Char) : Bool :=
  casedRanges.contains c

def isCaseIgnorable (c : Char) : Bool :=
  caseIgnorableRanges.contains c

theorem isCased_space : isCased ' ' = false := by decide +kernel

theorem isCaseIgnorable_space : isCaseIgnorable ' ' = false := by decide +kernel

/-! ### One character -/

/-- The simple lower-case mapping on code points. -/
def lowerCodePoint (n : Nat) : Nat :=
  match caseRuns.find? (·.covers n) with
  | some run => run.target + (n - run.first)
  | none => n

/-- The lower-case form of a character, a capital sigma taken as inside a word. -/
def lowerChar (c : Char) : List Char :=
  if c = 'İ' then ['i', '\u0307'] else [Char.ofNat (lowerCodePoint c.toNat)]

theorem lowerChar_ne_nil (c : Char) : lowerChar c ≠ [] := by
  unfold lowerChar
  split <;> simp

theorem lowerChar_space : lowerChar ' ' = [' '] := by decide +kernel

theorem caseRuns_targets : ∀ run ∈ caseRuns, 0x61 ≤ run.target := by decide +kernel

theorem lowerCodePoint_eq_or_ge (n : Nat) : lowerCodePoint n = n ∨ 0x61 ≤ lowerCodePoint n := by
  unfold lowerCodePoint
  split
  next run found =>
    have := caseRuns_targets run (List.mem_of_find?_eq_some found)
    omega
  next => exact .inl rfl

theorem toNat_ofNat (n : Nat) : (Char.ofNat n).toNat = if n.isValidChar then n else 0 := by
  by_cases h : n.isValidChar
  · rw [if_pos h, Char.ofNat, dif_pos h]
    rfl
  · rw [if_neg h, Char.ofNat, dif_neg h]
    rfl

theorem eq_space_of_ofNat {n : Nat} (h : Char.ofNat n = ' ') : n = 0x20 := by
  have hn := congrArg Char.toNat h
  rw [toNat_ofNat] at hn
  split at hn
  · exact hn
  · exact absurd hn (by decide)

theorem space_mem_lowerChar {c : Char} (h : ' ' ∈ lowerChar c) : c = ' ' := by
  unfold lowerChar at h
  split at h
  · simp at h
  · have hn := eq_space_of_ofNat (List.mem_singleton.mp h).symm
    rcases lowerCodePoint_eq_or_ge c.toNat with he | hg
    · have hc : c.toNat = ' '.toNat := by rw [← he, hn]; rfl
      exact Char.toNat_inj.mp hc
    · omega

/-! ### Text -/

/-- Whether the first character that is not ignorable exists and is cased. -/
def casedAhead : List Char → Bool
  | [] => false
  | c :: cs => if isCaseIgnorable c then casedAhead cs else isCased c

/-- The lower-case form of `c` before `cs`, where `afterCased` says whether the last
character before `c` that is not ignorable is cased. A capital sigma is final when such a
character precedes it and none follows. -/
def lowerCharIn (afterCased : Bool) (c : Char) (cs : List Char) : List Char :=
  if c = 'Σ' ∧ afterCased = true ∧ casedAhead cs = false then ['ς'] else lowerChar c

/-- Lower-case a text that follows a cased character or does not. -/
def lowerFrom (afterCased : Bool) : List Char → List Char
  | [] => []
  | c :: cs =>
    lowerCharIn afterCased c cs ++
      lowerFrom (if isCaseIgnorable c then afterCased else isCased c) cs

/-- The full lower-case form of a text. -/
def lower (s : String) : String :=
  String.ofList (lowerFrom false s.toList)

theorem lowerCharIn_ne_nil (b : Bool) (c : Char) (cs : List Char) : lowerCharIn b c cs ≠ [] := by
  unfold lowerCharIn
  split
  · simp
  · exact lowerChar_ne_nil c

theorem lowerFrom_eq_nil_iff (b : Bool) (cs : List Char) : lowerFrom b cs = [] ↔ cs = [] := by
  cases cs with
  | nil => simp [lowerFrom]
  | cons c cs => simp [lowerFrom, lowerCharIn_ne_nil]

theorem casedAhead_append_space (cs rest : List Char) :
    casedAhead (cs ++ ' ' :: rest) = casedAhead cs := by
  induction cs with
  | nil => simp [casedAhead, isCaseIgnorable_space, isCased_space]
  | cons c cs ih => simp only [List.cons_append, casedAhead, ih]

/-- A space is neither cased nor ignorable, so no context reaches across it. -/
theorem lowerFrom_append_space (b : Bool) (cs rest : List Char) :
    lowerFrom b (cs ++ ' ' :: rest) = lowerFrom b cs ++ ' ' :: lowerFrom false rest := by
  induction cs generalizing b with
  | nil =>
    simp [lowerFrom, lowerCharIn, lowerChar_space, isCaseIgnorable_space, isCased_space]
  | cons c cs ih =>
    simp only [List.cons_append, lowerFrom, lowerCharIn, casedAhead_append_space, ih,
      List.append_assoc]

theorem space_mem_lowerCharIn {b : Bool} {c : Char} {cs : List Char}
    (h : ' ' ∈ lowerCharIn b c cs) : c = ' ' := by
  unfold lowerCharIn at h
  split at h
  · simp at h
  · exact space_mem_lowerChar h

theorem space_mem_lowerFrom_iff (b : Bool) (cs : List Char) :
    ' ' ∈ lowerFrom b cs ↔ ' ' ∈ cs := by
  induction cs generalizing b with
  | nil => simp [lowerFrom]
  | cons c cs ih =>
    simp only [lowerFrom, List.mem_append, List.mem_cons, ih]
    constructor
    · rintro (h | h)
      · exact .inl (space_mem_lowerCharIn h).symm
      · exact .inr h
    · rintro (h | h)
      · subst h
        simp [lowerCharIn, lowerChar_space]
      · exact .inr h

theorem lower_eq_empty_iff (s : String) : lower s = "" ↔ s = "" := by
  constructor
  · intro h
    have := congrArg String.toList h
    simp only [lower, String.toList_ofList] at this
    exact String.toList_inj.mp (by simpa [lowerFrom_eq_nil_iff] using this)
  · rintro rfl
    rfl

end Switchboard.Text
