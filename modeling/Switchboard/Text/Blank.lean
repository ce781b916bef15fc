import Switchboard.Text.Ranges

/-!
# White space

The characters with the Unicode property White_Space, and trimming of them.
Names of commands may hold none of these characters; names of types are
trimmed of them.

* `trimBy_pad`: what is added of a class at the ends is trimmed again
* `exists_trimBy`: what is trimmed is of the class
* `trimBy_trimBy`: there is nothing to trim a second time
-/

namespace Switchboard.Text

/-- The code points with the Unicode property White_Space. -/
def blankRanges : Ranges :=
  [(0x9, 0xD), (0x20, 0x20), (0x85, 0x85), (0xA0, 0xA0), (0x1680, 0x1680), (0x2000, 0x200A),
    (0x2028, 0x2029), (0x202F, 0x202F), (0x205F, 0x205F), (0x3000, 0x3000)]

/-- White space in the sense of Unicode. -/
def isBlank (c : Char) : Bool :=
  blankRanges.contains c

/-! ### Trimming -/

/-- Drop the characters of a class from both ends. -/
def trimBy (p : Char → Bool) (cs : List Char) : List Char :=
  ((cs.dropWhile p).reverse.dropWhile p).reverse

/-- Drop white space from both ends. -/
def trim (s : String) : String :=
  String.ofList (trimBy isBlank s.toList)

section Trim

variable {p : Char → Bool} {cs before after : List Char}

theorem trimBy_append_left (h : ∀ c ∈ before, p c = true) :
    trimBy p (before ++ cs) = trimBy p cs := by
  rw [trimBy, List.dropWhile_append_of_pos h]
  rfl

theorem trimBy_append_right (h : ∀ c ∈ after, p c = true) :
    trimBy p (cs ++ after) = trimBy p cs := by
  have hafter : ∀ c ∈ after.reverse, p c = true := fun c hc => h c (List.mem_reverse.mp hc)
  unfold trimBy
  rw [List.dropWhile_append]
  split
  next hnil =>
    have hdrop : (after ++ []).dropWhile p = [].dropWhile p := List.dropWhile_append_of_pos h
    rw [List.append_nil] at hdrop
    rw [List.isEmpty_iff.mp hnil, hdrop]
    rfl
  next =>
    rw [List.reverse_append, List.dropWhile_append_of_pos hafter]

theorem trimBy_pad (hbefore : ∀ c ∈ before, p c = true) (hafter : ∀ c ∈ after, p c = true) :
    trimBy p (before ++ cs ++ after) = trimBy p cs := by
  rw [trimBy_append_right hafter, trimBy_append_left hbefore]

/-- A text is the trimmed one with characters of the class at its ends. -/
theorem exists_trimBy (p : Char → Bool) (cs : List Char) :
    ∃ before after, cs = before ++ trimBy p cs ++ after ∧ (∀ c ∈ before, p c = true) ∧
      ∀ c ∈ after, p c = true := by
  refine ⟨cs.takeWhile p, ((cs.dropWhile p).reverse.takeWhile p).reverse, ?_, ?_, ?_⟩
  · rw [trimBy, List.append_assoc, ← List.reverse_append, List.takeWhile_append_dropWhile,
      List.reverse_reverse, List.takeWhile_append_dropWhile]
  · exact List.all_eq_true.mp List.all_takeWhile
  · intro c hc
    exact List.all_eq_true.mp List.all_takeWhile c (List.mem_reverse.mp hc)

theorem trimBy_trimBy (p : Char → Bool) (cs : List Char) :
    trimBy p (trimBy p cs) = trimBy p cs := by
  obtain ⟨before, after, hcs, hbefore, hafter⟩ := exists_trimBy p cs
  calc trimBy p (trimBy p cs)
      = trimBy p (before ++ trimBy p cs ++ after) := (trimBy_pad hbefore hafter).symm
    _ = trimBy p cs := by rw [← hcs]

/-- Without a character of the class there is nothing to trim. -/
theorem trimBy_eq_self (h : ∀ c ∈ cs, p c = false) : trimBy p cs = cs := by
  obtain ⟨before, after, hcs, hbefore, hafter⟩ := exists_trimBy p cs
  have hnil : ∀ ends : List Char, ends ⊆ cs → (∀ c ∈ ends, p c = true) → ends = [] := by
    intro ends hsub hends
    rw [List.eq_nil_iff_forall_not_mem]
    intro c hc
    have hp := hends c hc
    rw [h c (hsub hc)] at hp
    cases hp
  have hfront : before ⊆ cs := by
    rw [hcs, List.append_assoc]
    exact List.subset_append_left before _
  have hback : after ⊆ cs := by
    rw [hcs]
    exact List.subset_append_right _ after
  rw [hnil before hfront hbefore, hnil after hback hafter, List.nil_append, List.append_nil] at hcs
  exact hcs.symm

theorem trimBy_eq_nil_iff : trimBy p cs = [] ↔ ∀ c ∈ cs, p c = true := by
  constructor
  · intro h
    obtain ⟨before, after, hcs, hbefore, hafter⟩ := exists_trimBy p cs
    rw [h, List.append_nil] at hcs
    rw [hcs]
    exact fun c hc => (List.mem_append.mp hc).elim (hbefore c) (hafter c)
  · intro h
    have hnil : trimBy p (cs ++ []) = trimBy p [] := trimBy_append_left h
    rwa [List.append_nil] at hnil

/-- Trimming does not mind a change of characters that keeps the class. -/
theorem trimBy_map {f : Char → Char} (h : ∀ c, p (f c) = p c) (cs : List Char) :
    trimBy p (cs.map f) = (trimBy p cs).map f := by
  have hcomp : p ∘ f = p := funext h
  unfold trimBy
  rw [List.dropWhile_map, hcomp, ← List.map_reverse, List.dropWhile_map, hcomp,
    ← List.map_reverse]

end Trim

end Switchboard.Text
