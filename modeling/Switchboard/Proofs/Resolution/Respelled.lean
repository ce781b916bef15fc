import Switchboard.Proofs.Registration.Lookup
import Switchboard.Proofs.Resolution.LeftToRight

/-!
# Other names for the same commands

A command is found under its name and under its aliases, in any letter case.
Where a line names a command, any other word that finds it may stand instead:
the line leads the same way, to the same command with the same arguments or to
the same failure. Which words of a line are names is decided by the line: at an
open parameter every word is an argument, also one that could be a name.

* `Node.FindsSame`: two words find one command
* `Node.WellNamed.findsSame_iff`: in a tree of commands, as soon as they find one child
* `scope?`: where the next word of a line is looked up as a name, if it is
* `Respelled`: two lines of words that differ in the spelling of names only
* `Respelled.walk_take`: they lead the same way word by word
* `resolve_respelled`: and have the same outcome
-/

namespace Switchboard

variable {σ : Type}

/-! ### Words for one command -/

namespace Node

/-- Two words find the same command below a node. -/
def FindsSame (n : Node σ) (word other : String) : Prop :=
  ∃ child command, n.find? word = some child ∧ n.find? other = some child ∧
    child.command? = some command

variable {n : Node σ} {word other : String}

/-- Which child is found depends on the name alone that a word stands for. -/
theorem find?_congr (h : n.canonical? word = n.canonical? other) :
    n.find? word = n.find? other := by
  rw [find?, find?, h]

theorem canonical?_congr_lower (n : Node σ) (h : Text.lower word = Text.lower other) :
    n.canonical? word = n.canonical? other := by
  rw [canonical?, canonical?, h]

/-- Words that stand for one name find one command, if they find any. -/
theorem FindsSame.of_canonical? (hsame : n.canonical? word = n.canonical? other)
    (hfound : ((n.find? word).bind Node.command?).isSome) : n.FindsSame word other := by
  obtain ⟨command, hcommand⟩ := Option.isSome_iff_exists.mp hfound
  obtain ⟨child, hchild, hcommand⟩ := Option.bind_eq_some_iff.mp hcommand
  have hother : n.find? other = some child := by rw [← find?_congr hsame, hchild]
  exact ⟨child, command, hchild, hother, hcommand⟩

/-- A command that was put below a node is found under its name and its aliases, in any letter
case. -/
theorem FindsSame.of_addChild {child : Node σ} {command : Command σ} {aliases : List String}
    (hcommand : child.command? = some command)
    (hword : Text.lower word ∈ (command.name :: aliases).map Text.lower)
    (hother : Text.lower other ∈ (command.name :: aliases).map Text.lower) :
    (n.addChild aliases child).FindsSame word other := by
  have hname : child.name? = some command.name := by rw [name?, hcommand, Option.map_some]
  refine ⟨child, command, ?_, ?_, hcommand⟩
  · rw [find?_addChild n aliases hname, if_pos hword]
  · rw [find?_addChild n aliases hname, if_pos hother]

/-- In a tree that is built by registration all that is found has a command, so two words that
find one child find one command. -/
theorem WellNamed.findsSame_iff (h : n.WellNamed) :
    n.FindsSame word other ↔ ∃ child, n.find? word = some child ∧ n.find? other = some child := by
  constructor
  · rintro ⟨child, _, hword, hother, _⟩
    exact ⟨child, hword, hother⟩
  · rintro ⟨child, hword, hother⟩
    obtain ⟨key, _, hchild⟩ := Option.bind_eq_some_iff.mp hword
    obtain ⟨command, hcommand, _⟩ := h.exists_command hchild
    exact ⟨child, command, hword, hother, hcommand⟩

/-- Either word enters the command alike. -/
theorem FindsSame.enter_eq (h : n.FindsSame word other) (context : Option Value)
    (carry : List Value) : n.enter context carry other = n.enter context carry word := by
  obtain ⟨child, command, hword, hother, hcommand⟩ := h
  rw [enter_of_child (child_eq_ok_iff.mpr ⟨hother, hcommand⟩),
    enter_of_child (child_eq_ok_iff.mpr ⟨hword, hcommand⟩)]

end Node

/-! ### Names in a line -/

namespace Dispatcher

/-- Where a word is looked up as a name, after some words before it: below the root at the start
of a line, and else below the node that the words lead to when no parameter is left open there.
Where one is open, or the words have failed, the next word is no name. -/
def scope? (d : Dispatcher σ) (context : Option Value) : List String → Option (Node σ)
  | [] => some d.root
  | first :: rest =>
    match d.walk context (first :: rest) with
    | .error _ => none
    | .ok place => if place.chain.nextType? = none then some place.node else none

/-- Other words for the names in a line: the two lists differ only where the first is read as the
name of a command, and there both words find the same one. -/
structure Respelled (d : Dispatcher σ) (context : Option Value) (words others : List String) :
    Prop where
  length_eq : others.length = words.length
  names : ∀ i word other, words[i]? = some word → others[i]? = some other → word ≠ other →
    ∃ node, d.scope? context (words.take i) = some node ∧ node.FindsSame word other

variable {d : Dispatcher σ} {context : Option Value} {words others : List String}

theorem scope?_of_walk {before : List String} {place : Place σ}
    (h : d.walk context before = .ok place) :
    d.scope? context before = if place.chain.nextType? = none then some place.node else none := by
  cases before with
  | nil => cases h
  | cons first rest =>
    rw [scope?]
    simp only [h]

theorem scope?_of_error {before : List String} {e : DispatchError} (hne : before ≠ [])
    (h : d.walk context before = .error e) : d.scope? context before = none := by
  cases before with
  | nil => exact absurd rfl hne
  | cons first rest =>
    rw [scope?]
    simp only [h]

/-- Words that lead the same way leave the next word in the same scope. -/
theorem scope?_congr {before before' : List String} (hnil : before' = [] ↔ before = [])
    (h : d.walk context before' = d.walk context before) :
    d.scope? context before' = d.scope? context before := by
  by_cases hne : before = []
  · rw [hne, hnil.mpr hne]
  · have hne' : before' ≠ [] := fun he => hne (hnil.mp he)
    cases hw : d.walk context before with
    | error e => rw [scope?_of_error hne hw, scope?_of_error hne' (h.trans hw)]
    | ok place => rw [scope?_of_walk hw, scope?_of_walk (h.trans hw)]

/-- Words that lead the same way do so with one word more. -/
theorem walk_concat_congr {before before' : List String} (hnil : before' = [] ↔ before = [])
    (h : d.walk context before' = d.walk context before) (word : String) :
    d.walk context (before' ++ [word]) = d.walk context (before ++ [word]) := by
  by_cases hne : before = []
  · rw [hne, hnil.mpr hne]
  · have hne' : before' ≠ [] := fun he => hne (hnil.mp he)
    rw [walk_append d context [word] hne', walk_append d context [word] hne, h]

/-- A name in scope may be spelled in another way. -/
theorem walk_concat_of_findsSame {before : List String} {node : Node σ} {word other : String}
    (hscope : d.scope? context before = some node) (h : node.FindsSame word other) :
    d.walk context (before ++ [other]) = d.walk context (before ++ [word]) := by
  by_cases hne : before = []
  · rw [hne, scope?] at hscope
    obtain rfl := Option.some.inj hscope
    rw [hne, List.nil_append, List.nil_append, walk, walk, h.enter_eq]
  · cases hw : d.walk context before with
    | error e =>
      rw [scope?_of_error hne hw] at hscope
      cases hscope
    | ok place =>
      rw [scope?_of_walk hw] at hscope
      split at hscope
      next hfull =>
        obtain rfl := Option.some.inj hscope
        rw [walk_concat hw, walk_concat hw, Place.step, Place.step, hfull]
        exact h.enter_eq context place.chain.bound
      next => cases hscope

namespace Respelled

theorem take_eq_nil_iff (h : d.Respelled context words others) (n : Nat) :
    others.take n = [] ↔ words.take n = [] := by
  rw [← List.length_eq_zero_iff, ← List.length_eq_zero_iff, List.length_take, List.length_take,
    h.length_eq]

/-- Word by word, both lists lead the same way. -/
theorem walk_take (h : d.Respelled context words others) (n : Nat) :
    d.walk context (others.take n) = d.walk context (words.take n) := by
  -- where the lists differ at a word, the scope is that of the words before, which `ih` is about
  induction n with
  | zero => rfl
  | succ n ih =>
    by_cases hn : n < words.length
    · have hn' : n < others.length := by rwa [h.length_eq]
      rw [List.take_add_one, List.take_add_one, List.getElem?_eq_getElem hn,
        List.getElem?_eq_getElem hn']
      show d.walk context (others.take n ++ [others[n]]) =
        d.walk context (words.take n ++ [words[n]])
      rw [walk_concat_congr (h.take_eq_nil_iff n) ih]
      by_cases hword : words[n] = others[n]
      · rw [hword]
      · obtain ⟨node, hscope, hsame⟩ := h.names n words[n] others[n]
          (List.getElem?_eq_getElem hn) (List.getElem?_eq_getElem hn') hword
        exact walk_concat_of_findsSame hscope hsame
    · have hle : words.length ≤ n := Nat.le_of_not_lt hn
      have hle' : others.length ≤ n := by rwa [h.length_eq]
      rw [List.take_of_length_le hle, List.take_of_length_le hle'] at ih
      rw [List.take_of_length_le (Nat.le_succ_of_le hle),
        List.take_of_length_le (Nat.le_succ_of_le hle'), ih]

theorem walk_eq (h : d.Respelled context words others) :
    d.walk context others = d.walk context words := by
  have htake := h.walk_take words.length
  rwa [List.take_length, List.take_of_length_le (Nat.le_of_eq h.length_eq)] at htake

/-- At every position the two lists read their words alike. -/
theorem scope?_take (h : d.Respelled context words others) (n : Nat) :
    d.scope? context (others.take n) = d.scope? context (words.take n) :=
  scope?_congr (h.take_eq_nil_iff n) (h.walk_take n)

/-- The words that are no names are the same in both. -/
theorem getElem?_of_scope?_eq_none (h : d.Respelled context words others) {i : Nat}
    (hi : d.scope? context (words.take i) = none) : others[i]? = words[i]? := by
  by_cases hlt : i < words.length
  · have hlt' : i < others.length := by rwa [h.length_eq]
    rw [List.getElem?_eq_getElem hlt, List.getElem?_eq_getElem hlt']
    by_contra hne
    have hword : words[i] ≠ others[i] := fun he => hne (congrArg some he.symm)
    obtain ⟨node, hscope, _⟩ := h.names i words[i] others[i]
      (List.getElem?_eq_getElem hlt) (List.getElem?_eq_getElem hlt') hword
    rw [hi] at hscope
    cases hscope
  · have hle : words.length ≤ i := Nat.le_of_not_lt hlt
    rw [List.getElem?_eq_none hle, List.getElem?_eq_none (by rwa [h.length_eq])]

end Respelled

/-- A line whose names are spelled in other ways, by other words that find the same commands, has
the same outcome. Its words are read alike at every position, and its arguments are the same. -/
theorem resolve_respelled (d : Dispatcher σ) (context : Option Value) {line other : String}
    (h : d.Respelled context (Reader.wordsRead line) (Reader.wordsRead other)) :
    d.resolve context other = (d.resolve context line).mapError (DispatchError.about other) ∧
    ∀ i, d.scope? context ((Reader.wordsRead other).take i) =
        d.scope? context ((Reader.wordsRead line).take i) ∧
      (d.scope? context ((Reader.wordsRead line).take i) = none →
        (Reader.wordsRead other)[i]? = (Reader.wordsRead line)[i]?) :=
  ⟨resolve_congr_walk h.walk_eq.symm,
    fun i => ⟨h.scope?_take i, h.getElem?_of_scope?_eq_none⟩⟩

/-- At the desk a call is named by its alias or its name, and `hold` is said in it first and names
the command below it then. -/
theorem resolve_respelled_desk :
    desk.Respelled (some operator) (Reader.wordsRead "c hold hold")
        (Reader.wordsRead "CALL hold Hold") ∧
      desk.resolve (some operator) "CALL hold Hold" =
        (desk.resolve (some operator) "c hold hold").mapError
          (DispatchError.about "CALL hold Hold") ∧
      (desk.resolve (some operator) "CALL hold Hold").toOption.map
        (fun r => (r.command.name, r.args.text)) = some ("hold", "[hold, null]") := by
  have hwords : Reader.wordsRead "c hold hold" = ["c", "hold", "hold"] := by
    rw [Reader.wordsRead_eq]
    decide +kernel
  have hothers : Reader.wordsRead "CALL hold Hold" = ["CALL", "hold", "Hold"] := by
    rw [Reader.wordsRead_eq]
    decide +kernel
  have hcall : desk.root.FindsSame "c" "CALL" := by
    simp only [desk]
    exact .of_addChild rfl (by decide +kernel) (by decide +kernel)
  have hhold : ∃ node, desk.scope? (some operator) ["c", "hold"] = some node ∧
      node.FindsSame "hold" "Hold" := by
    have hfound : (((desk.scope? (some operator) ["c", "hold"]).bind
        (·.find? "hold")).bind Node.command?).isSome := by
      decide +kernel
    cases hscope : desk.scope? (some operator) ["c", "hold"] with
    | none =>
      rw [hscope] at hfound
      cases hfound
    | some node =>
      rw [hscope] at hfound
      have hcase : Text.lower "hold" = Text.lower "Hold" := by decide +kernel
      exact ⟨node, rfl, .of_canonical? (node.canonical?_congr_lower hcase) hfound⟩
  have h : desk.Respelled (some operator) (Reader.wordsRead "c hold hold")
      (Reader.wordsRead "CALL hold Hold") := by
    rw [hwords, hothers]
    refine ⟨rfl, fun i word other hword hother hne => ?_⟩
    match i with
    | 0 =>
      obtain rfl := Option.some.inj hword
      obtain rfl := Option.some.inj hother
      exact ⟨desk.root, rfl, hcall⟩
    | 1 =>
      obtain rfl := Option.some.inj hword
      exact absurd (Option.some.inj hother) hne
    | 2 =>
      obtain rfl := Option.some.inj hword
      obtain rfl := Option.some.inj hother
      exact hhold
    | i + 3 => cases hword
  exact ⟨h, (resolve_respelled desk (some operator) h).1, by decide +kernel⟩

end Dispatcher

end Switchboard
