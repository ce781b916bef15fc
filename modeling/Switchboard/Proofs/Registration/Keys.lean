import Switchboard.Proofs.Registration.Groups
import Switchboard.Proofs.Writing

/-!
# Lookup keys are words

A command is only put in the tree under names and aliases that were checked, so
every lookup key of a tree is one word of a line. What is no word, such as the
empty text, finds nothing anywhere.

* `isWord_lower_iff`: a text is one word in lower case exactly when it is one
* `Keyed`: the lookup keys of a node are words
* `Reachable.keyed`: they are, everywhere in a tree that calls lead to
-/

namespace Switchboard

variable {σ : Type}

namespace Text

theorem isWord_lower_iff (text : String) : IsWord (lower text) ↔ IsWord text := by
  have hspace : ' ' ∈ (lower text).toList ↔ ' ' ∈ text.toList := by
    rw [lower, String.toList_ofList]
    exact space_mem_lowerFrom_iff false text.toList
  rw [IsWord, IsWord, ne_eq, ne_eq, lower_eq_empty_iff, hspace]

end Text

theorem isWord_of_isValidName {name : String} (h : isValidName name = true) :
    Text.IsWord name := by
  refine ⟨fun hempty => ?_, space_not_mem_of_isValidName h⟩
  exact ((isValidName_iff name).mp h).1 (String.toList_eq_nil_iff.mpr hempty)

namespace Node

/-- The lookup keys of a node are words. -/
def Keyed (n : Node σ) : Prop :=
  ∀ key target, n.keys.find? key = some target → Text.IsWord key

/-- Only words find something. -/
theorem Keyed.isWord_of_find? {n child : Node σ} {word : String} (h : n.Keyed)
    (hfind : n.find? word = some child) : Text.IsWord word := by
  obtain ⟨target, htarget, _⟩ := Option.bind_eq_some_iff.mp hfind
  exact (Text.isWord_lower_iff word).mp (h _ target htarget)

theorem keyed_root : (root : Node σ).Keyed :=
  fun _ _ hk => nomatch hk

theorem keyed_leaf (command : Command σ) : (leaf command).Keyed :=
  fun _ _ hk => nomatch hk

theorem Keyed.addChild {n : Node σ} {aliases : List String} {command : Command σ} (h : n.Keyed)
    (hnames : ∀ name ∈ command.name :: aliases, Text.IsWord name) :
    (n.addChild aliases (.leaf command)).Keyed := by
  intro key target hk
  rw [keys_addChild aliases (name?_leaf command), find?_claim] at hk
  split at hk
  next hmem =>
    obtain ⟨name, hname, rfl⟩ := List.mem_map.mp hmem
    exact (Text.isWord_lower_iff name).mpr (hnames name hname)
  next => exact h key target hk

end Node

namespace CommandSpec

theorem Stageable.isWord_names {parsers : ParserRegistry} {spec : CommandSpec σ}
    (h : spec.Stageable parsers) : ∀ name ∈ spec.name :: spec.aliases, Text.IsWord name := by
  intro name hname
  rcases List.mem_cons.mp hname with rfl | hname
  · exact isWord_of_isValidName h.name
  · exact isWord_of_isValidName (h.aliases name hname)

end CommandSpec

/-- Everywhere in a tree that calls lead to, the lookup keys are words. -/
theorem Registrar.Reachable.keyed {r : Registrar σ} (h : r.Reachable) :
    r.root.Everywhere Node.Keyed := by
  refine h.invariant (I := fun r => r.root.Everywhere Node.Keyed)
    (Node.everywhere_root Node.keyed_root) (fun _ _ _ hr => hr) ?_
  intro r next specs hr hok
  obtain ⟨staged, root, hs, hall, rfl⟩ := register_eq_ok_iff_stagedAs.mp hok
  refine everywhere_attachAll (fun s _ => Node.keyed_leaf s.command) ?_ ?_ hall hr
  · intro s hmem n hn
    obtain ⟨spec, hspec, hstage⟩ := exists_left_of_forall₂ hs hmem
    obtain ⟨_, haliases, hname⟩ := CommandSpec.names_of_stage hstage
    refine hn.addChild ?_
    rw [haliases, hname]
    exact (hs.stageable spec hspec).isWord_names
  · intro n key child below hn _ _
    exact hn

end Switchboard
