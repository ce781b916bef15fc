import Mathlib.Data.List.Nodup
import Mathlib.Data.Option.Basic
import Switchboard.Proofs.Registration.Keys
import Switchboard.Proofs.Registration.Origins
import Switchboard.Proofs.Resolution.Outcome

/-!
# The tables of a node fit together

A node keeps its children under their lower-cased names, and beside them the
lookup keys, each with the name it leads to. Whatever calls have built a tree,
with aliases taken over, commands replaced and groups given up halfway, the two
tables of every node fit together: a lookup fails only for want of a key, and a
blank line reaches no command.

* `Linked`: every lookup key leads to a child, and nothing is kept twice
* `Consistent`: the children are commands under their own names as well, and the keys are words
* `Consistent.find?_eq_none_iff`: what is found below such a node, and what is not
* `walk_empty`: the empty word of a blank line leads nowhere
* `consistent_tables`: all of this, for the trees that calls lead to
-/

namespace Switchboard

variable {σ : Type}

theorem Table.find?_eq_none_iff {κ β : Type} [DecidableEq κ] (t : Table κ β) (key : κ) :
    t.find? key = none ↔ key ∉ t.keys := by
  rw [Table.mem_keys_iff]
  cases t.find? key with
  | none => simp
  | some value => simp

namespace Node

/-! ### Linked tables -/

/-- No key of either table comes twice, and every lookup key leads to a child. -/
structure Linked (n : Node σ) : Prop where
  nodup_children : n.children.keys.Nodup
  nodup_keys : n.keys.keys.Nodup
  leads : ∀ key target, n.keys.find? key = some target →
    ∃ child, n.children.find? target = some child

theorem linked_root : (root : Node σ).Linked :=
  ⟨.nil, .nil, fun _ _ hk => nomatch hk⟩

theorem linked_leaf (command : Command σ) : (leaf command).Linked :=
  ⟨.nil, .nil, fun _ _ hk => nomatch hk⟩

theorem nodup_keys_claim {keys : Table String String} (h : keys.keys.Nodup) (target : String)
    (names : List String) : (claim keys target names).keys.Nodup := by
  induction names generalizing keys with
  | nil => exact h
  | cons name names ih => exact ih (Table.nodup_keys_insert h (Text.lower name) target)

/-- A child that was there is still there, or another one is in its place. -/
theorem exists_find?_insert {children : Table String (Node σ)} {key : String}
    (h : ∃ child, children.find? key = some child) (other : String) (child : Node σ) :
    ∃ found, (children.insert other child).find? key = some found := by
  rw [Table.find?_insert]
  split
  next => exact ⟨child, rfl⟩
  next => exact h

theorem Linked.addChild {n child : Node σ} {name : String} (aliases : List String)
    (hname : child.name? = some name) (h : n.Linked) : (n.addChild aliases child).Linked := by
  constructor
  · rw [children_addChild aliases hname]
    exact Table.nodup_keys_insert h.nodup_children _ child
  · rw [keys_addChild aliases hname]
    exact nodup_keys_claim h.nodup_keys _ _
  · intro key target hk
    rw [keys_addChild aliases hname, find?_claim] at hk
    rw [children_addChild aliases hname]
    split at hk
    next =>
      -- a name or alias of the new child, which is there
      obtain rfl := Option.some.inj hk
      exact ⟨child, Table.find?_insert_self _ _ _⟩
    next => exact exists_find?_insert (h.leads key target hk) _ child

theorem Linked.replaceChild {n : Node σ} (h : n.Linked) (key : String) (below : Node σ) :
    (n.replaceChild key below).Linked := by
  constructor
  · exact Table.nodup_keys_insert h.nodup_children key below
  · exact h.nodup_keys
  · intro other target hk
    exact exists_find?_insert (h.leads other target hk) key below

end Node

theorem Registrar.Reachable.linked {r : Registrar σ} (h : r.Reachable) :
    r.root.Everywhere Node.Linked := by
  refine h.tree_invariant (Node.everywhere_root Node.linked_root) ?_
  intro root s changed hroot hattach
  exact Staged.everywhere_attach (Node.linked_leaf s.command)
    (fun _ hn => hn.addChild s.aliases (Node.name?_leaf s.command))
    (fun _ key _ below hn _ _ => hn.replaceChild key below) hattach hroot

/-! ### Consistent nodes -/

namespace Node

/-- The tables of a node fit together: what is kept as a child is a command, under its own
lower-cased name, and each lookup key is a word that leads to a child. -/
structure Consistent (n : Node σ) : Prop where
  nodup_children : n.children.keys.Nodup
  nodup_keys : n.keys.keys.Nodup
  child : ∀ key child, (key, child) ∈ n.children.entries →
    ∃ command, child.command? = some command ∧ Text.lower command.name = key
  leads : ∀ key target, (key, target) ∈ n.keys.entries →
    ∃ child, n.children.find? target = some child
  isWord : ∀ key ∈ n.keys.keys, Text.IsWord key

theorem consistent_of_linked {n : Node σ} (hlinked : n.Linked) (hnamed : n.WellNamed)
    (hkeyed : n.Keyed) : n.Consistent := by
  refine ⟨hlinked.nodup_children, hlinked.nodup_keys, ?_, ?_, ?_⟩
  · intro key child hmem
    exact hnamed.exists_command (Table.find?_of_mem hlinked.nodup_children hmem)
  · intro key target hmem
    exact hlinked.leads key target (Table.find?_of_mem hlinked.nodup_keys hmem)
  · intro key hmem
    obtain ⟨target, hk⟩ := (Table.mem_keys_iff _ key).mp hmem
    exact hkeyed key target hk

namespace Consistent

variable {n : Node σ}

/-- Names are unique among siblings, letter case aside. -/
theorem nodup_names (h : n.Consistent) :
    (n.children.values.map fun child => child.name?.map Text.lower).Nodup := by
  have hnames : (n.children.values.map fun child => child.name?.map Text.lower) =
      n.children.keys.map some := by
    rw [Table.values, Table.keys, List.map_map, List.map_map]
    refine List.map_congr_left fun entry hmem => ?_
    obtain ⟨command, hcommand, hname⟩ := h.child entry.1 entry.2 hmem
    simp only [Function.comp_apply, name?, hcommand, Option.map_some, hname]
  rw [hnames]
  exact h.nodup_children.map (Option.some_injective String)

/-- A lookup finds nothing only for a key that is absent. -/
theorem find?_eq_none_iff (h : n.Consistent) (word : String) :
    n.find? word = none ↔ Text.lower word ∉ n.keys.keys := by
  rw [← Table.find?_eq_none_iff, find?, canonical?]
  cases hk : n.keys.find? (Text.lower word) with
  | none => simp
  | some target =>
    obtain ⟨child, hchild⟩ := h.leads _ target (Table.mem_of_find? hk)
    simp [hchild]

/-- Read as a line, a lookup key is one word. -/
theorem wordsRead_eq (h : n.Consistent) {key : String} (hkey : key ∈ n.keys.keys) :
    Reader.wordsRead key = [key] := by
  rw [Reader.wordsRead_eq, Reader.wordsOf_word (h.isWord key hkey)]

end Consistent

end Node

theorem Registrar.Reachable.consistent {r : Registrar σ} (h : r.Reachable) :
    r.root.Everywhere Node.Consistent := by
  intro keys n hn
  exact Node.consistent_of_linked (h.linked keys n hn) (h.wellNamed keys n hn) (h.keyed keys n hn)

/-! ### Blank lines -/

namespace Dispatcher

variable {d : Dispatcher σ}

/-- No command is found under the empty word. -/
theorem walk_empty (hroot : d.root.Keyed) (context : Option Value) (rest : List String) :
    d.walk context ("" :: rest) = .error (.noMatchingCommand "") := by
  have hfind : d.root.find? "" = none := by
    cases hfind : d.root.find? "" with
    | none => rfl
    | some child => exact absurd rfl (hroot.isWord_of_find? hfind).1
  have hchild : d.root.child "" = .error (.noMatchingCommand "") := by
    rw [Node.child, hfind]
  rw [walk, Node.enter_of_child_error hchild]
  rfl

theorem resolve_of_blank (hroot : d.root.Keyed) (context : Option Value) {line : String}
    (hne : line ≠ "") (hblank : ∀ c ∈ line.toList, c = ' ') :
    d.resolve context line = .error (.noMatchingCommand "") := by
  have hwords : Reader.wordsRead line = [""] := by
    rw [Reader.wordsRead_eq]
    refine (Reader.wordsOf_of_blank hblank).resolve_left fun hnil => hne ?_
    have hwords := List.map_eq_nil_iff.mp hnil
    exact String.toList_eq_nil_iff.mp ((Text.words_eq_nil_iff _).mp hwords)
  rw [resolve_eq, hwords, walk_empty hroot]

end Dispatcher

/-! ### Trees that calls lead to -/

namespace Registrar

/-- Every node of a tree that calls lead to has tables that fit together, at whatever depth: its
children are commands, each under its own lower-cased name and so no two under one; a lookup finds
nothing only where the key is absent; and every key is one word of a line. A line of spaces is
therefore refused for its empty word, and no handler is run. -/
theorem consistent_tables {r : Registrar σ} (h : r.Reachable) :
    (∀ keys n, r.root.at? keys = some n →
      n.Consistent ∧
      (n.children.values.map fun child => child.name?.map Text.lower).Nodup ∧
      (∀ word, n.find? word = none ↔ Text.lower word ∉ n.keys.keys) ∧
      ∀ key ∈ n.keys.keys, key ≠ "" ∧ ' ' ∉ key.toList ∧ Reader.wordsRead key = [key]) ∧
    ∀ (d : Dispatcher σ) context line state, d.root = r.root → line ≠ "" →
      (∀ c ∈ line.toList, c = ' ') →
        d.dispatch context line state = (.finished (.error (.noMatchingCommand "")), state) := by
  constructor
  · intro keys n hn
    have hconsistent := h.consistent keys n hn
    refine ⟨hconsistent, hconsistent.nodup_names, hconsistent.find?_eq_none_iff, ?_⟩
    intro key hkey
    obtain ⟨hne, hspace⟩ := hconsistent.isWord key hkey
    exact ⟨hne, hspace, hconsistent.wordsRead_eq hkey⟩
  · intro d context line state hroot hne hblank
    have hkeyed : d.root.Keyed := by
      rw [hroot]
      exact h.keyed.here
    rw [Dispatcher.dispatch, Dispatcher.resolve_of_blank hkeyed context hne hblank]

/-- A command with an alias and one below it, a group that fails with its second command, and a
command in other letters in place of the first. -/
def renamed : List (Call Unit) :=
  [.commands [(plain "Top").addAliases ["T"], (plain "sub").under ["t"]],
    .commands [plain "lost", (plain "orphan").under ["ghost"]],
    .commands [plain "TOP"]]

/-- The alias leads to the new command, and spaces lead nowhere. -/
theorem consistent_tables_renamed :
    (built renamed).Reachable ∧ (built renamed).root.Consistent ∧
      (built renamed).root.keys.keys = ["top", "t"] ∧
      ((built renamed).root.find? "t").bind Node.name? = some "TOP" ∧
      (built renamed).root.find? "lost" = none ∧
      (built renamed).finish.dispatch none "  " () =
        (.finished (.error (.noMatchingCommand "")), ()) := by
  have hreachable := reachable_built renamed
  obtain ⟨hnodes, hblank⟩ := consistent_tables hreachable
  obtain ⟨hconsistent, _, hfind, _⟩ := hnodes [] (built renamed).root rfl
  have hkeys : (built renamed).root.keys.keys = ["top", "t"] := by
    decide +kernel
  refine ⟨hreachable, hconsistent, hkeys, by decide +kernel, ?_, ?_⟩
  · rw [hfind, hkeys]
    decide +kernel
  · refine hblank _ none "  " () rfl (by decide) fun c hc => ?_
    change c ∈ [' ', ' '] at hc
    simpa using hc

end Registrar

end Switchboard
