import Mathlib.Data.List.Dedup
import Mathlib.Data.List.Induction
import Switchboard.Proofs.Attempts
import Switchboard.Proofs.Registration.Everywhere

/-!
# Children added one after another

Children are added to a node under their lower-cased names, and each addition
makes its name and aliases lead to that name, whatever they led to before. Two
tables are written so, and in each the last to write an entry decides: a text
leads to the name it was last claimed for, and under a name the child last added
is found, also by aliases that were given to an earlier one.

* `Addition`, `addAll`: the children added to a node, with their aliases
* `find?_keys_addAll`, `find?_children_addAll`: the two tables, by who wrote last
* `lookup_additions`: what is found below a node that had no children, and how many there are
-/

namespace Switchboard

variable {σ : Type}

/-! ### One addition -/

/-- A node to be added as a child, with its aliases. -/
structure Addition (σ : Type) where
  aliases : List String
  node : Node σ

namespace Addition

/-- The name that the child is kept under; a root has none. -/
def name? (a : Addition σ) : Option String :=
  a.node.name?.map Text.lower

/-- The lookup keys that are claimed for the child: its name and its aliases, lower-cased. None
are claimed for a root. -/
def keys (a : Addition σ) : List String :=
  match a.node.name? with
  | some name => (name :: a.aliases).map Text.lower
  | none => []

theorem keys_of_root {a : Addition σ} (h : a.node.name? = none) : a.keys = [] := by
  rw [keys, h]

/-- What claims a key has a name. -/
theorem exists_name_of_mem_keys {a : Addition σ} {key : String} (h : key ∈ a.keys) :
    ∃ name, a.name? = some name := by
  rw [keys] at h
  rw [name?]
  cases hname : a.node.name? with
  | none =>
    rw [hname] at h
    cases h
  | some name => exact ⟨_, rfl⟩

end Addition

namespace Node

/-- Add a node as a child. -/
def add (n : Node σ) (a : Addition σ) : Node σ :=
  n.addChild a.aliases a.node

/-- Add one child after another. -/
def addAll (n : Node σ) (additions : List (Addition σ)) : Node σ :=
  additions.foldl add n

/-- A node with no child. -/
def childless (command? : Option (Command σ)) : Node σ :=
  mk command? .empty .empty

theorem add_root (n : Node σ) {a : Addition σ} (h : a.node.name? = none) : n.add a = n :=
  n.addChild_root a.aliases h

/-- The keys of an addition lead to its child from then on. -/
theorem find?_keys_add (n : Node σ) (a : Addition σ) (key : String) :
    (n.add a).keys.find? key = if key ∈ a.keys then a.name? else n.keys.find? key := by
  cases hname : a.node.name? with
  | none =>
    rw [n.add_root hname, Addition.keys_of_root hname]
    simp
  | some name =>
    have hkeys : a.keys = (name :: a.aliases).map Text.lower := by
      simp only [Addition.keys, hname]
    rw [add, keys_addChild a.aliases hname, find?_claim, hkeys, Addition.name?, hname,
      Option.map_some]

/-- Under its name the child of an addition takes the place of another. -/
theorem find?_children_add (n : Node σ) (a : Addition σ) (key : String) :
    (n.add a).children.find? key =
      if a.name? = some key then some a.node else n.children.find? key := by
  cases hname : a.node.name? with
  | none =>
    rw [n.add_root hname, Addition.name?, hname]
    simp
  | some name =>
    simp only [add, children_addChild a.aliases hname, Table.find?_insert, Addition.name?, hname,
      Option.map_some, Option.some.injEq]

theorem nodup_children_add {n : Node σ} (h : n.children.keys.Nodup) (a : Addition σ) :
    (n.add a).children.keys.Nodup := by
  cases hname : a.node.name? with
  | none => rwa [n.add_root hname]
  | some name =>
    rw [add, children_addChild a.aliases hname]
    exact Table.nodup_keys_insert h _ _

/-! ### One addition after another -/

theorem addAll_concat (n : Node σ) (additions : List (Addition σ)) (a : Addition σ) :
    n.addAll (additions ++ [a]) = (n.addAll additions).add a := by
  rw [addAll, List.foldl_append]
  rfl

/-- A root among the additions is as good as none. -/
theorem addAll_root (n : Node σ) (before after : List (Addition σ)) {a : Addition σ}
    (h : a.node.name? = none) :
    n.addAll (before ++ a :: after) = n.addAll (before ++ after) := by
  simp only [addAll, List.foldl_append, List.foldl_cons]
  rw [add_root _ h]

/-- A key leads to the name of the addition that claimed it last. -/
theorem find?_keys_addAll (n : Node σ) (additions : List (Addition σ)) (key : String) :
    (n.addAll additions).keys.find? key =
      match lastWith (key ∈ ·.keys) additions with
      | some claim => claim.name?
      | none => n.keys.find? key := by
  induction additions using List.reverseRecOn with
  | nil => rfl
  | append_singleton additions a ih =>
    rw [addAll_concat, find?_keys_add, lastWith_concat]
    by_cases hkey : key ∈ a.keys
    · simp only [if_pos hkey]
    · rw [if_neg hkey, if_neg hkey, ih]

/-- Under a name the child is found that was added under it last. -/
theorem find?_children_addAll (n : Node σ) (additions : List (Addition σ)) (name : String) :
    (n.addAll additions).children.find? name =
      match lastWith (·.name? = some name) additions with
      | some put => some put.node
      | none => n.children.find? name := by
  induction additions using List.reverseRecOn with
  | nil => rfl
  | append_singleton additions a ih =>
    rw [addAll_concat, find?_children_add, lastWith_concat]
    by_cases hname : a.name? = some name
    · simp only [if_pos hname]
    · rw [if_neg hname, if_neg hname, ih]

theorem nodup_children_addAll {n : Node σ} (h : n.children.keys.Nodup)
    (additions : List (Addition σ)) : (n.addAll additions).children.keys.Nodup := by
  induction additions using List.reverseRecOn with
  | nil => exact h
  | append_singleton additions a ih =>
    rw [addAll_concat]
    exact nodup_children_add ih a

/-! ### Additions to a node with no child -/

section Childless

variable (command? : Option (Command σ)) (additions : List (Addition σ))

/-- The names under which children are kept are those of the additions. -/
theorem mem_children_childless_iff (name : String) :
    name ∈ ((childless command?).addAll additions).children.keys ↔
      name ∈ additions.filterMap Addition.name? := by
  rw [Table.mem_keys_iff, find?_children_addAll, List.mem_filterMap]
  cases hlast : lastWith (·.name? = some name) additions with
  | none =>
    have hnone := (lastWith_eq_none_iff _).mp hlast
    constructor
    · rintro ⟨child, hchild⟩
      cases hchild
    · rintro ⟨a, ha, hname⟩
      exact absurd hname (hnone a ha)
  | some put => exact ⟨fun _ => ⟨put, of_lastWith hlast⟩, fun _ => ⟨put.node, rfl⟩⟩

/-- There are as many children as names. -/
theorem length_children_childless :
    ((childless command?).addAll additions).children.entries.length =
      (additions.filterMap Addition.name?).dedup.length := by
  have hnodup := nodup_children_addAll (n := childless command?) List.nodup_nil additions
  have hperm := (List.perm_ext_iff_of_nodup hnodup (List.nodup_dedup _)).mpr fun name => by
    rw [mem_children_childless_iff, List.mem_dedup]
  rw [← hperm.length_eq, Table.keys, List.length_map]

/-- What a text leads to: the child added last under the name for which it was claimed last. -/
theorem find?_childless (text : String) :
    ((childless command?).addAll additions).find? text =
      (lastWith (Text.lower text ∈ ·.keys) additions).bind fun claim =>
        (lastWith (·.name? = claim.name?) additions).map Addition.node := by
  rw [find?, canonical?, find?_keys_addAll]
  cases hclaim : lastWith (Text.lower text ∈ ·.keys) additions with
  | none => rfl
  | some claim =>
    obtain ⟨name, hname⟩ := Addition.exists_name_of_mem_keys (of_lastWith hclaim).2
    simp only [hname, Option.bind_some]
    rw [find?_children_addAll]
    cases lastWith (·.name? = some name) additions with
    | none => rfl
    | some put => rfl

end Childless

/-- Some addition is the last under the name of one of them. -/
theorem exists_lastWith_name {additions : List (Addition σ)} {p : Addition σ → Prop}
    [DecidablePred p] {claim : Addition σ} (h : lastWith p additions = some claim) :
    ∃ put, lastWith (·.name? = claim.name?) additions = some put := by
  cases hput : lastWith (·.name? = claim.name?) additions with
  | some put => exact ⟨put, rfl⟩
  | none => exact absurd rfl ((lastWith_eq_none_iff _).mp hput claim (of_lastWith h).1)

/-- Lookup below a node that had no children, whatever was added to it. Roots count for nothing. A
text leads nowhere unless some addition has it among its lower-cased name and aliases. Else take
the last that does: the text leads to the node last added under the name of that one, just as it
was added. There are as many children as different lower-cased names. -/
theorem lookup_additions (command? : Option (Command σ)) (additions : List (Addition σ)) :
    (∀ before a after, additions = before ++ a :: after → a.node.isRoot = true →
      (childless command?).addAll additions = (childless command?).addAll (before ++ after)) ∧
    (∀ text, ((childless command?).addAll additions).find? text = none ↔
      ∀ a ∈ additions, Text.lower text ∉ a.keys) ∧
    (∀ text claim, lastWith (Text.lower text ∈ ·.keys) additions = some claim →
      ∃ name put, claim.name? = some name ∧
        lastWith (·.name? = some name) additions = some put ∧
        ((childless command?).addAll additions).find? text = some put.node) ∧
    ((childless command?).addAll additions).children.entries.length =
      (additions.filterMap Addition.name?).dedup.length := by
  refine ⟨?_, ?_, ?_, length_children_childless command? additions⟩
  · rintro before a after rfl hroot
    have hname : a.node.name? = none := by
      rw [name?, Option.isNone_iff_eq_none.mp hroot, Option.map_none]
    exact addAll_root _ before after hname
  · intro text
    rw [find?_childless, ← lastWith_eq_none_iff]
    cases hclaim : lastWith (Text.lower text ∈ ·.keys) additions with
    | none => simp
    | some claim =>
      obtain ⟨put, hput⟩ := exists_lastWith_name hclaim
      simp [hput]
  · intro text claim hclaim
    obtain ⟨hmem, hkey⟩ := of_lastWith hclaim
    obtain ⟨name, hname⟩ := Addition.exists_name_of_mem_keys hkey
    obtain ⟨put, hput⟩ := exists_lastWith_name hclaim
    rw [hname] at hput
    refine ⟨name, put, hname, hput, ?_⟩
    rw [find?_childless, hclaim, Option.bind_some, hname, hput, Option.map_some]

end Node

end Switchboard
