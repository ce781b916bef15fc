import Switchboard.Proofs.Registration.Lookup

/-!
# Paths of names

A path names a command when each of its segments finds a child by its name,
not by an alias. Where no name is at the same time an alias, such paths are
the paths of keys that children are kept under, and putting a command in the
tree is felt exactly at its own path and below it.

* `Orderly`: at a node, names lead to themselves and every child is found by its name
* `commandAt?_eq`: in an orderly tree paths of names are paths of keys
* `commandUnder?_attach`: what is found at each path once a command was put in the tree
* `everywhere_orderly_attach`: the tree stays orderly
-/

namespace Switchboard

variable {σ : Type}

namespace Node

/-- Every child of a node is kept under a name, and names lead to nothing but themselves. -/
structure Orderly (IsName : String → Prop) (n : Node σ) : Prop extends n.WellNamed where
  isName : ∀ key child, n.children.find? key = some child → IsName key
  leads : ∀ key target, IsName key → n.keys.find? key = some target → target = key

variable {IsName : String → Prop} {n : Node σ}

theorem Orderly.find?_keys {child : Node σ} {key : String} (h : n.Orderly IsName)
    (hc : n.children.find? key = some child) : n.keys.find? key = some key := by
  obtain ⟨target, ht⟩ := h.known key child hc
  rw [ht, h.leads key target (h.isName key child hc) ht]

/-- A name finds the child kept under it. -/
theorem Orderly.find?_eq (h : n.Orderly IsName) {name : String} (hname : IsName (Text.lower name)) :
    n.find? name = n.children.find? (Text.lower name) := by
  rw [find?, canonical?]
  cases hk : n.keys.find? (Text.lower name) with
  | none =>
    cases hc : n.children.find? (Text.lower name) with
    | none => rfl
    | some child =>
      rw [h.find?_keys hc] at hk
      cases hk
  | some target =>
    rw [h.leads _ target hname hk]
    rfl

/-- Where names lead to nothing but themselves, every child is found by its name. -/
theorem Orderly.findsOwn (h : n.Orderly IsName) : n.FindsOwn :=
  ⟨h.toWellNamed, fun _ _ hc => h.find?_keys hc⟩

theorem everywhere_findsOwn (h : n.Everywhere (Orderly IsName)) : n.Everywhere FindsOwn :=
  fun keys m hm => (h keys m hm).findsOwn

/-- In an orderly tree paths of names are paths of keys. -/
theorem commandAt?_eq (h : n.Everywhere (Orderly IsName)) (path : List String) :
    n.commandAt? path = n.commandUnder? (path.map Text.lower) :=
  commandAt?_eq_of_findsOwn (everywhere_findsOwn h) path

/-- A path of names is walked as a path of keys. -/
theorem findPath_eq_at? (h : n.Everywhere (Orderly IsName)) {path : List String}
    (hpath : ∀ name ∈ path, IsName (Text.lower name)) :
    n.findPath path = n.at? (path.map Text.lower) := by
  induction path generalizing n with
  | nil => rfl
  | cons name path ih =>
    rw [findPath, h.here.find?_eq (hpath name List.mem_cons_self), List.map_cons, at?]
    cases hc : n.children.find? (Text.lower name) with
    | none => rfl
    | some child => exact ih (h.child hc) fun other ho => hpath other (List.mem_cons_of_mem _ ho)

/-- Below the top every node has a command. -/
theorem isSome_commandUnder? (h : n.Everywhere (Orderly IsName)) {keys : List String}
    (hkeys : keys ≠ []) : (n.commandUnder? keys).isSome = (n.at? keys).isSome := by
  cases hsome : (n.at? keys).isSome with
  | true =>
    obtain ⟨before, key, rfl⟩ := (List.eq_nil_or_concat' keys).resolve_left hkeys
    have hwell : n.Everywhere WellNamed := fun keys m hm => (h keys m hm).toWellNamed
    obtain ⟨command, hcommand, _⟩ := exists_commandUnder?_concat hwell hsome
    rw [hcommand]
    rfl
  | false =>
    rw [Option.isSome_eq_false_iff, Option.isNone_iff_eq_none] at hsome
    rw [commandUnder?, hsome]
    rfl

/-! ### A command more -/

theorem orderly_root : (root : Node σ).Orderly IsName :=
  ⟨wellNamed_root, fun _ _ hc => (nomatch hc), fun _ _ _ hk => (nomatch hk)⟩

theorem orderly_leaf (command : Command σ) : (leaf command).Orderly IsName :=
  ⟨wellNamed_leaf command, fun _ _ hc => (nomatch hc), fun _ _ _ hk => (nomatch hk)⟩

/-- A child with a name, and aliases that are no names, keep a node orderly. -/
theorem Orderly.addChild {child : Node σ} {name : String} {aliases : List String}
    (h : n.Orderly IsName) (hchild : child.name? = some name) (hname : IsName (Text.lower name))
    (haliases : ∀ other ∈ aliases, ¬ IsName (Text.lower other)) :
    (n.addChild aliases child).Orderly IsName := by
  refine ⟨h.toWellNamed.addChild aliases hchild, ?_, ?_⟩
  · intro key below hb
    rw [children_addChild aliases hchild, Table.find?_insert] at hb
    split at hb
    next hself => exact hself ▸ hname
    next => exact h.isName key below hb
  · intro key target hkey ht
    rw [keys_addChild aliases hchild, find?_claim] at ht
    split at ht
    next hm =>
      rw [List.map_cons, List.mem_cons] at hm
      rcases hm with hself | halias
      · rw [← Option.some.inj ht, hself]
      · obtain ⟨other, hother, rfl⟩ := List.mem_map.mp halias
        exact absurd hkey (haliases other hother)
    next => exact h.leads key target hkey ht

theorem Orderly.replaceChild {child below : Node σ} {key : String} (h : n.Orderly IsName)
    (hc : n.children.find? key = some child) (hcommand : below.command? = child.command?) :
    (n.replaceChild key below).Orderly IsName := by
  refine ⟨h.toWellNamed.replaceChild hc hcommand, ?_, h.leads⟩
  intro other found hf
  obtain ⟨old, hold, _⟩ := exists_of_find?_replaceChild hc hcommand hf
  exact h.isName other old hold

/-- In an orderly tree a path of names that leads somewhere leads there by its names. -/
theorem led_of_updateAt? {changed : Node σ} {f : Node σ → Node σ} {path : List String}
    (h : n.Everywhere (Orderly IsName)) (hpath : ∀ name ∈ path, IsName (Text.lower name))
    (hchanged : n.updateAt? f path = some changed) : n.Led (path.map Text.lower) := by
  have hfound : (n.findPath path).isSome := by
    rw [← isSome_updateAt? n f path, hchanged]
    rfl
  rw [findPath_eq_at? h hpath] at hfound
  exact led_of_findsOwn (everywhere_findsOwn h) hfound

end Node

/-! ### Putting a command in an orderly tree -/

namespace Staged

variable {IsName : String → Prop} {root changed : Node σ} {s : Staged σ}

/-- The lower-cased path of a command: the parent path and the name. -/
def path (s : Staged σ) : List String :=
  (s.parent ++ [s.command.name]).map Text.lower

/-- The segments of a command's path are names, and its aliases are not. -/
structure Clear (IsName : String → Prop) (s : Staged σ) : Prop where
  isName : ∀ name ∈ s.parent ++ [s.command.name], IsName (Text.lower name)
  aliases : ∀ other ∈ s.aliases, ¬ IsName (Text.lower other)

theorem Clear.parent (h : s.Clear IsName) : ∀ name ∈ s.parent, IsName (Text.lower name) :=
  fun name hn => h.isName name (List.mem_append_left _ hn)

theorem Clear.name (h : s.Clear IsName) : IsName (Text.lower s.command.name) :=
  h.isName s.command.name (List.mem_append_right _ (List.mem_singleton_self _))

theorem everywhere_orderly_attach (hs : s.Clear IsName) (h : attach root s = .ok changed)
    (hroot : root.Everywhere (Node.Orderly IsName)) :
    changed.Everywhere (Node.Orderly IsName) :=
  everywhere_attach (Node.orderly_leaf s.command)
    (fun _ hn => hn.addChild (Node.name?_leaf s.command) hs.name hs.aliases)
    (fun _ _ _ _ hn hc hcommand => hn.replaceChild hc hcommand) h hroot

/-- A command finds its parent at the top or at a command. -/
theorem exists_attach_iff (hs : s.Clear IsName) (hroot : root.Everywhere (Node.Orderly IsName)) :
    (∃ changed, attach root s = .ok changed) ↔
      s.parent = [] ∨ (root.commandUnder? (s.parent.map Text.lower)).isSome := by
  have hsome : (∃ changed, attach root s = .ok changed) ↔
      (root.at? (s.parent.map Text.lower)).isSome := by
    rw [← Node.findPath_eq_at? hroot hs.parent, ← Node.isSome_updateAt? root
      (·.addChild s.aliases (.leaf s.command)), Option.isSome_iff_exists]
    exact exists_congr fun changed => attach_eq_ok_iff
  rw [hsome]
  by_cases hnil : s.parent = []
  · simp [hnil, Node.at?]
  · rw [Node.isSome_commandUnder? hroot (by simpa using hnil)]
    simp [hnil]

/-- The command is found at its path, nothing is found below it, and at other paths all is as
it was. -/
theorem commandUnder?_attach (hs : s.Clear IsName) (h : attach root s = .ok changed)
    (hroot : root.Everywhere (Node.Orderly IsName)) (keys : List String) :
    changed.commandUnder? keys =
      if keys = s.path then some s.command
      else if s.path <+: keys then none
      else root.commandUnder? keys :=
  have hattach := attach_eq_ok_iff.mp h
  Node.commandUnder?_updateAt?_of_led (Node.led_of_updateAt? hroot hs.parent hattach) hattach keys

end Staged

end Switchboard
