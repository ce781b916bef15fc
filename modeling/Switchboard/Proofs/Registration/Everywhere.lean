import Switchboard.Registrar

/-!
# Properties of all nodes of a tree

A tree is gone through by the keys its children are kept under, whatever the
lookup keys say. A property holds everywhere in a tree when each node reached
this way has it.

* `everywhere_iff`: a node has the property, and its children have it everywhere
* `everywhere_updateAt?`: changing one node keeps what it and the nodes above it keep
* `everywhere_attach`: what putting one more command in the tree has to keep
-/

namespace Switchboard

variable {σ : Type}

namespace Node

/-- The node that a path of keys leads to. -/
def at? : Node σ → List String → Option (Node σ)
  | n, [] => some n
  | n, key :: keys =>
    match n.children.find? key with
    | some child => child.at? keys
    | none => none

theorem at?_cons_of_some {n child : Node σ} {key : String} (h : n.children.find? key = some child)
    (keys : List String) : n.at? (key :: keys) = child.at? keys := by
  rw [at?, h]

theorem at?_cons_of_none {n : Node σ} {key : String} (h : n.children.find? key = none)
    (keys : List String) : n.at? (key :: keys) = none := by
  rw [at?, h]

/-- A property of a node and of all nodes below it. -/
def Everywhere (P : Node σ → Prop) (n : Node σ) : Prop :=
  ∀ keys m, n.at? keys = some m → P m

variable {P : Node σ → Prop} {n : Node σ}

theorem everywhere_iff :
    n.Everywhere P ↔
      P n ∧ ∀ key child, n.children.find? key = some child → child.Everywhere P := by
  constructor
  · intro h
    refine ⟨h [] n rfl, fun key child hc keys m hm => h (key :: keys) m ?_⟩
    rw [at?_cons_of_some hc, hm]
  · intro hboth keys m hm
    obtain ⟨hn, hbelow⟩ := hboth
    cases keys with
    | nil =>
      rw [at?, Option.some.injEq] at hm
      rwa [← hm]
    | cons key keys =>
      cases hc : n.children.find? key with
      | none =>
        rw [at?_cons_of_none hc] at hm
        cases hm
      | some child =>
        rw [at?_cons_of_some hc] at hm
        exact hbelow key child hc keys m hm

theorem Everywhere.here (h : n.Everywhere P) : P n :=
  (everywhere_iff.mp h).1

theorem Everywhere.child {child : Node σ} {key : String} (h : n.Everywhere P)
    (hc : n.children.find? key = some child) : child.Everywhere P :=
  (everywhere_iff.mp h).2 key child hc

theorem everywhere_leaf {command : Command σ} (h : P (leaf command)) :
    (leaf command).Everywhere P :=
  everywhere_iff.mpr ⟨h, fun _ _ hc => nomatch hc⟩

theorem everywhere_root (h : P root) : (root : Node σ).Everywhere P :=
  everywhere_iff.mpr ⟨h, fun _ _ hc => nomatch hc⟩

/-! ### Adding a child -/

@[simp] theorem name?_leaf (command : Command σ) : (leaf command).name? = some command.name := rfl

theorem children_addChild {child : Node σ} {name : String} (aliases : List String)
    (h : child.name? = some name) :
    (n.addChild aliases child).children = n.children.insert (Text.lower name) child := by
  simp only [addChild, h, children]

theorem keys_addChild {child : Node σ} {name : String} (aliases : List String)
    (h : child.name? = some name) :
    (n.addChild aliases child).keys = claim n.keys (Text.lower name) (name :: aliases) := by
  simp only [addChild, h, keys]

theorem everywhere_addChild {child : Node σ} {name : String} {aliases : List String}
    (hname : child.name? = some name) (hn : P (n.addChild aliases child)) (h : n.Everywhere P)
    (hchild : child.Everywhere P) : (n.addChild aliases child).Everywhere P := by
  refine everywhere_iff.mpr ⟨hn, fun key below hb => ?_⟩
  rw [children_addChild aliases hname, Table.find?_insert] at hb
  split at hb
  next =>
    rw [← Option.some.inj hb]
    exact hchild
  next => exact h.child hb

/-! ### Changing a node below -/

theorem command?_updateAt? {changed : Node σ} {f : Node σ → Node σ} {path : List String}
    (hf : ∀ m, (f m).command? = m.command?) (h : n.updateAt? f path = some changed) :
    changed.command? = n.command? := by
  cases path with
  | nil =>
    rw [updateAt?, Option.some.injEq] at h
    rw [← h, hf]
  | cons name path =>
    rw [updateAt?] at h
    split at h
    next => cases h
    next canonical _ =>
      split at h
      next => cases h
      next child _ =>
        obtain ⟨below, _, hbelow⟩ := Option.map_eq_some_iff.mp h
        rw [← hbelow]
        rfl

/-- A change inside a child: the child is found by its canonical name and put back in place. -/
theorem updateAt?_cons_eq_some_iff {changed : Node σ} {f : Node σ → Node σ} {name : String}
    {path : List String} :
    n.updateAt? f (name :: path) = some changed ↔
      ∃ key child below, n.canonical? name = some key ∧ n.children.find? key = some child ∧
        child.updateAt? f path = some below ∧ changed = n.replaceChild key below := by
  rw [updateAt?]
  constructor
  · intro h
    split at h
    next => cases h
    next key hk =>
      split at h
      next => cases h
      next child hc =>
        obtain ⟨below, hb, hbelow⟩ := Option.map_eq_some_iff.mp h
        exact ⟨key, child, below, hk, hc, hb, hbelow.symm⟩
  · intro hexists
    obtain ⟨key, child, below, hk, hc, hb, rfl⟩ := hexists
    simp only [hk, hc, hb, Option.map_some]

/-- Each child is the one that was there, or has its name. -/
theorem exists_of_find?_replaceChild {child below found : Node σ} {key other : String}
    (hc : n.children.find? key = some child) (hcommand : below.command? = child.command?)
    (hf : (n.replaceChild key below).children.find? other = some found) :
    ∃ old, n.children.find? other = some old ∧ found.name? = old.name? := by
  change (n.children.insert key below).find? other = some found at hf
  rw [Table.find?_insert] at hf
  split at hf
  next hkey =>
    refine ⟨child, hkey ▸ hc, ?_⟩
    rw [← Option.some.inj hf, name?, name?, hcommand]
  next => exact ⟨found, hf, rfl⟩

theorem everywhere_replaceChild {key : String} {below : Node σ} (hn : P (n.replaceChild key below))
    (h : n.Everywhere P) (hbelow : below.Everywhere P) :
    (n.replaceChild key below).Everywhere P := by
  refine everywhere_iff.mpr ⟨hn, fun other child hc => ?_⟩
  change (n.children.insert key below).find? other = some child at hc
  rw [Table.find?_insert] at hc
  split at hc
  next =>
    rw [← Option.some.inj hc]
    exact hbelow
  next => exact h.child hc

/-- What the changed node keeps, and each node above it when a child of it is replaced by one
with the same command, is kept everywhere. -/
theorem everywhere_updateAt? {changed : Node σ} {f : Node σ → Node σ} {path : List String}
    (hf : ∀ m : Node σ, m.Everywhere P → (f m).Everywhere P)
    (hcommand : ∀ m, (f m).command? = m.command?)
    (hreplace : ∀ m key child below, P m → m.children.find? key = some child →
      below.command? = child.command? → P (m.replaceChild key below))
    (h : n.updateAt? f path = some changed) (hn : n.Everywhere P) : changed.Everywhere P := by
  induction path generalizing n changed with
  | nil =>
    rw [updateAt?, Option.some.injEq] at h
    rw [← h]
    exact hf n hn
  | cons name path ih =>
    obtain ⟨key, child, below, _, hc, hb, rfl⟩ := updateAt?_cons_eq_some_iff.mp h
    have hsame := command?_updateAt? hcommand hb
    exact everywhere_replaceChild (hreplace n key child below hn.here hc hsame) hn
      (ih hb (hn.child hc))

end Node

/-! ### Putting a command in the tree -/

namespace Staged

theorem attach_eq_ok_iff {root changed : Node σ} {s : Staged σ} :
    attach root s = .ok changed ↔
      root.updateAt? (·.addChild s.aliases (.leaf s.command)) s.parent = some changed := by
  unfold attach
  cases root.updateAt? (·.addChild s.aliases (.leaf s.command)) s.parent with
  | none => simp
  | some found => simp

variable {P : Node σ → Prop}

/-- A property holds everywhere after a command was put in the tree, if the new node has it, its
parent keeps it, and so does each node with a child that is replaced by one with the same
command. -/
theorem everywhere_attach {root changed : Node σ} {s : Staged σ} (hleaf : P (.leaf s.command))
    (hadd : ∀ n : Node σ, P n → P (n.addChild s.aliases (.leaf s.command)))
    (hreplace : ∀ (n : Node σ) key child below, P n → n.children.find? key = some child →
      below.command? = child.command? → P (n.replaceChild key below))
    (h : attach root s = .ok changed) (hroot : root.Everywhere P) : changed.Everywhere P := by
  have hf : ∀ m : Node σ, m.Everywhere P →
      (m.addChild s.aliases (.leaf s.command)).Everywhere P := by
    intro m hm
    exact Node.everywhere_addChild (Node.name?_leaf s.command) (hadd m hm.here) hm
      (Node.everywhere_leaf hleaf)
  exact Node.everywhere_updateAt? hf (fun m => m.command?_addChild _ _) hreplace
    (attach_eq_ok_iff.mp h) hroot

end Staged

end Switchboard
