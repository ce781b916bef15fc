import Switchboard.Proofs.Attempts
import Switchboard.Proofs.Registration.Everywhere

/-!
# Registrars as they are built

A registrar starts empty and changes by calls: a parser is registered, a group
of commands is, or the commands of an owner. A call that fails leaves it as it
was.

* `Reachable.invariant`: what holds at the start and is kept by every call
* `Reachable.tree_invariant`: of the tree, what is kept when one command is put in it
* `Reachable.wellNamed`: children are kept under their names, and each name is a lookup key
-/

namespace Switchboard

variable {σ : Type}

namespace Registrar

/-- A call on a registrar. -/
inductive Call (σ : Type) where
  | parser (type : ParamType) (parser : Parser)
  | commands (specs : List (CommandSpec σ))
  | group (name : String) (owner : Except String (List (CommandSpec σ)))

/-- The registrar after an attempt. -/
def after (r : Registrar σ) (attempt : Except RegistrationError (Registrar σ)) : Registrar σ :=
  match attempt with
  | .ok next => next
  | .error _ => r

/-- The registrar after a call. -/
def perform (r : Registrar σ) : Call σ → Registrar σ
  | .parser type parser => r.registerParser type parser
  | .commands specs => r.after (r.register specs)
  | .group name owner => r.after (r.registerGroup name owner)

/-- A registrar that some calls lead to from the empty one. -/
def Reachable (r : Registrar σ) : Prop :=
  ∃ calls : List (Call σ), calls.foldl perform .empty = r

/-! ### What a call does -/

/-- Registering a group changes the tree only. -/
theorem register_eq (r : Registrar σ) (specs : List (CommandSpec σ)) :
    r.register specs =
      (specs.mapM (CommandSpec.stage r.parsers) >>= attachAll r.root).map
        fun root => { r with root } := by
  rw [register]
  cases specs.mapM (CommandSpec.stage r.parsers) with
  | error e => rfl
  | ok staged =>
    show (attachAll r.root staged >>= fun root => Except.ok { r with root }) =
      (attachAll r.root staged).map fun root => { r with root }
    cases attachAll r.root staged with
    | error e => rfl
    | ok root => rfl

/-- A group is registered when all of it is staged and put in the tree. -/
theorem register_eq_ok_iff {r next : Registrar σ} {specs : List (CommandSpec σ)} :
    r.register specs = .ok next ↔
      ∃ staged root, specs.mapM (CommandSpec.stage r.parsers) = .ok staged ∧
        attachAll r.root staged = .ok root ∧ next = { r with root } := by
  rw [register, bind_eq_ok_iff]
  constructor
  · intro hexists
    obtain ⟨staged, hs, h⟩ := hexists
    obtain ⟨root, ha, h⟩ := bind_eq_ok_iff.mp h
    exact ⟨staged, root, hs, ha, (Except.ok.inj h).symm⟩
  · intro hexists
    obtain ⟨staged, root, hs, ha, rfl⟩ := hexists
    exact ⟨staged, hs, bind_eq_ok_iff.mpr ⟨root, ha, rfl⟩⟩

theorem after_cases {P : Registrar σ → Prop} {r : Registrar σ}
    {attempt : Except RegistrationError (Registrar σ)} (hr : P r)
    (hok : ∀ next, attempt = .ok next → P next) : P (r.after attempt) := by
  cases attempt with
  | error e => exact hr
  | ok next => exact hok next rfl

theorem register_of_registerGroup {r next : Registrar σ} {name : String}
    {owner : Except String (List (CommandSpec σ))} (h : r.registerGroup name owner = .ok next) :
    ∃ specs, r.register specs = .ok next := by
  cases owner with
  | error source => cases h
  | ok specs => exact ⟨specs, h⟩

/-! ### Invariants -/

theorem Reachable.empty : (empty : Registrar σ).Reachable :=
  ⟨[], rfl⟩

/-- What holds of the empty registrar and is kept by registering a parser and by registering
commands holds of every registrar that calls lead to. -/
theorem Reachable.invariant {I : Registrar σ → Prop} {r : Registrar σ} (h : r.Reachable)
    (hempty : I .empty) (hparser : ∀ r type parser, I r → I (r.registerParser type parser))
    (hregister : ∀ (r next : Registrar σ) specs, I r → r.register specs = .ok next → I next) :
    I r := by
  have hcall : ∀ r call, I r → I (r.perform call) := by
    intro r call hr
    cases call with
    | parser type parser => exact hparser r type parser hr
    | commands specs => exact after_cases hr fun next hok => hregister r next specs hr hok
    | group name owner =>
      refine after_cases hr fun next hok => ?_
      obtain ⟨specs, hspecs⟩ := register_of_registerGroup hok
      exact hregister r next specs hr hspecs
  obtain ⟨calls, rfl⟩ := h
  have hrun : ∀ r, I r → I (calls.foldl Registrar.perform r) := by
    induction calls with
    | nil => exact fun r hr => hr
    | cons call calls ih => exact fun r hr => ih (r.perform call) (hcall r call hr)
  exact hrun .empty hempty

/-- What holds of the empty tree and is kept when one command is put in holds of every tree that
calls lead to. -/
theorem Reachable.tree_invariant {I : Node σ → Prop} {r : Registrar σ} (h : r.Reachable)
    (hroot : I .root)
    (hattach : ∀ root s changed, I root → Staged.attach root s = .ok changed → I changed) :
    I r.root := by
  refine h.invariant (I := fun r => I r.root) hroot (fun _ _ _ hr => hr) ?_
  intro r next specs hr hok
  obtain ⟨staged, root, _, hall, rfl⟩ := register_eq_ok_iff.mp hok
  exact foldlM_invariant hattach hr hall

end Registrar

/-! ### Names of children -/

namespace Node

/-- The children of a node are kept under their lower-cased names, which are lookup keys. -/
structure WellNamed (n : Node σ) : Prop where
  name_eq : ∀ key child, n.children.find? key = some child →
    child.name?.map Text.lower = some key
  known : ∀ key child, n.children.find? key = some child → ∃ target, n.keys.find? key = some target

theorem wellNamed_root : (root : Node σ).WellNamed :=
  ⟨fun _ _ hc => (nomatch hc), fun _ _ hc => (nomatch hc)⟩

theorem wellNamed_leaf (command : Command σ) : (leaf command).WellNamed :=
  ⟨fun _ _ hc => (nomatch hc), fun _ _ hc => (nomatch hc)⟩

theorem WellNamed.addChild {n child : Node σ} {name : String} (aliases : List String)
    (hname : child.name? = some name) (h : n.WellNamed) : (n.addChild aliases child).WellNamed := by
  constructor
  · intro key below hb
    rw [children_addChild aliases hname, Table.find?_insert] at hb
    split at hb
    next hkey =>
      obtain rfl := Option.some.inj hb
      rw [hname, Option.map_some, hkey]
    next => exact h.name_eq key below hb
  · intro key below hb
    rw [children_addChild aliases hname, Table.find?_insert] at hb
    rw [keys_addChild aliases hname, find?_claim]
    split
    next => exact ⟨_, rfl⟩
    next hkey =>
      split at hb
      next hself => exact absurd (by simp [hself]) hkey
      next => exact h.known key below hb

theorem WellNamed.replaceChild {n child below : Node σ} {key : String} (h : n.WellNamed)
    (hc : n.children.find? key = some child) (hcommand : below.command? = child.command?) :
    (n.replaceChild key below).WellNamed := by
  constructor
  · intro other found hf
    obtain ⟨old, hold, hname⟩ := exists_of_find?_replaceChild hc hcommand hf
    rw [hname]
    exact h.name_eq other old hold
  · intro other found hf
    obtain ⟨old, hold, _⟩ := exists_of_find?_replaceChild hc hcommand hf
    exact h.known other old hold

end Node

theorem Staged.everywhere_wellNamed_attach {root changed : Node σ} {s : Staged σ}
    (h : attach root s = .ok changed) (hroot : root.Everywhere Node.WellNamed) :
    changed.Everywhere Node.WellNamed :=
  everywhere_attach (Node.wellNamed_leaf s.command)
    (fun _ hn => hn.addChild s.aliases (Node.name?_leaf s.command))
    (fun _ _ _ _ hn hc hcommand => hn.replaceChild hc hcommand) h hroot

theorem Registrar.Reachable.wellNamed {r : Registrar σ} (h : r.Reachable) :
    r.root.Everywhere Node.WellNamed := by
  refine h.tree_invariant ?_ ?_
  · exact Node.everywhere_root Node.wellNamed_root
  · intro root s changed hroot hattach
    exact Staged.everywhere_wellNamed_attach hattach hroot

end Switchboard
