import Switchboard.Proofs.Registration.Lookup
import Switchboard.Proofs.Resolution.Outcome

/-!
# Resolutions stay in the tree

Whatever the context and the parsers, a resolution stands at a node of the
tree, at the command of that node, and the values bound there are accepted one
by one by the types of its parameters.

* `Place.Grounded`: what holds of every place that words lead to
* `grounded_of_step`, `grounded_of_walk`: one word keeps it, and so does a line
* `place_of_resolve`, `grounded_of_resolve`: a line resolves at a node of the tree, with one
  argument for each parameter: the bound values and then defaults
-/

namespace Switchboard

variable {σ : Type}

/-! ### Nodes below nodes -/

namespace Node

theorem at?_concat {n m child : Node σ} {keys : List String} {key : String}
    (hm : n.at? keys = some m) (hc : m.children.find? key = some child) :
    n.at? (keys ++ [key]) = some child := by
  rw [at?_append, hm, Option.bind_some]
  exact at?_cons_of_some hc []

/-- What a word finds is kept as a child. -/
theorem exists_key_of_find? {n child : Node σ} {word : String} (h : n.find? word = some child) :
    ∃ key, n.children.find? key = some child := by
  rw [find?] at h
  obtain ⟨key, _, hc⟩ := Option.bind_eq_some_iff.mp h
  exact ⟨key, hc⟩

end Node

/-! ### Places in a tree -/

namespace Command

/-- A command that is entered holds values that fit it. -/
theorem holding_of_seed {c : Command σ} {carry : List Value} {context : Option Value}
    {chain : Chain} (h : c.chain.seed carry context = .ok chain) :
    chain = c.holding chain.bound ∧ Fits c.parameters chain.bound := by
  unfold Chain.seed at h
  split at h
  next =>
    obtain rfl := Except.ok.inj h
    exact ⟨rfl, .nil _⟩
  next =>
    obtain ⟨hfit, rfl⟩ := (Chain.bindAll_eq_ok_iff _ _ _).mp h
    exact ⟨rfl, hfit⟩

end Command

namespace Place

/-- A place in a tree: its command is that of its node, and holds values that its parameters
accept. -/
structure Grounded (root : Node σ) (p : Place σ) : Prop where
  inTree : ∃ keys, root.at? keys = some p.node
  command_eq : p.node.command? = some p.command
  chain_eq : p.chain = p.command.holding p.chain.bound
  fits : Fits p.command.parameters p.chain.bound

/-- A place in a tree is settled as its command is with the values bound. -/
theorem Grounded.settle_eq {root : Node σ} {p : Place σ} (hp : p.Grounded root) (line : String) :
    p.settle line =
      if p.chain.bound.length < p.command.boundary then .error (.tooFewArguments line)
      else .ok ⟨p.node, p.command, p.command.filled p.chain.bound⟩ := by
  have hplace : p = ⟨p.node, p.command, p.command.holding p.chain.bound⟩ :=
    congrArg (Place.mk p.node p.command) hp.chain_eq
  have hsettle := settle_holding p.node p.command p.chain.bound line
  rwa [← hplace] at hsettle

theorem grounded_of_enter {root n : Node σ} {context : Option Value} {carry : List Value}
    {word : String} {p : Place σ} (hn : ∃ keys, root.at? keys = some n)
    (h : n.enter context carry word = .ok p) : p.Grounded root := by
  cases hchild : n.child word with
  | error e =>
    rw [Node.enter_of_child_error hchild] at h
    cases h
  | ok found =>
    obtain ⟨child, command⟩ := found
    obtain ⟨hfind, hcommand⟩ := Node.child_eq_ok_iff.mp hchild
    obtain ⟨key, hkey⟩ := Node.exists_key_of_find? hfind
    obtain ⟨keys, hkeys⟩ := hn
    rw [Node.enter_of_child hchild] at h
    split at h
    next => cases h
    next chain hseed =>
      obtain ⟨hchain, hfit⟩ := Command.holding_of_seed hseed
      obtain rfl := Except.ok.inj h
      exact ⟨⟨keys ++ [key], Node.at?_concat hkeys hkey⟩, hcommand, hchain, hfit⟩

/-- One word leads from a place in the tree to another. -/
theorem grounded_of_step {root : Node σ} {parsers : ParserRegistry} {context : Option Value}
    {p next : Place σ} {word : String} (hp : p.Grounded root)
    (h : p.step parsers context word = .ok next) : next.Grounded root := by
  cases hl : p.chain.left with
  | nil =>
    rw [step_of_left_nil hl] at h
    exact grounded_of_enter hp.inTree h
  | cons slot more =>
    rw [step_of_left_cons hl] at h
    split at h
    next => cases h
    next v _ =>
      split at h
      next ha =>
        obtain rfl := Except.ok.inj h
        have hleft : p.command.parameters.drop p.chain.bound.length = slot :: more := by
          rw [hp.chain_eq] at hl
          exact hl
        have hfit : Fits p.command.parameters (p.chain.bound ++ [v]) := by
          rw [Fits.append_iff, hleft]
          exact ⟨hp.fits, .cons ha (.nil more)⟩
        have hchain : p.chain.push v = p.command.holding (p.chain.push v).bound := by
          have hpush := congrArg (Chain.push · v) hp.chain_eq
          exact hpush
        exact ⟨hp.inTree, hp.command_eq, hchain, hfit⟩
      next => cases h

end Place

namespace Dispatcher

variable {d : Dispatcher σ} {context : Option Value}

theorem grounded_of_walk {words : List String} {p : Place σ} (h : d.walk context words = .ok p) :
    p.Grounded d.root := by
  cases words with
  | nil => cases h
  | cons first rest =>
    rw [walk] at h
    obtain ⟨start, hstart, hrun⟩ := bind_eq_ok_iff.mp h
    have hgrounded : start.Grounded d.root := Place.grounded_of_enter ⟨[], rfl⟩ hstart
    exact foldlM_invariant (I := Place.Grounded d.root)
      (fun _ _ _ hp hstep => Place.grounded_of_step hp hstep) hgrounded hrun

/-- A line that resolves leads to a place where it is settled. -/
theorem walk_of_resolve {line : String} {r : Resolved σ} (h : d.resolve context line = .ok r) :
    ∃ p, d.walk context (Reader.wordsRead line) = .ok p ∧ p.settle line = .ok r := by
  rw [resolve_eq] at h
  cases hw : d.walk context (Reader.wordsRead line) with
  | error e =>
    rw [hw] at h
    cases h
  | ok p =>
    rw [hw] at h
    exact ⟨p, rfl, h⟩

/-- A line that resolves leads to a place of the tree that holds enough values, and is settled with
them there. -/
theorem place_of_resolve {line : String} {r : Resolved σ} (h : d.resolve context line = .ok r) :
    ∃ p, d.walk context (Reader.wordsRead line) = .ok p ∧ p.Grounded d.root ∧
      p.command.boundary ≤ p.chain.bound.length ∧
      (⟨p.node, p.command, p.command.filled p.chain.bound⟩ : Resolved σ) = r := by
  obtain ⟨p, hwalk, hsettle⟩ := walk_of_resolve h
  have hp := grounded_of_walk hwalk
  rw [hp.settle_eq] at hsettle
  split at hsettle
  next => cases hsettle
  next hlen => exact ⟨p, hwalk, hp, Nat.le_of_not_lt hlen, Except.ok.inj hsettle⟩

/-- The node and the command of a line that resolves are in the tree, and its arguments are values
that fit the command, completed with defaults. -/
theorem grounded_of_resolve {line : String} {r : Resolved σ} (h : d.resolve context line = .ok r) :
    ∃ p : Place σ, p.Grounded d.root ∧ p.command = r.command ∧ p.node = r.node ∧
      r.command.boundary ≤ p.chain.bound.length ∧ r.args = r.command.filled p.chain.bound := by
  obtain ⟨p, _, hp, hboundary, rfl⟩ := place_of_resolve h
  exact ⟨p, hp, rfl, rfl, hboundary, rfl⟩

end Dispatcher

end Switchboard
