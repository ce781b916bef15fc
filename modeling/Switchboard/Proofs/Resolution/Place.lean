import Switchboard.Proofs.Binding

/-!
# Where a resolution stands

At every place of a resolution the values bound are the context, if the first
parameter of the present command takes it, followed by the values typed since
the first command. Entering a command below keeps the typed values and
decides anew about the context. This needs the context to be equal to itself:
it is by equality that a context among the carried values is recognised.

* `carriesContext_injected`: the context is recognised exactly when the command left took it
* `enter_top`, `enter_below`: entering a command binds the context it takes and the typed values
* `step_of_left_cons`, `step_of_left_nil`: one word, by what is left of the present command
-/

namespace Switchboard

variable {σ : Type}

/-- A context that is absent or equal to itself. -/
def Recognisable (context : Option Value) : Prop :=
  ∀ ctx, context = some ctx → (ctx == ctx) = true

theorem recognisable_some {ctx : Value} (h : (ctx == ctx) = true) : Recognisable (some ctx) := by
  intro other hother
  rwa [← Option.some.inj hother]

namespace Command

/-- The context as the first argument of a command whose first parameter takes it. -/
def injected (c : Command σ) (context : Option Value) : List Value :=
  match c.firstType?, context with
  | some type, some ctx => if type.accepts ctx then [ctx] else []
  | _, _ => []

/-- A chain of the command with values bound. -/
def holding (c : Command σ) (values : List Value) : Chain :=
  { c.chain with bound := values }

/-- The arguments of a command that holds some values: the other parameters have their
defaults. -/
def filled (c : Command σ) (values : List Value) : Args :=
  ⟨values ++ (c.parameters.drop values.length).map Parameter.fallback⟩

@[simp] theorem bound_holding (c : Command σ) (values : List Value) :
    (c.holding values).bound = values := rfl

@[simp] theorem boundary_holding (c : Command σ) (values : List Value) :
    (c.holding values).boundary = c.boundary :=
  Nat.min_eq_left (Parameter.boundary_le c.parameters)

@[simp] theorem left_chain (c : Command σ) : c.chain.left = c.parameters := rfl

theorem injected_eq_nil_or (c : Command σ) (context : Option Value) :
    c.injected context = [] ∨ ∃ ctx, context = some ctx ∧ c.injected context = [ctx] := by
  unfold injected
  split
  next ctx _ =>
    split
    next => exact .inr ⟨ctx, rfl, rfl⟩
    next => exact .inl rfl
  next => exact .inl rfl

/-- With one value more, one parameter less is left. -/
theorem drop_held_push {c : Command σ} {context : Option Value} {typed : List Value}
    {next : Parameter} {more : List Parameter}
    (h : c.parameters.drop (c.injected context ++ typed).length = next :: more) (v : Value) :
    c.parameters.drop (c.injected context ++ (typed ++ [v])).length = more := by
  have htail := congrArg List.tail h
  simpa [List.tail_drop, Nat.add_assoc] using htail

/-- A value that the next parameter accepts fits behind those held. -/
theorem fits_held_push {c : Command σ} {context : Option Value} {typed : List Value}
    {next : Parameter} {more : List Parameter} {v : Value}
    (hfit : Fits c.parameters (c.injected context ++ typed))
    (h : c.parameters.drop (c.injected context ++ typed).length = next :: more)
    (ha : next.type.accepts v = true) :
    Fits c.parameters (c.injected context ++ (typed ++ [v])) := by
  rw [← List.append_assoc, Fits.append_iff, h]
  exact ⟨hfit, .cons ha (.nil more)⟩

theorem takesContext_chain (c : Command σ) (context : Option Value) :
    c.chain.takesContext context = !(c.injected context).isEmpty := by
  have hn : c.chain.nextType? = c.firstType? := by
    rw [Chain.nextType?_eq, left_chain, firstType?]
  unfold Chain.takesContext injected
  rw [hn]
  cases c.firstType? with
  | none => rfl
  | some type =>
    cases context with
    | none => rfl
    | some ctx =>
      simp only
      cases type.accepts ctx with
      | true => rfl
      | false => rfl

theorem fits_injected (c : Command σ) (context : Option Value) :
    Fits c.parameters (c.injected context) := by
  unfold injected firstType?
  cases c.parameters with
  | nil => exact .nil _
  | cons p ps =>
    cases context with
    | none => exact .nil _
    | some ctx =>
      simp only [List.head?_cons, Option.map_some]
      split
      next h => exact .cons h (.nil ps)
      next => exact .nil _

/-- The context is found at the head of the values bound exactly when the command took it:
what another value at that place equals is of the type of its parameter. -/
theorem carriesContext_injected {c : Command σ} {context : Option Value} {typed : List Value}
    (hr : Recognisable context) (hf : Fits c.parameters (c.injected context ++ typed)) :
    Chain.carriesContext (c.injected context ++ typed) context =
      !(c.injected context).isEmpty := by
  rcases c.injected_eq_nil_or context with hn | ⟨ctx, hctx, hi⟩
  · rw [hn, List.nil_append]
    rw [hn, List.nil_append] at hf
    cases typed with
    | nil => rfl
    | cons v typed =>
      cases context with
      | none => rfl
      | some ctx =>
        show (v == ctx) = false
        rw [Bool.eq_false_iff]
        intro he
        -- the parameter accepts `v`, hence a context equal to it, which it does not take
        cases hp : c.parameters with
        | nil =>
          rw [hp] at hf
          cases hf
        | cons p ps =>
          rw [hp] at hf
          cases hf with
          | cons hv _ =>
            have hacc : p.type.accepts ctx = true := by
              rw [ParamType.accepts_iff] at hv ⊢
              rw [← Value.typeOf_eq_of_eq he, hv]
            simp [injected, firstType?, hp, hacc] at hn
  · rw [hi, hctx]
    exact hr ctx hctx

/-- Entering a command binds the context it takes and the values typed, whether or not the
values carried start with the context. -/
theorem seed_eq_bindAll {c : Command σ} {context : Option Value} {front typed : List Value}
    (hfront : front = [] ∨ ∃ ctx, context = some ctx ∧ front = [ctx])
    (hc : Chain.carriesContext (front ++ typed) context = !front.isEmpty) :
    c.chain.seed (front ++ typed) context = c.chain.bindAll (c.injected context ++ typed) := by
  have hentry : c.chain.entryValues (front ++ typed) context = c.injected context ++ typed := by
    rw [Chain.entryValues, takesContext_chain, hc]
    rcases hfront with hf | ⟨ctx, hctx, hf⟩
    · rcases c.injected_eq_nil_or context with hn | ⟨ctx', hctx', hi⟩
      · simp [hf, hn]
      · rw [hf, hi, hctx']
        rfl
    · rcases c.injected_eq_nil_or context with hn | ⟨ctx', hctx', hi⟩
      · simp [hf, hn]
      · obtain rfl : ctx = ctx' := by simpa [hctx] using hctx'
        rw [hf, hi]
        rfl
  rw [Chain.seed, hentry]
  split
  next h =>
    -- nothing carried and no parameter: nothing is bound on either side
    simp only [Bool.and_eq_true, Bool.not_eq_true', List.isEmpty_iff, List.append_eq_nil_iff] at h
    obtain ⟨hfull, hnil, htyped⟩ := h
    have hi : c.injected context = [] := by
      have hlen := (c.fits_injected context).length_le
      have hzero : c.parameters.length = 0 := by
        have hle := decide_eq_false_iff_not.mp hfull
        exact Nat.eq_zero_of_not_pos hle
      exact List.length_eq_zero_iff.mp (by omega)
    rw [hi, htyped]
    rfl
  next => rfl

end Command

/-! ### Entering a command -/

namespace Node

theorem child_eq_ok_iff {n child : Node σ} {word : String} {command : Command σ} :
    n.child word = .ok (child, command) ↔
      n.find? word = some child ∧ child.command? = some command := by
  constructor
  · intro h
    unfold Node.child at h
    split at h
    next => simp at h
    next found hf =>
      split at h
      next => simp at h
      next below hc =>
        simp only [Except.ok.injEq, Prod.mk.injEq] at h
        obtain ⟨rfl, rfl⟩ := h
        exact ⟨hf, hc⟩
  · intro hboth
    obtain ⟨hf, hc⟩ := hboth
    unfold Node.child
    rw [hf]
    simp only [hc]

theorem child_error {n : Node σ} {word : String} {e : DispatchError}
    (h : n.child word = .error e) : e = .noMatchingCommand word := by
  unfold Node.child at h
  split at h
  next => exact (Except.error.inj h).symm
  next =>
    split at h
    next => exact (Except.error.inj h).symm
    next => simp at h

theorem enter_of_child {n child : Node σ} {word : String} {command : Command σ}
    (h : n.child word = .ok (child, command)) (context : Option Value) (carry : List Value) :
    n.enter context carry word =
      match command.chain.seed carry context with
      | .error e => .error (.incompatibleArguments command.name e)
      | .ok chain => .ok ⟨child, command, chain⟩ := by
  cases hs : command.chain.seed carry context with
  | error e => simp only [enter, h, hs]
  | ok chain => simp only [enter, h, hs]

theorem enter_of_child_error {n : Node σ} {word : String} {e : DispatchError}
    (h : n.child word = .error e) (context : Option Value) (carry : List Value) :
    n.enter context carry word = .error e := by
  rw [enter, h]

end Node

namespace Place

/-- A command that holds the context, if it takes it, and the values typed so far. -/
def seated (context : Option Value) (node : Node σ) (command : Command σ)
    (typed : List Value) : Place σ :=
  ⟨node, command, command.holding (command.injected context ++ typed)⟩

@[simp] theorem left_seated (context : Option Value) (node : Node σ) (command : Command σ)
    (typed : List Value) :
    (seated context node command typed).chain.left =
      command.parameters.drop (command.injected context ++ typed).length := rfl

end Place

namespace Node

/-- A command of the top level holds nothing but the context. -/
theorem enter_top {n child : Node σ} {word : String} {command : Command σ}
    (h : n.child word = .ok (child, command)) (context : Option Value) :
    n.enter context [] word = .ok (Place.seated context child command []) := by
  have hseed : command.chain.seed [] context =
      .ok (command.holding (command.injected context)) := by
    rw [← List.nil_append ([] : List Value), command.seed_eq_bindAll (.inl rfl) rfl,
      List.append_nil, Chain.bindAll_eq_ok_iff]
    exact ⟨command.fits_injected context, rfl⟩
  rw [enter_of_child h, hseed, Place.seated, List.append_nil]

/-- A command below another is entered with the context decided anew and the typed values kept,
which then have to fit. -/
theorem enter_below {n child : Node σ} {word : String} {above command : Command σ}
    {context : Option Value} {typed : List Value} (hr : Recognisable context)
    (hf : Fits above.parameters (above.injected context ++ typed))
    (h : n.child word = .ok (child, command)) :
    n.enter context (above.injected context ++ typed) word =
      match command.chain.bindAll (command.injected context ++ typed) with
      | .error e => .error (.incompatibleArguments command.name e)
      | .ok chain => .ok ⟨child, command, chain⟩ := by
  rw [enter_of_child h, command.seed_eq_bindAll (above.injected_eq_nil_or context)
    (above.carriesContext_injected hr hf)]

theorem enter_below_eq_ok_iff {n : Node σ} {word : String} {above : Command σ}
    {context : Option Value} {typed : List Value} {p : Place σ} (hr : Recognisable context)
    (hf : Fits above.parameters (above.injected context ++ typed)) :
    n.enter context (above.injected context ++ typed) word = .ok p ↔
      ∃ child command, n.child word = .ok (child, command) ∧
        Fits command.parameters (command.injected context ++ typed) ∧
        p = Place.seated context child command typed := by
  cases hc : n.child word with
  | error e =>
    rw [enter_of_child_error hc]
    simp
  | ok found =>
    obtain ⟨child, command⟩ := found
    rw [enter_below hr hf hc]
    constructor
    · intro h
      cases hb : command.chain.bindAll (command.injected context ++ typed) with
      | error e => simp [hb] at h
      | ok chain =>
        rw [hb] at h
        obtain ⟨hfit, rfl⟩ := (Chain.bindAll_eq_ok_iff _ _ _).mp hb
        simp only [Except.ok.injEq] at h
        exact ⟨child, command, rfl, hfit, h.symm⟩
    · intro hexists
      obtain ⟨child', command', hfound, hfit, rfl⟩ := hexists
      simp only [Except.ok.injEq, Prod.mk.injEq] at hfound
      obtain ⟨rfl, rfl⟩ := hfound
      have hb : command.chain.bindAll (command.injected context ++ typed) =
          .ok (command.holding (command.injected context ++ typed)) :=
        (Chain.bindAll_eq_ok_iff _ _ _).mpr ⟨hfit, rfl⟩
      rw [hb, Place.seated]

end Node

/-! ### One word -/

namespace Place

theorem step_of_left_nil {p : Place σ} (h : p.chain.left = []) (parsers : ParserRegistry)
    (context : Option Value) (word : String) :
    p.step parsers context word = p.node.enter context p.chain.bound word := by
  rw [step, Chain.nextType?_eq, h]
  rfl

theorem step_of_left_cons {p : Place σ} {next : Parameter} {more : List Parameter}
    (h : p.chain.left = next :: more) (parsers : ParserRegistry) (context : Option Value)
    (word : String) :
    p.step parsers context word =
      match parsers.parse word next.type with
      | .error e => .error (.parse e)
      | .ok v =>
        if next.type.accepts v then .ok { p with chain := p.chain.push v }
        else .error (.incompatibleArguments p.command.name
          (.typeMismatch next.type v.typeOf?)) := by
  rw [step, Chain.nextType?_eq, h]
  simp only [List.head?_cons, Option.map_some, bind]
  cases parsers.parse word next.type with
  | error e => rfl
  | ok v =>
    simp only [Chain.offer_of_left_cons h]
    by_cases ha : next.type.accepts v = true
    · rw [if_pos ha, if_pos ha]
    · rw [if_neg ha, if_neg ha]

theorem push_seated (context : Option Value) (node : Node σ) (command : Command σ)
    (typed : List Value) (v : Value) :
    { seated context node command typed with
      chain := (seated context node command typed).chain.push v } =
      seated context node command (typed ++ [v]) := by
  simp [seated, Command.holding, Chain.push]

/-- An open parameter takes the word if it parses to a value the parameter accepts. -/
theorem step_seated_eq_ok_iff {context : Option Value} {node : Node σ} {command : Command σ}
    {typed : List Value} {next : Parameter} {more : List Parameter} {p : Place σ}
    (h : command.parameters.drop (command.injected context ++ typed).length = next :: more)
    (parsers : ParserRegistry) (word : String) :
    (seated context node command typed).step parsers context word = .ok p ↔
      ∃ v, parsers.parse word next.type = .ok v ∧ next.type.accepts v = true ∧
        p = seated context node command (typed ++ [v]) := by
  have hleft : (seated context node command typed).chain.left = next :: more := h
  rw [step_of_left_cons hleft]
  cases parsers.parse word next.type with
  | error e => simp
  | ok v =>
    simp only [push_seated]
    by_cases ha : next.type.accepts v = true
    · rw [if_pos ha]
      constructor
      · intro hp
        simp only [Except.ok.injEq] at hp
        exact ⟨v, rfl, ha, hp.symm⟩
      · intro hexists
        obtain ⟨w, hw, _, rfl⟩ := hexists
        simp only [Except.ok.injEq] at hw
        rw [hw]
    · rw [if_neg ha]
      constructor
      · intro hp
        simp at hp
      · intro hexists
        obtain ⟨w, hw, hacc, _⟩ := hexists
        simp only [Except.ok.injEq] at hw
        rw [← hw] at hacc
        exact absurd hacc ha

end Place

end Switchboard
