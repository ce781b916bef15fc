import Mathlib.Data.List.Forall2
import Switchboard.Proofs.Resolution.Grammar

/-!
# The context is opaque

Two contexts of one type lead a line the same way: word by word they stand at
the same command with the same values typed, and they are refused alike. The
one thing a resolution asks of the context beside its type is that it be equal
to itself, and a floating-point number that is none is not.

* `SameCourse`: one failure under both contexts, or one command and one list of typed values
* `Place.step_alike`, `Dispatcher.walk_alike`: what one word and what all of them lead to
* `sameCourse_iff`: two contexts of one type are led alike exactly when neither is a number that
  is none
-/

namespace Switchboard

variable {σ : Type}

/-! ### Two contexts of one type -/

namespace Command

variable {x y : Value}

theorem map_typeOf?_injected (c : Command σ) (ht : x.typeOf? = y.typeOf?) :
    (c.injected (some x)).map Value.typeOf? = (c.injected (some y)).map Value.typeOf? := by
  unfold injected
  cases c.firstType? with
  | none => rfl
  | some type =>
    have hacc : type.accepts x = type.accepts y := by
      rw [ParamType.accepts, ParamType.accepts, ht]
    simp only [hacc]
    cases type.accepts y with
    | true => simp [ht]
    | false => rfl

theorem map_typeOf?_held (c : Command σ) (typed : List Value) (ht : x.typeOf? = y.typeOf?) :
    (c.injected (some x) ++ typed).map Value.typeOf? =
      (c.injected (some y) ++ typed).map Value.typeOf? := by
  rw [List.map_append, List.map_append, c.map_typeOf?_injected ht]

/-- Contexts of one type take up equally many parameters. -/
theorem length_held (c : Command σ) (typed : List Value) (ht : x.typeOf? = y.typeOf?) :
    (c.injected (some x) ++ typed).length = (c.injected (some y) ++ typed).length := by
  have hlen := congrArg List.length (c.map_typeOf?_held typed ht)
  rwa [List.length_map, List.length_map] at hlen

end Command

/-- A command below the top level and the values typed on the way there. -/
structure Standing (σ : Type) where
  node : Node σ
  command : Command σ
  typed : List Value

namespace Standing

/-- The place that a standing is under a context. -/
def place (context : Option Value) (s : Standing σ) : Place σ :=
  Place.seated context s.node s.command s.typed

/-- The context and the typed values fit the command. -/
def Valid (context : Option Value) (s : Standing σ) : Prop :=
  Fits s.command.parameters (s.command.injected context ++ s.typed)

theorem Valid.of_types {x y : Value} {s : Standing σ} (h : s.Valid (some x))
    (ht : x.typeOf? = y.typeOf?) : s.Valid (some y) :=
  Fits.of_types h (s.command.map_typeOf?_held s.typed ht)

end Standing

/-- Under two contexts a resolution got equally far: to one failure, or to places that differ in
the context alone. -/
def Alike (x y : Value) (p q : Except DispatchError (Place σ)) : Prop :=
  (∃ e, p = .error e ∧ q = .error e) ∨
    ∃ s : Standing σ, s.Valid (some x) ∧ p = .ok (s.place (some x)) ∧ q = .ok (s.place (some y))

/-! ### Word by word -/

section Lockstep

variable {x y : Value} (hx : Recognisable (some x)) (hy : Recognisable (some y))
  (ht : x.typeOf? = y.typeOf?)

include hx hy ht

namespace Node

/-- A command below takes or refuses the typed values under both contexts. -/
theorem enter_alike {s : Standing σ} (hs : s.Valid (some x)) (word : String) :
    Alike x y
      (s.node.enter (some x) (s.command.injected (some x) ++ s.typed) word)
      (s.node.enter (some y) (s.command.injected (some y) ++ s.typed) word) := by
  cases hc : s.node.child word with
  | error e =>
    exact .inl ⟨e, enter_of_child_error hc _ _, enter_of_child_error hc _ _⟩
  | ok found =>
    obtain ⟨child, command⟩ := found
    rw [enter_below hx hs hc, enter_below hy (hs.of_types ht) hc]
    have htypes := command.map_typeOf?_held s.typed ht
    cases hb : command.chain.bindAll (command.injected (some x) ++ s.typed) with
    | error e =>
      rw [Chain.bindAll_error_congr rfl rfl htypes hb]
      exact .inl ⟨_, rfl, rfl⟩
    | ok chain =>
      obtain ⟨hfit, rfl⟩ := (Chain.bindAll_eq_ok_iff _ _ _).mp hb
      have hfit' : Fits command.parameters (command.injected (some y) ++ s.typed) :=
        hfit.of_types htypes
      have hb' : command.chain.bindAll (command.injected (some y) ++ s.typed) =
          .ok (command.holding (command.injected (some y) ++ s.typed)) :=
        (Chain.bindAll_eq_ok_iff _ _ _).mpr ⟨hfit', rfl⟩
      rw [hb']
      exact .inr ⟨⟨child, command, s.typed⟩, hfit, rfl, rfl⟩

end Node

namespace Place

/-- One word leads on alike. -/
theorem step_alike (parsers : ParserRegistry) {s : Standing σ} (hs : s.Valid (some x))
    (word : String) :
    Alike x y ((s.place (some x)).step parsers (some x) word)
      ((s.place (some y)).step parsers (some y) word) := by
  have hlen := s.command.length_held s.typed ht
  cases hl : s.command.parameters.drop (s.command.injected (some x) ++ s.typed).length with
  | nil =>
    have hlx : (s.place (some x)).chain.left = [] := hl
    have hly : (s.place (some y)).chain.left = [] := by
      rw [Standing.place, left_seated, ← hlen, hl]
    rw [step_of_left_nil hlx, step_of_left_nil hly]
    exact Node.enter_alike hx hy ht hs word
  | cons next more =>
    have hlx : (s.place (some x)).chain.left = next :: more := hl
    have hly : (s.place (some y)).chain.left = next :: more := by
      rw [Standing.place, left_seated, ← hlen, hl]
    rw [step_of_left_cons hlx, step_of_left_cons hly]
    cases parsers.parse word next.type with
    | error e => exact .inl ⟨_, rfl, rfl⟩
    | ok v =>
      by_cases ha : next.type.accepts v = true
      · have hvalid : (⟨s.node, s.command, s.typed ++ [v]⟩ : Standing σ).Valid (some x) :=
          Command.fits_held_push hs hl ha
        simp only [if_pos ha, Standing.place, push_seated]
        exact .inr ⟨⟨s.node, s.command, s.typed ++ [v]⟩, hvalid, rfl, rfl⟩
      · simp only [if_neg ha]
        exact .inl ⟨_, rfl, rfl⟩

theorem foldlM_step_alike (parsers : ParserRegistry) {s : Standing σ} (hs : s.Valid (some x))
    (words : List String) :
    Alike x y (words.foldlM (step parsers (some x)) (s.place (some x)))
      (words.foldlM (step parsers (some y)) (s.place (some y))) := by
  induction words generalizing s with
  | nil => exact .inr ⟨s, hs, rfl, rfl⟩
  | cons word words ih =>
    rw [List.foldlM_cons, List.foldlM_cons]
    rcases step_alike hx hy ht parsers hs word with ⟨e, hp, hq⟩ | ⟨s', hs', hp, hq⟩
    · rw [hp, hq]
      exact .inl ⟨e, rfl, rfl⟩
    · rw [hp, hq]
      exact ih hs'

end Place

namespace Dispatcher

/-- The words of a line lead to the same failure, or to the same command with the same values
typed. -/
theorem walk_alike (d : Dispatcher σ) (words : List String) :
    Alike x y (d.walk (some x) words) (d.walk (some y) words) := by
  cases words with
  | nil => exact .inl ⟨.emptyInput, rfl, rfl⟩
  | cons first rest =>
    rw [walk, walk]
    cases hc : d.root.child first with
    | error e =>
      rw [Node.enter_of_child_error hc, Node.enter_of_child_error hc]
      exact .inl ⟨e, rfl, rfl⟩
    | ok found =>
      obtain ⟨node, command⟩ := found
      have hs : (⟨node, command, []⟩ : Standing σ).Valid (some x) := by
        rw [Standing.Valid, List.append_nil]
        exact command.fits_injected (some x)
      rw [Node.enter_top hc, Node.enter_top hc]
      exact Place.foldlM_step_alike hx hy ht d.parsers hs rest

end Dispatcher

end Lockstep

/-! ### What was typed -/

/-- Values parsed from some words of a line, in the order of the words. -/
def TypedIn (parsers : ParserRegistry) (words : List String) (vs : List Value) : Prop :=
  ∃ texts, texts.Sublist words ∧
    List.Forall₂ (fun text v => ∃ type, parsers.parse text type = .ok v) texts vs

theorem ReadAs.forall₂_parse {parsers : ParserRegistry} {ps : List Parameter}
    {words : List String} {vs : List Value} (h : ReadAs parsers ps words vs) :
    List.Forall₂ (fun text v => ∃ type, parsers.parse text type = .ok v) words vs := by
  induction h with
  | nil ps => exact .nil
  | @cons p _ _ _ _ _ hp _ _ ih => exact .cons ⟨p.type, hp⟩ ih

theorem Clause.Reads.typedIn {parsers : ParserRegistry} {context : Option Value} {above : Node σ}
    {before : List Value} {c : Clause σ} (h : c.Reads parsers context above before)
    {words : List String} {vs : List Value} (hrest : TypedIn parsers words vs) :
    TypedIn parsers (c.text ++ words) (c.values ++ vs) := by
  obtain ⟨texts, hsub, hparse⟩ := hrest
  refine ⟨c.words ++ texts, ?_, List.rel_append h.reads.forall₂_parse hparse⟩
  have hwords : c.words.Sublist c.text := List.sublist_cons_self c.name c.words
  exact hwords.append hsub

theorem Descent.typedIn {parsers : ParserRegistry} {context : Option Value} {node : Node σ}
    {command : Command σ} {typed : List Value} {rest : List (Clause σ)}
    (h : Descent parsers context node command typed rest) :
    TypedIn parsers (rest.flatMap Clause.text) (rest.flatMap Clause.values) := by
  induction h with
  | stop => exact ⟨[], .slnil, .nil⟩
  | down _ hc _ ih =>
    rw [List.flatMap_cons, List.flatMap_cons]
    exact hc.typedIn ih

namespace Dispatcher

theorem Decomposes.typedIn {d : Dispatcher σ} {context : Option Value} {words : List String}
    {clauses : List (Clause σ)} (h : d.Decomposes context words clauses) :
    TypedIn d.parsers words (clauses.flatMap Clause.values) := by
  cases clauses with
  | nil => exact h.elim
  | cons first rest =>
    obtain ⟨rfl, hc, hdown⟩ := h
    rw [List.flatMap_cons, List.flatMap_cons]
    exact hc.typedIn hdown.typedIn

/-- The values that a walk stands with, beside the context, were typed. -/
theorem typedIn_of_walk {d : Dispatcher σ} {context : Option Value} {words : List String}
    {s : Standing σ} (hr : Recognisable context)
    (h : d.walk context words = .ok (s.place context)) : TypedIn d.parsers words s.typed := by
  obtain ⟨clauses, last, hd, _, hp⟩ := (walk_eq_ok_iff hr).mp h
  simp only [Standing.place, Place.seated, Place.mk.injEq] at hp
  obtain ⟨_, hcommand, hchain⟩ := hp
  have hbound := congrArg Chain.bound hchain
  rw [Command.bound_holding, Command.bound_holding, heldBy, hcommand] at hbound
  rw [List.append_cancel_left hbound]
  exact hd.typedIn

/-! ### One course -/

/-- Resolving a line under two contexts fails alike, or ends at one command with one list of
typed values: its arguments are the context, if the first parameter takes it, the values typed,
and the defaults. -/
def SameCourse (d : Dispatcher σ) (x y : Value) (line : String) : Prop :=
  (∃ e, d.resolve (some x) line = .error e ∧ d.resolve (some y) line = .error e) ∨
    ∃ node command typed, TypedIn d.parsers (Reader.wordsRead line) typed ∧
      d.resolve (some x) line =
        .ok ⟨node, command, command.filled (command.injected (some x) ++ typed)⟩ ∧
      d.resolve (some y) line =
        .ok ⟨node, command, command.filled (command.injected (some y) ++ typed)⟩

theorem sameCourse_of_recognisable (d : Dispatcher σ) {x y : Value}
    (hx : Recognisable (some x)) (hy : Recognisable (some y)) (ht : x.typeOf? = y.typeOf?)
    (line : String) : d.SameCourse x y line := by
  rw [SameCourse, resolve_eq, resolve_eq]
  rcases walk_alike hx hy ht d (Reader.wordsRead line) with ⟨e, hp, hq⟩ | ⟨s, _, hp, hq⟩
  · rw [hp, hq]
    exact .inl ⟨e, rfl, rfl⟩
  · have htyped := typedIn_of_walk hx hp
    rw [hp, hq]
    simp only [Standing.place, Place.seated, Place.settle_holding,
      ← s.command.length_held s.typed ht]
    by_cases hlen : (s.command.injected (some x) ++ s.typed).length < s.command.boundary
    · rw [if_pos hlen, if_pos hlen]
      exact .inl ⟨_, rfl, rfl⟩
    · rw [if_neg hlen, if_neg hlen]
      exact .inr ⟨s.node, s.command, s.typed, htyped, rfl, rfl⟩

theorem SameCourse.symm {d : Dispatcher σ} {x y : Value} {line : String}
    (h : d.SameCourse x y line) : d.SameCourse y x line := by
  rcases h with ⟨e, hx, hy⟩ | ⟨node, command, typed, ht, hx, hy⟩
  · exact .inl ⟨e, hy, hx⟩
  · exact .inr ⟨node, command, typed, ht, hy, hx⟩

/-! ### A context that differs from itself -/

/-- A command for one value of a type. -/
def single (σ : Type) (type : ParamType) : Command σ :=
  ⟨"a", [.required type], fun _ s => (.done, s)⟩

/-- A command for two values of a type. -/
def double (σ : Type) (type : ParamType) : Command σ :=
  ⟨"b", [.required type, .required type], fun _ s => (.done, s)⟩

/-- The command for one value, with the command for two below it. -/
def singleNode (σ : Type) (type : ParamType) : Node σ :=
  (Node.leaf (single σ type)).addChild [] (.leaf (double σ type))

/-- A dispatcher with the two commands and no parsers. -/
def relay (σ : Type) (type : ParamType) : Dispatcher σ :=
  ⟨Node.root.addChild [] (singleNode σ type), .empty⟩

/-- The line that calls the second command through the first, without an argument. -/
def relayLine : String :=
  "a b"

theorem wordsRead_relayLine : Reader.wordsRead relayLine = ["a", "b"] := by
  rw [Reader.wordsRead_eq]
  decide +kernel

section Relay

variable {x : Value} {type : ParamType}

theorem child_relay (σ : Type) (type : ParamType) :
    (relay σ type).root.child "a" = .ok (singleNode σ type, single σ type) := by
  have hname : (singleNode σ type).name? = some "a" := rfl
  exact Node.child_eq_ok_iff.mpr ⟨Node.find?_addChild_name .root [] hname, rfl⟩

theorem child_singleNode (σ : Type) (type : ParamType) :
    (singleNode σ type).child "b" = .ok (.leaf (double σ type), double σ type) := by
  have hname : (Node.leaf (double σ type)).name? = some "b" := rfl
  exact Node.child_eq_ok_iff.mpr ⟨Node.find?_addChild_name (.leaf (single σ type)) [] hname, rfl⟩

theorem injected_single (σ : Type) (hacc : type.accepts x = true) :
    (single σ type).injected (some x) = [x] := by
  simp [Command.injected, Command.firstType?, single, Parameter.required, hacc]

theorem injected_double (σ : Type) (hacc : type.accepts x = true) :
    (double σ type).injected (some x) = [x] := by
  simp [Command.injected, Command.firstType?, double, Parameter.required, hacc]

/-- The context carried from above is not recognised, and the context is put before it. -/
theorem seed_double (σ : Type) (hacc : type.accepts x = true) (hx : (x == x) = false) :
    (double σ type).chain.seed [x] (some x) = .ok ((double σ type).holding [x, x]) := by
  have hcarries : Chain.carriesContext [x] (some x) = false := hx
  have hentry : (double σ type).chain.entryValues [x] (some x) = [x, x] := by
    rw [Chain.entryValues, Command.takesContext_chain, injected_double σ hacc, hcarries]
    rfl
  rw [Chain.seed, hentry]
  simp only [List.isEmpty_cons, Bool.and_false, Bool.false_eq_true, if_false]
  rw [Chain.bindAll_eq_ok_iff]
  exact ⟨.cons hacc (.cons hacc (.nil [])), rfl⟩

theorem step_relay (σ : Type) (hacc : type.accepts x = true) (hx : (x == x) = false) :
    (Place.seated (some x) (singleNode σ type) (single σ type) []).step
        (relay σ type).parsers (some x) "b" =
      .ok ⟨.leaf (double σ type), double σ type, (double σ type).holding [x, x]⟩ := by
  have hleft : (Place.seated (some x) (singleNode σ type) (single σ type) []).chain.left = [] := by
    rw [Place.left_seated, injected_single σ hacc]
    rfl
  have hbound : (Place.seated (some x) (singleNode σ type) (single σ type) []).chain.bound =
      [x] := by
    rw [Place.seated, Command.bound_holding, injected_single σ hacc]
    rfl
  have henter := Node.enter_of_child (child_singleNode σ type) (some x) [x]
  rw [seed_double σ hacc hx] at henter
  rw [Place.step_of_left_nil hleft, hbound]
  exact henter

/-- With a context that differs from itself, the second command takes it twice. -/
theorem resolve_relay (σ : Type) (hacc : type.accepts x = true) (hx : (x == x) = false) :
    (relay σ type).resolve (some x) relayLine =
      .ok ⟨.leaf (double σ type), double σ type, ⟨[x, x]⟩⟩ := by
  have hwalk : (relay σ type).walk (some x) ["a", "b"] =
      .ok ⟨.leaf (double σ type), double σ type, (double σ type).holding [x, x]⟩ := by
    rw [walk, Node.enter_top (child_relay σ type)]
    show ["b"].foldlM (Place.step (relay σ type).parsers (some x))
      (Place.seated (some x) (singleNode σ type) (single σ type) []) = _
    rw [List.foldlM_cons, step_relay σ hacc hx]
    rfl
  rw [resolve_eq, wordsRead_relayLine, hwalk]
  simp only [Place.settle_holding]
  rfl

end Relay

/-- No word of the line reads as a number. -/
theorem not_parse_relayLine {type : ParamType} {k : FloatKind} {bits : k.Bits} {word : String}
    (hw : word ∈ ["a", "b"]) :
    ParserRegistry.empty.parse word type ≠ .ok (.scalar (.float k) bits) := by
  intro h
  cases type with
  | custom tag => cases h
  | builtin s =>
    have htype := ParserRegistry.typeOf_of_parse_builtin h
    simp only [Value.typeOf?, Option.some.injEq, ParamType.builtin.injEq] at htype
    subst htype
    rw [ParserRegistry.parse_builtin] at h
    have hread : (Scalar.float k).read? word = none := by
      rcases List.mem_pair.mp hw with rfl | rfl
      · cases k <;> decide +kernel
      · cases k <;> decide +kernel
    rw [Scalar.parse, hread] at h
    cases h

theorem exists_float_of_ne_self {x : Value} (hx : (x == x) = false) :
    ∃ k bits, x = .scalar (.float k) bits := by
  rw [Value.eq_self] at hx
  cases x with
  | null => simp [Value.isNaN] at hx
  | custom inst => simp [Value.isNaN] at hx
  | scalar s content =>
    cases s with
    | float k => exact ⟨k, content, rfl⟩
    | _ => simp [Value.isNaN, Scalar.isNaN] at hx

/-- The second copy of the context was not typed in the line, so it is no argument of a course
that another context could share. -/
theorem not_sameCourse_relay (σ : Type) {x : Value} (hx : (x == x) = false) (y : Value) :
    ∃ type, ¬ (relay σ type).SameCourse x y relayLine := by
  obtain ⟨k, bits, rfl⟩ := exists_float_of_ne_self hx
  have hacc : (ParamType.builtin (.float k)).accepts (.scalar (.float k) bits) = true :=
    (ParamType.accepts_iff _ _).mpr rfl
  have hres := resolve_relay σ hacc hx
  refine ⟨.builtin (.float k), ?_⟩
  intro hcases
  rcases hcases with ⟨e, hr, _⟩ | ⟨node, command, typed, ⟨texts, hsub, hparse⟩, hr, _⟩
  · rw [hres] at hr
    cases hr
  · rw [hres] at hr
    simp only [Except.ok.injEq, Resolved.mk.injEq] at hr
    obtain ⟨_, rfl, hargs⟩ := hr
    rw [injected_double σ hacc] at hargs
    have hvalues := congrArg Args.values hargs
    cases hparse with
    | nil =>
      -- nothing typed: the second value would be a default
      simp [Command.filled, double, Parameter.required, Parameter.fallback] at hvalues
    | @cons text v texts vs hv _ =>
      obtain ⟨type, hv⟩ := hv
      have hword : text ∈ ["a", "b"] := by
        rw [← wordsRead_relayLine]
        exact hsub.subset List.mem_cons_self
      have heq : v = .scalar (.float k) bits := by
        simp only [Command.filled, List.cons_append, List.nil_append, List.cons.injEq] at hvalues
        exact hvalues.2.1.symm
      rw [heq] at hv
      exact not_parse_relayLine hword hv

/-- Two contexts of one type lead every line of every dispatcher the same way exactly when each
is equal to itself, that is when neither is a floating-point number that is none. -/
theorem sameCourse_iff {x y : Value} (ht : x.typeOf? = y.typeOf?) :
    (∀ (d : Dispatcher σ) (line : String), d.SameCourse x y line) ↔
      (x == x) = true ∧ (y == y) = true := by
  constructor
  · intro h
    constructor
    · rw [← Bool.not_eq_false]
      intro hx
      obtain ⟨type, hrelay⟩ := not_sameCourse_relay σ hx y
      exact hrelay (h _ _)
    · rw [← Bool.not_eq_false]
      intro hy
      obtain ⟨type, hrelay⟩ := not_sameCourse_relay σ hy x
      exact hrelay (h _ _).symm
  · intro hboth d line
    obtain ⟨hx, hy⟩ := hboth
    exact d.sameCourse_of_recognisable (recognisable_some hx) (recognisable_some hy) ht line

/-- Another operator at the desk. -/
def colleague : Value :=
  .custom ⟨"session", 2, .session "bob"⟩

/-- Whoever is at the desk, a line goes the same way. -/
theorem sameCourse_iff_operators :
    operator.typeOf? = colleague.typeOf? ∧ ∀ line, desk.SameCourse operator colleague line := by
  have htype : operator.typeOf? = colleague.typeOf? := rfl
  have hboth : (operator == operator) = true ∧ (colleague == colleague) = true := by decide
  exact ⟨htype, (sameCourse_iff htype).mpr hboth desk⟩

/-- The number one as a context. -/
def unit : Value :=
  .scalar (.float .double) (0x3FF0000000000000 : BitVec 64)

/-- The number that is none as a context. -/
def noNumber : Value :=
  .scalar (.float .double) (0x7FF8000000000000 : BitVec 64)

/-- One line, two contexts of one type: with a number an argument is missing, with the number
that is none the context stands in for it. -/
theorem noNumber_bound_twice :
    noNumber.typeOf? = unit.typeOf? ∧
      (relay Unit (.builtin (.float .double))).resolve (some unit) "a b" =
        .error (.tooFewArguments "a b") ∧
      ((relay Unit (.builtin (.float .double))).resolve (some noNumber) "a b").toOption.map
        (fun r => (r.command.name, r.args.text)) = some ("b", "[NaN, NaN]") ∧
      ¬ (relay Unit (.builtin (.float .double))).SameCourse noNumber unit "a b" := by
  have hunit : (relay Unit (.builtin (.float .double))).resolve (some unit) "a b" =
      .error (.tooFewArguments "a b") := by
    rw [← failure?_eq_some_iff]
    decide +kernel
  have hnone : ((relay Unit (.builtin (.float .double))).resolve (some noNumber)
      "a b").toOption.map (fun r => (r.command.name, r.args.text)) = some ("b", "[NaN, NaN]") := by
    decide +kernel
  refine ⟨rfl, hunit, hnone, ?_⟩
  intro hcases
  rcases hcases with ⟨e, hx, _⟩ | ⟨node, command, typed, _, _, hy⟩
  · rw [hx] at hnone
    cases hnone
  · rw [hunit] at hy
    cases hy

end Dispatcher

end Switchboard
