import Switchboard.Proofs.Resolution.Omitted

/-!
# What handlers are given

A handler asks for its arguments by index and by type. A parameter of a
built-in type can rely on it, whatever the parsers of custom types return: a
value that is bound was accepted by the type, and a text that was declared as
the default was read by the one parser that the type has. Only a null that is
declared, in the trailing run of defaults, can come instead, and it does just
where nothing is supplied for the parameter.

* `Args.Gives`, `Args.GivesNull`: what a handler gets when it asks
* `Declaration.NullAt`: a null declared in the trailing run of defaults
* `delivered_filled`: the arguments of a command that holds values which fit it
* `resolve_delivers`: the arguments of a line that resolves
-/

namespace Switchboard

variable {σ : Type}

/-! ### Asking for arguments -/

namespace Args

/-- The argument at an index is there, whichever way it is asked for as a scalar. -/
structure Gives (args : Args) (type : Scalar) (index : Nat) (x : type.Carrier) : Prop where
  value?_eq : args.value? index = some (.scalar type x)
  require_eq : args.require type index = .ok x
  get?_eq : args.get? type index = some x
  getOptional?_eq : args.getOptional? type index = some (some x)

/-- The argument at an index is null, and is had only as a scalar that may be null. -/
structure GivesNull (args : Args) (type : Scalar) (index : Nat) : Prop where
  value?_eq : args.value? index = some .null
  require_eq : args.require type index = .error (.mismatch index .null type)
  get?_eq : args.get? type index = none
  getOptional?_eq : args.getOptional? type index = some none

variable {args : Args} {index : Nat}

theorem gives_of_scalar {type : Scalar} {x : type.Carrier}
    (h : args.value? index = some (.scalar type x)) : args.Gives type index x := by
  have hread := Value.as?_scalar type x
  refine ⟨h, ?_, ?_, ?_⟩
  · simp only [require, h, hread]
  · simp only [get?, h, Option.bind_some, hread]
  · simp only [getOptional?, h, Option.bind_some, Value.asOptional?, hread, Option.map_some]

theorem gives_of_accepts {type : Scalar} {v : Value} (h : args.value? index = some v)
    (ha : (ParamType.builtin type).accepts v = true) : ∃ x, args.Gives type index x := by
  obtain ⟨x, rfl⟩ := (ParamType.accepts_builtin_iff type v).mp ha
  exact ⟨x, gives_of_scalar h⟩

theorem givesNull_of_null (h : args.value? index = some .null) (type : Scalar) :
    args.GivesNull type index := by
  refine ⟨h, ?_, ?_, ?_⟩
  · simp only [require, h, Value.as?]
  · simp only [get?, h, Option.bind_some, Value.as?]
  · simp only [getOptional?, h, Option.bind_some, Value.asOptional?]

end Args

/-! ### Where null is declared -/

namespace Declaration

/-- Null is declared at an index, and from there on everything has a default. -/
structure NullAt (ds : List Declaration) (i : Nat) : Prop where
  null : ∃ d, ds[i]? = some d ∧ d.default? = some .null
  trailing : ∀ d ∈ ds.drop i, ∃ default, d.default? = some default

/-- Arguments keep to the built-in types declared, when so many values were supplied: each is
given as its type, or is null, and that just where null is declared in the trailing run and
nothing was supplied. -/
structure Delivered (ds : List Declaration) (supplied : Nat) (args : Args) : Prop where
  given : ∀ i d type, ds[i]? = some d → d.type = .builtin type →
    ¬ (NullAt ds i ∧ supplied ≤ i) → ∃ x, args.Gives type i x
  null : ∀ i d type, ds[i]? = some d → d.type = .builtin type →
    NullAt ds i → supplied ≤ i → args.GivesNull type i

end Declaration

/-! ### Completed commands -/

namespace Command

variable (c : Command σ) {values : List Value} {i : Nat}

theorem length_filled (h : values.length ≤ c.parameters.length) :
    (c.filled values).length = c.parameters.length := by
  rw [Args.length, filled, List.length_append, List.length_map, List.length_drop]
  omega

theorem value?_filled_of_lt (h : i < values.length) : (c.filled values).value? i = values[i]? :=
  List.getElem?_append_left h

theorem value?_filled_of_le (h : values.length ≤ i) :
    (c.filled values).value? i = c.parameters[i]?.map Parameter.fallback := by
  have hindex : values.length + (i - values.length) = i := by omega
  rw [Args.value?, filled, List.getElem?_append_right h, List.getElem?_map, List.getElem?_drop,
    hindex]

end Command

section Filled

variable {parsers : ParserRegistry} {name : String} {ds : List Declaration} {c : Command σ}
  {values : List Value}

/-- Parameters that are not required have a default. -/
theorem exists_default_of_reads
    (hreads : List.Forall₂ (Declaration.Reads parsers name) ds c.parameters) {i : Nat}
    (hi : c.boundary ≤ i) : ∀ p ∈ c.parameters.drop i, ∃ v, p.default? = some v := by
  intro p hp
  obtain ⟨d, _, hread⟩ := exists_left_of_forall₂ (List.forall₂_drop i hreads) hp
  obtain ⟨v, hv, _⟩ := hread.exists_default (Command.not_isRequired_of_boundary_le hi p hp)
  exact ⟨v, hv⟩

/-- Parameters that are not required were declared with a default. -/
theorem trailing_of_reads (hreads : List.Forall₂ (Declaration.Reads parsers name) ds c.parameters)
    {i : Nat} (hi : c.boundary ≤ i) : ∀ d ∈ ds.drop i, ∃ default, d.default? = some default := by
  intro d hd
  obtain ⟨p, hp, hread⟩ := exists_right_of_forall₂ (List.forall₂_drop i hreads) hd
  obtain ⟨v, _, hv⟩ := hread.exists_default (Command.not_isRequired_of_boundary_le hi p hp)
  rcases Declaration.readDefault_eq_some_iff.mp hv with ⟨hnull, _⟩ | ⟨content, htext, _⟩
  · exact ⟨_, hnull⟩
  · exact ⟨_, htext⟩

/-- What is bound for a parameter of a built-in type was accepted by it. -/
theorem gives_of_bound (hreads : List.Forall₂ (Declaration.Reads parsers name) ds c.parameters)
    (hfit : Fits c.parameters values) {i : Nat} (hi : i < values.length) {d : Declaration}
    {type : Scalar} (hd : ds[i]? = some d) (htype : d.type = .builtin type) :
    ∃ x, (c.filled values).Gives type i x := by
  have hvalue : values[i]? = some values[i] := List.getElem?_eq_getElem hi
  obtain ⟨p, hp, ha⟩ := hfit.accepts_of_getElem? hvalue
  obtain ⟨d', hd', hread⟩ := getElem?_left_of_forall₂ hreads hp
  obtain rfl : d = d' := Option.some.inj (hd.symm.trans hd')
  rw [hread.type_eq, htype] at ha
  refine Args.gives_of_accepts ?_ ha
  rw [c.value?_filled_of_lt hi, hvalue]

/-- What is filled in for a parameter was read from its declaration. -/
theorem value?_of_left_out
    (hreads : List.Forall₂ (Declaration.Reads parsers name) ds c.parameters)
    (hboundary : c.boundary ≤ values.length) {i : Nat} (hi : values.length ≤ i) {d : Declaration}
    (hd : ds[i]? = some d) :
    ∃ v, (c.filled values).value? i = some v ∧ d.readDefault parsers name = .ok (some v) := by
  obtain ⟨p, hp, hread⟩ := getElem?_right_of_forall₂ hreads hd
  have hopen : p.isRequired = false :=
    not_of_upToLast_le (Nat.le_trans hboundary hi) hp
  refine ⟨p.fallback, ?_, hread.of_fallback hopen⟩
  rw [c.value?_filled_of_le hi, hp, Option.map_some]

/-- A command that holds values which fit it, as many as it requires, delivers its arguments. -/
theorem delivered_filled (hreads : List.Forall₂ (Declaration.Reads parsers name) ds c.parameters)
    (hfit : Fits c.parameters values) (hboundary : c.boundary ≤ values.length) :
    Declaration.Delivered ds values.length (c.filled values) := by
  constructor
  · intro i d type hd htype hnot
    by_cases hi : i < values.length
    · exact gives_of_bound hreads hfit hi hd htype
    · have hle : values.length ≤ i := Nat.le_of_not_lt hi
      obtain ⟨v, hv, hread⟩ := value?_of_left_out hreads hboundary hle hd
      rcases Declaration.readDefault_eq_some_iff.mp hread with ⟨hnull, _⟩ | ⟨_, _, _, hparse⟩
      · have htrailing := trailing_of_reads hreads (Nat.le_trans hboundary hle)
        exact absurd ⟨⟨⟨d, hd, hnull⟩, htrailing⟩, hle⟩ hnot
      · rw [htype] at hparse
        have htypeOf := ParserRegistry.typeOf_of_parse_builtin hparse
        exact Args.gives_of_accepts hv ((ParamType.accepts_iff _ v).mpr htypeOf)
  · intro i d type hd _ hnull hle
    obtain ⟨d', hd', hdefault⟩ := hnull.null
    obtain rfl : d = d' := Option.some.inj (hd.symm.trans hd')
    obtain ⟨v, hv, hread⟩ := value?_of_left_out hreads hboundary hle hd
    rcases Declaration.readDefault_eq_some_iff.mp hread with ⟨_, rfl⟩ | ⟨_, htext, _⟩
    · exact Args.givesNull_of_null hv type
    · rw [hdefault] at htext
      cases htext

end Filled

/-! ### Lines -/

namespace Dispatcher

variable {d : Dispatcher σ} {context : Option Value} {line : String}

/-- A line that resolves leads to a place of the tree, where what it supplies is enough. -/
theorem supplied?_of_resolve {r : Resolved σ} (h : d.resolve context line = .ok r) :
    ∃ p : Place σ, p.Grounded d.root ∧ d.supplied? context line = some p.chain.bound.length ∧
      p.command.boundary ≤ p.chain.bound.length ∧
      (⟨p.node, p.command, p.command.filled p.chain.bound⟩ : Resolved σ) = r := by
  obtain ⟨p, hwalk, hp, hboundary, hr⟩ := place_of_resolve h
  refine ⟨p, hp, ?_, hboundary, hr⟩
  rw [supplied?, hwalk]
  rfl

end Dispatcher

namespace Registrar

variable {calls : List (Call σ)} {d : Dispatcher σ} {context : Option Value} {line : String}

/-- A line that resolves gives the handler one argument for each parameter. Whatever is not
supplied has a default. An argument of a built-in type can be had as that type, however it is asked
for, unless null is declared for it in the trailing run of defaults and it is not supplied; then it
is null. Here the tree was built by calls on a registrar; the parsers of custom types may return
any values, and more may have been registered since. -/
theorem resolve_delivers (hroot : d.root = (built calls).root) {r : Resolved σ}
    (h : d.resolve context line = .ok r) :
    r.args.length = r.command.parameters.length ∧
    ∃ supplied, d.supplied? context line = some supplied ∧
      (∀ p ∈ r.command.parameters.drop supplied, ∃ v, p.default? = some v) ∧
      (∃ spec, Declares calls spec r.command) ∧
      ∀ spec, Declares calls spec r.command →
        spec.declarations.map Declaration.type = r.command.parameters.map Parameter.type ∧
        Declaration.Delivered spec.declarations supplied r.args := by
  obtain ⟨p, hp, hsupplied, hboundary, rfl⟩ := Dispatcher.supplied?_of_resolve h
  have hdeclared : ∃ spec, Declares calls spec p.command := by
    obtain ⟨keys, hkeys⟩ := hp.inTree
    rw [hroot] at hkeys
    exact exists_declares calls keys p.node hkeys p.command hp.command_eq
  refine ⟨p.command.length_filled hp.fits.length_le, p.chain.bound.length, hsupplied, ?_,
    hdeclared, ?_⟩
  · obtain ⟨spec, hspec⟩ := hdeclared
    obtain ⟨parsers, hreads⟩ := hspec.exists_reads
    exact exists_default_of_reads hreads hboundary
  · intro spec hspec
    obtain ⟨parsers, hreads⟩ := hspec.exists_reads
    exact ⟨types_of_reads hreads, delivered_filled hreads hp.fits hboundary⟩

/-- A command that draws something, with a thickness, from a point on, and filled if that is
said. -/
def draw : CommandSpec Unit :=
  ((((CommandSpec.ofName "draw" fun _ s => (.done, s)).require (.builtin .string)).defaultTo
    (.builtin (.int .i32)) "+5").defaultTo (.custom "point") "x").defaultToNull (.builtin .bool)

/-- A parser of points that keeps the text as it is, and the command. -/
def drawing : List (Call Unit) :=
  [.parser (.custom "point") fun content => .ok (.ofString content), .commands [draw]]

/-- The context, a default and a null are as declared, whatever is given for the point. -/
theorem resolve_delivers_draw :
    ∃ r, (built drawing).finish.resolve (some (.ofString "ann")) "draw" = .ok r ∧
      r.args.text = "[ann, 5, x, null]" ∧ r.args.length = r.command.parameters.length ∧
      (∃ x, r.args.Gives .string 0 x) ∧ (∃ x, r.args.Gives (.int .i32) 1 x) ∧
      r.args.GivesNull .bool 3 := by
  have hrun : ((built drawing).finish.resolve (some (.ofString "ann")) "draw").toOption.map
      (fun r => r.args.text) = some "[ann, 5, x, null]" := by
    decide +kernel
  have hsupplied : (built drawing).finish.supplied? (some (.ofString "ann")) "draw" = some 1 := by
    decide +kernel
  cases hresolve : (built drawing).finish.resolve (some (.ofString "ann")) "draw" with
  | error e =>
    rw [hresolve] at hrun
    cases hrun
  | ok r =>
    rw [hresolve] at hrun
    obtain ⟨hlength, supplied, hsome, _, ⟨spec, hspec⟩, hdelivered⟩ :=
      resolve_delivers rfl hresolve
    obtain rfl : 1 = supplied := Option.some.inj (hsupplied.symm.trans hsome)
    have hdeclared : spec = draw := by
      obtain ⟨call, hcall, hmem⟩ := hspec.exists_call
      rcases List.mem_cons.mp hcall with rfl | hcall
      · cases hmem
      · obtain rfl := List.mem_singleton.mp hcall
        exact List.mem_singleton.mp hmem
    rw [hdeclared] at hspec
    obtain ⟨_, hgiven, hnull⟩ := hdelivered draw hspec
    refine ⟨r, rfl, Option.some.inj hrun, hlength, ?_, ?_, ?_⟩
    · exact hgiven 0 _ .string rfl rfl fun h => absurd h.2 (by decide)
    · refine hgiven 1 _ (.int .i32) rfl rfl fun h => ?_
      obtain ⟨d, hd, hdefault⟩ := h.1.null
      obtain rfl := Option.some.inj hd
      cases hdefault
    · refine hnull 3 _ .bool rfl rfl ⟨⟨_, rfl, rfl⟩, fun d hd => ?_⟩ (by decide)
      obtain rfl := List.mem_singleton.mp hd
      exact ⟨.null, rfl⟩

end Registrar

end Switchboard
