import Switchboard.Proofs.Registration.Defaults
import Switchboard.Proofs.Resolution.Entries

/-!
# Types of the values handlers get

A word, a carried value and the context are bound where the type of the
parameter accepts them. A default is read when its command is registered, and
its type is not looked at again. Handlers therefore get values of the declared
types, apart from declared nulls, as long as the parsers of custom types keep
to them, and that is just when: one value of another type, returned for one
text, can be stored as a default, or it is refused where a stored null stands.

* `TypeChecked`: defaults, arguments and typed words all have the declared types
* `typeChecked_of_keepsTo`: they do when all parsers keep to their types
* `not_typeChecked_sole`: a parser that does not leads to a command that has it otherwise
* `typeChecked_iff_keepsTo`: the parsers with which it always holds
-/

namespace Switchboard

variable {σ : Type}

/-- The text that a user types to get what is declared as the default. -/
def DeclaredDefault.typed : DeclaredDefault → String
  | null => "null"
  | text content => content

/-! ### Arguments -/

/-- Values that fit the parameters, completed with defaults, are admitted by the declarations. -/
theorem admits_filled {ds : List Declaration} {ps : List Parameter} {bound : List Value}
    (hmade : List.Forall₂ (fun d p => Made d.Admits d p) ds ps) (hfit : Fits ps bound)
    (hopen : ∀ p ∈ ps.drop bound.length, p.isRequired = false) :
    List.Forall₂ Declaration.Admits ds
      (bound ++ (ps.drop bound.length).map Parameter.fallback) := by
  induction hfit generalizing ds with
  | nil ps =>
    show List.Forall₂ Declaration.Admits ds (ps.map Parameter.fallback)
    change ∀ p ∈ ps, p.isRequired = false at hopen
    induction hmade with
    | nil => exact .nil
    | cons hd _ ih =>
      have hfirst := hd.of_fallback (hopen _ List.mem_cons_self)
      exact .cons hfirst (ih fun p hp => hopen p (List.mem_cons_of_mem _ hp))
  | cons hv _ ih =>
    cases hmade with
    | cons hd hmade =>
      rw [hd.type_eq] at hv
      exact .cons (.inl hv) (ih hmade hopen)

/-- Behind the boundary no parameter is required. -/
theorem Command.not_isRequired_of_boundary_le {c : Command σ} {n : Nat} (h : c.boundary ≤ n) :
    ∀ p ∈ c.parameters.drop n, p.isRequired = false := by
  intro p hp
  obtain ⟨i, hi⟩ := List.mem_iff_getElem?.mp hp
  rw [List.getElem?_drop] at hi
  refine not_of_upToLast_le ?_ hi
  exact Nat.le_trans h (Nat.le_add_right n i)

namespace Registrar

/-- What calls have led to checks the types of values on both ways to a handler. Every command of
the tree was declared, with defaults that its declarations admit; the arguments of every line that
resolves are admitted by them; and a declared default is not refused for its type where it is
typed. -/
structure TypeChecked (calls : List (Call σ)) : Prop where
  defaults : ∀ keys n command, (built calls).root.at? keys = some n → n.command? = some command →
    (∃ spec, Declares calls spec command) ∧
      ∀ spec, Declares calls spec command →
        List.Forall₂ (fun d p => Made d.Admits d p) spec.declarations command.parameters
  arguments : ∀ context line r, (built calls).finish.resolve context line = .ok r →
    (∃ spec, Declares calls spec r.command) ∧
      ∀ spec, Declares calls spec r.command →
        List.Forall₂ Declaration.Admits spec.declarations r.args.values
  typed : ∀ spec command, Declares calls spec command →
    ∀ d ∈ spec.declarations, ∀ default, d.default? = some default →
      ∀ context line before place, Reader.wordsRead line = before ++ [default.typed] →
        (built calls).finish.walk context before = .ok place → place.command = command →
          place.chain.nextType? = some d.type → ∀ name source,
            (built calls).finish.resolve context line ≠ .error (.incompatibleArguments name source)

/-! ### Parsers that keep to their types -/

/-- With parsers that keep to their types the last word is not refused for its type where a
parameter is open. -/
theorem ne_incompatible_of_open {d : Dispatcher σ} {context : Option Value} {line word : String}
    {before : List String} {place : Place σ} {type : ParamType} (hparsers : d.parsers.Faithful)
    (hwords : Reader.wordsRead line = before ++ [word]) (hstands : d.walk context before = .ok place)
    (hopen : place.chain.nextType? = some type) (name : String) (source : ChainError) :
    d.resolve context line ≠ .error (.incompatibleArguments name source) := by
  intro hresolve
  have hstep := Dispatcher.walk_of_fault hresolve trivial
  rw [hwords, Dispatcher.walk_concat hstands] at hstep
  rw [Chain.nextType?_eq, Place.left_of_incompatible hparsers hstep] at hopen
  cases hopen

/-- Where all parsers of custom types keep to them, types are checked on both ways. -/
theorem typeChecked_of_keepsTo {calls : List (Call σ)}
    (h : ∀ tag parser, Call.parser (.custom tag) parser ∈ calls → parser.KeepsTo tag) :
    TypeChecked calls := by
  constructor
  · intro keys n command hn hcommand
    refine ⟨exists_declares calls keys n hn command hcommand, fun spec hspec => ?_⟩
    exact made_of_declares h hspec
  · intro context line r hr
    obtain ⟨p, hp, hcommand, _, hboundary, hargs⟩ := Dispatcher.grounded_of_resolve hr
    have hfit := hp.fits
    obtain ⟨keys, hkeys⟩ := hp.inTree
    have hdeclared := exists_declares calls keys p.node hkeys p.command hp.command_eq
    rw [hcommand] at hdeclared hfit
    refine ⟨hdeclared, fun spec hspec => ?_⟩
    rw [hargs]
    exact admits_filled (made_of_declares h hspec) hfit
      (Command.not_isRequired_of_boundary_le hboundary)
  · intro spec command _ d _ default _ context line before place hwords hstands _ hopen name source
    exact ne_incompatible_of_open (faithful_built h) hwords hstands hopen name source

/-! ### A parser that does not -/

/-- A command with one parameter, which has a default. -/
def sole (type : ParamType) (default : DeclaredDefault) : CommandSpec σ :=
  ⟨"c", [], [], [⟨type, some default⟩], fun _ s => (.done, s)⟩

/-- What the command is when a value was read as its default. -/
def soleCommand (type : ParamType) (v : Value) : Command σ :=
  ⟨"c", [.defaultable type v], fun _ s => (.done, s)⟩

/-- A parser is registered for a custom type, and then a command that declares a text as the
default of a parameter of this type. -/
def soleCalls (tag : String) (parser : Parser) (content : String) : List (Call σ) :=
  [.parser (.custom tag) parser, .commands [sole (.custom tag) (.ofText content)]]

theorem stage_sole {parsers : ParserRegistry} {type : ParamType} {default : DeclaredDefault}
    {v : Value}
    (h : (⟨type, some default⟩ : Declaration).readDefault parsers "c" = .ok (some v)) :
    (sole type default : CommandSpec σ).stage parsers = .ok ⟨[], [], soleCommand type v⟩ := by
  have hname : checkName "c" = .ok () := checkName_eq_ok_iff.mpr (by decide +kernel)
  refine CommandSpec.stage_eq_ok_iff.mpr ⟨hname, rfl, [some v], ?_, rfl⟩
  exact mapM_eq_ok_iff.mpr (.cons h .nil)

/-- A group of one command of the top level is registered when it passes staging. -/
theorem register_single {r : Registrar σ} {spec : CommandSpec σ} {aliases : List String}
    {command : Command σ} (h : spec.stage r.parsers = .ok ⟨[], aliases, command⟩) :
    r.register [spec] = .ok { r with root := r.root.addChild aliases (.leaf command) } :=
  register_eq_ok_iff_stagedAs.mpr ⟨_, _, .cons h .nil, rfl, rfl⟩

section Sole

variable {tag content : String} {parser : Parser} {v : Value}

/-- The tree holds the command, with the value read as its default. -/
theorem built_soleCalls
    (h : (⟨.custom tag, some (.ofText content)⟩ : Declaration).readDefault
      (ParserRegistry.empty.register (.custom tag) parser) "c" = .ok (some v)) :
    built (soleCalls tag parser content : List (Call σ)) =
        ⟨Node.root.addChild [] (.leaf (soleCommand (.custom tag) v)),
          ParserRegistry.empty.register (.custom tag) parser⟩ ∧
      Declares (soleCalls tag parser content : List (Call σ))
        (sole (.custom tag) (.ofText content)) (soleCommand (.custom tag) v) := by
  have hstage : (sole (.custom tag) (.ofText content) : CommandSpec σ).stage
      (built ([.parser (.custom tag) parser] : List (Call σ))).parsers =
      .ok ⟨[], [], soleCommand (.custom tag) v⟩ := stage_sole h
  have hregister := register_single hstage
  constructor
  · show (built [.parser (.custom tag) parser]).perform
      (.commands [sole (.custom tag) (.ofText content)]) = _
    rw [perform, hregister]
    rfl
  · exact ⟨[.parser (.custom tag) parser], [sole (.custom tag) (.ofText content)], _,
      ⟨_, [], rfl, rfl, hregister⟩, List.mem_singleton_self _, _, hstage, rfl⟩

/-- What the command's word leads to. -/
theorem walk_sole (parsers : ParserRegistry) (type : ParamType) (v : Value) :
    (⟨Node.root.addChild [] (.leaf (soleCommand type v)), parsers⟩ : Dispatcher σ).walk none ["c"] =
      .ok (Place.seated none (.leaf (soleCommand type v)) (soleCommand type v) []) := by
  have hchild : (Node.root.addChild [] (.leaf (soleCommand type v)) : Node σ).child "c" =
      .ok (.leaf (soleCommand type v), soleCommand type v) :=
    Node.child_eq_ok_iff.mpr ⟨Node.find?_addChild_name _ [] rfl, rfl⟩
  rw [Dispatcher.walk, Node.enter_top hchild]
  rfl

/-- The word `null` for the parameter of the command is refused when the parser makes a value of
another type of it. -/
theorem step_sole (hv : parser content = .ok v)
    (hrefused : (ParamType.custom tag).accepts v = false) (w : Value) :
    (Place.seated none (.leaf (soleCommand (.custom tag) w))
      (soleCommand (.custom tag) w) [] : Place σ).step
        (ParserRegistry.empty.register (.custom tag) parser) none content =
      .error (.incompatibleArguments "c" (.typeMismatch (.custom tag) v.typeOf?)) := by
  have hleft : (Place.seated none (.leaf (soleCommand (.custom tag) w))
      (soleCommand (.custom tag) w) [] : Place σ).chain.left =
      [.defaultable (.custom tag) w] := rfl
  have hparse : (ParserRegistry.empty.register (.custom tag) parser).parse content (.custom tag) =
      .ok v := by
    rw [ParserRegistry.parse_register_self, hv]
  rw [Place.step_of_left_cons hleft]
  simp only [Parameter.defaultable, hparse, hrefused]
  rfl

/-- Where null is declared, the word `null` is refused when the parser makes a value of another
type of it. -/
theorem not_typeChecked_of_null (hv : parser "null" = .ok v)
    (hrefused : (ParamType.custom tag).accepts v = false) :
    ¬ TypeChecked (soleCalls tag parser "null" : List (Call σ)) := by
  intro h
  have hread : (⟨.custom tag, some (.ofText "null")⟩ : Declaration).readDefault
      (ParserRegistry.empty.register (.custom tag) parser) "c" = .ok (some .null) := rfl
  obtain ⟨hbuilt, hdeclares⟩ := built_soleCalls (σ := σ) hread
  have hwords : Reader.wordsRead "c null" = ["c"] ++ ["null"] := by
    rw [Reader.wordsRead_eq]
    decide +kernel
  have htyped := h.typed _ _ hdeclares _ (List.mem_singleton_self _) .null rfl none "c null" ["c"]
  rw [hbuilt] at htyped
  have hstands := walk_sole (σ := σ) (ParserRegistry.empty.register (.custom tag) parser)
    (.custom tag) .null
  refine htyped _ hwords hstands rfl rfl "c" (.typeMismatch (.custom tag) v.typeOf?) ?_
  exact Dispatcher.resolve_of_step hwords hstands (step_sole hv hrefused .null)

/-- Where another text is declared, the value that the parser makes of it is stored. -/
theorem not_typeChecked_of_text (hnull : content ≠ "null") (hv : parser content = .ok v)
    (hrefused : (ParamType.custom tag).accepts v = false) :
    ¬ TypeChecked (soleCalls tag parser content : List (Call σ)) := by
  intro h
  have hdefault : DeclaredDefault.ofText content = .text content := if_neg hnull
  have hread : (⟨.custom tag, some (.ofText content)⟩ : Declaration).readDefault
      (ParserRegistry.empty.register (.custom tag) parser) "c" = .ok (some v) := by
    simp [Declaration.readDefault, hdefault, ParserRegistry.has_register,
      ParserRegistry.parse_register_self, hv]
  obtain ⟨hbuilt, hdeclares⟩ := built_soleCalls (σ := σ) hread
  have hstored := h.defaults [Text.lower "c"] (.leaf (soleCommand (.custom tag) v))
    (soleCommand (.custom tag) v)
  rw [hbuilt] at hstored
  have hfound : (Node.root.addChild [] (.leaf (soleCommand (.custom tag) v)) : Node σ).at?
      [Text.lower "c"] = some (.leaf (soleCommand (.custom tag) v)) := by
    refine Node.at?_cons_of_some ?_ []
    rw [Node.children_addChild [] (Node.name?_leaf _)]
    exact Table.find?_insert_self _ _ _
  have hmade := (hstored hfound rfl).2 _ hdeclares
  cases hmade with
  | cons hd _ =>
    have hadmits := hd.of_fallback rfl
    rcases hadmits with hacc | ⟨hdeclared, _⟩
    · exact absurd hacc (by simp [Parameter.fallback, Parameter.defaultable, hrefused])
    · rw [hdefault] at hdeclared
      cases hdeclared

/-- A text that the parser turns into a value of another type is a default that the command is
given, or, if it declares null, a word that the command refuses. -/
theorem not_typeChecked_sole (hv : parser content = .ok v)
    (hrefused : (ParamType.custom tag).accepts v = false) :
    ¬ TypeChecked (soleCalls tag parser content : List (Call σ)) := by
  by_cases hnull : content = "null"
  · rw [hnull] at hv ⊢
    exact not_typeChecked_of_null hv hrefused
  · exact not_typeChecked_of_text hnull hv hrefused

end Sole

/-- The parsers with which types are always checked on both ways to a handler: those that, where
they are registered for a custom type, return values of that type only. -/
theorem typeChecked_iff_keepsTo (allowed : ParamType → Parser → Prop) :
    (∀ calls : List (Call σ),
      (∀ type parser, Call.parser type parser ∈ calls → allowed type parser) → TypeChecked calls) ↔
    ∀ tag parser, allowed (.custom tag) parser → parser.KeepsTo tag := by
  constructor
  · intro h tag parser hallowed content v hv
    by_contra hrefused
    rw [Bool.not_eq_true] at hrefused
    refine not_typeChecked_sole hv hrefused (h (soleCalls tag parser content) ?_)
    intro type other hmem
    rcases List.mem_cons.mp hmem with he | hmem
    · obtain ⟨rfl, rfl⟩ := Call.parser.inj he
      exact hallowed
    · cases List.mem_singleton.mp hmem
  · intro h calls hcalls
    exact typeChecked_of_keepsTo fun tag parser hmem => h tag parser (hcalls _ parser hmem)

/-- A parser of points that keeps the text as it is: a default is then a text and no point, and
the same text is refused where it is typed. -/
theorem text_for_point_unchecked :
    ¬ TypeChecked (soleCalls "point" (fun content => .ok (.ofString content)) "x" :
      List (Call Unit)) ∧
    ((built (soleCalls "point" (fun content => .ok (.ofString content)) "x" :
      List (Call Unit))).finish.resolve none "c").toOption.map (fun r => r.args.values.map
        Value.typeOf?) = some [some (.builtin .string)] ∧
    (built (soleCalls "point" (fun content => .ok (.ofString content)) "x" :
      List (Call Unit))).finish.failure? none "c x" =
        some (.incompatibleArguments "c"
          (.typeMismatch (.custom "point") (some (.builtin .string)))) := by
  refine ⟨not_typeChecked_sole rfl rfl, ?_, ?_⟩
  · decide +kernel
  · decide +kernel

end Registrar

end Switchboard
