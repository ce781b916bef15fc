import Switchboard.Proofs.Parsing
import Switchboard.Proofs.Registration.Origins

/-!
# Declared defaults

A staged command has one parameter for each declaration, in their order: of the
declared type, and either required or with the value that was read from the
declared default. No type is checked there. The value is one that the declared
type accepts, or a declared null, when the parsers keep to their types.

* `Made`: a parameter made of a declaration, with a default of a certain kind
* `readDefault_eq_some_iff`: where a default comes from
* `reads_of_stage`: the parameters of a staged command
* `Declaration.Admits`: a value of the declared type, or null where null was declared
* `admits_of_readDefault`: with parsers that keep to their types, only such defaults are read
-/

namespace Switchboard

variable {σ : Type}

/-- A parameter made of a declaration: it is required, or has a default of a certain kind. -/
inductive Made (IsDefault : Value → Prop) (d : Declaration) : Parameter → Prop
  | required : Made IsDefault d (.required d.type)
  | defaultable {v : Value} : IsDefault v → Made IsDefault d (.defaultable d.type v)

namespace Made

variable {P Q : Value → Prop} {d : Declaration} {p : Parameter}

theorem imp (h : Made P d p) (hpq : ∀ v, P v → Q v) : Made Q d p := by
  cases h with
  | required => exact .required
  | defaultable hv => exact .defaultable (hpq _ hv)

theorem type_eq (h : Made P d p) : p.type = d.type := by
  cases h with
  | required => rfl
  | defaultable _ => rfl

/-- A parameter that is not required has a default. -/
theorem exists_default (h : Made P d p) (hopen : p.isRequired = false) :
    ∃ v, p.default? = some v ∧ P v := by
  cases h with
  | required => cases hopen
  | @defaultable v hv => exact ⟨v, rfl, hv⟩

/-- A parameter that is not required falls back on its default. -/
theorem of_fallback (h : Made P d p) (hopen : p.isRequired = false) : P p.fallback := by
  obtain ⟨v, hdefault, hv⟩ := h.exists_default hopen
  rwa [Parameter.fallback, hdefault]

end Made

/-! ### Staged parameters -/

namespace Declaration

/-- What is read as a default is a declared null, or what the parser of the type makes of a
declared text. -/
theorem readDefault_eq_some_iff {parsers : ParserRegistry} {command : String} {d : Declaration}
    {v : Value} :
    d.readDefault parsers command = .ok (some v) ↔
      (d.default? = some .null ∧ v = .null) ∨
        ∃ content, d.default? = some (.text content) ∧ parsers.has d.type = true ∧
          parsers.parse content d.type = .ok v := by
  unfold readDefault
  cases d.default? with
  | none => simp
  | some default =>
    cases default with
    | null => simp [eq_comm (a := v)]
    | text content =>
      by_cases hhas : parsers.has d.type = true
      · cases hparse : parsers.parse content d.type with
        | error e => simp [hhas, hparse]
        | ok read => simp [hhas, hparse]
      · simp [hhas]

/-- A parameter made of a declaration with the default that is read from it. -/
def Reads (parsers : ParserRegistry) (command : String) (d : Declaration) : Parameter → Prop :=
  Made (fun v => d.readDefault parsers command = .ok (some v)) d

variable {parsers : ParserRegistry} {command : String} {ds : List Declaration}
  {defaults : List (Option Value)}

theorem reads_parameter {d : Declaration} {default : Option Value}
    (h : d.readDefault parsers command = .ok default) :
    d.Reads parsers command (d.parameter default) := by
  cases default with
  | none => exact .required
  | some v => exact .defaultable h

theorem reads_required (ds : List Declaration) :
    List.Forall₂ (Reads parsers command) ds (ds.map fun d => .required d.type) := by
  rw [List.forall₂_map_right_iff, List.forall₂_same]
  exact fun d _ => .required

theorem reads_zipWith
    (h : List.Forall₂ (fun d default => readDefault parsers command d = .ok default) ds defaults) :
    List.Forall₂ (Reads parsers command) ds (List.zipWith parameter ds defaults) := by
  induction h with
  | nil => exact .nil
  | cons hd _ ih => exact .cons (reads_parameter hd) ih

/-- One parameter is made of each declaration; those before the trailing run are required,
whatever was read for them. -/
theorem reads_parameters
    (h : List.Forall₂ (fun d default => readDefault parsers command d = .ok default) ds defaults) :
    List.Forall₂ (Reads parsers command) ds (parameters ds defaults) := by
  have hfront : List.Forall₂ (Reads parsers command) (ds.take (upToLast Option.isNone defaults)) _ :=
    reads_required _
  have hback := reads_zipWith (List.forall₂_drop (upToLast Option.isNone defaults) h)
  have hboth : List.Forall₂ (Reads parsers command)
      (ds.take (upToLast Option.isNone defaults) ++ ds.drop (upToLast Option.isNone defaults))
      (parameters ds defaults) := List.rel_append hfront hback
  rwa [List.take_append_drop] at hboth

end Declaration

/-- Parameters made of declarations have their types. -/
theorem types_of_reads {parsers : ParserRegistry} {name : String} {ds : List Declaration}
    {parameters : List Parameter}
    (hreads : List.Forall₂ (Declaration.Reads parsers name) ds parameters) :
    ds.map Declaration.type = parameters.map Parameter.type := by
  have htypes := hreads.imp fun _ _ hread => hread.type_eq.symm
  rwa [← List.forall₂_eq_eq_eq, List.forall₂_map_left_iff, List.forall₂_map_right_iff]

/-- The parameters of a staged command are made of the declarations of its specification, with
the defaults read from them. -/
theorem CommandSpec.reads_of_stage {parsers : ParserRegistry} {spec : CommandSpec σ}
    {s : Staged σ} (h : spec.stage parsers = .ok s) :
    List.Forall₂ (Declaration.Reads parsers spec.name) spec.declarations s.command.parameters := by
  obtain ⟨_, _, defaults, hdefaults, rfl⟩ := stage_eq_ok_iff.mp h
  exact Declaration.reads_parameters (mapM_eq_ok_iff.mp hdefaults)

/-! ### Values that a declaration admits -/

namespace Declaration

/-- A value of the declared type, or null where null was declared. -/
def Admits (d : Declaration) (v : Value) : Prop :=
  d.type.accepts v = true ∨ d.default? = some .null ∧ v = .null

/-- With parsers that keep to their types, the declaration admits what is read as its default. -/
theorem admits_of_readDefault {parsers : ParserRegistry} {command : String} {d : Declaration}
    {v : Value} (hparsers : parsers.Faithful) (h : d.readDefault parsers command = .ok (some v)) :
    d.Admits v := by
  rcases readDefault_eq_some_iff.mp h with hnull | ⟨content, _, _, hread⟩
  · exact .inr hnull
  · exact .inl (ParserRegistry.accepts_of_parse hparsers hread)

end Declaration

/-! ### Parsers of a registrar -/

namespace Registrar

/-- The defaults of a declared command were read with the parsers of some moment. -/
theorem Declares.exists_reads {calls : List (Call σ)} {spec : CommandSpec σ} {command : Command σ}
    (h : Declares calls spec command) : ∃ parsers,
      List.Forall₂ (Declaration.Reads parsers spec.name) spec.declarations command.parameters := by
  obtain ⟨before, specs, next, _, _, s, hstage, rfl⟩ := h
  exact ⟨(built before).parsers, CommandSpec.reads_of_stage hstage⟩

theorem parsers_perform_of_specs (r : Registrar σ) {call : Call σ}
    (h : ∀ type parser, call ≠ .parser type parser) : (r.perform call).parsers = r.parsers := by
  have hcommands : ∀ specs, (r.after (r.register specs)).parsers = r.parsers := by
    intro specs
    cases hregister : r.register specs with
    | ok next => exact parsers_register hregister
    | error e => rfl
  cases call with
  | parser type parser => exact absurd rfl (h type parser)
  | commands specs => exact hcommands specs
  | group name owner =>
    cases owner with
    | ok specs => exact hcommands specs
    | error source => rfl

/-- The parsers of a registrar keep to their types when each did that was registered. -/
theorem faithful_built {calls : List (Call σ)}
    (h : ∀ tag parser, Call.parser (.custom tag) parser ∈ calls → parser.KeepsTo tag) :
    (built calls).parsers.Faithful := by
  induction calls using List.reverseRecOn with
  | nil => exact ParserRegistry.faithful_empty
  | append_singleton calls call ih =>
    have hbefore := ih fun tag parser hmem => h tag parser (List.mem_append_left _ hmem)
    rw [built_concat]
    by_cases hcall : ∃ type parser, call = .parser type parser
    · obtain ⟨type, parser, rfl⟩ := hcall
      refine ParserRegistry.faithful_register hbefore fun tag htype => ?_
      rw [htype] at h
      exact h tag parser (List.mem_append_right _ (List.mem_singleton_self _))
    · have hsame : ((built calls).perform call).parsers = (built calls).parsers :=
        parsers_perform_of_specs _ fun type parser he => hcall ⟨type, parser, he⟩
      rw [hsame]
      exact hbefore

/-- Where the parsers registered keep to their types, the declarations of a command admit all of
its defaults. -/
theorem made_of_declares {calls : List (Call σ)} {spec : CommandSpec σ} {command : Command σ}
    (h : ∀ tag parser, Call.parser (.custom tag) parser ∈ calls → parser.KeepsTo tag)
    (hdeclares : Declares calls spec command) :
    List.Forall₂ (fun d p => Made d.Admits d p) spec.declarations command.parameters := by
  obtain ⟨before, specs, next, ⟨call, after, rfl, _⟩, _, s, hstage, rfl⟩ := hdeclares
  have hparsers : (built before).parsers.Faithful :=
    faithful_built fun tag parser hmem => h tag parser (List.mem_append_left _ hmem)
  exact (CommandSpec.reads_of_stage hstage).imp fun d p hreads =>
    Made.imp hreads fun v hread => Declaration.admits_of_readDefault hparsers hread

end Registrar

end Switchboard
