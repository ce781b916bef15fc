import Switchboard.Proofs.Registration.Origins

/-!
# Registries that agree

A parser that is registered changes what its own type has to say, and nothing
at all when the type is built in. Where two registries agree on the types that
a group declares default texts for, the group is registered alike with both:
nothing else is asked of the parsers. Nulls need none.

* `AgreeOn`: two registries with the same to say of some types
* `agreeOn_register`, `agreeOn_register_builtin`: before and after a registration
* `stage_congr`, `register_congr`: what a group makes of the tree
* `Registrar.Agree`: one tree, and registries that agree; further calls keep it so
-/

namespace Switchboard

variable {σ : Type} {P : ParamType → Prop}

/-! ### Registries -/

namespace ParserRegistry

/-- Two registries have the same to say of the types in question: whether a text can be offered as
one, and what is made of it. -/
structure AgreeOn (P : ParamType → Prop) (r r' : ParserRegistry) : Prop where
  parse_eq : ∀ type, P type → ∀ input, r.parse input type = r'.parse input type
  has_eq : ∀ type, P type → r.has type = r'.has type

/-- A registration is felt at its own type only. -/
theorem agreeOn_register (r : ParserRegistry) (type : ParamType) (parser : Parser) :
    AgreeOn (· ≠ type) (r.register type parser) r := by
  constructor
  · intro other hother input
    exact parse_register_of_ne r input parser hother.symm
  · intro other hother
    rw [has_register, decide_eq_false hother.symm, Bool.false_or]

/-- A registration for a built-in type is not felt at all. -/
theorem agreeOn_register_builtin (r : ParserRegistry) (s : Scalar) (parser : Parser) :
    AgreeOn (fun _ => True) (r.register (.builtin s) parser) r := by
  constructor
  · intro type _ input
    exact parse_register_builtin r input s parser type
  · intro type _
    rw [has_register]
    cases type with
    | builtin t => simp [has, ParamType.isBuiltin]
    | custom tag => simp

/-- Where the same is registered in both, registries go on to agree. -/
theorem AgreeOn.register {r r' : ParserRegistry} (h : AgreeOn P r r') (type : ParamType)
    (parser : Parser) : AgreeOn P (r.register type parser) (r'.register type parser) := by
  constructor
  · intro other hother input
    by_cases hsame : type = other
    · rw [hsame]
      cases other with
      | builtin s => rfl
      | custom tag => rw [parse_register_self, parse_register_self]
    · rw [parse_register_of_ne r input parser hsame, parse_register_of_ne r' input parser hsame,
        h.parse_eq other hother]
  · intro other hother
    rw [has_register, has_register, h.has_eq other hother]

end ParserRegistry

/-! ### Groups -/

section Registries

variable {parsers parsers' : ParserRegistry}

/-- Reading a default asks the parsers for the type of a declared text only. -/
theorem Declaration.readDefault_congr (h : parsers.AgreeOn P parsers') {d : Declaration}
    (hd : ∀ content, d.default? = some (.text content) → P d.type) (command : String) :
    d.readDefault parsers command = d.readDefault parsers' command := by
  unfold readDefault
  cases hdefault : d.default? with
  | none => rfl
  | some default =>
    cases default with
    | null => rfl
    | text content =>
      have htype := hd content hdefault
      simp only [h.has_eq d.type htype, h.parse_eq d.type htype]

/-- The types that a specification declares default texts for are among those in question. -/
def CommandSpec.DeclaresTextsIn (P : ParamType → Prop) (spec : CommandSpec σ) : Prop :=
  ∀ d ∈ spec.declarations, ∀ content, d.default? = some (.text content) → P d.type

theorem CommandSpec.stage_congr (h : parsers.AgreeOn P parsers') {spec : CommandSpec σ}
    (hspec : spec.DeclaresTextsIn P) : spec.stage parsers = spec.stage parsers' := by
  have hdefaults : spec.declarations.mapM (Declaration.readDefault parsers spec.name) =
      spec.declarations.mapM (Declaration.readDefault parsers' spec.name) :=
    mapM_congr fun d hd => Declaration.readDefault_congr h (hspec d hd) spec.name
  rw [stage, stage, hdefaults]

end Registries

namespace Registrar

/-- Two registrars with one tree, whose registries agree on the types in question. -/
structure Agree (P : ParamType → Prop) (r r' : Registrar σ) : Prop where
  root_eq : r.root = r'.root
  parsers : r.parsers.AgreeOn P r'.parsers

variable {r r' : Registrar σ}

/-- Registrars that agree on the types of its default texts register a group alike. -/
theorem Agree.register_congr (h : r.Agree P r') {specs : List (CommandSpec σ)}
    (hspecs : ∀ spec ∈ specs, spec.DeclaresTextsIn P) :
    r.register specs = (r'.register specs).map fun next => { next with parsers := r.parsers } := by
  have hstaged : specs.mapM (CommandSpec.stage r.parsers) =
      specs.mapM (CommandSpec.stage r'.parsers) :=
    mapM_congr fun spec hspec => CommandSpec.stage_congr h.parsers (hspecs spec hspec)
  rw [register_eq, register_eq, hstaged, h.root_eq]
  cases specs.mapM (CommandSpec.stage r'.parsers) >>= attachAll r'.root with
  | error e => rfl
  | ok root => rfl

theorem Agree.map_root_register (h : r.Agree P r') {specs : List (CommandSpec σ)}
    (hspecs : ∀ spec ∈ specs, spec.DeclaresTextsIn P) :
    (r.register specs).map Registrar.root = (r'.register specs).map Registrar.root := by
  rw [h.register_congr hspecs]
  cases r'.register specs with
  | error e => rfl
  | ok next => rfl

/-- Such a group keeps registrars in agreement, be it registered or not. -/
theorem Agree.after (h : r.Agree P r') {specs : List (CommandSpec σ)}
    (hspecs : ∀ spec ∈ specs, spec.DeclaresTextsIn P) :
    (r.after (r.register specs)).Agree P (r'.after (r'.register specs)) := by
  rw [h.register_congr hspecs]
  cases hregister : r'.register specs with
  | error e => exact h
  | ok next =>
    refine ⟨rfl, ?_⟩
    show r.parsers.AgreeOn P next.parsers
    rw [parsers_register hregister]
    exact h.parsers

/-- A call keeps registrars in agreement. -/
theorem Agree.perform (h : r.Agree P r') {call : Call σ}
    (hcall : ∀ spec ∈ call.specs, spec.DeclaresTextsIn P) :
    (r.perform call).Agree P (r'.perform call) := by
  cases call with
  | parser type parser => exact ⟨h.root_eq, h.parsers.register type parser⟩
  | commands specs => exact h.after hcall
  | group name owner =>
    cases owner with
    | ok specs => exact h.after hcall
    | error source => exact h

/-- So does a list of calls. -/
theorem Agree.foldl (h : r.Agree P r') {calls : List (Call σ)}
    (hcalls : ∀ call ∈ calls, ∀ spec ∈ call.specs, spec.DeclaresTextsIn P) :
    (calls.foldl Registrar.perform r).Agree P (calls.foldl Registrar.perform r') := by
  induction calls generalizing r r' with
  | nil => exact h
  | cons call calls ih =>
    refine ih (h.perform (hcalls call List.mem_cons_self)) ?_
    exact fun other hother => hcalls other (List.mem_cons_of_mem call hother)

end Registrar

end Switchboard
