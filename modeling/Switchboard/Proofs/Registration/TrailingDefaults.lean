import Mathlib.Order.Bounds.Basic
import Switchboard.Proofs.Registration.Defaults
import Switchboard.Proofs.Registration.Places

/-!
# Trailing defaults

A default counts only where everything behind it has a default as well. Staging
looks for the last declaration without one and makes all parameters up to there
required; a command looks for its last required parameter. Both stop at the
same place, the first from which on everything declared has a default: before
it no default is stored, and from it on each that was declared.

* `isLeast_upToLast`: what a search for the last element of a kind finds
* `Declaration.boundary_parameters`: both searches stop at one place
* `TrailingDefaults`: the parameters of a command follow the declared defaults
* `trailingDefaults_of_stage`: those of a staged command do
* `register_trailing`: so do those of a command that is registered and not replaced
-/

namespace Switchboard

variable {σ : Type}

/-! ### Searching for the last element of a kind -/

/-- The search stops at the first place from which on no element has the property. -/
theorem isLeast_upToLast {α : Type} (p : α → Bool) (xs : List α) :
    IsLeast {b | ∀ i x, b ≤ i → xs[i]? = some x → p x = false} (upToLast p xs) := by
  constructor
  · intro i x hi hx
    exact not_of_upToLast_le hi hx
  · intro b hb
    by_contra hlt
    obtain ⟨n, hn⟩ : ∃ n, upToLast p xs = n + 1 := ⟨upToLast p xs - 1, by omega⟩
    obtain ⟨x, hx, hp⟩ := of_upToLast_eq_succ hn
    have hnot := hb n x (by omega) hx
    rw [hp] at hnot
    cases hnot

/-- A search stops where the elements with the property stop, if they all come first. -/
theorem upToLast_eq_of_iff {α : Type} {p : α → Bool} {xs : List α} {cut : Nat}
    (hcut : cut ≤ xs.length) (h : ∀ i x, xs[i]? = some x → (p x = true ↔ i < cut)) :
    upToLast p xs = cut := by
  refine (isLeast_upToLast p xs).unique ⟨fun i x hi hx => ?_, fun b hb => ?_⟩
  · rw [Bool.eq_false_iff, ne_eq, h i x hx]
    omega
  · by_contra hlt
    have hx : xs[b]? = some xs[b] := List.getElem?_eq_getElem (by omega)
    have hp := (h b _ hx).mpr (by omega)
    rw [hb b _ (Nat.le_refl b) hx] at hp
    cases hp

/-! ### The parameters of declarations -/

namespace Declaration

section Read

variable {parsers : ParserRegistry} {command : String} {d : Declaration} {v : Value}

/-- Null is read where null is declared. -/
theorem eq_null_of_readDefault (hnull : d.default? = some .null)
    (h : d.readDefault parsers command = .ok (some v)) : v = .null := by
  rw [readDefault, hnull] at h
  exact (Option.some.inj (Except.ok.inj h)).symm

/-- A declared text is read by the parser of the type. -/
theorem parse_of_readDefault {content : String} (htext : d.default? = some (.text content))
    (h : d.readDefault parsers command = .ok (some v)) : parsers.parse content d.type = .ok v := by
  rcases readDefault_eq_some_iff.mp h with ⟨hnull, _⟩ | ⟨other, hother, _, hparse⟩
  · rw [htext] at hnull
    cases hnull
  · rw [htext] at hother
    cases hother
    exact hparse

/-- Where a default is declared a value is read. -/
theorem exists_value_of_readDefault {declared : DeclaredDefault} {default : Option Value}
    (hdefault : d.default? = some declared) (h : d.readDefault parsers command = .ok default) :
    ∃ v, default = some v := by
  rw [readDefault, hdefault] at h
  cases declared with
  | null => exact ⟨.null, (Except.ok.inj h).symm⟩
  | text content =>
    simp only at h
    split at h
    next =>
      split at h
      next v _ => exact ⟨v, (Except.ok.inj h).symm⟩
      next => cases h
    next => cases h

/-- Nothing is read as a default just where none is declared. -/
theorem isNone_of_readDefault {default : Option Value}
    (h : d.readDefault parsers command = .ok default) : default.isNone = d.default?.isNone := by
  cases default with
  | none =>
    cases hdefault : d.default? with
    | none => rfl
    | some declared =>
      obtain ⟨v, hv⟩ := exists_value_of_readDefault hdefault h
      cases hv
  | some v =>
    rcases readDefault_eq_some_iff.mp h with ⟨hdefault, _⟩ | ⟨content, hdefault, _⟩
    · rw [hdefault]
      rfl
    · rw [hdefault]
      rfl

end Read

section Parameters

variable {parsers : ParserRegistry} {name : String} {ds : List Declaration}
  {defaults : List (Option Value)} {i : Nat} {d : Declaration}

/-- Before the trailing run a parameter is required, whatever was declared. -/
theorem getElem?_parameters_of_lt (hi : i < upToLast Option.isNone defaults)
    (hlength : defaults.length = ds.length) (hd : ds[i]? = some d) :
    (parameters ds defaults)[i]? = some (.required d.type) := by
  have hle := upToLast_le_length Option.isNone defaults
  have hfront : i < ((ds.take (upToLast Option.isNone defaults)).map
      fun d => Parameter.required d.type).length := by
    rw [List.length_map, List.length_take]
    omega
  show (_ ++ _)[i]? = _
  rw [List.getElem?_append_left hfront, List.getElem?_map, List.getElem?_take_of_lt hi, hd,
    Option.map_some]

/-- In the trailing run a parameter has the default that was read. -/
theorem getElem?_parameters_of_le (hi : upToLast Option.isNone defaults ≤ i)
    (hlength : defaults.length = ds.length) (hd : ds[i]? = some d) {default : Option Value}
    (hdefault : defaults[i]? = some default) :
    (parameters ds defaults)[i]? = some (d.parameter default) := by
  have hle := upToLast_le_length Option.isNone defaults
  have hfront : ((ds.take (upToLast Option.isNone defaults)).map
      fun d => Parameter.required d.type).length = upToLast Option.isNone defaults := by
    rw [List.length_map, List.length_take]
    omega
  have hindex : upToLast Option.isNone defaults + (i - upToLast Option.isNone defaults) = i := by
    omega
  show (_ ++ _)[i]? = _
  rw [List.getElem?_append_right (by omega), hfront, List.getElem?_zipWith, List.getElem?_drop,
    List.getElem?_drop, hindex, hd, hdefault]

/-- A parameter is required up to the last declaration without a default, and has no default
stored just there. Behind it the default is the one that was read. -/
theorem parameters_cases
    (h : List.Forall₂ (fun d default => readDefault parsers name d = .ok default) ds defaults)
    {p : Parameter} (hd : ds[i]? = some d) (hp : (parameters ds defaults)[i]? = some p) :
    (i < upToLast Option.isNone defaults ∧ p = .required d.type) ∨
      (upToLast Option.isNone defaults ≤ i ∧
        ∃ v, d.readDefault parsers name = .ok (some v) ∧ p = .defaultable d.type v) := by
  have hlength := h.length_eq.symm
  rcases Nat.lt_or_ge i (upToLast Option.isNone defaults) with hi | hi
  · rw [getElem?_parameters_of_lt hi hlength hd] at hp
    exact .inl ⟨hi, (Option.some.inj hp).symm⟩
  · obtain ⟨default, hdefault, hread⟩ := getElem?_right_of_forall₂ h hd
    rw [getElem?_parameters_of_le hi hlength hd hdefault] at hp
    -- behind the last declaration without a default something was read
    have hsome := not_of_upToLast_le hi hdefault
    cases default with
    | none => cases hsome
    | some v => exact .inr ⟨hi, v, hread, (Option.some.inj hp).symm⟩

theorem getElem?_of_parameters (hlength : defaults.length = ds.length) {p : Parameter}
    (hp : (parameters ds defaults)[i]? = some p) : ∃ d, ds[i]? = some d := by
  obtain ⟨hi, _⟩ := List.getElem?_eq_some_iff.mp hp
  rw [length_parameters hlength] at hi
  exact ⟨ds[i], List.getElem?_eq_getElem hi⟩

/-- The last required parameter comes from the last declaration without a default. -/
theorem boundary_parameters
    (h : List.Forall₂ (fun d default => readDefault parsers name d = .ok default) ds defaults) :
    Parameter.boundary (parameters ds defaults) = upToLast Option.isNone defaults := by
  have hlength := h.length_eq.symm
  apply upToLast_eq_of_iff
  · rw [length_parameters hlength, ← hlength]
    exact upToLast_le_length Option.isNone defaults
  · intro i p hp
    obtain ⟨d, hd⟩ := getElem?_of_parameters hlength hp
    rcases parameters_cases h hd hp with ⟨hi, rfl⟩ | ⟨hi, v, _, rfl⟩
    · simp [Parameter.required, hi]
    · simp [Parameter.defaultable, hi]

/-- Where nothing is read and where nothing is declared is the same. -/
theorem upToLast_of_forall₂
    (h : List.Forall₂ (fun d default => readDefault parsers name d = .ok default) ds defaults) :
    upToLast Option.isNone defaults = upToLast (·.default?.isNone) ds := by
  induction h with
  | nil => rfl
  | cons hd _ ih => rw [upToLast, upToLast, ih, isNone_of_readDefault hd]

end Parameters

/-- From an index on every declaration has a default. -/
def DefaultedFrom (ds : List Declaration) (b : Nat) : Prop :=
  ∀ i d, b ≤ i → ds[i]? = some d → d.default?.isSome

theorem isLeast_defaultedFrom (ds : List Declaration) :
    IsLeast {b | DefaultedFrom ds b} (upToLast (·.default?.isNone) ds) := by
  have h := isLeast_upToLast (fun d : Declaration => d.default?.isNone) ds
  simpa only [DefaultedFrom, Option.isNone_eq_false_iff] using h

end Declaration

/-! ### Commands -/

/-- The parameters of a command follow the declared defaults: they have the declared types, and
are required, without a default, up to where everything declared has one. From there on each has
its own: null where null is declared, else what the parsers make of the text. -/
structure TrailingDefaults (parsers : ParserRegistry) (ds : List Declaration)
    (command : Command σ) : Prop where
  types_eq : command.parameters.map Parameter.type = ds.map Declaration.type
  boundary : IsLeast {b | Declaration.DefaultedFrom ds b} command.boundary
  isRequired_iff : ∀ i p, command.parameters[i]? = some p →
    (p.isRequired = true ↔ i < command.boundary)
  default_eq_none_iff : ∀ i p, command.parameters[i]? = some p →
    (p.default? = none ↔ i < command.boundary)
  default_of_null : ∀ i d p, ds[i]? = some d → command.parameters[i]? = some p →
    command.boundary ≤ i → d.default? = some .null → p.default? = some .null
  default_of_text : ∀ i d p content, ds[i]? = some d → command.parameters[i]? = some p →
    command.boundary ≤ i → d.default? = some (.text content) →
    ∃ v, parsers.parse content d.type = .ok v ∧ p.default? = some v

/-- Parameters that are made of declarations, with the defaults read from them, follow the
defaults. -/
theorem trailingDefaults_of_parameters {parsers : ParserRegistry} {name : String}
    {ds : List Declaration} {defaults : List (Option Value)} {command : Command σ}
    (h : List.Forall₂ (fun d default => Declaration.readDefault parsers name d = .ok default) ds
      defaults)
    (hparameters : command.parameters = Declaration.parameters ds defaults) :
    TrailingDefaults parsers ds command := by
  have hboundary : command.boundary = upToLast Option.isNone defaults := by
    rw [Command.boundary, hparameters, Declaration.boundary_parameters h]
  have hcases : ∀ i d p, ds[i]? = some d → command.parameters[i]? = some p →
      (i < command.boundary ∧ p = .required d.type) ∨
        (command.boundary ≤ i ∧
          ∃ v, d.readDefault parsers name = .ok (some v) ∧ p = .defaultable d.type v) := by
    intro i d p hd hp
    rw [hparameters] at hp
    rw [hboundary]
    exact Declaration.parameters_cases h hd hp
  have hdeclared : ∀ (i : Nat) p, command.parameters[i]? = some p → ∃ d, ds[i]? = some d := by
    intro i p hp
    rw [hparameters] at hp
    exact Declaration.getElem?_of_parameters h.length_eq.symm hp
  have hiff : ∀ i p, command.parameters[i]? = some p →
      (p.isRequired = true ↔ i < command.boundary) ∧
        (p.default? = none ↔ i < command.boundary) := by
    intro i p hp
    obtain ⟨d, hd⟩ := hdeclared i p hp
    rcases hcases i d p hd hp with ⟨hi, rfl⟩ | ⟨hi, v, _, rfl⟩
    · simp [Parameter.required, hi]
    · simp [Parameter.defaultable, hi]
  constructor
  · rw [hparameters]
    exact (types_of_reads (Declaration.reads_parameters h)).symm
  · rw [hboundary, Declaration.upToLast_of_forall₂ h]
    exact Declaration.isLeast_defaultedFrom ds
  · exact fun i p hp => (hiff i p hp).1
  · exact fun i p hp => (hiff i p hp).2
  · intro i d p hd hp hi hnull
    rcases hcases i d p hd hp with ⟨hlt, _⟩ | ⟨_, v, hv, rfl⟩
    · omega
    · rw [Declaration.eq_null_of_readDefault hnull hv]
      rfl
  · intro i d p content hd hp hi htext
    rcases hcases i d p hd hp with ⟨hlt, _⟩ | ⟨_, v, hv, rfl⟩
    · omega
    · exact ⟨v, Declaration.parse_of_readDefault htext hv, rfl⟩

/-- What is staged follows the declared defaults. -/
theorem trailingDefaults_of_stage {parsers : ParserRegistry} {spec : CommandSpec σ} {s : Staged σ}
    (h : spec.stage parsers = .ok s) : TrailingDefaults parsers spec.declarations s.command := by
  obtain ⟨_, _, defaults, hdefaults, rfl⟩ := CommandSpec.stage_eq_ok_iff.mp h
  exact trailingDefaults_of_parameters (mapM_eq_ok_iff.mp hdefaults) rfl

/-! ### Registered commands -/

namespace Registrar

/-- Once a group is registered, the command of each specification that no other one of the group
replaces is in its place, under its name and with its handler, and its parameters follow the
declared defaults. Another one replaces it that is put in later and has the same place. -/
theorem register_trailing {r next : Registrar σ} {specs before after : List (CommandSpec σ)}
    {spec : CommandSpec σ} (h : r.register specs = .ok next)
    (horder : CommandSpec.inOrder specs = before ++ spec :: after)
    (hlast : ∀ other ∈ after, other.place? next.root ≠ spec.place? next.root) :
    ∃ place command, spec.place? next.root = some place ∧
      next.root.commandUnder? place = some command ∧
      command.name = spec.name ∧ command.handler = spec.handler ∧
      TrailingDefaults r.parsers spec.declarations command := by
  obtain ⟨s, place, hstage, hplace, hfound⟩ := register_places h horder hlast
  have htrailing := trailingDefaults_of_stage hstage
  obtain ⟨_, _, _, _, rfl⟩ := CommandSpec.stage_eq_ok_iff.mp hstage
  exact ⟨place, _, hplace, hfound, rfl, rfl, htrailing⟩

/-- A command with defaults on both sides of a parameter that has none. -/
def sketch : CommandSpec Unit :=
  (((((plain "sketch").under ["shape"]).defaultTo (.builtin (.int .i32)) "1").require
    (.builtin .string)).defaultTo (.builtin (.int .i32)) "+5").defaultToNull (.builtin .bool)

/-- A group with this command and another one for its place, whose parent path is an alias. -/
def shapes : List (CommandSpec Unit) :=
  [(plain "trace").under ["SHAPE"], sketch, (plain "Sketch").under ["s"],
    (plain "shape").addAliases ["s"]]

/-- The other one goes in first. The default before the required parameter does not count. -/
theorem register_trailing_shapes :
    ∃ next command, (empty : Registrar Unit).register shapes = .ok next ∧
      next.root.commandUnder? ["shape", "sketch"] = some command ∧
      command.name = "sketch" ∧ command.boundary = 2 ∧
      (∀ p, command.parameters[0]? = some p → p.isRequired = true ∧ p.default? = none) ∧
      ∀ p, command.parameters[3]? = some p → p.default? = some .null := by
  have hplaces : ((empty : Registrar Unit).register shapes).toOption.map
      (fun next => (sketch.place? next.root, ((plain "trace").under ["SHAPE"]).place? next.root)) =
        some (some ["shape", "sketch"], some ["shape", "trace"]) := by
    decide +kernel
  cases hregister : (empty : Registrar Unit).register shapes with
  | error e =>
    rw [hregister] at hplaces
    cases hplaces
  | ok next =>
    rw [hregister] at hplaces
    have hplace : sketch.place? next.root = some ["shape", "sketch"] :=
      congrArg Prod.fst (Option.some.inj hplaces)
    have htrace : ((plain "trace").under ["SHAPE"]).place? next.root = some ["shape", "trace"] :=
      congrArg Prod.snd (Option.some.inj hplaces)
    have horder : CommandSpec.inOrder shapes =
        [(plain "shape").addAliases ["s"], (plain "Sketch").under ["s"]] ++
          sketch :: [(plain "trace").under ["SHAPE"]] := rfl
    obtain ⟨place, command, hsome, hfound, hname, _, htrailing⟩ :=
      register_trailing hregister horder fun other hother => by
        obtain rfl := List.mem_singleton.mp hother
        rw [htrace, hplace]
        decide
    rw [hplace] at hsome
    obtain rfl := Option.some.inj hsome
    have hboundary : command.boundary = 2 :=
      htrailing.boundary.unique (Declaration.isLeast_defaultedFrom sketch.declarations)
    refine ⟨next, command, rfl, hfound, hname, hboundary, fun p hp => ⟨?_, ?_⟩, fun p hp => ?_⟩
    · apply (htrailing.isRequired_iff 0 p hp).mpr
      omega
    · apply (htrailing.default_eq_none_iff 0 p hp).mpr
      omega
    · exact htrailing.default_of_null 3 _ p rfl hp (by omega) rfl

end Registrar

end Switchboard
