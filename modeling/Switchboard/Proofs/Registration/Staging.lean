import Switchboard.Proofs.Attempts
import Switchboard.Registrar

/-!
# Staging

A group is staged as a whole or not at all. A specification passes when its
names are valid and its text defaults can be read, and what is staged has the
parent, the aliases and the name declared.

* `exists_stage_iff`: which specifications pass
* `names_of_stage`: what is kept of a specification
-/

namespace Switchboard

variable {σ : Type}

/-! ### One specification -/

theorem checkName_eq_ok_iff {name : String} :
    checkName name = .ok () ↔ isValidName name = true := by
  unfold checkName
  by_cases h : isValidName name = true
  · simp [h]
  · simp [h]

namespace Declaration

/-- A declared default can be read: a text needs a parser that takes it. -/
def Readable (parsers : ParserRegistry) (d : Declaration) : Prop :=
  ∀ content, d.default? = some (.text content) →
    parsers.has d.type = true ∧ ∃ v, parsers.parse content d.type = .ok v

theorem exists_readDefault_iff {parsers : ParserRegistry} {command : String} {d : Declaration} :
    (∃ v, d.readDefault parsers command = .ok v) ↔ d.Readable parsers := by
  unfold readDefault Readable
  cases d.default? with
  | none => simp
  | some default =>
    cases default with
    | null => simp
    | text content =>
      by_cases hhas : parsers.has d.type = true
      · cases hp : parsers.parse content d.type with
        | error e => simp [hhas, hp]
        | ok v => simp [hhas, hp]
      · simp [hhas]

end Declaration

namespace CommandSpec

/-- A specification passes staging: its names are valid and its defaults can be read. -/
structure Stageable (parsers : ParserRegistry) (spec : CommandSpec σ) : Prop where
  name : isValidName spec.name = true
  aliases : ∀ name ∈ spec.aliases, isValidName name = true
  defaults : ∀ d ∈ spec.declarations, d.Readable parsers

/-- Staging is a check of the names, then of the aliases, and then a reading of the defaults. -/
theorem stage_eq_ok_iff {parsers : ParserRegistry} {spec : CommandSpec σ} {s : Staged σ} :
    spec.stage parsers = .ok s ↔
      checkName spec.name = .ok () ∧ spec.aliases.forM checkName = .ok () ∧
        ∃ defaults, spec.declarations.mapM (Declaration.readDefault parsers spec.name) =
          .ok defaults ∧
        s = ⟨spec.parent, spec.aliases,
          ⟨spec.name, Declaration.parameters spec.declarations defaults, spec.handler⟩⟩ := by
  rw [stage, bind_eq_ok_iff]
  constructor
  · intro hexists
    obtain ⟨_, hname, h⟩ := hexists
    obtain ⟨_, haliases, h⟩ := bind_eq_ok_iff.mp h
    obtain ⟨defaults, hdefaults, h⟩ := bind_eq_ok_iff.mp h
    exact ⟨hname, haliases, defaults, hdefaults, (Except.ok.inj h).symm⟩
  · intro hexists
    obtain ⟨hname, haliases, defaults, hdefaults, rfl⟩ := hexists
    refine ⟨(), hname, bind_eq_ok_iff.mpr ⟨(), haliases, ?_⟩⟩
    exact bind_eq_ok_iff.mpr ⟨defaults, hdefaults, rfl⟩

theorem exists_stage_iff {parsers : ParserRegistry} {spec : CommandSpec σ} :
    (∃ s, spec.stage parsers = .ok s) ↔ spec.Stageable parsers := by
  constructor
  · intro hexists
    obtain ⟨s, h⟩ := hexists
    obtain ⟨hname, haliases, defaults, hdefaults, _⟩ := stage_eq_ok_iff.mp h
    refine ⟨checkName_eq_ok_iff.mp hname, fun name hn => ?_, fun d hd => ?_⟩
    · exact checkName_eq_ok_iff.mp (forM_eq_ok_iff.mp haliases name hn)
    · exact Declaration.exists_readDefault_iff.mp (exists_mapM_iff.mp ⟨defaults, hdefaults⟩ d hd)
  · intro h
    have hname := checkName_eq_ok_iff.mpr h.name
    have haliases : spec.aliases.forM checkName = .ok () :=
      forM_eq_ok_iff.mpr fun name hn => checkName_eq_ok_iff.mpr (h.aliases name hn)
    have hread : ∀ d ∈ spec.declarations, ∃ v, d.readDefault parsers spec.name = .ok v :=
      fun d hd => Declaration.exists_readDefault_iff.mpr (h.defaults d hd)
    obtain ⟨defaults, hdefaults⟩ := exists_mapM_iff.mpr hread
    exact ⟨_, stage_eq_ok_iff.mpr ⟨hname, haliases, defaults, hdefaults, rfl⟩⟩

/-- What is staged of a specification is put below the parent declared, under the names
declared. -/
theorem names_of_stage {parsers : ParserRegistry} {spec : CommandSpec σ} {s : Staged σ}
    (h : spec.stage parsers = .ok s) :
    s.parent = spec.parent ∧ s.aliases = spec.aliases ∧ s.command.name = spec.name := by
  obtain ⟨_, _, defaults, _, rfl⟩ := stage_eq_ok_iff.mp h
  exact ⟨rfl, rfl, rfl⟩

end CommandSpec

end Switchboard
