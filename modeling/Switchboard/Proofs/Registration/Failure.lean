import Switchboard.Proofs.Registration.Order
import Switchboard.Proofs.Registration.Origins

/-!
# What a failed registration reports

A group is gone through twice, in two orders. It is staged in the order of the
list, and the first specification with a fault decides, whatever is wrong with
others; then it is put in a copy of the tree by rank, and the first command
whose parent path leads nowhere at its turn decides. Either way the copy is
dropped, with all that was put in it, and the registrar stays as it was.

* `CommandSpec.Fault`, `stage_eq_error_iff`: the fault that is reported for a specification
* `FirstFault`, `mapM_stage_eq_error_iff`: the fault that is reported for a group
* `Orphaned`, `attachAll_eq_error_iff`: the command that lacks its parent at its turn
* `register_failure`: when a group fails, with what, and that nothing changes then
-/

namespace Switchboard

variable {σ : Type}

/-! ### Faults of a specification -/

theorem checkName_eq_error_iff {name : String} {e : RegistrationError} :
    checkName name = .error e ↔ isValidName name = false ∧ e = .invalidName name := by
  unfold checkName
  cases isValidName name with
  | true => simp
  | false => simp [eq_comm]

namespace Declaration

/-- What is wrong with a declared default: its type has no parser, or the parser refuses the
text. Nothing is wrong with a declared null. -/
inductive Fault (parsers : ParserRegistry) (command : String) (d : Declaration) :
    RegistrationError → Prop
  | noParser {content : String} : d.default? = some (.text content) →
      parsers.has d.type = false → Fault parsers command d (.noParser command d.type)
  | invalidDefault {content : String} {source : ParseError} :
      d.default? = some (.text content) → parsers.has d.type = true →
      parsers.parse content d.type = .error source →
      Fault parsers command d (.invalidDefault command source)

theorem readDefault_eq_error_iff {parsers : ParserRegistry} {command : String} {d : Declaration}
    {e : RegistrationError} :
    d.readDefault parsers command = .error e ↔ d.Fault parsers command e := by
  unfold readDefault
  constructor
  · intro h
    split at h
    next => cases h
    next => cases h
    next content hdefault =>
      split at h
      next hhas =>
        split at h
        next => cases h
        next source hparse =>
          obtain rfl := Except.error.inj h
          exact .invalidDefault hdefault hhas hparse
      next hhas =>
        obtain rfl := Except.error.inj h
        exact .noParser hdefault (Bool.eq_false_iff.mpr hhas)
  · intro h
    cases h with
    | noParser hdefault hhas => simp [hdefault, hhas]
    | invalidDefault hdefault hhas hparse => simp [hdefault, hhas, hparse]

end Declaration

namespace CommandSpec

/-- The fault that is reported for a specification: of its name, else of the first invalid alias,
else of the first default that cannot be read, be it of the trailing run or not. -/
inductive Fault (parsers : ParserRegistry) (spec : CommandSpec σ) : RegistrationError → Prop
  | name : isValidName spec.name = false → Fault parsers spec (.invalidName spec.name)
  | other {before after : List String} {other : String} :
      isValidName spec.name = true → spec.aliases = before ++ other :: after →
      (∀ name ∈ before, isValidName name = true) → isValidName other = false →
      Fault parsers spec (.invalidName other)
  | default {before after : List Declaration} {d : Declaration} {e : RegistrationError} :
      isValidName spec.name = true → (∀ name ∈ spec.aliases, isValidName name = true) →
      spec.declarations = before ++ d :: after → (∀ earlier ∈ before, earlier.Readable parsers) →
      d.Fault parsers spec.name e → Fault parsers spec e

variable {parsers : ParserRegistry} {spec : CommandSpec σ} {e : RegistrationError}

theorem forM_checkName_eq_error_iff {names : List String} :
    names.forM checkName = .error e ↔
      ∃ before other after, names = before ++ other :: after ∧
        (∀ name ∈ before, isValidName name = true) ∧ isValidName other = false ∧
        e = .invalidName other := by
  rw [forM_eq_error_iff, FailsFirst]
  have hpasses : ∀ name, (∃ u, checkName name = .ok u) ↔ isValidName name = true :=
    fun name => ⟨fun ⟨(), h⟩ => checkName_eq_ok_iff.mp h, fun h => ⟨(), checkName_eq_ok_iff.mpr h⟩⟩
  simp only [hpasses, checkName_eq_error_iff]

theorem mapM_readDefault_eq_error_iff {command : String} {ds : List Declaration} :
    ds.mapM (Declaration.readDefault parsers command) = .error e ↔
      ∃ before d after, ds = before ++ d :: after ∧ (∀ earlier ∈ before, earlier.Readable parsers) ∧
        d.Fault parsers command e := by
  rw [mapM_eq_error_iff, FailsFirst]
  simp only [Declaration.exists_readDefault_iff, Declaration.readDefault_eq_error_iff]

/-- Staging fails with the fault that is reported. -/
theorem stage_eq_error_iff : spec.stage parsers = .error e ↔ spec.Fault parsers e := by
  rw [stage, bind_eq_error_iff, checkName_eq_error_iff]
  constructor
  · rintro (⟨hname, rfl⟩ | ⟨_, hname, h⟩)
    · exact .name hname
    have hname := checkName_eq_ok_iff.mp hname
    rcases bind_eq_error_iff.mp h with haliases | ⟨_, haliases, h⟩
    · obtain ⟨before, other, after, hsplit, hbefore, hother, rfl⟩ :=
        forM_checkName_eq_error_iff.mp haliases
      exact .other hname hsplit hbefore hother
    have haliases := fun name hmem => checkName_eq_ok_iff.mp (forM_eq_ok_iff.mp haliases name hmem)
    rcases bind_eq_error_iff.mp h with hdefaults | ⟨_, _, hdone⟩
    · obtain ⟨before, d, after, hsplit, hbefore, hd⟩ := mapM_readDefault_eq_error_iff.mp hdefaults
      exact .default hname haliases hsplit hbefore hd
    · cases hdone
  · intro h
    cases h with
    | name hname => exact .inl ⟨hname, rfl⟩
    | other hname hsplit hbefore hother =>
      refine .inr ⟨(), checkName_eq_ok_iff.mpr hname, bind_eq_error_iff.mpr (.inl ?_)⟩
      exact forM_checkName_eq_error_iff.mpr ⟨_, _, _, hsplit, hbefore, hother, rfl⟩
    | default hname haliases hsplit hbefore hd =>
      have haliases : spec.aliases.forM checkName = .ok () :=
        forM_eq_ok_iff.mpr fun name hmem => checkName_eq_ok_iff.mpr (haliases name hmem)
      have hdefaults := mapM_readDefault_eq_error_iff.mpr ⟨_, _, _, hsplit, hbefore, hd⟩
      refine .inr ⟨(), checkName_eq_ok_iff.mpr hname, bind_eq_error_iff.mpr (.inr ?_)⟩
      exact ⟨(), haliases, bind_eq_error_iff.mpr (.inl hdefaults)⟩

end CommandSpec

/-! ### Faults of a group -/

/-- The fault that is reported for a list of specifications: that of the first which has one. -/
def FirstFault (parsers : ParserRegistry) (specs : List (CommandSpec σ)) (e : RegistrationError) :
    Prop :=
  ∃ before spec after, specs = before ++ spec :: after ∧
    (∀ earlier ∈ before, earlier.Stageable parsers) ∧ spec.Fault parsers e

section Group

variable {parsers : ParserRegistry} {specs : List (CommandSpec σ)} {e : RegistrationError}

theorem failsFirst_stage_iff :
    FailsFirst (CommandSpec.stage parsers) specs e ↔ FirstFault parsers specs e := by
  rw [FailsFirst, FirstFault]
  simp only [CommandSpec.exists_stage_iff, CommandSpec.stage_eq_error_iff]

theorem mapM_stage_eq_error_iff :
    specs.mapM (CommandSpec.stage parsers) = .error e ↔ FirstFault parsers specs e :=
  mapM_eq_error_iff.trans failsFirst_stage_iff

/-- A list has a fault as soon as some specification does not pass staging. -/
theorem exists_firstFault_iff :
    (∃ e, FirstFault parsers specs e) ↔ ∃ spec ∈ specs, ¬ spec.Stageable parsers := by
  simp only [← failsFirst_stage_iff, exists_failsFirst_iff, CommandSpec.exists_stage_iff]

/-- No fault of a specification is a missing parent. -/
theorem not_firstFault_missingParent {command parent : String} :
    ¬ FirstFault parsers specs (.missingParent command parent) := by
  rintro ⟨_, spec, _, _, _, hfault⟩
  cases hfault with
  | default _ _ _ _ hd => cases hd

end Group

/-! ### The order of insertion -/

section Sorting

variable {α β κ : Type} {R : α → β → Prop} {xs : List α} {ys : List β}

theorem forall₂_insertBy {le : α → α → Bool} {le' : β → β → Bool} {x : α} {y : β}
    (hle : ∀ a b a' b', R a b → R a' b' → le a a' = le' b b') (hxy : R x y)
    (h : List.Forall₂ R xs ys) : List.Forall₂ R (insertBy le x xs) (insertBy le' y ys) := by
  induction h with
  | nil => exact .cons hxy .nil
  | @cons a b xs ys hab hrest ih =>
    rw [insertBy, insertBy, hle x y a b hxy hab]
    split
    next => exact .cons hxy (.cons hab hrest)
    next => exact .cons hab ih

/-- Lists whose members have the same keys one by one are sorted alike. -/
theorem forall₂_sortOn (order : κ → κ → Bool) {key : α → κ} {key' : β → κ}
    (hkey : ∀ a b, R a b → key a = key' b) (h : List.Forall₂ R xs ys) :
    List.Forall₂ R (sortOn order key xs) (sortOn order key' ys) := by
  rw [sortOn_eq, sortOn_eq]
  induction h with
  | nil => exact .nil
  | cons hxy _ ih =>
    refine forall₂_insertBy (fun a b a' b' hab hab' => ?_) hxy ih
    rw [hkey a b hab, hkey a' b' hab']

end Sorting

/-- The specifications of a group in the order in which their commands are put in the tree. -/
def CommandSpec.inOrder (specs : List (CommandSpec σ)) : List (CommandSpec σ) :=
  sortOn InsertionRank.le CommandSpec.rank specs

theorem CommandSpec.mem_inOrder {specs : List (CommandSpec σ)} {spec : CommandSpec σ} :
    spec ∈ CommandSpec.inOrder specs ↔ spec ∈ specs :=
  mem_sortOn InsertionRank.le CommandSpec.rank

theorem StagedAs.inOrder {parsers : ParserRegistry} {specs : List (CommandSpec σ)}
    {staged : List (Staged σ)} (h : StagedAs parsers specs staged) :
    StagedAs parsers (CommandSpec.inOrder specs) (Staged.inOrder staged) :=
  forall₂_sortOn InsertionRank.le (fun _ _ hstage => (Staged.rank_of_stage hstage).symm) h

/-! ### Missing parents -/

/-- A command is not put in the tree exactly when its parent path leads nowhere. -/
theorem Staged.attach_eq_error_iff {root : Node σ} {s : Staged σ} {e : RegistrationError} :
    attach root s = .error e ↔
      root.findPath s.parent = none ∧
        e = .missingParent s.command.name (root.firstMissing s.parent) := by
  have hsome := root.isSome_updateAt? (·.addChild s.aliases (.leaf s.command)) s.parent
  unfold attach
  cases hupdate : root.updateAt? (·.addChild s.aliases (.leaf s.command)) s.parent with
  | some changed =>
    rw [hupdate] at hsome
    obtain ⟨parent, hparent⟩ := Option.isSome_iff_exists.mp hsome.symm
    simp [hparent]
  | none =>
    rw [hupdate] at hsome
    have hparent : root.findPath s.parent = none := by simpa using hsome.symm
    simp [hparent, eq_comm]

namespace Registrar

/-- The turn of a specification comes when those before it in the order of insertion were put in
the tree, and its parent path leads nowhere in the tree as it is then. -/
def Orphaned (r : Registrar σ) (specs : List (CommandSpec σ)) (spec : CommandSpec σ)
    (tree : Node σ) : Prop :=
  ∃ done todo staged, CommandSpec.inOrder specs = done ++ spec :: todo ∧
    StagedAs r.parsers done staged ∧ staged.foldlM Staged.attach r.root = .ok tree ∧
    tree.findPath spec.parent = none

variable {r : Registrar σ} {specs : List (CommandSpec σ)} {e : RegistrationError}

/-- A staged group is not put in the tree when the turn of a command comes that lacks its parent,
and this one is reported then. -/
theorem attachAll_eq_error_iff {staged : List (Staged σ)} (h : StagedAs r.parsers specs staged) :
    attachAll r.root staged = .error e ↔
      ∃ spec tree, r.Orphaned specs spec tree ∧
        e = .missingParent spec.name (tree.firstMissing spec.parent) := by
  have horder := h.inOrder
  show (Staged.inOrder staged).foldlM Staged.attach r.root = .error e ↔ _
  rw [foldlM_eq_error_iff]
  constructor
  · -- the run stops at a staged command, whose specification is at the same place of its list
    rintro ⟨before, s, after, tree, hsplit, hbefore, hs⟩
    rw [hsplit] at horder
    obtain ⟨done, spec, todo, hspecs, hdone, hstage, _⟩ := split_left_of_forall₂ horder
    obtain ⟨hparent, _, hname⟩ := CommandSpec.names_of_stage hstage
    obtain ⟨hmissing, rfl⟩ := Staged.attach_eq_error_iff.mp hs
    rw [hparent] at hmissing
    exact ⟨spec, tree, ⟨done, todo, before, hspecs, hdone, hbefore, hmissing⟩,
      by rw [hname, hparent]⟩
  · rintro ⟨spec, tree, ⟨done, todo, before, hspecs, hdone, hbefore, hmissing⟩, rfl⟩
    rw [hspecs] at horder
    obtain ⟨before', s, after, hsplit, hdone', hstage, _⟩ := split_right_of_forall₂ horder
    obtain ⟨hparent, _, hname⟩ := CommandSpec.names_of_stage hstage
    obtain rfl := hdone.eq_of_stagedAs hdone'
    refine ⟨before, s, after, tree, hsplit, hbefore, Staged.attach_eq_error_iff.mpr ?_⟩
    exact ⟨by rw [hparent, hmissing], by rw [hname, hparent]⟩

/-- A group fails with its first fault, or, when it has none, for want of a parent. -/
theorem register_eq_error_iff :
    r.register specs = .error e ↔
      FirstFault r.parsers specs e ∨
        (∀ spec ∈ specs, spec.Stageable r.parsers) ∧
          ∃ spec tree, r.Orphaned specs spec tree ∧
            e = .missingParent spec.name (tree.firstMissing spec.parent) := by
  by_cases hstageable : ∀ spec ∈ specs, spec.Stageable r.parsers
  · obtain ⟨staged, hs⟩ := StagedAs.exists_of_stageable hstageable
    -- everything is staged, so the failure is one of putting the group in the tree
    have hnone : ¬ FirstFault r.parsers specs e := by
      intro hfault
      obtain ⟨spec, hspec, hfails⟩ := exists_firstFault_iff.mp ⟨e, hfault⟩
      exact hfails (hstageable spec hspec)
    have hattach : r.register specs = .error e ↔ attachAll r.root staged = .error e := by
      rw [r.register_of_stagedAs hs]
      cases attachAll r.root staged with
      | error e' => simp [Except.map]
      | ok root => simp [Except.map]
    rw [hattach, attachAll_eq_error_iff hs]
    exact ⟨fun h => .inr ⟨hstageable, h⟩, fun h => (h.resolve_left hnone).2⟩
  · have hmap : r.register specs = .error e ↔
        specs.mapM (CommandSpec.stage r.parsers) = .error e := by
      rw [register, bind_eq_error_iff]
      refine ⟨fun h => h.resolve_right ?_, .inl⟩
      rintro ⟨staged, hstaged, _⟩
      exact hstageable (StagedAs.stageable (mapM_eq_ok_iff.mp hstaged))
    rw [hmap, mapM_stage_eq_error_iff]
    exact ⟨.inl, fun h => h.resolve_right fun hright => hstageable hright.1⟩

/-- A group fails as soon as a specification does not pass staging or a parent is missing. -/
theorem exists_register_error_iff :
    (∃ e, r.register specs = .error e) ↔
      (∃ spec ∈ specs, ¬ spec.Stageable r.parsers) ∨ ∃ spec tree, r.Orphaned specs spec tree := by
  constructor
  · rintro ⟨e, h⟩
    rcases register_eq_error_iff.mp h with hfault | ⟨_, spec, tree, horphaned, _⟩
    · exact .inl (exists_firstFault_iff.mp ⟨e, hfault⟩)
    · exact .inr ⟨spec, tree, horphaned⟩
  · intro h
    by_cases hstageable : ∀ spec ∈ specs, spec.Stageable r.parsers
    · rcases h with ⟨spec, hspec, hfails⟩ | ⟨spec, tree, horphaned⟩
      · exact absurd (hstageable spec hspec) hfails
      · exact ⟨_, register_eq_error_iff.mpr (.inr ⟨hstageable, spec, tree, horphaned, rfl⟩)⟩
    · exact r.exists_error_of_not_stageable hstageable

/-- A parent is looked for only where everything passes staging. -/
theorem stageable_of_missingParent {command parent : String}
    (h : r.register specs = .error (.missingParent command parent)) :
    ∀ spec ∈ specs, spec.Stageable r.parsers := by
  rcases register_eq_error_iff.mp h with hfault | ⟨hstageable, _⟩
  · exact absurd hfault not_firstFault_missingParent
  · exact hstageable

/-- When a group fails, and with what: with the first fault in the order of the list, or, when all
of it passes staging, with the first command in the order of insertion whose parent path leads
nowhere. The registrar stays as it was, so whatever calls follow lead where they would have led
without this one, and what is built in the end finds and resolves the same. -/
theorem register_failure (r : Registrar σ) (specs : List (CommandSpec σ)) :
    ((∃ e, r.register specs = .error e) ↔
      (∃ spec ∈ specs, ¬ spec.Stageable r.parsers) ∨ ∃ spec tree, r.Orphaned specs spec tree) ∧
    (∀ e, r.register specs = .error e ↔
      FirstFault r.parsers specs e ∨
        (∀ spec ∈ specs, spec.Stageable r.parsers) ∧
          ∃ spec tree, r.Orphaned specs spec tree ∧
            e = .missingParent spec.name (tree.firstMissing spec.parent)) ∧
    (∀ command parent, r.register specs = .error (.missingParent command parent) →
      ∀ spec ∈ specs, spec.Stageable r.parsers) ∧
    ∀ e, r.register specs = .error e → r.perform (.commands specs) = r ∧
      ∀ later : List (Call σ), (Call.commands specs :: later).foldl perform r =
        later.foldl perform r := by
  refine ⟨exists_register_error_iff, fun _ => register_eq_error_iff,
    fun _ _ => stageable_of_missingParent, fun e h => ?_⟩
  have hsame : r.perform (.commands specs) = r := perform_of_error h
  exact ⟨hsame, fun later => by rw [List.foldl_cons, hsame]⟩

/-- A group with a missing parent, a default that no parser reads and that would not count, and an
invalid alias, in this order. -/
def hasty : List (CommandSpec Unit) :=
  [(plain "b").under ["ghost"],
    ((plain "a").defaultTo (.custom "point") "origin").require (.builtin .bool),
    (plain "c").addAliases ["not,fine"]]

/-- A group in which two commands lack their parents. -/
def orphans : List (CommandSpec Unit) :=
  [(plain "below").under ["top", "gone"], (plain "child").under ["ghost"], plain "top"]

/-- What the copy of an empty tree holds when the turn of the first of them comes. -/
def orphansCopy : Node Unit :=
  Node.root.addChild [] (.leaf ⟨"top", [], fun _ s => (.done, s)⟩)

/-- The default is reported before the alias behind it, and a missing parent only where nothing
else is wrong. Of two commands without parents the first by rank is reported, and what the copy
holds by then is not in the tree. -/
theorem register_failure_groups :
    (empty : Registrar Unit).register hasty = .error (.noParser "a" (.custom "point")) ∧
      (empty : Registrar Unit).register orphans = .error (.missingParent "child" "ghost") ∧
      (orphansCopy.find? "top").isSome ∧
      ((empty : Registrar Unit).perform (.commands orphans)).root.find? "top" = none ∧
      ∀ later : List (Call Unit), (Call.commands orphans :: later).foldl perform empty =
        later.foldl perform empty := by
  have hearlier : ∀ spec ∈ [(plain "b").under ["ghost"]], spec.Stageable .empty :=
    stageable_of_names (by decide +kernel) _
  have hfault : FirstFault .empty hasty (.noParser "a" (.custom "point")) :=
    ⟨[(plain "b").under ["ghost"]], _, _, rfl, hearlier,
      .default (by decide +kernel) (fun _ hname => nomatch hname) (List.nil_append _).symm
        (fun _ hd => nomatch hd) (.noParser rfl rfl)⟩
  have hstageable : ∀ spec ∈ orphans, spec.Stageable .empty :=
    stageable_of_names (by decide +kernel) _
  have horphaned : (empty : Registrar Unit).Orphaned orphans ((plain "child").under ["ghost"])
      orphansCopy :=
    ⟨[plain "top"], [(plain "below").under ["top", "gone"]], _, rfl, .cons rfl .nil, rfl, rfl⟩
  obtain ⟨_, hhasty, _⟩ := register_failure (empty : Registrar Unit) hasty
  obtain ⟨_, horphans, _, hsame⟩ := register_failure (empty : Registrar Unit) orphans
  have herror := (horphans (.missingParent "child" "ghost")).mpr
    (.inr ⟨hstageable, _, _, horphaned, rfl⟩)
  obtain ⟨hperform, hlater⟩ := hsame _ herror
  refine ⟨(hhasty _).mpr (.inl hfault), herror, by decide +kernel, ?_, hlater⟩
  rw [hperform]
  rfl

end Registrar

end Switchboard
