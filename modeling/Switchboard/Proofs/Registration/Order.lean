import Switchboard.Proofs.Registration.Groups

/-!
# The order of a group does not matter

The commands of a group are put in the tree by their rank, whatever the order
in which the group lists them; only commands of one rank keep the order of the
list. Two lists that differ in the order of commands of different ranks are
therefore registered alike, also where aliases are taken over and commands
replaced.

* `Reordered`: two lists of one group, with the same order within each rank
* `attachAll_of_reordered`: what is staged of them is put in the tree in one order
* `register_reordered`: both lists fail, or both make the same tree
-/

namespace Switchboard

variable {σ : Type}

/-! ### Ranks -/

namespace CommandSpec

/-- What the place of a command in the order of insertion goes by. -/
def rank (spec : CommandSpec σ) : InsertionRank :=
  ⟨spec.parent.length, Text.lower (" ".intercalate spec.parent), Text.lower spec.name⟩

end CommandSpec

/-- One group in two orders: commands of one rank follow one another alike. -/
structure Reordered (specs specs' : List (CommandSpec σ)) : Prop where
  perm : specs.Perm specs'
  filter_rank : ∀ rank, specs.filter (·.rank = rank) = specs'.filter (·.rank = rank)

namespace Reordered

/-- Neighbours of different ranks may change places. -/
theorem swap {first second : CommandSpec σ} (h : first.rank ≠ second.rank)
    (rest : List (CommandSpec σ)) :
    Reordered (first :: second :: rest) (second :: first :: rest) := by
  constructor
  · exact List.Perm.swap second first rest
  · intro rank
    by_cases hfirst : first.rank = rank
    · have hsecond : second.rank ≠ rank := fun hs => h (hfirst.trans hs.symm)
      simp [hfirst, hsecond]
    · simp [List.filter_cons, hfirst]

end Reordered

namespace Staged

theorem rank_of_stage {parsers : ParserRegistry} {spec : CommandSpec σ} {s : Staged σ}
    (h : spec.stage parsers = .ok s) : s.rank = spec.rank := by
  obtain ⟨hparent, _, hname⟩ := CommandSpec.names_of_stage h
  rw [rank, CommandSpec.rank, hparent, hname]

theorem inOrder_congr {group group' : List (Staged σ)}
    (h : ∀ k, group.filter (·.rank = k) = group'.filter (·.rank = k)) :
    inOrder group = inOrder group' :=
  sortOn_congr InsertionRank.le_trans InsertionRank.le_total
    (fun _ _ => InsertionRank.le_antisymm) h

/-- A command that cannot be put in the tree lacks its parent. -/
theorem missingParent_of_attach {root : Node σ} {s : Staged σ} {e : RegistrationError}
    (h : attach root s = .error e) : ∃ command parent, e = .missingParent command parent := by
  unfold attach at h
  split at h
  next => cases h
  next => exact ⟨_, _, (Except.error.inj h).symm⟩

end Staged

/-! ### What is staged of a group in two orders -/

namespace StagedAs

variable {parsers : ParserRegistry} {specs specs' : List (CommandSpec σ)}
  {staged staged' : List (Staged σ)}

/-- Staging has one result. -/
theorem eq_of_stagedAs (h : StagedAs parsers specs staged) (h' : StagedAs parsers specs staged') :
    staged = staged' := by
  have hmap : specs.mapM (CommandSpec.stage parsers) = .ok staged := mapM_eq_ok_iff.mpr h
  have hmap' : specs.mapM (CommandSpec.stage parsers) = .ok staged' := mapM_eq_ok_iff.mpr h'
  rw [hmap] at hmap'
  exact Except.ok.inj hmap'

theorem filter_rank (h : StagedAs parsers specs staged) (rank : InsertionRank) :
    StagedAs parsers (specs.filter (·.rank = rank)) (staged.filter (·.rank = rank)) := by
  refine List.rel_filter (fun spec s hspec => ?_) h
  show decide (spec.rank = rank) = true ↔ decide (s.rank = rank) = true
  rw [Staged.rank_of_stage hspec]

/-- What is staged of a group in two orders comes in one order of insertion. -/
theorem inOrder_eq (h : StagedAs parsers specs staged) (h' : StagedAs parsers specs' staged')
    (hr : Reordered specs specs') : Staged.inOrder staged = Staged.inOrder staged' := by
  refine Staged.inOrder_congr fun rank => ?_
  have hfilter := h.filter_rank rank
  rw [hr.filter_rank rank] at hfilter
  exact hfilter.eq_of_stagedAs (h'.filter_rank rank)

end StagedAs

/-! ### Registering a group in two orders -/

namespace Registrar

variable {specs specs' : List (CommandSpec σ)}

theorem attachAll_of_reordered {parsers : ParserRegistry} {staged staged' : List (Staged σ)}
    (h : StagedAs parsers specs staged) (h' : StagedAs parsers specs' staged')
    (hr : Reordered specs specs') (root : Node σ) :
    attachAll root staged = attachAll root staged' := by
  show (Staged.inOrder staged).foldlM Staged.attach root =
    (Staged.inOrder staged').foldlM Staged.attach root
  rw [h.inOrder_eq h' hr]

theorem missingParent_of_attachAll {root : Node σ} {staged : List (Staged σ)}
    {e : RegistrationError} (h : attachAll root staged = .error e) :
    ∃ command parent, e = .missingParent command parent := by
  obtain ⟨_, _, _, hattach⟩ := exists_of_foldlM_eq_error h
  exact Staged.missingParent_of_attach hattach

/-- A group that is staged as a whole is registered as its commands are put in the tree. -/
theorem register_of_stagedAs (r : Registrar σ) {staged : List (Staged σ)}
    (h : StagedAs r.parsers specs staged) :
    r.register specs = (attachAll r.root staged).map fun root => { r with root } := by
  rw [register_eq, mapM_eq_ok_iff.mpr h]
  rfl

/-- A group that is not staged as a whole is not registered. -/
theorem exists_error_of_not_stageable (r : Registrar σ)
    (h : ¬ ∀ spec ∈ specs, spec.Stageable r.parsers) : ∃ e, r.register specs = .error e := by
  cases hregister : r.register specs with
  | error e => exact ⟨e, rfl⟩
  | ok next =>
    obtain ⟨staged, _, hs, _, _⟩ := register_eq_ok_iff_stagedAs.mp hregister
    exact absurd hs.stageable h

/-- A group that passes staging has one outcome in both orders. -/
theorem register_eq_of_stageable (r : Registrar σ) (hr : Reordered specs specs')
    (h : ∀ spec ∈ specs, spec.Stageable r.parsers) : r.register specs = r.register specs' := by
  have h' : ∀ spec ∈ specs', spec.Stageable r.parsers :=
    fun spec hspec => h spec (hr.perm.mem_iff.mpr hspec)
  obtain ⟨staged, hs⟩ := StagedAs.exists_of_stageable h
  obtain ⟨staged', hs'⟩ := StagedAs.exists_of_stageable h'
  rw [r.register_of_stagedAs hs, r.register_of_stagedAs hs', attachAll_of_reordered hs hs' hr]

theorem missingParent_of_register {r : Registrar σ} {e : RegistrationError}
    (hstageable : ∀ spec ∈ specs, spec.Stageable r.parsers) (h : r.register specs = .error e) :
    ∃ command parent, e = .missingParent command parent := by
  obtain ⟨staged, hs⟩ := StagedAs.exists_of_stageable hstageable
  rw [r.register_of_stagedAs hs] at h
  cases hall : attachAll r.root staged with
  | error e' =>
    rw [hall] at h
    obtain rfl := Except.error.inj h
    exact missingParent_of_attachAll hall
  | ok root =>
    rw [hall] at h
    cases h

theorem perform_of_error {r : Registrar σ} {e : RegistrationError}
    (h : r.register specs = .error e) : r.perform (.commands specs) = r := by
  rw [perform, h]
  rfl

/-- A group has one effect in whatever order its commands are listed, as long as those of one
rank keep their order: both lists make the same tree, or both fail and leave it as it was. A group
that passes staging fails the same way in both orders, for want of a parent. -/
theorem register_reordered (r : Registrar σ) (hr : Reordered specs specs') :
    (∃ next, r.register specs = .ok next ∧ r.register specs' = .ok next) ∨
    ∃ e e', r.register specs = .error e ∧ r.register specs' = .error e' ∧
      r.perform (.commands specs) = r ∧ r.perform (.commands specs') = r ∧
      ((∀ spec ∈ specs, spec.Stageable r.parsers) →
        e = e' ∧ ∃ command parent, e = .missingParent command parent) := by
  by_cases hstageable : ∀ spec ∈ specs, spec.Stageable r.parsers
  · have hsame := r.register_eq_of_stageable hr hstageable
    cases hregister : r.register specs with
    | ok next =>
      rw [hregister] at hsame
      exact .inl ⟨next, rfl, hsame.symm⟩
    | error e =>
      rw [hregister] at hsame
      refine .inr ⟨e, e, rfl, hsame.symm, perform_of_error hregister,
        perform_of_error hsame.symm, fun _ => ⟨rfl, ?_⟩⟩
      exact missingParent_of_register hstageable hregister
  · have hstageable' : ¬ ∀ spec ∈ specs', spec.Stageable r.parsers :=
      fun h => hstageable fun spec hspec => h spec (hr.perm.mem_iff.mp hspec)
    obtain ⟨e, he⟩ := r.exists_error_of_not_stageable hstageable
    obtain ⟨e', he'⟩ := r.exists_error_of_not_stageable hstageable'
    exact .inr ⟨e, e', he, he', perform_of_error he, perform_of_error he',
      fun h => absurd h hstageable⟩

/-- A command with the name of another as its alias, and that other command. -/
def rivals : List (CommandSpec Unit) :=
  [(plain "b").addAliases ["A"], plain "a"]

/-- Whichever of the two comes first in the list, the name leads to the command with the alias. -/
theorem register_reordered_rivals :
    Reordered rivals rivals.reverse ∧
      ∃ next, (empty : Registrar Unit).register rivals = .ok next ∧
        (empty : Registrar Unit).register rivals.reverse = .ok next ∧
        (next.root.find? "a").bind Node.name? = some "b" := by
  have hrank : ((plain "b").addAliases ["A"]).rank ≠ (plain "a").rank := by
    decide +kernel
  have hr : Reordered rivals rivals.reverse := Reordered.swap hrank []
  have hfound : ((empty : Registrar Unit).register rivals).toOption.map
      (fun next => (next.root.find? "a").bind Node.name?) = some (some "b") := by
    decide +kernel
  refine ⟨hr, ?_⟩
  rcases register_reordered empty hr with ⟨next, hnext, hnext'⟩ | ⟨e, _, he, _⟩
  · rw [hnext] at hfound
    exact ⟨next, hnext, hnext', Option.some.inj hfound⟩
  · rw [he] at hfound
    cases hfound

end Registrar

end Switchboard
