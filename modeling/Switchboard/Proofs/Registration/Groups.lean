import Switchboard.Proofs.Registration.Paths
import Switchboard.Proofs.Registration.Staging

/-!
# Registering a group

What a group does to the commands of a registrar, as long as no alias is at the
same time the name of a command: it has the semantics of a set of paths. A
command of the group is found at its path whatever the order of the
specifications, a command that is replaced takes along what the group did not
put below it anew, and all other commands stay.

* `register_paths`: when a group is registered, and what is found at each path then
-/

namespace Switchboard

variable {σ : Type}

namespace Node

/-- A lower-cased name of some command in the tree. -/
def HasName (root : Node σ) (key : String) : Prop :=
  ∃ keys m child, root.at? keys = some m ∧ m.children.find? key = some child

/-- An alias somewhere in the tree: a lookup key that leads to another name. It stays when the
command that had it is replaced. -/
def HasAlias (root : Node σ) (key : String) : Prop :=
  ∃ keys m target, root.at? keys = some m ∧ m.keys.find? key = some target ∧ target ≠ key

end Node

namespace CommandSpec

/-- The lower-cased full path of a command: the path of its parent and its name. -/
def path (spec : CommandSpec σ) : List String :=
  (spec.parent ++ [spec.name]).map Text.lower

end CommandSpec

/-- The full paths of a group. -/
def groupPaths (specs : List (CommandSpec σ)) : List (List String) :=
  specs.map CommandSpec.path

/-- No command of the group is put at a path or above it. -/
def Spares (specs : List (CommandSpec σ)) (keys : List String) : Prop :=
  ∀ path ∈ groupPaths specs, ¬ path <+: keys

/-- The specification of a group with a path; of several, the last in the list. -/
def lastSpec? (specs : List (CommandSpec σ)) (keys : List String) : Option (CommandSpec σ) :=
  (specs.filter (·.path = keys)).getLast?

/-- No alias, of the tree or of the group, is the name of a command of either or a segment of a
parent path. -/
def AliasesApart (root : Node σ) (specs : List (CommandSpec σ)) : Prop :=
  ∀ key, root.HasAlias key ∨ (∃ spec ∈ specs, key ∈ spec.aliases.map Text.lower) →
    ¬ (root.HasName key ∨ ∃ spec ∈ specs, key ∈ spec.path)

/-! ### Names apart from aliases -/

/-- A name of a command in the tree, or a segment of a path of the group. -/
def IsNameIn (root : Node σ) (specs : List (CommandSpec σ)) (key : String) : Prop :=
  root.HasName key ∨ ∃ spec ∈ specs, key ∈ spec.path

theorem AliasesApart.everywhere_orderly {r : Registrar σ} {specs : List (CommandSpec σ)}
    (ha : AliasesApart r.root specs) (hr : r.Reachable) :
    r.root.Everywhere (Node.Orderly (IsNameIn r.root specs)) := by
  intro keys m hm
  refine ⟨hr.wellNamed keys m hm, ?_, ?_⟩
  · intro key child hc
    exact .inl ⟨keys, m, child, hm, hc⟩
  · intro key target hname hk
    by_contra hne
    exact ha key (.inl ⟨keys, m, target, hm, hk, hne⟩) hname

/-- The paths of a group are made of names of a set, and its aliases are outside of it. -/
def KeepsNames (IsName : String → Prop) (specs : List (CommandSpec σ)) : Prop :=
  ∀ spec ∈ specs, (∀ key ∈ spec.path, IsName key) ∧
    ∀ other ∈ spec.aliases, ¬ IsName (Text.lower other)

theorem AliasesApart.keepsNames {root : Node σ} {specs : List (CommandSpec σ)}
    (ha : AliasesApart root specs) : KeepsNames (IsNameIn root specs) specs := by
  intro spec hspec
  refine ⟨fun key hkey => .inr ⟨spec, hspec, hkey⟩, fun other hother => ?_⟩
  exact ha (Text.lower other) (.inr ⟨spec, hspec, List.mem_map_of_mem hother⟩)

/-- A group over the names of a tree has its aliases apart from them. -/
theorem aliasesApart_of_keepsNames {IsName : String → Prop} {root : Node σ}
    {specs : List (CommandSpec σ)} (hroot : root.Everywhere (Node.Orderly IsName))
    (hspecs : KeepsNames IsName specs) : AliasesApart root specs := by
  have hname : ∀ key, IsNameIn root specs key → IsName key := by
    intro key hcases
    rcases hcases with ⟨keys, m, child, hm, hc⟩ | ⟨spec, hspec, hkey⟩
    · exact (hroot keys m hm).isName key child hc
    · exact (hspecs spec hspec).1 key hkey
  intro key hcases hmem
  rcases hcases with ⟨keys, m, target, hm, hk, hne⟩ | ⟨spec, hspec, hkey⟩
  · exact hne ((hroot keys m hm).leads key target (hname key hmem) hk)
  · obtain ⟨other, hother, rfl⟩ := List.mem_map.mp hkey
    exact (hspecs spec hspec).2 other hother (hname _ hmem)

/-! ### A group and what is staged of it -/

/-- What is staged of a group, member by member. -/
abbrev StagedAs (parsers : ParserRegistry) (specs : List (CommandSpec σ))
    (staged : List (Staged σ)) : Prop :=
  List.Forall₂ (fun spec s => CommandSpec.stage parsers spec = .ok s) specs staged

theorem Staged.path_of_stage {parsers : ParserRegistry} {spec : CommandSpec σ} {s : Staged σ}
    (h : spec.stage parsers = .ok s) : s.path = spec.path := by
  obtain ⟨hparent, _, hname⟩ := CommandSpec.names_of_stage h
  rw [path, CommandSpec.path, hparent, hname]

namespace StagedAs

variable {parsers : ParserRegistry} {specs : List (CommandSpec σ)} {staged : List (Staged σ)}

/-- A group is staged when each member passes. -/
theorem exists_of_stageable (h : ∀ spec ∈ specs, spec.Stageable parsers) :
    ∃ staged, StagedAs parsers specs staged := by
  have hstage : ∀ spec ∈ specs, ∃ s, spec.stage parsers = .ok s :=
    fun spec hspec => CommandSpec.exists_stage_iff.mpr (h spec hspec)
  obtain ⟨staged, hmap⟩ := exists_mapM_iff.mpr hstage
  exact ⟨staged, mapM_eq_ok_iff.mp hmap⟩

/-- Every member of a group that is staged passes. -/
theorem stageable (h : StagedAs parsers specs staged) :
    ∀ spec ∈ specs, spec.Stageable parsers := by
  intro spec hspec
  obtain ⟨s, _, hstage⟩ := exists_right_of_forall₂ h hspec
  exact CommandSpec.exists_stage_iff.mp ⟨s, hstage⟩

theorem map_path (h : StagedAs parsers specs staged) :
    staged.map Staged.path = groupPaths specs := by
  induction h with
  | nil => rfl
  | cons hspec _ ih =>
    rw [List.map_cons, ih, groupPaths, groupPaths, List.map_cons, Staged.path_of_stage hspec]

theorem exists_path_iff (h : StagedAs parsers specs staged) (keys : List String) :
    (∃ s ∈ staged, s.path = keys) ↔ keys ∈ groupPaths specs := by
  rw [← h.map_path, List.mem_map]

theorem spares_iff (h : StagedAs parsers specs staged) (keys : List String) :
    (∀ s ∈ staged, ¬ s.path <+: keys) ↔ Spares specs keys := by
  rw [Spares, ← h.map_path, List.forall_mem_map]

/-- The last command staged with a path is the one of the last specification with it. -/
theorem lastSpec?_eq (h : StagedAs parsers specs staged) {keys : List String} {s : Staged σ}
    (hs : lastAt staged keys = some s) :
    ∃ spec, lastSpec? specs keys = some spec ∧ spec.stage parsers = .ok s := by
  have hfilter : StagedAs parsers (specs.filter (·.path = keys))
      (staged.filter (·.path = keys)) := by
    refine List.rel_filter (fun spec s hspec => ?_) h
    show decide (spec.path = keys) = true ↔ decide (s.path = keys) = true
    rw [Staged.path_of_stage hspec]
  exact getLast?_left_of_forall₂ hfilter hs

/-- A path names something under a group when the group has it, or when the tree had it and the
group leaves it alone, where every child of the tree is found by its name. -/
theorem isSome_overlay_iff {root : Node σ} (h : StagedAs parsers specs staged)
    (hroot : root.Everywhere Node.FindsOwn) (path : List String) :
    (overlay root.commandUnder? staged (path.map Text.lower)).isSome ↔
      path.map Text.lower ∈ groupPaths specs ∨
        (root.commandAt? path).isSome ∧ Spares specs (path.map Text.lower) := by
  rw [Switchboard.isSome_overlay_iff, h.exists_path_iff, h.spares_iff,
    Node.commandAt?_eq_of_findsOwn hroot]

theorem clear {IsName : String → Prop} (h : StagedAs parsers specs staged)
    (hspecs : KeepsNames IsName specs) : ∀ s ∈ staged, s.Clear IsName := by
  intro s hs
  obtain ⟨spec, hspec, hstage⟩ := exists_left_of_forall₂ h hs
  obtain ⟨hpath, haliases⟩ := hspecs spec hspec
  constructor
  · intro name hn
    refine hpath (Text.lower name) ?_
    rw [← Staged.path_of_stage hstage]
    exact List.mem_map_of_mem hn
  · rw [(CommandSpec.names_of_stage hstage).2.1]
    exact haliases

end StagedAs

/-! ### The effect on a registrar -/

namespace Registrar

variable {r next : Registrar σ} {specs : List (CommandSpec σ)}

theorem register_eq_ok_iff_stagedAs :
    r.register specs = .ok next ↔
      ∃ staged root, StagedAs r.parsers specs staged ∧ attachAll r.root staged = .ok root ∧
        next = { r with root } := by
  rw [register_eq_ok_iff]
  simp only [mapM_eq_ok_iff]

/-- A path names something under a group when the group has it, or when the tree had it and the
group leaves it alone. -/
theorem isSome_overlay_staged_iff {staged : List (Staged σ)} (hr : r.Reachable)
    (ha : AliasesApart r.root specs) (hs : StagedAs r.parsers specs staged) (path : List String) :
    (overlay r.root.commandUnder? staged (path.map Text.lower)).isSome ↔
      path.map Text.lower ∈ groupPaths specs ∨
        (r.root.commandAt? path).isSome ∧ Spares specs (path.map Text.lower) :=
  hs.isSome_overlay_iff (Node.everywhere_findsOwn (ha.everywhere_orderly hr)) path

/-- A group is registered exactly when all of it passes staging and each parent is at the top, a
command of the group, or a command of the tree that the group leaves alone. -/
theorem exists_register_iff (hr : r.Reachable) (ha : AliasesApart r.root specs) :
    (∃ next, r.register specs = .ok next) ↔
      (∀ spec ∈ specs, spec.Stageable r.parsers) ∧
      ∀ spec ∈ specs, spec.parent = [] ∨ spec.parent.map Text.lower ∈ groupPaths specs ∨
        (r.root.commandAt? spec.parent).isSome ∧ Spares specs (spec.parent.map Text.lower) := by
  have horderly := ha.everywhere_orderly hr
  constructor
  · intro hexists
    obtain ⟨next, h⟩ := hexists
    obtain ⟨staged, root, hs, hall, _⟩ := register_eq_ok_iff_stagedAs.mp h
    have hparents := (exists_attachAll_iff horderly (hs.clear ha.keepsNames)).mp ⟨root, hall⟩
    refine ⟨hs.stageable, fun spec hspec => ?_⟩
    obtain ⟨s, hmem, hstage⟩ := exists_right_of_forall₂ hs hspec
    have hparent := hparents s hmem
    rwa [(CommandSpec.names_of_stage hstage).1, isSome_overlay_staged_iff hr ha hs] at hparent
  · intro hboth
    obtain ⟨hstageable, hparents⟩ := hboth
    obtain ⟨staged, hs⟩ := StagedAs.exists_of_stageable hstageable
    have hfound : ∀ s ∈ staged, s.parent = [] ∨
        (overlay r.root.commandUnder? staged (s.parent.map Text.lower)).isSome := by
      intro s hmem
      obtain ⟨spec, hspec, hstage⟩ := exists_left_of_forall₂ hs hmem
      rw [(CommandSpec.names_of_stage hstage).1, isSome_overlay_staged_iff hr ha hs]
      exact hparents spec hspec
    obtain ⟨root, hall⟩ := (exists_attachAll_iff horderly (hs.clear ha.keepsNames)).mpr hfound
    exact ⟨_, register_eq_ok_iff_stagedAs.mpr ⟨staged, root, hs, hall, rfl⟩⟩

/-- What a path names once a group is registered. -/
theorem commandAt?_register (hr : r.Reachable) (ha : AliasesApart r.root specs)
    (h : r.register specs = .ok next) :
    ∃ staged, StagedAs r.parsers specs staged ∧ ∀ path,
      next.root.commandAt? path = overlay r.root.commandUnder? staged (path.map Text.lower) := by
  obtain ⟨staged, root, hs, hall, rfl⟩ := register_eq_ok_iff_stagedAs.mp h
  obtain ⟨horderly, hfound⟩ :=
    commandUnder?_attachAll (ha.everywhere_orderly hr) (hs.clear ha.keepsNames) hall
  exact ⟨staged, hs, fun path => by rw [Node.commandAt?_eq horderly, hfound]⟩

/-- Registering a group has the semantics of a set of paths: which groups are registered, which
paths name a command then, and which command it is, at the paths of the group and at others. -/
theorem register_paths (hr : r.Reachable) (ha : AliasesApart r.root specs) :
    ((∃ next, r.register specs = .ok next) ↔
      (∀ spec ∈ specs, spec.Stageable r.parsers) ∧
      ∀ spec ∈ specs, spec.parent = [] ∨ spec.parent.map Text.lower ∈ groupPaths specs ∨
        (r.root.commandAt? spec.parent).isSome ∧ Spares specs (spec.parent.map Text.lower)) ∧
    ∀ next, r.register specs = .ok next → ∀ path,
      ((next.root.commandAt? path).isSome ↔
        path.map Text.lower ∈ groupPaths specs ∨
          (r.root.commandAt? path).isSome ∧ Spares specs (path.map Text.lower)) ∧
      (path.map Text.lower ∈ groupPaths specs →
        ∃ spec s, lastSpec? specs (path.map Text.lower) = some spec ∧
          spec.stage r.parsers = .ok s ∧ next.root.commandAt? path = some s.command) ∧
      (path.map Text.lower ∉ groupPaths specs →
        ∀ command, next.root.commandAt? path = some command →
          r.root.commandAt? path = some command) := by
  refine ⟨exists_register_iff hr ha, fun next h path => ?_⟩
  obtain ⟨staged, hs, hfound⟩ := commandAt?_register hr ha h
  rw [hfound]
  refine ⟨isSome_overlay_staged_iff hr ha hs path, ?_, ?_⟩
  · intro hmem
    obtain ⟨s, hlast, hcommand⟩ :=
      overlay_of_mem r.root.commandUnder? ((hs.exists_path_iff _).mpr hmem)
    obtain ⟨spec, hspec, hstage⟩ := hs.lastSpec?_eq hlast
    exact ⟨spec, s, hspec, hstage, hcommand⟩
  · intro hmem command hcommand
    have hne : ∀ s ∈ staged, s.path ≠ path.map Text.lower := fun s hmem' hpath =>
      hmem ((hs.exists_path_iff _).mp ⟨s, hmem', hpath⟩)
    rw [Node.commandAt?_eq (ha.everywhere_orderly hr)]
    exact old_of_overlay hne hcommand

/-- Groups over one set of names may follow one another: the tree stays orderly. -/
theorem everywhere_orderly_register {IsName : String → Prop}
    (hroot : r.root.Everywhere (Node.Orderly IsName)) (hspecs : KeepsNames IsName specs)
    (h : r.register specs = .ok next) : next.root.Everywhere (Node.Orderly IsName) := by
  obtain ⟨staged, root, hs, hall, rfl⟩ := register_eq_ok_iff_stagedAs.mp h
  exact (commandUnder?_attachAll hroot (hs.clear hspecs) hall).1

/-! ### Two groups -/

/-- A command without parameters. -/
def plain (name : String) : CommandSpec Unit :=
  .ofName name fun _ s => (.done, s)

/-- A command with one below it. -/
def earlier : List (CommandSpec Unit) :=
  [plain "a", ((plain "b").under ["a"]).addAliases ["x"]]

/-- Another command below the same one, which is declared anew behind it. -/
def later : List (CommandSpec Unit) :=
  [(plain "c").under ["A"], (plain "a").addAliases ["y"]]

/-- The names of both groups. -/
def letters : List String :=
  ["a", "b", "c"]

theorem keepsNames_letters :
    KeepsNames (· ∈ letters) earlier ∧ KeepsNames (· ∈ letters) later := by
  unfold KeepsNames
  decide +kernel

theorem groupPaths_earlier : groupPaths earlier = [["a"], ["a", "b"]] := by
  decide +kernel

theorem groupPaths_later : groupPaths later = [["a", "c"], ["a"]] := by
  decide +kernel

/-- Without declared parameters valid names are enough. -/
theorem stageable_of_names {specs : List (CommandSpec σ)}
    (h : ∀ spec ∈ specs, isValidName spec.name = true ∧
      (∀ name ∈ spec.aliases, isValidName name = true) ∧ spec.declarations = [])
    (parsers : ParserRegistry) : ∀ spec ∈ specs, spec.Stageable parsers := by
  intro spec hspec
  obtain ⟨hname, haliases, hdeclarations⟩ := h spec hspec
  refine ⟨hname, haliases, fun d hd => ?_⟩
  rw [hdeclarations] at hd
  cases hd

theorem stageable_letters (parsers : ParserRegistry) :
    ∀ spec ∈ earlier ++ later, spec.Stageable parsers :=
  stageable_of_names (by decide +kernel) parsers

/-- The registrar with the earlier group. -/
def office : Registrar Unit :=
  Registrar.perform .empty (.commands earlier)

theorem reachable_office : office.Reachable :=
  ⟨[.commands earlier], rfl⟩

theorem orderly_empty {IsName : String → Prop} :
    (empty : Registrar Unit).root.Everywhere (Node.Orderly IsName) :=
  Node.everywhere_root Node.orderly_root

theorem register_earlier : (empty : Registrar Unit).register earlier = .ok office := by
  have hapart := aliasesApart_of_keepsNames orderly_empty keepsNames_letters.1
  have hparents : ∀ spec ∈ earlier, spec.parent = [] ∨
      spec.parent.map Text.lower ∈ groupPaths earlier := by
    rw [groupPaths_earlier]
    decide +kernel
  obtain ⟨first, hfirst⟩ := (exists_register_iff .empty hapart).mpr
    ⟨fun spec hspec => stageable_letters _ spec (List.mem_append_left _ hspec),
      fun spec hspec => (hparents spec hspec).imp_right .inl⟩
  have hoffice : office = first := by
    rw [office, perform, hfirst]
    rfl
  rw [hfirst, hoffice]

theorem aliasesApart_office : AliasesApart office.root later := by
  have horderly := everywhere_orderly_register orderly_empty keepsNames_letters.1 register_earlier
  exact aliasesApart_of_keepsNames horderly keepsNames_letters.2

/-- The command declared anew takes what was below it along, and keeps what its own group puts
there, although that comes first in the list. -/
theorem register_paths_office :
    office.Reachable ∧ AliasesApart office.root later ∧
      (office.root.commandAt? ["a", "b"]).isSome ∧
      ∃ next, office.register later = .ok next ∧
        ¬ (next.root.commandAt? ["a", "b"]).isSome ∧ (next.root.commandAt? ["A", "c"]).isSome := by
  obtain ⟨hiff, hafter⟩ := register_paths reachable_office aliasesApart_office
  have hparents : ∀ spec ∈ later, spec.parent = [] ∨
      spec.parent.map Text.lower ∈ groupPaths later := by
    rw [groupPaths_later]
    decide +kernel
  obtain ⟨next, hnext⟩ := hiff.mpr
    ⟨fun spec hspec => stageable_letters _ spec (List.mem_append_right _ hspec),
      fun spec hspec => (hparents spec hspec).imp_right .inl⟩
  refine ⟨reachable_office, aliasesApart_office, ?_, next, hnext, ?_, ?_⟩
  · have hapart := aliasesApart_of_keepsNames orderly_empty keepsNames_letters.1
    obtain ⟨staged, hs, hfound⟩ := commandAt?_register .empty hapart register_earlier
    rw [hfound, isSome_overlay_staged_iff .empty hapart hs, groupPaths_earlier]
    exact .inl (by decide +kernel)
  · rw [(hafter next hnext ["a", "b"]).1, Spares, groupPaths_later]
    intro hcases
    rcases hcases with hmem | ⟨_, hspared⟩
    · exact absurd hmem (by decide +kernel)
    · exact hspared ["a"] (by decide) (by decide +kernel)
  · rw [(hafter next hnext ["A", "c"]).1, groupPaths_later]
    exact .inl (by decide +kernel)

end Registrar

end Switchboard
