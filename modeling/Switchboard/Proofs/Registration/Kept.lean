import Mathlib.Order.WellFounded
import Switchboard.Proofs.Registration.Groups
import Switchboard.Proofs.Registration.Insertion
import Switchboard.Proofs.Registration.Origins

/-!
# What stays within reach

A command is within reach when its path of names finds it. A group brings its
own commands within reach and leaves those where they are that it does not
replace, unless an alias takes the key of one of them over. That is the only
way in which commands of a tree get out of reach, whatever the calls.

* `Keeps`: after a group its commands and those it spares are found at their paths
* `KeysTaken`: a command of the group has the name of another one beside it as an alias
* `keeps_iff`: a group keeps everything within reach exactly when it takes no key
* `keeps_iff_not_keysTaken`: the same of all groups that a list of calls registers
-/

namespace Switchboard

variable {σ : Type}

namespace CommandSpec

/-- The lower-cased path of a command with some name below the same parent. -/
def beside (spec : CommandSpec σ) (name : String) : List String :=
  (spec.parent ++ [name]).map Text.lower

end CommandSpec

/-- The parent paths of a group are written with names: each is the path of a command of the
group, or of one of the tree that the group leaves alone. -/
def ParentsNamed (root : Node σ) (specs : List (CommandSpec σ)) : Prop :=
  ∀ spec ∈ specs, spec.parent = [] ∨ spec.parent.map Text.lower ∈ groupPaths specs ∨
    (root.commandAt? spec.parent).isSome ∧ Spares specs (spec.parent.map Text.lower)

/-- An alias of a command is the name of another command beside it: of one of the group with a
lesser name, or of one of the tree that the group leaves alone. -/
def KeysTaken (root : Node σ) (specs : List (CommandSpec σ)) : Prop :=
  ∃ spec ∈ specs, ∃ name ∈ spec.aliases, Text.lower name ≠ Text.lower spec.name ∧
    (spec.beside name ∈ groupPaths specs ∧ Text.lower name < Text.lower spec.name ∨
      (root.commandAt? (spec.parent ++ [name])).isSome ∧ Spares specs (spec.beside name))

namespace Registrar

/-- Once a group is registered, its commands are found at their paths (of several with one path,
the last), and each command that was found by the names of its path is found there still, unless
the group has this path or one above it. -/
structure Keeps (r : Registrar σ) (specs : List (CommandSpec σ)) (next : Registrar σ) : Prop where
  group : ∀ path, path.map Text.lower ∈ groupPaths specs →
    ∃ spec s, lastSpec? specs (path.map Text.lower) = some spec ∧
      spec.stage r.parsers = .ok s ∧
        (next.root.findPath path).bind Node.command? = some s.command
  others : ∀ path command, r.root.commandAt? path = some command →
    Spares specs (path.map Text.lower) →
      (next.root.findPath path).bind Node.command? = some command

end Registrar

/-! ### A group and what is staged of it -/

section Staged

variable {parsers : ParserRegistry} {root : Node σ} {specs : List (CommandSpec σ)}
  {staged : List (Staged σ)}

theorem exists_path_inOrder_iff (hs : StagedAs parsers specs staged) (keys : List String) :
    (∃ s ∈ Staged.inOrder staged, s.path = keys) ↔ keys ∈ groupPaths specs := by
  rw [← hs.exists_path_iff]
  simp only [Staged.mem_inOrder]

theorem spares_inOrder_iff (hs : StagedAs parsers specs staged) (keys : List String) :
    (∀ s ∈ Staged.inOrder staged, ¬ s.path <+: keys) ↔ Spares specs keys := by
  rw [← hs.spares_iff]
  simp only [Staged.mem_inOrder]

/-- A command takes a key over in the order of insertion when its specification has the alias. -/
theorem exists_takesOver_iff (hroot : root.Everywhere Node.FindsOwn)
    (hs : StagedAs parsers specs staged) {spec : CommandSpec σ} {s : Staged σ}
    (hstage : spec.stage parsers = .ok s) :
    (∃ keys, s.TakesOver root.commandUnder? (Staged.inOrder staged) keys) ↔
      ∃ name ∈ spec.aliases, Text.lower name ≠ Text.lower spec.name ∧
        (spec.beside name ∈ groupPaths specs ∧ Text.lower name < Text.lower spec.name ∨
          (root.commandAt? (spec.parent ++ [name])).isSome ∧ Spares specs (spec.beside name)) := by
  obtain ⟨hparent, haliases, hname⟩ := CommandSpec.names_of_stage hstage
  have hbeside : ∀ name, s.beside name = spec.beside name := by
    intro name
    rw [Staged.beside, CommandSpec.beside, hparent]
  have hcommand : ∀ name, root.commandAt? (spec.parent ++ [name]) =
      root.commandUnder? (spec.beside name) :=
    fun name => Node.commandAt?_eq_of_findsOwn hroot _
  simp only [Staged.TakesOver, exists_path_inOrder_iff hs, spares_inOrder_iff hs, haliases, hname,
    hbeside, hcommand]
  constructor
  · intro hexists
    obtain ⟨keys, name, halias, rfl, hrest⟩ := hexists
    exact ⟨name, halias, hrest⟩
  · intro hexists
    obtain ⟨name, halias, hrest⟩ := hexists
    exact ⟨spec.beside name, name, halias, rfl, hrest⟩

theorem keysTaken_iff (hroot : root.Everywhere Node.FindsOwn)
    (hs : StagedAs parsers specs staged) :
    KeysTaken root specs ↔ ∃ keys, ∃ s ∈ Staged.inOrder staged,
      s.TakesOver root.commandUnder? (Staged.inOrder staged) keys := by
  constructor
  · intro hexists
    obtain ⟨spec, hspec, htaken⟩ := hexists
    obtain ⟨s, hmem, hstage⟩ := exists_right_of_forall₂ hs hspec
    obtain ⟨keys, hkeys⟩ := (exists_takesOver_iff hroot hs hstage).mpr htaken
    exact ⟨keys, s, Staged.mem_inOrder.mpr hmem, hkeys⟩
  · intro hexists
    obtain ⟨keys, s, hmem, hkeys⟩ := hexists
    obtain ⟨spec, hspec, hstage⟩ := exists_left_of_forall₂ hs (Staged.mem_inOrder.mp hmem)
    exact ⟨spec, hspec, (exists_takesOver_iff hroot hs hstage).mp ⟨keys, hkeys⟩⟩

/-- A group whose parents are named can be put in down to a depth where no key is taken over. -/
theorem placeable_inOrder (hroot : root.Everywhere Node.FindsOwn)
    (hs : StagedAs parsers specs staged) (hnames : ParentsNamed root specs) {depth : Nat}
    (hspared : ∀ s ∈ Staged.inOrder staged, ∀ keys,
      s.TakesOver root.commandUnder? (Staged.inOrder staged) keys → depth ≤ keys.length) :
    Placeable root (Staged.inOrder staged) depth := by
  refine ⟨Staged.pairwise_rank_inOrder staged, fun s hmem => ?_, hspared⟩
  obtain ⟨spec, hspec, hstage⟩ := exists_left_of_forall₂ hs (Staged.mem_inOrder.mp hmem)
  rw [(CommandSpec.names_of_stage hstage).1, overlay_inOrder, hs.isSome_overlay_iff hroot]
  exact hnames spec hspec

end Staged

/-! ### One group -/

namespace Registrar

variable {r next : Registrar σ} {specs : List (CommandSpec σ)}

/-- A group that takes no key puts its commands over those of the tree, and every command is found
by its name. -/
theorem findsOwn_register (hroot : r.root.Everywhere Node.FindsOwn)
    (hnames : ParentsNamed r.root specs) (h : r.register specs = .ok next)
    (hfree : ¬ KeysTaken r.root specs) :
    next.root.Everywhere Node.FindsOwn ∧ ∃ staged, StagedAs r.parsers specs staged ∧
      ∀ keys, next.root.commandUnder? keys = overlay r.root.commandUnder? staged keys := by
  obtain ⟨staged, root, hs, hall, rfl⟩ := register_eq_ok_iff_stagedAs.mp h
  have hnone : ∀ s ∈ Staged.inOrder staged, ∀ keys,
      ¬ s.TakesOver r.root.commandUnder? (Staged.inOrder staged) keys := fun s hmem keys htaken =>
    hfree ((keysTaken_iff hroot hs).mpr ⟨keys, s, hmem, htaken⟩)
  have hinserted : ∀ depth, Inserted r.root (Staged.inOrder staged) depth (Staged.inOrder staged)
      [] root := by
    intro depth
    refine inserted_foldlM (placeable_inOrder hroot hs hnames fun s hmem keys htaken => ?_) hroot
      hall
    exact absurd htaken (hnone s hmem keys)
  refine ⟨?_, staged, hs, fun keys => ?_⟩
  · refine Node.everywhere_findsOwn_of_keyUnder? (hinserted 0).wellNamed fun keys key hsome => ?_
    have hn := hinserted (keys.length + 1)
    obtain ⟨command, hcommand, _⟩ := Node.exists_commandUnder?_concat hn.wellNamed hsome
    have hthere : (root.commandUnder? (keys ++ [key])).isSome := by
      rw [hcommand]
      rfl
    rcases hn.key keys key (Nat.lt_succ_self _) hthere with hself | ⟨_, hmem, _⟩ | ⟨s, hmem, htaken⟩
    · exact hself
    · cases hmem
    · exact absurd htaken (hnone s hmem _)
  · rw [← overlay_inOrder]
    exact (hinserted keys.length).command keys (Nat.le_refl _)

/-- A group that takes no key keeps everything within reach. -/
theorem keeps_of_not_keysTaken (hroot : r.root.Everywhere Node.FindsOwn)
    (hnames : ParentsNamed r.root specs) (h : r.register specs = .ok next)
    (hfree : ¬ KeysTaken r.root specs) : Keeps r specs next := by
  obtain ⟨hfinds, staged, hs, hcommand⟩ := findsOwn_register hroot hnames h hfree
  constructor
  · intro path hmem
    obtain ⟨s, hlast, hfound⟩ :=
      overlay_of_mem r.root.commandUnder? ((hs.exists_path_iff _).mpr hmem)
    obtain ⟨spec, hspec, hstage⟩ := hs.lastSpec?_eq hlast
    rw [← hcommand] at hfound
    exact ⟨spec, s, hspec, hstage, Node.bind_findPath_of_findsOwn hfinds hfound⟩
  · intro path command hold hspared
    rw [Node.commandAt?_eq_of_findsOwn hroot] at hold
    rw [← hs.spares_iff] at hspared
    rw [← overlay_of_spared r.root.commandUnder? hspared, ← hcommand] at hold
    exact Node.bind_findPath_of_findsOwn hfinds hold

/-- Of the paths with some property, one that is no longer than any other. -/
theorem exists_shortest {P : List String → Prop} (h : ∃ keys, P keys) :
    ∃ keys, P keys ∧ ∀ other, P other → keys.length ≤ other.length := by
  obtain ⟨keys, hkeys, hmin⟩ := WellFounded.has_min (measure List.length).wf {keys | P keys} h
  exact ⟨keys, hkeys, fun other hother => Nat.le_of_not_lt (hmin other hother)⟩

/-- What a group keeps within reach goes by the name at the end of its path. -/
theorem exists_named_of_keeps (hroot : r.root.Everywhere Node.FindsOwn)
    (hkeeps : Keeps r specs next) {parent : List String} {name : String}
    (h : (parent ++ [name]).map Text.lower ∈ groupPaths specs ∨
      (r.root.commandAt? (parent ++ [name])).isSome ∧
        Spares specs ((parent ++ [name]).map Text.lower)) :
    ∃ command, (next.root.findPath (parent ++ [name])).bind Node.command? = some command ∧
      Text.lower command.name = Text.lower name := by
  rcases h with hmem | ⟨hsome, hspared⟩
  · obtain ⟨spec, s, hlast, hstage, hfound⟩ := hkeeps.group (parent ++ [name]) hmem
    refine ⟨s.command, hfound, ?_⟩
    have hpath : s.path = (parent ++ [name]).map Text.lower := by
      rw [Staged.path_of_stage hstage]
      exact of_decide_eq_true (List.mem_filter.mp (List.mem_of_getLast? hlast)).2
    rw [s.path_eq_concat, List.map_append] at hpath
    obtain ⟨_, hsame⟩ := List.append_inj' hpath rfl
    exact (List.cons.inj hsame).1
  · obtain ⟨command, hcommand⟩ := Option.isSome_iff_exists.mp hsome
    refine ⟨command, hkeeps.others _ command hcommand hspared, ?_⟩
    rw [Node.commandAt?_eq_of_findsOwn hroot, List.map_append, List.map_singleton] at hcommand
    have hthere : (r.root.commandUnder? (parent.map Text.lower ++ [Text.lower name])).isSome := by
      rw [hcommand]
      rfl
    obtain ⟨other, hother, hsame⟩ := Node.exists_commandUnder?_concat
      (fun keys m hm => (hroot keys m hm).toWellNamed) (Node.isSome_at?_of_commandUnder? hthere)
    rw [hcommand] at hother
    rw [Option.some.inj hother, hsame]

/-- A group that takes a key gets a command out of reach. Of the keys taken, one with a shortest
path is looked at: the path of the parent leads by its names then, and the key away from the
command. -/
theorem not_keysTaken_of_keeps (hroot : r.root.Everywhere Node.FindsOwn)
    (hnames : ParentsNamed r.root specs) (h : r.register specs = .ok next)
    (hkeeps : Keeps r specs next) : ¬ KeysTaken r.root specs := by
  intro htakes
  obtain ⟨staged, root, hs, hall, rfl⟩ := register_eq_ok_iff_stagedAs.mp h
  obtain ⟨keys, ⟨s, hmem, htaken⟩, hshortest⟩ := exists_shortest ((keysTaken_iff hroot hs).mp htakes)
  have hplaceable : Placeable r.root (Staged.inOrder staged) keys.length :=
    placeable_inOrder hroot hs hnames fun t ht other hother => hshortest other ⟨t, ht, hother⟩
  have hn := inserted_foldlM hplaceable hroot hall
  have hlost := hn.taken s hmem
  obtain ⟨name, halias, rfl, hne, hcases⟩ := htaken
  have hshort : (s.parent.map Text.lower).length < (s.beside name).length := by
    rw [s.beside_eq_concat, List.length_append, List.length_singleton]
    exact Nat.lt_succ_self _
  -- the command that is out of reach would be found by its name
  obtain ⟨command, hfound, hsame⟩ : ∃ command,
      (root.findPath (s.parent ++ [name])).bind Node.command? = some command ∧
        Text.lower command.name = Text.lower name := by
    refine exists_named_of_keeps hroot hkeeps ?_
    rw [Node.commandAt?_eq_of_findsOwn hroot]
    rcases hcases with ⟨hgroup, _⟩ | ⟨hold, hspared⟩
    · exact .inl ((exists_path_inOrder_iff hs _).mp hgroup)
    · exact .inr ⟨hold, (spares_inOrder_iff hs _).mp hspared⟩
  have hparent : (root.at? (s.parent.map Text.lower)).isSome := by
    rcases hplaceable.parents s hmem with hnil | hsome
    · rw [hnil]
      rfl
    · rw [← hn.command _ (Nat.le_of_lt hshort)] at hsome
      exact Node.isSome_at?_of_commandUnder? hsome
  have hled := hplaceable.led hn (fun t ht => ht) hshort (fun t ht => nomatch ht) hparent
  have hkey := Node.keyUnder?_of_findPath hn.wellNamed hled hfound hsame
  refine hlost (s.parent.map Text.lower) (Text.lower name) hshort ?_ hkey
  rw [← s.beside_eq_concat]
  exact ⟨name, halias, rfl, hne, hcases⟩

/-- A group keeps everything within reach exactly when it takes no key. -/
theorem keeps_iff (hroot : r.root.Everywhere Node.FindsOwn) (hnames : ParentsNamed r.root specs)
    (h : r.register specs = .ok next) : Keeps r specs next ↔ ¬ KeysTaken r.root specs :=
  ⟨not_keysTaken_of_keeps hroot hnames h, keeps_of_not_keysTaken hroot hnames h⟩

/-! ### All groups -/

variable {calls : List (Call σ)}

/-- As long as the groups take no keys, every command is found by its name. -/
theorem findsOwn_built
    (hnames : ∀ before specs next, Registers calls before specs next →
      ParentsNamed (built before).root specs)
    (hfree : ∀ before specs next, Registers calls before specs next →
      (built before).root.Everywhere Node.FindsOwn → ¬ KeysTaken (built before).root specs)
    {before : List (Call σ)} (hbefore : before <+: calls) :
    (built before).root.Everywhere Node.FindsOwn := by
  induction before using List.reverseRecOn with
  | nil => exact Node.everywhere_root Node.findsOwn_root
  | append_singleton before call ih =>
    have hroot := ih ((List.prefix_append before [call]).trans hbefore)
    rw [built_concat]
    rcases perform_cases (built before) call with hregister | hsame
    · obtain ⟨after, hcalls⟩ := hbefore
      rw [List.append_assoc, List.singleton_append] at hcalls
      have hregisters : Registers calls before call.specs _ :=
        ⟨call, after, hcalls.symm, rfl, hregister⟩
      have hnot := hfree before call.specs _ hregisters hroot
      exact (findsOwn_register hroot (hnames before call.specs _ hregisters) hregister hnot).1
    · rw [hsame]
      exact hroot

theorem Registers.isPrefix {before : List (Call σ)} (h : Registers calls before specs next) :
    before <+: calls := by
  obtain ⟨call, after, rfl, _⟩ := h
  exact List.prefix_append before (call :: after)

theorem Registers.register_eq {before : List (Call σ)} (h : Registers calls before specs next) :
    (built before).register specs = .ok next := by
  obtain ⟨call, after, _, _, hregister⟩ := h
  exact hregister

/-- Whatever is registered, and in whatever groups, with parent paths written with names: the
commands of each group are within reach then, and those it does not replace stay so, exactly when
no group has the name of another command as an alias beside it, except for one that the group
itself puts in later. -/
theorem keeps_iff_not_keysTaken (calls : List (Call σ))
    (hnames : ∀ before specs next, Registers calls before specs next →
      ParentsNamed (built before).root specs) :
    (∀ before specs next, Registers calls before specs next → Keeps (built before) specs next) ↔
      ∀ before specs next, Registers calls before specs next →
        ¬ KeysTaken (built before).root specs := by
  constructor
  · intro hkeeps before specs next h
    have hroot := findsOwn_built hnames (fun before specs next h hroot =>
      (keeps_iff hroot (hnames before specs next h) h.register_eq).mp (hkeeps before specs next h))
      h.isPrefix
    exact (keeps_iff hroot (hnames before specs next h) h.register_eq).mp (hkeeps before specs next h)
  · intro hfree before specs next h
    have hroot := findsOwn_built hnames (fun before specs next h _ => hfree before specs next h)
      h.isPrefix
    exact (keeps_iff hroot (hnames before specs next h) h.register_eq).mpr (hfree before specs next h)

/-! ### Two groups -/

theorem registers_pair {first second : Call σ} {before : List (Call σ)}
    (h : Registers [first, second] before specs next) :
    before = [] ∧ specs = first.specs ∨ before = [first] ∧ specs = second.specs := by
  obtain ⟨call, after, hcalls, rfl, _⟩ := h
  rcases before with _ | ⟨one, _ | ⟨two, before⟩⟩
  · rw [List.nil_append, List.cons.injEq] at hcalls
    exact .inl ⟨rfl, by rw [hcalls.1]⟩
  · simp only [List.cons_append, List.nil_append, List.cons.injEq] at hcalls
    obtain ⟨rfl, rfl, _⟩ := hcalls
    exact .inr ⟨rfl, rfl⟩
  · have hlen := congrArg List.length hcalls
    simp at hlen

/-- A command, and then a group that puts it in anew behind another one with its name as an
alias. -/
def takenBack : List (Call Unit) :=
  [.commands [plain "b"], .commands [(plain "a").addAliases ["b"], plain "b"]]

/-- The name leads to the new command, since it is put in after the one with the alias. -/
theorem keeps_takenBack :
    (∀ before specs next, Registers takenBack before specs next →
      ParentsNamed (built before).root specs) ∧
    (∀ before specs next, Registers takenBack before specs next →
      Keeps (built before) specs next) ∧
    ((built takenBack).root.findPath ["b"]).bind Node.name? = some "b" := by
  have hboth : ∀ before specs next, Registers takenBack before specs next →
      ParentsNamed (built before).root specs ∧ ¬ KeysTaken (built before).root specs := by
    intro before specs next h
    rcases registers_pair h with ⟨rfl, rfl⟩ | ⟨rfl, rfl⟩
    · unfold ParentsNamed KeysTaken Spares
      decide +kernel
    · unfold ParentsNamed KeysTaken Spares
      decide +kernel
  have hnames : ∀ before specs next, Registers takenBack before specs next →
      ParentsNamed (built before).root specs := fun before specs next h =>
    (hboth before specs next h).1
  have hkeeps := (keeps_iff_not_keysTaken takenBack hnames).mpr fun before specs next h =>
    (hboth before specs next h).2
  exact ⟨hnames, hkeeps, by decide +kernel⟩

/-- A command, and then another one beside it with its name as an alias. -/
def usurped : List (Call Unit) :=
  [.commands [plain "a"], .commands [(plain "b").addAliases ["A"]]]

/-- The alias leads away from the first command, which no path finds any more although the second
group has other paths only. -/
theorem not_keeps_usurped :
    (∀ before specs next, Registers usurped before specs next →
      ParentsNamed (built before).root specs) ∧
    ∃ next, Registers usurped [.commands [plain "a"]] [(plain "b").addAliases ["A"]] next ∧
      ((built [.commands [plain "a"]]).root.findPath ["a"]).bind Node.name? = some "a" ∧
      Spares [(plain "b").addAliases ["A"]] ["a"] ∧
      (next.root.findPath ["a"]).bind Node.name? = some "b" ∧
      ¬ Keeps (built [.commands [plain "a"]]) [(plain "b").addAliases ["A"]] next := by
  refine ⟨?_, ?_⟩
  · intro before specs next h
    rcases registers_pair h with ⟨rfl, rfl⟩ | ⟨rfl, rfl⟩
    · unfold ParentsNamed Spares
      decide +kernel
    · unfold ParentsNamed Spares
      decide +kernel
  have hspares : Spares [(plain "b").addAliases ["A"]] ["a"] := by
    unfold Spares
    decide +kernel
  have hbefore : ((built [.commands [plain "a"]]).root.commandAt? ["a"]).map Command.name =
      some "a" := by
    decide +kernel
  have hafter : ((built [.commands [plain "a"]]).register
      [(plain "b").addAliases ["A"]]).toOption.map
        (fun next => (next.root.findPath ["a"]).bind Node.name?) = some (some "b") := by
    decide +kernel
  cases hregister : (built [.commands [plain "a"]]).register [(plain "b").addAliases ["A"]] with
  | error e =>
    rw [hregister] at hafter
    cases hafter
  | ok next =>
    rw [hregister] at hafter
    have hfound : (next.root.findPath ["a"]).bind Node.name? = some "b" := Option.some.inj hafter
    refine ⟨next, ⟨_, [], rfl, rfl, hregister⟩, by decide +kernel, hspares, hfound, ?_⟩
    intro hkeeps
    obtain ⟨command, hcommand, hname⟩ := Option.map_eq_some_iff.mp hbefore
    have hsame := hkeeps.others ["a"] command hcommand hspares
    obtain ⟨child, hchild, hchild'⟩ := Option.bind_eq_some_iff.mp hsame
    rw [hchild, Option.bind_some, Node.name?, hchild', Option.map_some, hname] at hfound
    exact absurd (Option.some.inj hfound) (by decide)

end Registrar

end Switchboard
