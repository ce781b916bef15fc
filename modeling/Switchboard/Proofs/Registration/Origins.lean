import Switchboard.Proofs.Registration.Groups

/-!
# Where commands come from

Every command of a tree was declared: a call before registered a group with its
specification, and what was staged of that then is the command. Calls that
come later leave this as it is.

* `built`: the registrar that a list of calls leads to
* `Registers`: the moments at which one of the calls registers a group
* `Declares`: a call of the list registered a specification, which made a command
* `exists_declares`: every command of the tree was made so
-/

namespace Switchboard

variable {σ : Type}

namespace Registrar

namespace Call

/-- The specifications of the commands that a call is to register. -/
def specs : Call σ → List (CommandSpec σ)
  | commands specs | group _ (.ok specs) => specs
  | parser _ _ | group _ (.error _) => []

end Call

/-- The registrar that calls lead to. -/
def built (calls : List (Call σ)) : Registrar σ :=
  calls.foldl perform .empty

theorem reachable_built (calls : List (Call σ)) : (built calls).Reachable :=
  ⟨calls, rfl⟩

theorem built_concat (calls : List (Call σ)) (call : Call σ) :
    built (calls ++ [call]) = (built calls).perform call := by
  rw [built, List.foldl_append]
  rfl

/-- A call puts its commands in the tree, or leaves the tree alone. -/
theorem perform_cases (r : Registrar σ) (call : Call σ) :
    r.register call.specs = .ok (r.perform call) ∨ (r.perform call).root = r.root := by
  have hcommands : ∀ specs, r.register specs = .ok (r.after (r.register specs)) ∨
      (r.after (r.register specs)).root = r.root := by
    intro specs
    cases hregister : r.register specs with
    | ok next => exact .inl rfl
    | error e => exact .inr rfl
  cases call with
  | parser type parser => exact .inr rfl
  | commands specs => exact hcommands specs
  | group name owner =>
    cases owner with
    | ok specs => exact hcommands specs
    | error source => exact .inr rfl

/-- After some of the calls the next one registers a group. -/
def Registers (calls before : List (Call σ)) (specs : List (CommandSpec σ))
    (next : Registrar σ) : Prop :=
  ∃ call after, calls = before ++ call :: after ∧ call.specs = specs ∧
    (built before).register specs = .ok next

theorem Registers.append {calls before : List (Call σ)} {specs : List (CommandSpec σ)}
    {next : Registrar σ} (h : Registers calls before specs next) (more : List (Call σ)) :
    Registers (calls ++ more) before specs next := by
  obtain ⟨call, after, rfl, hrest⟩ := h
  refine ⟨call, after ++ more, ?_, hrest⟩
  rw [List.append_assoc, List.cons_append]

/-- A call of the list registered a group with the specification, and the command is what was
staged of it with the parsers known then. -/
def Declares (calls : List (Call σ)) (spec : CommandSpec σ) (command : Command σ) : Prop :=
  ∃ before specs next, Registers calls before specs next ∧ spec ∈ specs ∧
    ∃ s, spec.stage (built before).parsers = .ok s ∧ s.command = command

/-- What is declared was in the group of one of the calls. -/
theorem Declares.exists_call {calls : List (Call σ)} {spec : CommandSpec σ} {command : Command σ}
    (h : Declares calls spec command) : ∃ call ∈ calls, spec ∈ call.specs := by
  obtain ⟨before, specs, next, ⟨call, after, rfl, rfl, _⟩, hspec, _⟩ := h
  exact ⟨call, List.mem_append_right _ List.mem_cons_self, hspec⟩

theorem Declares.append {calls : List (Call σ)} {spec : CommandSpec σ} {command : Command σ}
    (h : Declares calls spec command) (more : List (Call σ)) :
    Declares (calls ++ more) spec command := by
  obtain ⟨before, specs, next, hregisters, hrest⟩ := h
  exact ⟨before, specs, next, hregisters.append more, hrest⟩

/-- What holds of all commands of a tree and of those put in holds of all commands then. -/
theorem everywhere_command_attachAll {P : Command σ → Prop} {root changed : Node σ}
    {staged : List (Staged σ)} (h : attachAll root staged = .ok changed)
    (hstaged : ∀ s ∈ staged, P s.command)
    (hroot : root.Everywhere fun n => ∀ command, n.command? = some command → P command) :
    changed.Everywhere fun n => ∀ command, n.command? = some command → P command := by
  refine everywhere_attachAll ?_ ?_ ?_ h hroot
  · intro s hs command hcommand
    obtain rfl := Option.some.inj hcommand
    exact hstaged s hs
  · intro s _ n hn command hcommand
    rw [Node.command?_addChild] at hcommand
    exact hn command hcommand
  · intro n key child below hn _ _ command hcommand
    exact hn command hcommand

/-- Every command of the tree was declared by a call. -/
theorem exists_declares (calls : List (Call σ)) :
    (built calls).root.Everywhere fun n =>
      ∀ command, n.command? = some command → ∃ spec, Declares calls spec command := by
  induction calls using List.reverseRecOn with
  | nil =>
    apply Node.everywhere_root
    intro command hcommand
    cases hcommand
  | append_singleton calls call ih =>
    have hbefore : (built calls).root.Everywhere fun n =>
        ∀ command, n.command? = some command → ∃ spec, Declares (calls ++ [call]) spec command := by
      intro keys n hn command hcommand
      obtain ⟨spec, hspec⟩ := ih keys n hn command hcommand
      exact ⟨spec, hspec.append [call]⟩
    rw [built_concat]
    rcases perform_cases (built calls) call with hregister | hsame
    · obtain ⟨staged, root, hs, hall, hnext⟩ := register_eq_ok_iff_stagedAs.mp hregister
      rw [hnext]
      refine everywhere_command_attachAll hall (fun s hmem => ?_) hbefore
      obtain ⟨spec, hspec, hstage⟩ := exists_left_of_forall₂ hs hmem
      exact ⟨spec, calls, call.specs, _, ⟨call, [], rfl, rfl, hregister⟩, hspec, s, hstage, rfl⟩
    · rw [hsame]
      exact hbefore

end Registrar

end Switchboard
