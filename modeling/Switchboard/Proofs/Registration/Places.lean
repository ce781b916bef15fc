import Switchboard.Proofs.Registration.Failure

/-!
# Places of commands

A command is put where its parent path leads, under its lower-cased name.
Parent paths may be written with aliases, so several specifications of a group
can have one place although their paths differ. Those put in later are at least
as deep. They change no way that leads higher up, and remove nothing there; a
command is still in its place at the end, unless one put in later has the same
place.

* `Staged.place?`, `CommandSpec.place?`: where a command goes in a tree
* `commandUnder?_attach_place`: one command more
* `place?_foldlM_attach`: the commands that are put in later leave a place where it is
* `commandUnder?_foldlM_of_place`: a command stays in its place
* `register_places`: what is in the place of a specification once its group is registered
-/

namespace Switchboard

variable {σ : Type}

/-- The keys under which a command is kept: where its parent path leads, and its name. -/
def Staged.place? (s : Staged σ) (root : Node σ) : Option (List String) :=
  (root.route? s.parent).map (· ++ [Text.lower s.command.name])

/-- The place of the command that a specification declares. -/
def CommandSpec.place? (spec : CommandSpec σ) (root : Node σ) : Option (List String) :=
  (root.route? spec.parent).map (· ++ [Text.lower spec.name])

namespace Staged

theorem place?_of_stage {parsers : ParserRegistry} {spec : CommandSpec σ} {s : Staged σ}
    (h : spec.stage parsers = .ok s) (root : Node σ) : s.place? root = spec.place? root := by
  obtain ⟨hparent, _, hname⟩ := CommandSpec.names_of_stage h
  rw [place?, CommandSpec.place?, hparent, hname]

variable {s : Staged σ} {n changed : Node σ} {place : List String}

theorem length_of_place? (h : s.place? n = some place) :
    place.length = s.parent.length + 1 := by
  obtain ⟨route, hroute, rfl⟩ := Option.map_eq_some_iff.mp h
  rw [List.length_append, Node.length_of_route? hroute, List.length_singleton]

/-! ### One command -/

/-- A command goes to its place, which is the same before and after. -/
theorem exists_place_of_attach (h : attach n s = .ok changed) :
    ∃ place, s.place? n = some place ∧ s.place? changed = some place ∧
      ∀ keys, changed.commandUnder? keys =
        if keys = place then some s.command
        else if place <+: keys then none
        else n.commandUnder? keys := by
  have hchanged := attach_eq_ok_iff.mp h
  obtain ⟨route, hroute⟩ := Node.exists_route_of_updateAt? hchanged
  have hafter := Node.route?_updateAt?_of_short hchanged (Nat.le_refl s.parent.length)
  refine ⟨route ++ [Text.lower s.command.name], ?_, ?_, ?_⟩
  · rw [place?, hroute, Option.map_some]
  · rw [place?, hafter, hroute, Option.map_some]
  · exact Node.commandUnder?_updateAt? hroute hchanged

/-- A command that is no deeper than another stays when the other goes to another place. -/
theorem commandUnder?_attach_of_ne (h : attach n s = .ok changed)
    (hdeep : place.length ≤ s.parent.length + 1) (hne : s.place? changed ≠ some place) :
    changed.commandUnder? place = n.commandUnder? place := by
  obtain ⟨other, hother, hafter, hfound⟩ := exists_place_of_attach h
  have hself : place ≠ other := by
    rintro rfl
    exact hne hafter
  have habove : ¬ other <+: place := by
    intro hp
    have hlen := length_of_place? hother
    exact hself (hp.eq_of_length_le (by omega)).symm
  rw [hfound, if_neg hself, if_neg habove]

/-! ### Those that come later -/

/-- Where a path leads is not changed by commands that are at least as deep. -/
theorem route?_foldlM_attach {group : List (Staged σ)} {path : List String}
    (hdeep : ∀ t ∈ group, path.length ≤ t.parent.length)
    (h : group.foldlM attach n = .ok changed) : changed.route? path = n.route? path := by
  refine foldlM_invariant_of_mem (I := fun m => m.route? path = n.route? path)
    (fun t ht before after hbefore hattach => ?_) rfl h
  rw [Node.route?_updateAt?_of_short (attach_eq_ok_iff.mp hattach) (hdeep t ht), hbefore]

/-- The commands that come later leave the place of a command where it is. -/
theorem place?_foldlM_attach {group : List (Staged σ)}
    (hdeep : ∀ t ∈ group, s.parent.length ≤ t.parent.length)
    (h : group.foldlM attach n = .ok changed) : s.place? changed = s.place? n := by
  rw [place?, place?, route?_foldlM_attach hdeep h]

/-- A command stays in its place while others come that are at least as deep and have other
places. -/
theorem commandUnder?_foldlM_of_place {group : List (Staged σ)}
    (hdepth : group.Pairwise fun s t => s.parent.length ≤ t.parent.length)
    (hdeep : ∀ t ∈ group, place.length ≤ t.parent.length + 1)
    (h : group.foldlM attach n = .ok changed)
    (hne : ∀ t ∈ group, t.place? changed ≠ some place) :
    changed.commandUnder? place = n.commandUnder? place := by
  induction group generalizing n with
  | nil =>
    obtain rfl := Except.ok.inj h
    rfl
  | cons t group ih =>
    obtain ⟨mid, ht, hgroup⟩ := foldlM_cons_eq_ok_iff.mp h
    obtain ⟨hfirst, hrest⟩ := List.pairwise_cons.mp hdepth
    have hplace : t.place? mid ≠ some place := by
      rw [← place?_foldlM_attach hfirst hgroup]
      exact hne t List.mem_cons_self
    rw [ih hrest (fun t ht => hdeep t (List.mem_cons_of_mem _ ht)) hgroup
        fun t ht => hne t (List.mem_cons_of_mem _ ht),
      commandUnder?_attach_of_ne ht (hdeep t List.mem_cons_self) hplace]

/-- What was put in is there at the end, unless one that came later has its place. -/
theorem exists_place_of_foldlM {before after : List (Staged σ)}
    (hdepth : (before ++ s :: after).Pairwise fun s t => s.parent.length ≤ t.parent.length)
    (h : (before ++ s :: after).foldlM attach n = .ok changed)
    (hlast : ∀ t ∈ after, t.place? changed ≠ s.place? changed) :
    ∃ place, s.place? changed = some place ∧ changed.commandUnder? place = some s.command := by
  rw [List.foldlM_append] at h
  obtain ⟨tree, _, hrest⟩ := bind_eq_ok_iff.mp h
  obtain ⟨mid, hs, hafter⟩ := foldlM_cons_eq_ok_iff.mp hrest
  obtain ⟨hdeep, hdepth⟩ := List.pairwise_cons.mp (List.pairwise_append.mp hdepth).2.1
  obtain ⟨place, hbefore, hplace, hfound⟩ := exists_place_of_attach hs
  rw [← place?_foldlM_attach hdeep hafter] at hplace
  refine ⟨place, hplace, ?_⟩
  have hlen := length_of_place? hbefore
  rw [commandUnder?_foldlM_of_place hdepth (fun t ht => ?_) hafter, hfound, if_pos rfl]
  · intro t ht
    rw [← hplace]
    exact hlast t ht
  · have := hdeep t ht
    omega

end Staged

/-! ### A group -/

/-- What is staged of a specification is in its place once the group is registered, unless the
group has another one for this place that is put in later. -/
theorem Registrar.register_places {r next : Registrar σ} {specs before after : List (CommandSpec σ)}
    {spec : CommandSpec σ} (h : r.register specs = .ok next)
    (horder : CommandSpec.inOrder specs = before ++ spec :: after)
    (hlast : ∀ other ∈ after, other.place? next.root ≠ spec.place? next.root) :
    ∃ s place, spec.stage r.parsers = .ok s ∧ spec.place? next.root = some place ∧
      next.root.commandUnder? place = some s.command := by
  obtain ⟨staged, root, hs, hall, rfl⟩ := register_eq_ok_iff_stagedAs.mp h
  have hstaged := hs.inOrder
  rw [horder] at hstaged
  obtain ⟨before', s, after', hsplit, _, hstage, hafter⟩ := split_right_of_forall₂ hstaged
  have hdepth := Staged.pairwise_inOrder staged
  rw [hsplit] at hdepth
  change (Staged.inOrder staged).foldlM Staged.attach r.root = .ok root at hall
  rw [hsplit] at hall
  obtain ⟨place, hplace, hfound⟩ := Staged.exists_place_of_foldlM hdepth hall fun t ht => by
    obtain ⟨other, hother, ht⟩ := exists_left_of_forall₂ hafter ht
    rw [Staged.place?_of_stage ht, Staged.place?_of_stage hstage]
    exact hlast other hother
  rw [Staged.place?_of_stage hstage] at hplace
  exact ⟨s, place, hstage, hplace, hfound⟩

end Switchboard
