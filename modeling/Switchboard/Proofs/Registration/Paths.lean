import Mathlib.Data.List.Induction
import Switchboard.Proofs.Registration.Named

/-!
# A group over a tree

The commands of a group are put in the tree by depth, so no command of a group
removes another of it that has a different path, and of those with one path
the last one declared stays. What a group does to a tree is therefore said
without the order of insertion: at the paths of the group its commands are
found, below them nothing that was there before, and elsewhere all is as it
was.

* `overlay`: what is found at a path once a group is put in
* `commandUnder?_foldlM_attach`: the effect of a group that is put in by depth
* `exists_foldlM_attach_iff`: when every command of it finds its parent
-/

namespace Switchboard

variable {σ : Type}

/-! ### The order of insertion -/

namespace Text

theorem lower_append_space (s t : String) : lower (s ++ " " ++ t) = lower s ++ " " ++ lower t := by
  apply String.toList_inj.mp
  simp only [lower, String.toList_append, String.toList_ofList]
  rw [show " ".toList = [' '] from rfl, List.append_assoc, List.append_assoc]
  exact lowerFrom_append_space false s.toList t.toList

/-- A joined path is lower-cased segment by segment. -/
theorem lower_intercalate (names : List String) :
    lower (" ".intercalate names) = " ".intercalate (names.map lower) := by
  induction names with
  | nil => rfl
  | cons name names ih =>
    cases names with
    | nil => simp
    | cons next names =>
      rw [String.intercalate_cons_cons, lower_append_space, ih]
      simp only [List.map_cons, String.intercalate_cons_cons]

end Text

namespace InsertionRank

theorem depth_le_of_le {a b : InsertionRank} (h : a.le b = true) : a.depth ≤ b.depth := by
  by_contra hlt
  have hgt : compare a.depth b.depth = .gt := Nat.compare_eq_gt.mpr (Nat.lt_of_not_le hlt)
  rw [le, compareRanks, compareLex, compareOn, hgt] at h
  cases h

/-- Commands below one parent go by their names. -/
theorem name_lt_of_le {a b : InsertionRank} (h : a.le b = true) (hdepth : a.depth = b.depth)
    (hpath : a.path = b.path) (hne : a.name ≠ b.name) : a.name < b.name := by
  by_contra hlt
  have hgt : compare a.name b.name = .gt := by
    show compareOfLessAndEq a.name b.name = .gt
    rw [compareOfLessAndEq, if_neg hlt, if_neg hne]
  have hdepth' : compare a.depth b.depth = .eq := Nat.compare_eq_eq.mpr hdepth
  have hpath' : compare a.path b.path = .eq := Std.LawfulEqCmp.compare_eq_iff_eq.mpr hpath
  rw [le, compareRanks, compareLex, compareLex, compareOn, compareOn, compareOn, hdepth', hpath',
    hgt] at h
  cases h

end InsertionRank

namespace Staged

theorem length_path (s : Staged σ) : s.path.length = s.parent.length + 1 := by
  simp [path]

theorem parent_length_of_path {s t : Staged σ} (h : s.path = t.path) :
    s.parent.length = t.parent.length := by
  have hlen := congrArg List.length h
  rw [length_path, length_path] at hlen
  omega

/-- Below one parent, in any spelling of its path, ranks differ by the names. -/
theorem rank_of_parent {s t : Staged σ} (h : s.parent.map Text.lower = t.parent.map Text.lower) :
    s.rank = { t.rank with name := Text.lower s.command.name } := by
  have hlen : s.parent.length = t.parent.length := by
    simpa only [List.length_map] using congrArg List.length h
  rw [rank, rank, Text.lower_intercalate, Text.lower_intercalate, h, hlen]

/-- Commands with one path have one rank, so they keep their order. -/
theorem rank_eq_of_path_eq {s t : Staged σ} (h : s.path = t.path) : s.rank = t.rank := by
  have hdepth := parent_length_of_path h
  simp only [path, List.map_append, List.map_cons, List.map_nil] at h
  obtain ⟨hparent, hname⟩ := List.append_inj h (by simp [hdepth])
  rw [rank_of_parent hparent, (List.cons.inj hname).1]
  rfl

/-- The commands of a group in their order of insertion. -/
def inOrder (group : List (Staged σ)) : List (Staged σ) :=
  sortOn InsertionRank.le rank group

theorem mem_inOrder {group : List (Staged σ)} {s : Staged σ} : s ∈ inOrder group ↔ s ∈ group :=
  mem_sortOn InsertionRank.le Staged.rank

/-- Commands come by their rank. -/
theorem pairwise_rank_inOrder (group : List (Staged σ)) :
    (inOrder group).Pairwise fun s t => s.rank.le t.rank = true := by
  rw [inOrder, sortOn_eq]
  exact pairwise_sortBy (fun a b c : Staged σ => InsertionRank.le_trans a.rank b.rank c.rank)
    (fun a b => InsertionRank.le_total a.rank b.rank) group

/-- Parents come before their children. -/
theorem pairwise_inOrder (group : List (Staged σ)) :
    (inOrder group).Pairwise fun s t => s.parent.length ≤ t.parent.length :=
  (pairwise_rank_inOrder group).imp fun h => InsertionRank.depth_le_of_le h

/-- The commands with one path stay in the order of declaration. -/
theorem filter_inOrder (group : List (Staged σ)) (keys : List String) :
    (inOrder group).filter (·.path = keys) = group.filter (·.path = keys) := by
  rw [inOrder, sortOn_eq]
  refine filter_sortBy _ (fun s t hs ht => ?_) group
  have hpath : s.path = t.path := by
    rw [of_decide_eq_true hs, of_decide_eq_true ht]
  rw [rank_eq_of_path_eq hpath]
  exact InsertionRank.le_self t.rank

end Staged

/-- What the new nodes have and every parent keeps holds everywhere once a group was put in. -/
theorem Registrar.everywhere_attachAll {P : Node σ → Prop} {root changed : Node σ}
    {staged : List (Staged σ)} (hleaf : ∀ s ∈ staged, P (.leaf s.command))
    (hadd : ∀ s ∈ staged, ∀ n : Node σ, P n → P (n.addChild s.aliases (.leaf s.command)))
    (hreplace : ∀ (n : Node σ) key child below, P n → n.children.find? key = some child →
      below.command? = child.command? → P (n.replaceChild key below))
    (h : attachAll root staged = .ok changed) (hroot : root.Everywhere P) :
    changed.Everywhere P := by
  refine foldlM_invariant_of_mem (fun s hs before after hbefore hattach => ?_) hroot h
  have hs : s ∈ staged := Staged.mem_inOrder.mp hs
  exact Staged.everywhere_attach (hleaf s hs) (hadd s hs) hreplace hattach hbefore

/-! ### A group over a tree -/

/-- The command of a group with a path; of several, the last declared. -/
def lastAt (group : List (Staged σ)) (keys : List String) : Option (Staged σ) :=
  (group.filter (·.path = keys)).getLast?

/-- What is found at a path when a group is put over what was there. -/
def overlay (old : List String → Option (Command σ)) (group : List (Staged σ))
    (keys : List String) : Option (Command σ) :=
  match lastAt group keys with
  | some s => some s.command
  | none => if ∃ s ∈ group, s.path <+: keys then none else old keys

theorem lastAt_concat (group : List (Staged σ)) (s : Staged σ) (keys : List String) :
    lastAt (group ++ [s]) keys = if s.path = keys then some s else lastAt group keys :=
  lastWith_concat (fun t : Staged σ => t.path = keys) group s

theorem lastAt_eq_none_iff {group : List (Staged σ)} {keys : List String} :
    lastAt group keys = none ↔ ∀ s ∈ group, s.path ≠ keys :=
  lastWith_eq_none_iff fun s : Staged σ => s.path = keys

theorem overlay_nil (old : List String → Option (Command σ)) (keys : List String) :
    overlay old [] keys = old keys := by
  simp [overlay, lastAt]

/-- Below the path of a command there is no path of a command that is not deeper. -/
theorem lastAt_eq_none_of_depth {group : List (Staged σ)} {s : Staged σ} {keys : List String}
    (hdepth : ∀ t ∈ group, t.parent.length ≤ s.parent.length) (habove : s.path <+: keys)
    (hself : s.path ≠ keys) : lastAt group keys = none := by
  have hlonger : s.path.length < keys.length := by
    refine Nat.lt_of_le_of_ne habove.length_le fun hlen => hself ?_
    exact habove.eq_of_length hlen
  refine lastAt_eq_none_iff.mpr fun t ht hpath => ?_
  have hle := hdepth t ht
  have hlen := congrArg List.length hpath
  rw [Staged.length_path] at hlen hlonger
  omega

/-- A command that is put in last, at least as deep as the others, comes over what they left. -/
theorem overlay_concat (old : List String → Option (Command σ)) {group : List (Staged σ)}
    {s : Staged σ} (hdepth : ∀ t ∈ group, t.parent.length ≤ s.parent.length)
    (keys : List String) :
    overlay old (group ++ [s]) keys =
      if keys = s.path then some s.command
      else if s.path <+: keys then none
      else overlay old group keys := by
  rw [overlay, lastAt_concat]
  by_cases hself : s.path = keys
  · simp [hself]
  · rw [if_neg hself, if_neg (Ne.symm hself)]
    by_cases habove : s.path <+: keys
    · -- what lies below it is too deep to be a path of the others
      have hnone := lastAt_eq_none_of_depth hdepth habove hself
      have hexists : ∃ t ∈ group ++ [s], t.path <+: keys :=
        ⟨s, List.mem_append_right _ (List.mem_singleton_self s), habove⟩
      rw [hnone, if_pos habove]
      simp only
      rw [if_pos hexists]
    · have hiff : (∃ t ∈ group ++ [s], t.path <+: keys) ↔ ∃ t ∈ group, t.path <+: keys := by
        simp only [List.mem_append, List.mem_singleton]
        constructor
        · intro hexists
          obtain ⟨t, ht | rfl, hp⟩ := hexists
          · exact ⟨t, ht, hp⟩
          · exact absurd hp habove
        · intro hexists
          obtain ⟨t, ht, hp⟩ := hexists
          exact ⟨t, .inl ht, hp⟩
      rw [if_neg habove, overlay]
      simp only [hiff]

/-- Commands with longer paths do not matter. -/
theorem overlay_append_of_short (old : List String → Option (Command σ))
    {group more : List (Staged σ)} {keys : List String}
    (h : ∀ s ∈ more, keys.length < s.path.length) :
    overlay old (group ++ more) keys = overlay old group keys := by
  have hnone : ∀ s ∈ more, ¬ s.path <+: keys := fun s hs hp =>
    absurd hp.length_le (Nat.not_le.mpr (h s hs))
  have hlast : lastAt (group ++ more) keys = lastAt group keys := by
    have hfilter : more.filter (·.path = keys) = [] := by
      rw [List.filter_eq_nil_iff]
      intro s hs hpath
      exact hnone s hs (of_decide_eq_true hpath ▸ List.prefix_rfl)
    rw [lastAt, List.filter_append, hfilter, List.append_nil, lastAt]
  have hiff : (∃ s ∈ group ++ more, s.path <+: keys) ↔ ∃ s ∈ group, s.path <+: keys := by
    constructor
    · intro hexists
      obtain ⟨s, hs, hp⟩ := hexists
      rcases List.mem_append.mp hs with hs | hs
      · exact ⟨s, hs, hp⟩
      · exact absurd hp (hnone s hs)
    · intro hexists
      obtain ⟨s, hs, hp⟩ := hexists
      exact ⟨s, List.mem_append_left _ hs, hp⟩
  rw [overlay, overlay, hlast]
  simp only [hiff]

/-- The last command is too deep to matter to any parent. -/
theorem overlay_concat_parent (old : List String → Option (Command σ)) {group : List (Staged σ)}
    {s t : Staged σ} (ht : t.parent.length ≤ s.parent.length) :
    overlay old (group ++ [s]) (t.parent.map Text.lower) =
      overlay old group (t.parent.map Text.lower) := by
  refine overlay_append_of_short old fun last hlast => ?_
  obtain rfl := List.mem_singleton.mp hlast
  rw [Staged.length_path, List.length_map]
  omega

theorem overlay_inOrder (old : List String → Option (Command σ)) (group : List (Staged σ))
    (keys : List String) : overlay old (Staged.inOrder group) keys = overlay old group keys := by
  rw [overlay, overlay, lastAt, lastAt, Staged.filter_inOrder]
  simp only [Staged.mem_inOrder]

theorem overlay_of_mem (old : List String → Option (Command σ)) {group : List (Staged σ)}
    {keys : List String} (h : ∃ s ∈ group, s.path = keys) :
    ∃ s, lastAt group keys = some s ∧ overlay old group keys = some s.command := by
  cases hl : lastAt group keys with
  | some s =>
    refine ⟨s, rfl, ?_⟩
    rw [overlay, hl]
  | none =>
    obtain ⟨s, hs, hpath⟩ := h
    exact absurd hpath (lastAt_eq_none_iff.mp hl s hs)

theorem overlay_of_spared (old : List String → Option (Command σ)) {group : List (Staged σ)}
    {keys : List String} (h : ∀ s ∈ group, ¬ s.path <+: keys) :
    overlay old group keys = old keys := by
  have hne : ∀ s ∈ group, s.path ≠ keys := fun s hs hpath => h s hs (hpath ▸ List.prefix_rfl)
  have hnot : ¬ ∃ s ∈ group, s.path <+: keys := fun ⟨s, hs, hp⟩ => h s hs hp
  rw [overlay, lastAt_eq_none_iff.mpr hne]
  simp only [hnot, if_false]

theorem old_of_overlay {old : List String → Option (Command σ)} {group : List (Staged σ)}
    {keys : List String} {command : Command σ} (hne : ∀ s ∈ group, s.path ≠ keys)
    (h : overlay old group keys = some command) : old keys = some command := by
  rw [overlay, lastAt_eq_none_iff.mpr hne] at h
  simp only at h
  split at h
  next => cases h
  next => exact h

/-- Something is found at the paths of the group, and where something was that the group leaves
alone. -/
theorem isSome_overlay_iff {old : List String → Option (Command σ)} {group : List (Staged σ)}
    {keys : List String} :
    (overlay old group keys).isSome ↔
      (∃ s ∈ group, s.path = keys) ∨ (old keys).isSome ∧ ∀ s ∈ group, ¬ s.path <+: keys := by
  rw [overlay]
  cases hl : lastAt group keys with
  | some s =>
    have hself : ∃ s ∈ group, s.path = keys := ⟨s, of_lastWith hl⟩
    simp [hself]
  | none =>
    have hne := lastAt_eq_none_iff.mp hl
    have hnone : ¬ ∃ s ∈ group, s.path = keys := fun ⟨s, hs, hpath⟩ => hne s hs hpath
    by_cases habove : ∃ s ∈ group, s.path <+: keys
    · simp only [if_pos habove, Option.isSome_none, Bool.false_eq_true, hnone, false_or, false_iff]
      intro hboth
      obtain ⟨_, hspared⟩ := hboth
      obtain ⟨s, hs, hp⟩ := habove
      exact hspared s hs hp
    · simp only [if_neg habove, hnone, false_or]
      have hspared : ∀ s ∈ group, ¬ s.path <+: keys := fun s hs hp => habove ⟨s, hs, hp⟩
      exact ⟨fun h => ⟨h, hspared⟩, fun h => h.1⟩

/-! ### Putting a group in -/

section Group

variable {IsName : String → Prop} {root : Node σ}

/-- Once a group is put in by depth, the tree is orderly still, and at each path is found what the
group and the tree as it was say. -/
theorem commandUnder?_foldlM_attach {group : List (Staged σ)} {changed : Node σ}
    (hroot : root.Everywhere (Node.Orderly IsName)) (hclear : ∀ s ∈ group, s.Clear IsName)
    (hdepth : group.Pairwise fun s t => s.parent.length ≤ t.parent.length)
    (h : group.foldlM Staged.attach root = .ok changed) :
    changed.Everywhere (Node.Orderly IsName) ∧
      ∀ keys, changed.commandUnder? keys = overlay root.commandUnder? group keys := by
  induction group using List.reverseRecOn generalizing changed with
  | nil =>
    obtain rfl := Except.ok.inj h
    exact ⟨hroot, fun keys => (overlay_nil _ keys).symm⟩
  | append_singleton group s ih =>
    obtain ⟨mid, hmid, hs⟩ := foldlM_concat_eq_ok_iff.mp h
    rw [List.pairwise_append] at hdepth
    obtain ⟨hmidroot, hfound⟩ :=
      ih (fun t ht => hclear t (List.mem_append_left _ ht)) hdepth.1 hmid
    have hsclear : s.Clear IsName := hclear s (List.mem_append_right _ (List.mem_singleton_self s))
    refine ⟨Staged.everywhere_orderly_attach hsclear hs hmidroot, fun keys => ?_⟩
    rw [Staged.commandUnder?_attach hsclear hs hmidroot, hfound,
      overlay_concat _ fun t ht => hdepth.2.2 t ht s (List.mem_singleton_self s)]

/-- A group finds all its parents exactly when each is at the top, in the group, or in the tree
where the group leaves it alone. -/
theorem exists_foldlM_attach_iff {group : List (Staged σ)}
    (hroot : root.Everywhere (Node.Orderly IsName)) (hclear : ∀ s ∈ group, s.Clear IsName)
    (hdepth : group.Pairwise fun s t => s.parent.length ≤ t.parent.length) :
    (∃ changed, group.foldlM Staged.attach root = .ok changed) ↔
      ∀ s ∈ group, s.parent = [] ∨
        (overlay root.commandUnder? group (s.parent.map Text.lower)).isSome := by
  induction group using List.reverseRecOn with
  | nil => exact ⟨fun _ _ hs => (nomatch hs), fun _ => ⟨root, rfl⟩⟩
  | append_singleton group s ih =>
    have hclear' : ∀ t ∈ group, t.Clear IsName := fun t ht => hclear t (List.mem_append_left _ ht)
    have hsclear : s.Clear IsName := hclear s (List.mem_append_right _ (List.mem_singleton_self s))
    rw [List.pairwise_append] at hdepth
    have hdeep : ∀ t ∈ group, t.parent.length ≤ s.parent.length :=
      fun t ht => hdepth.2.2 t ht s (List.mem_singleton_self s)
    have hsame : ∀ t : Staged σ, t.parent.length ≤ s.parent.length →
        overlay root.commandUnder? (group ++ [s]) (t.parent.map Text.lower) =
          overlay root.commandUnder? group (t.parent.map Text.lower) :=
      fun t ht => overlay_concat_parent root.commandUnder? ht
    constructor
    · intro hexists t ht
      obtain ⟨changed, h⟩ := hexists
      obtain ⟨mid, hmid, hs⟩ := foldlM_concat_eq_ok_iff.mp h
      obtain ⟨hmidroot, hfound⟩ := commandUnder?_foldlM_attach hroot hclear' hdepth.1 hmid
      rcases List.mem_append.mp ht with ht | ht
      · rw [hsame t (hdeep t ht)]
        exact (ih hclear' hdepth.1).mp ⟨mid, hmid⟩ t ht
      · obtain rfl := List.mem_singleton.mp ht
        rw [hsame t (Nat.le_refl _), ← hfound]
        exact (Staged.exists_attach_iff hsclear hmidroot).mp ⟨changed, hs⟩
    · intro hall
      have hbefore : ∀ t ∈ group, t.parent = [] ∨
          (overlay root.commandUnder? group (t.parent.map Text.lower)).isSome := by
        intro t ht
        rw [← hsame t (hdeep t ht)]
        exact hall t (List.mem_append_left _ ht)
      obtain ⟨mid, hmid⟩ := (ih hclear' hdepth.1).mpr hbefore
      obtain ⟨hmidroot, hfound⟩ := commandUnder?_foldlM_attach hroot hclear' hdepth.1 hmid
      have hparent := hall s (List.mem_append_right _ (List.mem_singleton_self s))
      rw [hsame s (Nat.le_refl _), ← hfound] at hparent
      obtain ⟨changed, hs⟩ := (Staged.exists_attach_iff hsclear hmidroot).mpr hparent
      exact ⟨changed, foldlM_concat_eq_ok_iff.mpr ⟨mid, hmid, hs⟩⟩

/-- The effect of a group, whatever the order in which it is declared. -/
theorem commandUnder?_attachAll {group : List (Staged σ)} {changed : Node σ}
    (hroot : root.Everywhere (Node.Orderly IsName)) (hclear : ∀ s ∈ group, s.Clear IsName)
    (h : Registrar.attachAll root group = .ok changed) :
    changed.Everywhere (Node.Orderly IsName) ∧
      ∀ keys, changed.commandUnder? keys = overlay root.commandUnder? group keys := by
  have hclear' : ∀ s ∈ Staged.inOrder group, s.Clear IsName :=
    fun s hs => hclear s (Staged.mem_inOrder.mp hs)
  obtain ⟨hchanged, hfound⟩ :=
    commandUnder?_foldlM_attach hroot hclear' (Staged.pairwise_inOrder group) h
  refine ⟨hchanged, fun keys => ?_⟩
  rw [hfound, overlay_inOrder]

/-- When a group finds all its parents. -/
theorem exists_attachAll_iff {group : List (Staged σ)}
    (hroot : root.Everywhere (Node.Orderly IsName)) (hclear : ∀ s ∈ group, s.Clear IsName) :
    (∃ changed, Registrar.attachAll root group = .ok changed) ↔
      ∀ s ∈ group, s.parent = [] ∨
        (overlay root.commandUnder? group (s.parent.map Text.lower)).isSome := by
  have hclear' : ∀ s ∈ Staged.inOrder group, s.Clear IsName :=
    fun s hs => hclear s (Staged.mem_inOrder.mp hs)
  have hiff := exists_foldlM_attach_iff hroot hclear' (Staged.pairwise_inOrder group)
  simp only [overlay_inOrder, Staged.mem_inOrder] at hiff
  exact hiff

end Group

end Switchboard
