import Switchboard.Proofs.Registration.Paths

/-!
# Lookup keys that a group takes over

A name is also a lookup key, and an alias of another command beside it can take
this key over: the command is kept in the tree then, and its name leads away
from it. In a group this happens to a command of the tree that the group leaves
alone, and to one of the group itself that was put in before, since the name
takes the key back when it comes later.

* `TakesOver`: an alias takes the key of another command's path
* `Claims`: the keys that a command takes where it is put in
* `Inserted`: what holds of commands and keys while a group is put in, up to some depth
* `inserted_of_short`, `inserted_of_long`: one command more, within this depth or beyond it
* `inserted_foldlM`: a whole group
-/

namespace Switchboard

variable {σ : Type}

namespace Staged

/-- The lower-cased path of a command with some name below the same parent. -/
def beside (s : Staged σ) (name : String) : List String :=
  (s.parent ++ [name]).map Text.lower

/-- An alias of a command takes over the last key of a path that is not its own: that of a command
of the group that is put in before, or of one of the tree that the group leaves alone. -/
def TakesOver (old : List String → Option (Command σ)) (group : List (Staged σ)) (s : Staged σ)
    (keys : List String) : Prop :=
  ∃ name ∈ s.aliases, keys = s.beside name ∧ Text.lower name ≠ Text.lower s.command.name ∧
    ((∃ t ∈ group, t.path = keys) ∧ Text.lower name < Text.lower s.command.name ∨
      (old keys).isSome ∧ ∀ t ∈ group, ¬ t.path <+: keys)

theorem path_eq_concat (s : Staged σ) :
    s.path = s.parent.map Text.lower ++ [Text.lower s.command.name] := by
  simp [path]

theorem beside_eq_concat (s : Staged σ) (name : String) :
    s.beside name = s.parent.map Text.lower ++ [Text.lower name] := by
  simp [beside]

theorem length_beside (s : Staged σ) (name : String) : (s.beside name).length = s.path.length := by
  simp [beside, path]

/-- Of two commands below one parent the one that comes first has the lesser name. -/
theorem lower_lt_of_le {s t : Staged σ} (h : s.rank.le t.rank = true)
    (hparent : s.parent.map Text.lower = t.parent.map Text.lower)
    (hne : Text.lower s.command.name ≠ Text.lower t.command.name) :
    Text.lower s.command.name < Text.lower t.command.name := by
  have hrank := rank_of_parent hparent
  have hdepth : s.rank.depth = t.rank.depth := by rw [hrank]
  have hpath : s.rank.path = t.rank.path := by rw [hrank]
  have hlt := InsertionRank.name_lt_of_le h hdepth hpath hne
  exact hlt

/-- A command is at the path of another name below the parent of a second one when it has this
parent and this name. -/
theorem path_eq_beside_iff {s t : Staged σ} {name : String} :
    s.path = t.beside name ↔ s.parent.map Text.lower = t.parent.map Text.lower ∧
      Text.lower s.command.name = Text.lower name := by
  rw [path_eq_concat, beside_eq_concat]
  simp

/-- The lookup keys of a command and its aliases, below its parent. -/
def Claims (s : Staged σ) (keys : List String) (key : String) : Prop :=
  keys = s.parent.map Text.lower ∧ key ∈ (s.command.name :: s.aliases).map Text.lower

instance (s : Staged σ) (keys : List String) (key : String) : Decidable (s.Claims keys key) :=
  inferInstanceAs (Decidable (_ ∧ _))

theorem claims_of_path {s : Staged σ} {keys : List String} {key : String}
    (h : keys ++ [key] = s.path) : s.Claims keys key := by
  rw [s.path_eq_concat] at h
  obtain ⟨hparent, hlast⟩ := List.append_inj' h rfl
  refine ⟨hparent, ?_⟩
  rw [(List.cons.inj hlast).1]
  exact List.mem_cons_self

theorem claims_of_beside {s : Staged σ} {keys : List String} {key name : String}
    (hname : name ∈ s.aliases) (h : keys ++ [key] = s.beside name) : s.Claims keys key := by
  rw [s.beside_eq_concat] at h
  obtain ⟨hparent, hlast⟩ := List.append_inj' h rfl
  refine ⟨hparent, ?_⟩
  rw [(List.cons.inj hlast).1]
  exact List.mem_map_of_mem (List.mem_cons_of_mem _ hname)

theorem Claims.own_or_beside {s : Staged σ} {keys : List String} {key : String}
    (h : s.Claims keys key) : key = Text.lower s.command.name ∨
      ∃ name ∈ s.aliases, key = Text.lower name ∧ keys ++ [key] = s.beside name := by
  obtain ⟨hparent, hmem⟩ := h
  obtain ⟨name, hname, rfl⟩ := List.mem_map.mp hmem
  rcases List.mem_cons.mp hname with rfl | hname
  · exact .inl rfl
  · refine .inr ⟨name, hname, rfl, ?_⟩
    rw [hparent, s.beside_eq_concat]

end Staged

/-- A group that is to be put in a tree by rank, each command below a path that names the root or
a command then, and no key taken over above some depth. -/
structure Placeable (old : Node σ) (group : List (Staged σ)) (depth : Nat) : Prop where
  pairwise : group.Pairwise fun s t => s.rank.le t.rank = true
  parents : ∀ s ∈ group, s.parent = [] ∨
    (overlay old.commandUnder? group (s.parent.map Text.lower)).isSome
  spared : ∀ s ∈ group, ∀ keys, s.TakesOver old.commandUnder? group keys → depth ≤ keys.length

/-- What holds of a tree in which the first commands of a group were put. Down to some depth it
has the commands of the tree as it was and of the group, and the keys of all of them lead to
themselves, apart from those taken over and those that are to be taken back. -/
structure Inserted (old : Node σ) (group : List (Staged σ)) (depth : Nat)
    (done todo : List (Staged σ)) (n : Node σ) : Prop where
  wellNamed : n.Everywhere Node.WellNamed
  command : ∀ keys, keys.length ≤ depth →
    n.commandUnder? keys = overlay old.commandUnder? done keys
  key : ∀ keys key, keys.length < depth → (n.commandUnder? (keys ++ [key])).isSome →
    n.keyUnder? keys key = some key ∨ (∃ t ∈ todo, t.path = keys ++ [key]) ∨
      ∃ s ∈ done, s.TakesOver old.commandUnder? group (keys ++ [key])
  taken : ∀ s ∈ done, ∀ keys key, keys.length < depth →
    s.TakesOver old.commandUnder? group (keys ++ [key]) → n.keyUnder? keys key ≠ some key

section Group

variable {old n changed : Node σ} {group done todo : List (Staged σ)} {depth : Nat} {s : Staged σ}

theorem inserted_nil (h : old.Everywhere Node.FindsOwn) (group : List (Staged σ)) (depth : Nat) :
    Inserted old group depth [] group old := by
  constructor
  · exact fun keys m hm => (h keys m hm).toWellNamed
  · intro keys _
    rw [overlay_nil]
  · intro keys key _ hsome
    exact .inl (Node.keyUnder?_of_findsOwn h (Node.isSome_at?_of_commandUnder? hsome))
  · intro s hs
    cases hs

/-! ### Before and after one command -/

namespace Placeable

theorem le_of_done (h : Placeable old group depth) (hsplit : group = done ++ s :: todo) :
    ∀ t ∈ done, t.rank.le s.rank = true := by
  intro t ht
  have hpairwise := h.pairwise
  rw [hsplit, List.pairwise_append] at hpairwise
  exact hpairwise.2.2 t ht s List.mem_cons_self

theorem length_le_of_done (h : Placeable old group depth) (hsplit : group = done ++ s :: todo) :
    ∀ t ∈ done, t.parent.length ≤ s.parent.length :=
  fun t ht => InsertionRank.depth_le_of_le (h.le_of_done hsplit t ht)

theorem length_le_of_todo (h : Placeable old group depth) (hsplit : group = done ++ s :: todo) :
    ∀ t ∈ s :: todo, s.path.length ≤ t.path.length := by
  intro t ht
  have hpairwise := h.pairwise
  rw [hsplit, List.pairwise_append, List.pairwise_cons] at hpairwise
  rw [Staged.length_path, Staged.length_path]
  rcases List.mem_cons.mp ht with rfl | ht
  · exact Nat.le_refl _
  · have hle : s.parent.length ≤ t.parent.length :=
      InsertionRank.depth_le_of_le (hpairwise.2.1.1 t ht)
    exact Nat.succ_le_succ hle

/-- A path leads by its names where what is still to be put in, or was taken over, has a longer
one. -/
theorem led (h : Placeable old group depth) (hn : Inserted old group depth done todo n)
    (hdone : ∀ t ∈ done, t ∈ group) {keys : List String} (hkeys : keys.length < depth)
    (htodo : ∀ t ∈ todo, keys.length < t.path.length) (hsome : (n.at? keys).isSome) :
    n.Led keys := by
  refine Node.led_of_keyUnder? hsome fun before key hp => ?_
  have hlen := hp.length_le
  obtain ⟨command, hcommand, _⟩ :=
    Node.exists_commandUnder?_concat hn.wellNamed (Node.isSome_at?_of_prefix hp hsome)
  have hthere : (n.commandUnder? (before ++ [key])).isSome := by
    rw [hcommand]
    rfl
  rw [List.length_append, List.length_singleton] at hlen
  rcases hn.key before key (by omega) hthere with hself | ⟨t, ht, hpath⟩ | ⟨t, ht, htaken⟩
  · exact hself
  · have hlonger := htodo t ht
    rw [hpath, List.length_append, List.length_singleton] at hlonger
    omega
  · have hle := h.spared t (hdone t ht) _ htaken
    rw [List.length_append, List.length_singleton] at hle
    omega

/-- The parent of a command that comes next is there, and its path leads by its names. -/
theorem led_parent (h : Placeable old group depth) (hsplit : group = done ++ s :: todo)
    (hn : Inserted old group depth done (s :: todo) n) (hs : s.path.length ≤ depth) :
    n.Led (s.parent.map Text.lower) := by
  have hmem : s ∈ group := by
    rw [hsplit]
    exact List.mem_append_right done List.mem_cons_self
  have hdone : ∀ t ∈ done, t ∈ group := by
    intro t ht
    rw [hsplit]
    exact List.mem_append_left _ ht
  have hlonger : ∀ t ∈ s :: todo, (s.parent.map Text.lower).length < t.path.length := by
    intro t ht
    have hle := h.length_le_of_todo hsplit t ht
    rw [Staged.length_path] at hle
    rw [List.length_map]
    omega
  have hshort : (s.parent.map Text.lower).length < depth := by
    have hlt := hlonger s List.mem_cons_self
    omega
  refine h.led hn hdone hshort hlonger ?_
  rcases h.parents s hmem with hnil | hsome
  · rw [hnil]
    rfl
  · rw [hsplit, overlay_append_of_short _ hlonger, ← hn.command _ (Nat.le_of_lt hshort)] at hsome
    exact Node.isSome_at?_of_commandUnder? hsome

/-- What is kept beside a command under one of its aliases is put in again later, or the command
takes its key over. -/
theorem todo_or_takesOver (h : Placeable old group depth) (hsplit : group = done ++ s :: todo)
    {name : String} (hname : name ∈ s.aliases)
    (hne : Text.lower name ≠ Text.lower s.command.name)
    (hsome : (overlay old.commandUnder? (done ++ [s]) (s.beside name)).isSome) :
    (∃ t ∈ todo, t.path = s.beside name) ∨
      s.TakesOver old.commandUnder? group (s.beside name) := by
  rcases isSome_overlay_iff.mp hsome with ⟨t, ht, hpath⟩ | ⟨hold, hspared⟩
  · obtain ⟨hparent, hsame⟩ := Staged.path_eq_beside_iff.mp hpath
    rcases List.mem_append.mp ht with ht | ht
    · -- a command of the group that came before has the lesser name
      have hlt : Text.lower t.command.name < Text.lower s.command.name := by
        refine Staged.lower_lt_of_le (h.le_of_done hsplit t ht) hparent ?_
        rwa [hsame]
      have hmem : t ∈ group := by
        rw [hsplit]
        exact List.mem_append_left _ ht
      rw [hsame] at hlt
      exact .inr ⟨name, hname, rfl, hne, .inl ⟨⟨t, hmem, hpath⟩, hlt⟩⟩
    · obtain rfl := List.mem_singleton.mp ht
      exact absurd hsame.symm hne
  · by_cases htodo : ∃ t ∈ todo, t.path = s.beside name
    · exact .inl htodo
    · refine .inr ⟨name, hname, rfl, hne, .inr ⟨hold, fun t ht hp => ?_⟩⟩
      rw [hsplit, List.append_cons, List.mem_append] at ht
      rcases ht with ht | ht
      · exact hspared t ht hp
      · have hle := h.length_le_of_todo hsplit t (List.mem_cons_of_mem s ht)
        rw [← s.length_beside name] at hle
        exact htodo ⟨t, ht, hp.eq_of_length_le hle⟩

/-- A path that is taken over by a command, or was by one before it, is not that of the command. -/
theorem path_ne_of_takesOver (h : Placeable old group depth) (hsplit : group = done ++ s :: todo)
    {t : Staged σ} (ht : t ∈ done ++ [s]) {keys : List String}
    (htaken : t.TakesOver old.commandUnder? group keys) : s.path ≠ keys := by
  obtain ⟨name, _, rfl, hne, hcases⟩ := htaken
  intro hpath
  obtain ⟨hparent, hsame⟩ := Staged.path_eq_beside_iff.mp hpath
  rcases List.mem_append.mp ht with ht | ht
  · rcases hcases with ⟨_, hlt⟩ | ⟨_, hspared⟩
    · have hlt' : Text.lower t.command.name < Text.lower s.command.name := by
        refine Staged.lower_lt_of_le (h.le_of_done hsplit t ht) hparent.symm ?_
        rw [hsame]
        exact (String.ne_of_lt hlt).symm
      rw [hsame] at hlt'
      exact String.lt_asymm hlt hlt'
    · have hmem : s ∈ group := by
        rw [hsplit]
        exact List.mem_append_right done List.mem_cons_self
      rw [← hpath] at hspared
      exact hspared s hmem List.prefix_rfl
  · obtain rfl := List.mem_singleton.mp ht
    exact hne hsame.symm

/-- A command that has a key which the next one claims is this one, is put in again later, or has
its key taken over. -/
theorem key_of_claims (h : Placeable old group depth) (hsplit : group = done ++ s :: todo)
    {keys : List String} {key : String} (hclaims : s.Claims keys key)
    (hsome : (overlay old.commandUnder? (done ++ [s]) (keys ++ [key])).isSome) :
    some (Text.lower s.command.name) = some key ∨ (∃ t ∈ todo, t.path = keys ++ [key]) ∨
      ∃ t ∈ done ++ [s], t.TakesOver old.commandUnder? group (keys ++ [key]) := by
  by_cases hself : key = Text.lower s.command.name
  · exact .inl (congrArg some hself.symm)
  · obtain ⟨name, hname, rfl, hbeside⟩ := hclaims.own_or_beside.resolve_left hself
    rw [hbeside] at hsome ⊢
    rcases h.todo_or_takesOver hsplit hname hself hsome with htodo | htaken
    · exact .inr (.inl htodo)
    · exact .inr (.inr ⟨s, List.mem_append_right _ (List.mem_singleton_self s), htaken⟩)

end Placeable

namespace Inserted

/-- The key of a command that is not the next one leads where it may lead when this one is put
in. -/
theorem key_of_path_ne (hn : Inserted old group depth done (s :: todo) n) {keys : List String}
    {key : String} (hkeys : keys.length < depth) (hne : s.path ≠ keys ++ [key])
    (hsome : (n.commandUnder? (keys ++ [key])).isSome) :
    n.keyUnder? keys key = some key ∨ (∃ t ∈ todo, t.path = keys ++ [key]) ∨
      ∃ t ∈ done ++ [s], t.TakesOver old.commandUnder? group (keys ++ [key]) := by
  rcases hn.key keys key hkeys hsome with hself | ⟨t, ht, hpath⟩ | ⟨t, ht, htaken⟩
  · exact .inl hself
  · rcases List.mem_cons.mp ht with rfl | ht
    · exact absurd hpath hne
    · exact .inr (.inl ⟨t, ht, hpath⟩)
  · exact .inr (.inr ⟨t, List.mem_append_left _ ht, htaken⟩)

/-- What the next command does not take over is taken over already. -/
theorem taken_of_not_takesOver (hn : Inserted old group depth done (s :: todo) n)
    {keys : List String} {key : String} (hkeys : keys.length < depth)
    (hnot : ¬ s.TakesOver old.commandUnder? group (keys ++ [key])) {t : Staged σ}
    (ht : t ∈ done ++ [s]) (htaken : t.TakesOver old.commandUnder? group (keys ++ [key])) :
    n.keyUnder? keys key ≠ some key := by
  rcases List.mem_append.mp ht with ht | ht
  · exact hn.taken t ht keys key hkeys htaken
  · rw [List.mem_singleton.mp ht] at htaken
    exact absurd htaken hnot

end Inserted

/-! ### One command more -/

section Long

variable (hn : Inserted old group depth done (s :: todo) n) (hs : depth < s.path.length)
  (hattach : Staged.attach n s = .ok changed)

include hs hattach in
theorem commandUnder?_of_long {keys : List String} (hkeys : keys.length ≤ depth) :
    changed.commandUnder? keys = n.commandUnder? keys := by
  rw [Staged.length_path] at hs
  exact Node.commandUnder?_updateAt?_of_short (fun m => m.command?_addChild _ _)
    (Staged.attach_eq_ok_iff.mp hattach) (by omega)

include hs hattach in
theorem keyUnder?_of_long {keys : List String} (hkeys : keys.length < depth) (key : String) :
    changed.keyUnder? keys key = n.keyUnder? keys key := by
  rw [Staged.length_path] at hs
  exact Node.keyUnder?_updateAt?_of_short (Staged.attach_eq_ok_iff.mp hattach) (by omega) key

include hn hs hattach in
theorem overlay_of_long {keys : List String} (hkeys : keys.length ≤ depth) :
    changed.commandUnder? keys = overlay old.commandUnder? (done ++ [s]) keys := by
  rw [commandUnder?_of_long hs hattach hkeys, hn.command keys hkeys, overlay_append_of_short]
  intro t ht
  rw [List.mem_singleton.mp ht]
  omega

include hn hs hattach in
theorem key_of_long {keys : List String} {key : String} (hkeys : keys.length < depth)
    (hsome : (changed.commandUnder? (keys ++ [key])).isSome) :
    changed.keyUnder? keys key = some key ∨ (∃ t ∈ todo, t.path = keys ++ [key]) ∨
      ∃ t ∈ done ++ [s], t.TakesOver old.commandUnder? group (keys ++ [key]) := by
  have hlen : (keys ++ [key]).length ≤ depth := by
    rw [List.length_append, List.length_singleton]
    exact hkeys
  rw [commandUnder?_of_long hs hattach hlen] at hsome
  rw [keyUnder?_of_long hs hattach hkeys]
  refine hn.key_of_path_ne hkeys (fun hpath => ?_) hsome
  rw [hpath] at hs
  omega

include hn hs hattach in
theorem taken_of_long {t : Staged σ} (ht : t ∈ done ++ [s]) {keys : List String} {key : String}
    (hkeys : keys.length < depth)
    (htaken : t.TakesOver old.commandUnder? group (keys ++ [key])) :
    changed.keyUnder? keys key ≠ some key := by
  rw [keyUnder?_of_long hs hattach hkeys]
  refine hn.taken_of_not_takesOver hkeys ?_ ht htaken
  -- what the command takes over is as long as its own path
  rintro ⟨name, _, hpath, _⟩
  have hlen := congrArg List.length hpath
  rw [Staged.length_beside, List.length_append, List.length_singleton] at hlen
  omega

include hn hs hattach in
/-- A command that is put in beyond the depth leaves everything as it was down to there, wherever
its parent path leads. -/
theorem inserted_of_long : Inserted old group depth (done ++ [s]) todo changed where
  wellNamed := Staged.everywhere_wellNamed_attach hattach hn.wellNamed
  command _ hkeys := overlay_of_long hn hs hattach hkeys
  key _ _ hkeys hsome := key_of_long hn hs hattach hkeys hsome
  taken _ ht _ _ hkeys htaken := taken_of_long hn hs hattach ht hkeys htaken

end Long

section Short

variable (h : Placeable old group depth) (hsplit : group = done ++ s :: todo)
  (hn : Inserted old group depth done (s :: todo) n) (hs : s.path.length ≤ depth)
  (hattach : Staged.attach n s = .ok changed)

include h hsplit hn hs hattach

theorem commandUnder?_of_short (keys : List String) :
    changed.commandUnder? keys =
      if keys = s.path then some s.command
      else if s.path <+: keys then none
      else n.commandUnder? keys :=
  Node.commandUnder?_updateAt?_of_led (h.led_parent hsplit hn hs)
    (Staged.attach_eq_ok_iff.mp hattach) keys

theorem keyUnder?_of_short (keys : List String) (key : String) :
    changed.keyUnder? keys key =
      if s.Claims keys key then some (Text.lower s.command.name)
      else if s.path <+: keys then none
      else n.keyUnder? keys key :=
  Node.keyUnder?_updateAt?_of_led (h.led_parent hsplit hn hs)
    (Staged.attach_eq_ok_iff.mp hattach) keys key

theorem overlay_of_short {keys : List String} (hkeys : keys.length ≤ depth) :
    changed.commandUnder? keys = overlay old.commandUnder? (done ++ [s]) keys := by
  rw [commandUnder?_of_short h hsplit hn hs hattach, hn.command keys hkeys,
    overlay_concat _ (h.length_le_of_done hsplit)]

/-- Where the key of a command may lead when one more is put in. -/
theorem key_of_short {keys : List String} {key : String} (hkeys : keys.length < depth)
    (hsome : (changed.commandUnder? (keys ++ [key])).isSome) :
    changed.keyUnder? keys key = some key ∨ (∃ t ∈ todo, t.path = keys ++ [key]) ∨
      ∃ t ∈ done ++ [s], t.TakesOver old.commandUnder? group (keys ++ [key]) := by
  rw [keyUnder?_of_short h hsplit hn hs hattach]
  by_cases hclaims : s.Claims keys key
  · have hlen : (keys ++ [key]).length ≤ depth := by
      rw [List.length_append, List.length_singleton]
      exact hkeys
    rw [overlay_of_short h hsplit hn hs hattach hlen] at hsome
    rw [if_pos hclaims]
    exact h.key_of_claims hsplit hclaims hsome
  · -- the command was there before, and is not below the one put in
    have hne : s.path ≠ keys ++ [key] := fun he => hclaims (Staged.claims_of_path he.symm)
    have hcommand := commandUnder?_of_short h hsplit hn hs hattach (keys ++ [key])
    rw [if_neg hne.symm] at hcommand
    have hnot : ¬ s.path <+: keys ++ [key] := by
      intro hp
      rw [hcommand, if_pos hp] at hsome
      cases hsome
    have habove : ¬ s.path <+: keys := fun hp => hnot (hp.trans (List.prefix_append keys [key]))
    rw [hcommand, if_neg hnot] at hsome
    rw [if_neg hclaims, if_neg habove]
    exact hn.key_of_path_ne hkeys hne hsome

/-- What was taken over stays so when one more command is put in, and so does what this one takes
over. -/
theorem taken_of_short {t : Staged σ} (ht : t ∈ done ++ [s]) {keys : List String} {key : String}
    (hkeys : keys.length < depth)
    (htaken : t.TakesOver old.commandUnder? group (keys ++ [key])) :
    changed.keyUnder? keys key ≠ some key := by
  rw [keyUnder?_of_short h hsplit hn hs hattach]
  split
  next hclaims =>
    intro hself
    refine h.path_ne_of_takesOver hsplit ht htaken ?_
    rw [s.path_eq_concat, hclaims.1, Option.some.inj hself]
  next hclaims =>
    split
    next => exact (Option.some_ne_none key).symm
    next =>
      refine hn.taken_of_not_takesOver hkeys ?_ ht htaken
      rintro ⟨name, hname, hbeside, _⟩
      exact hclaims (Staged.claims_of_beside hname hbeside)

/-- A command that is put in within the depth is found by its name, and takes over what its
aliases name. -/
theorem inserted_of_short : Inserted old group depth (done ++ [s]) todo changed where
  wellNamed := Staged.everywhere_wellNamed_attach hattach hn.wellNamed
  command _ hkeys := overlay_of_short h hsplit hn hs hattach hkeys
  key _ _ hkeys hsome := key_of_short h hsplit hn hs hattach hkeys hsome
  taken _ ht _ _ hkeys htaken := taken_of_short h hsplit hn hs hattach ht hkeys htaken

end Short

/-! ### A whole group -/

theorem inserted_foldlM (h : Placeable old group depth) (hold : old.Everywhere Node.FindsOwn)
    (hrun : group.foldlM Staged.attach old = .ok changed) :
    Inserted old group depth group [] changed := by
  refine foldlM_progress ?_ (inserted_nil hold group depth) hrun
  intro done s todo n next hsplit hn hattach
  by_cases hs : s.path.length ≤ depth
  · exact inserted_of_short h hsplit hn hs hattach
  · exact inserted_of_long hn (Nat.lt_of_not_le hs) hattach

end Group

end Switchboard
