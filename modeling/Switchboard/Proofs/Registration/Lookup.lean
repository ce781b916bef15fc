import Switchboard.Proofs.Registration.Reachable

/-!
# Looking up paths

A path of names is walked by lookup keys, a path of keys by the names that
children are kept under. What a path of names leads to stands under some path
of keys, and under its own one when its segments all lead to themselves. A
command that is put in at the end of a path is felt at its own place and below
it, and in the lookup keys right above.

* `commandUnder?`, `keyUnder?`: what a tree holds under a path of keys
* `route?`: the keys under which a path of names leads
* `Led`: each segment of a path leads to itself
* `commandUnder?_updateAt?`, `keyUnder?_updateAt?`: a command put in at the end of a path
* `commandUnder?_updateAt?_of_short`, `keyUnder?_updateAt?_of_short`, `route?_updateAt?_of_short`:
  above a change all is as it was, wherever the path leads
* `FindsOwn`: every child is found by its name
-/

namespace Switchboard

variable {σ : Type}

namespace Node

/-- The node that a path of names leads to, in any spelling of them; an alias leads nowhere. -/
def named? : Node σ → List String → Option (Node σ)
  | n, [] => some n
  | n, name :: path =>
    match n.find? name with
    | some child =>
      if child.name?.map Text.lower = some (Text.lower name) then child.named? path else none
    | none => none

/-- The command that a path names. -/
def commandAt? (n : Node σ) (path : List String) : Option (Command σ) :=
  (n.named? path).bind command?

/-! ### What is under a path of keys -/

/-- The command under a path of keys. -/
def commandUnder? (n : Node σ) (keys : List String) : Option (Command σ) :=
  (n.at? keys).bind command?

/-- What a lookup key leads to at the node under a path of keys. -/
def keyUnder? (n : Node σ) (keys : List String) (key : String) : Option String :=
  (n.at? keys).bind (·.keys.find? key)

theorem commandUnder?_nil (n : Node σ) : n.commandUnder? [] = n.command? := rfl

@[simp] theorem keyUnder?_nil (n : Node σ) (key : String) :
    n.keyUnder? [] key = n.keys.find? key := rfl

theorem commandUnder?_cons (n : Node σ) (key : String) (keys : List String) :
    n.commandUnder? (key :: keys) = (n.children.find? key).bind (·.commandUnder? keys) := by
  rw [commandUnder?, at?]
  cases n.children.find? key with
  | none => rfl
  | some child => rfl

theorem keyUnder?_cons (n : Node σ) (first : String) (keys : List String) (key : String) :
    n.keyUnder? (first :: keys) key = (n.children.find? first).bind (·.keyUnder? keys key) := by
  rw [keyUnder?, at?]
  cases n.children.find? first with
  | none => rfl
  | some child => rfl

theorem commandUnder?_leaf (command : Command σ) (keys : List String) :
    (leaf command).commandUnder? keys = if keys = [] then some command else none := by
  cases keys with
  | nil => rfl
  | cons key keys => rfl

theorem keyUnder?_leaf (command : Command σ) (keys : List String) (key : String) :
    (leaf command).keyUnder? keys key = none := by
  cases keys with
  | nil => rfl
  | cons first keys => rfl

theorem at?_append (n : Node σ) (keys more : List String) :
    n.at? (keys ++ more) = (n.at? keys).bind (·.at? more) := by
  induction keys generalizing n with
  | nil => rfl
  | cons key keys ih =>
    rw [List.cons_append]
    cases hc : n.children.find? key with
    | none => rw [at?_cons_of_none hc, at?_cons_of_none hc, Option.bind_none]
    | some child => rw [at?_cons_of_some hc, at?_cons_of_some hc, ih]

theorem isSome_at?_of_prefix {n : Node σ} {keys more : List String} (h : keys <+: more)
    (hmore : (n.at? more).isSome) : (n.at? keys).isSome := by
  obtain ⟨rest, rfl⟩ := h
  rw [at?_append] at hmore
  exact Option.isSome_of_isSome_bind hmore

theorem isSome_at?_of_commandUnder? {n : Node σ} {keys : List String}
    (h : (n.commandUnder? keys).isSome) : (n.at? keys).isSome :=
  Option.isSome_of_isSome_bind h

/-! ### Where a path of names leads -/

/-- The keys under which a path of names and aliases leads. -/
def route? : Node σ → List String → Option (List String)
  | _, [] => some []
  | n, name :: path =>
    (n.canonical? name).bind fun key =>
      (n.children.find? key).bind fun child => (child.route? path).map (key :: ·)

theorem route?_cons_eq_some_iff {n : Node σ} {name : String} {path route : List String} :
    n.route? (name :: path) = some route ↔
      ∃ key child below, n.canonical? name = some key ∧ n.children.find? key = some child ∧
        child.route? path = some below ∧ route = key :: below := by
  rw [route?]
  constructor
  · intro h
    obtain ⟨key, hk, h⟩ := Option.bind_eq_some_iff.mp h
    obtain ⟨child, hc, h⟩ := Option.bind_eq_some_iff.mp h
    obtain ⟨below, hb, rfl⟩ := Option.map_eq_some_iff.mp h
    exact ⟨key, child, below, hk, hc, hb, rfl⟩
  · rintro ⟨key, child, below, hk, hc, hb, rfl⟩
    simp only [hk, hc, hb, Option.bind_some, Option.map_some]

/-- Names and aliases stand for one key each. -/
theorem length_of_route? {n : Node σ} {path route : List String} (h : n.route? path = some route) :
    route.length = path.length := by
  induction path generalizing n route with
  | nil =>
    obtain rfl := Option.some.inj h
    rfl
  | cons name path ih =>
    obtain ⟨key, child, below, _, _, hb, rfl⟩ := route?_cons_eq_some_iff.mp h
    rw [List.length_cons, List.length_cons, ih hb]

/-- A path at the end of which something can be changed leads somewhere. -/
theorem exists_route_of_updateAt? {n changed : Node σ} {f : Node σ → Node σ} {path : List String}
    (h : n.updateAt? f path = some changed) : ∃ route, n.route? path = some route := by
  induction path generalizing n changed with
  | nil => exact ⟨[], rfl⟩
  | cons name path ih =>
    obtain ⟨key, child, below, hk, hc, hb, _⟩ := updateAt?_cons_eq_some_iff.mp h
    obtain ⟨route, hroute⟩ := ih hb
    exact ⟨key :: route, route?_cons_eq_some_iff.mpr ⟨key, child, route, hk, hc, hroute, rfl⟩⟩

/-! ### Paths that lead by their names -/

/-- Each segment of a path of keys leads to itself and finds a child. -/
def Led : Node σ → List String → Prop
  | _, [] => True
  | n, key :: keys =>
    n.keys.find? key = some key ∧ ∃ child, n.children.find? key = some child ∧ child.Led keys

/-- Names that lead to themselves are walked as keys. -/
theorem findPath_of_led {n : Node σ} {path : List String} (h : n.Led (path.map Text.lower)) :
    n.findPath path = n.at? (path.map Text.lower) := by
  induction path generalizing n with
  | nil => rfl
  | cons name path ih =>
    obtain ⟨hk, child, hc, hbelow⟩ := h
    have hf : n.find? name = some child := by rw [find?, canonical?, hk, Option.bind_some, hc]
    rw [findPath, hf, List.map_cons, at?_cons_of_some hc]
    exact ih hbelow

/-- A path of keys is led when each of its segments leads to itself where it stands. -/
theorem led_of_keyUnder? {n : Node σ} {keys : List String} (hsome : (n.at? keys).isSome)
    (hkeys : ∀ before key, before ++ [key] <+: keys → n.keyUnder? before key = some key) :
    n.Led keys := by
  induction keys generalizing n with
  | nil => trivial
  | cons key keys ih =>
    have hk := hkeys [] key ⟨keys, rfl⟩
    cases hc : n.children.find? key with
    | none =>
      rw [at?_cons_of_none hc] at hsome
      cases hsome
    | some child =>
      rw [at?_cons_of_some hc] at hsome
      refine ⟨hk, child, hc, ih hsome fun before other hp => ?_⟩
      have hbelow := hkeys (key :: before) other ((List.prefix_cons_inj key).mpr hp)
      rwa [keyUnder?_cons, hc, Option.bind_some] at hbelow

/-- Names that lead to themselves lead under their own keys. -/
theorem route?_of_led {n : Node σ} {path : List String} (h : n.Led (path.map Text.lower)) :
    n.route? path = some (path.map Text.lower) := by
  induction path generalizing n with
  | nil => rfl
  | cons name path ih =>
    obtain ⟨hk, child, hc, hbelow⟩ := h
    exact route?_cons_eq_some_iff.mpr ⟨_, child, _, hk, hc, ih hbelow, rfl⟩

section Change

variable {n changed : Node σ} {command : Command σ} {aliases parent route : List String}

/-- What is found under each path of keys once a command was put in at the end of a path of
names. -/
theorem commandUnder?_updateAt? (h : n.route? parent = some route)
    (hchanged : n.updateAt? (·.addChild aliases (.leaf command)) parent = some changed)
    (keys : List String) :
    changed.commandUnder? keys =
      if keys = route ++ [Text.lower command.name] then some command
      else if route ++ [Text.lower command.name] <+: keys then none
      else n.commandUnder? keys := by
  induction parent generalizing n changed route keys with
  | nil =>
    obtain rfl := Option.some.inj h
    rw [updateAt?, Option.some.injEq] at hchanged
    subst hchanged
    cases keys with
    | nil =>
      rw [commandUnder?_nil, commandUnder?_nil, command?_addChild]
      simp
    | cons key keys =>
      rw [commandUnder?_cons, commandUnder?_cons, children_addChild aliases (name?_leaf command),
        Table.find?_insert]
      by_cases hkey : Text.lower command.name = key
      · rw [if_pos hkey, Option.bind_some, commandUnder?_leaf]
        simp [hkey]
      · simp [hkey, Ne.symm hkey]
  | cons name parent ih =>
    obtain ⟨target, child, below, hk, hc, hb, rfl⟩ := updateAt?_cons_eq_some_iff.mp hchanged
    obtain ⟨target', child', rest, hk', hc', hroute, rfl⟩ := route?_cons_eq_some_iff.mp h
    obtain rfl : target = target' := Option.some.inj (hk.symm.trans hk')
    obtain rfl : child = child' := Option.some.inj (hc.symm.trans hc')
    have hchildren : (n.replaceChild target below).children =
        n.children.insert target below := rfl
    cases keys with
    | nil =>
      have hself : (n.replaceChild target below).commandUnder? [] = n.commandUnder? [] := rfl
      rw [hself]
      simp
    | cons key keys =>
      rw [commandUnder?_cons, commandUnder?_cons, hchildren, Table.find?_insert]
      by_cases hkey : target = key
      · rw [if_pos hkey, Option.bind_some, ih hroute hb keys, ← hkey, hc]
        simp [List.cons_prefix_cons]
      · simp [hkey, Ne.symm hkey, List.cons_prefix_cons]

/-- The lookup keys then: at the end of the path the name and the aliases lead to the command,
which has none of its own. -/
theorem keyUnder?_updateAt? (h : n.route? parent = some route)
    (hchanged : n.updateAt? (·.addChild aliases (.leaf command)) parent = some changed)
    (keys : List String) (key : String) :
    changed.keyUnder? keys key =
      if keys = route ∧ key ∈ (command.name :: aliases).map Text.lower then
        some (Text.lower command.name)
      else if route ++ [Text.lower command.name] <+: keys then none
      else n.keyUnder? keys key := by
  induction parent generalizing n changed route keys with
  | nil =>
    obtain rfl := Option.some.inj h
    rw [updateAt?, Option.some.injEq] at hchanged
    subst hchanged
    cases keys with
    | nil =>
      rw [keyUnder?_nil, keyUnder?_nil, keys_addChild aliases (name?_leaf command), find?_claim]
      simp
    | cons first keys =>
      rw [keyUnder?_cons, keyUnder?_cons, children_addChild aliases (name?_leaf command),
        Table.find?_insert]
      by_cases hkey : Text.lower command.name = first
      · rw [if_pos hkey, Option.bind_some, keyUnder?_leaf]
        simp [hkey]
      · simp [hkey]
  | cons name parent ih =>
    obtain ⟨target, child, below, hk, hc, hb, rfl⟩ := updateAt?_cons_eq_some_iff.mp hchanged
    obtain ⟨target', child', rest, hk', hc', hroute, rfl⟩ := route?_cons_eq_some_iff.mp h
    obtain rfl : target = target' := Option.some.inj (hk.symm.trans hk')
    obtain rfl : child = child' := Option.some.inj (hc.symm.trans hc')
    have hchildren : (n.replaceChild target below).children =
        n.children.insert target below := rfl
    cases keys with
    | nil =>
      have hself : (n.replaceChild target below).keyUnder? [] key = n.keyUnder? [] key := rfl
      rw [hself]
      simp
    | cons first keys =>
      rw [keyUnder?_cons, keyUnder?_cons, hchildren, Table.find?_insert]
      by_cases hkey : target = first
      · rw [if_pos hkey, Option.bind_some, ih hroute hb keys, ← hkey, hc]
        simp [List.cons_prefix_cons]
      · simp [hkey, Ne.symm hkey, List.cons_prefix_cons]

theorem lower_concat (parent : List String) (name : String) :
    (parent ++ [name]).map Text.lower = parent.map Text.lower ++ [Text.lower name] := by
  rw [List.map_append, List.map_singleton]

/-- A command put in at the end of a path that leads by its names. -/
theorem commandUnder?_updateAt?_of_led (h : n.Led (parent.map Text.lower))
    (hchanged : n.updateAt? (·.addChild aliases (.leaf command)) parent = some changed)
    (keys : List String) :
    changed.commandUnder? keys =
      if keys = (parent ++ [command.name]).map Text.lower then some command
      else if (parent ++ [command.name]).map Text.lower <+: keys then none
      else n.commandUnder? keys := by
  rw [commandUnder?_updateAt? (route?_of_led h) hchanged, lower_concat]

/-- The lookup keys after that. -/
theorem keyUnder?_updateAt?_of_led (h : n.Led (parent.map Text.lower))
    (hchanged : n.updateAt? (·.addChild aliases (.leaf command)) parent = some changed)
    (keys : List String) (key : String) :
    changed.keyUnder? keys key =
      if keys = parent.map Text.lower ∧ key ∈ (command.name :: aliases).map Text.lower then
        some (Text.lower command.name)
      else if (parent ++ [command.name]).map Text.lower <+: keys then none
      else n.keyUnder? keys key := by
  rw [keyUnder?_updateAt? (route?_of_led h) hchanged, lower_concat]

end Change

/-! ### Above a change -/

section Above

variable {n changed : Node σ} {f : Node σ → Node σ} {path : List String}

/-- No command changes that is not below the place of the change. -/
theorem commandUnder?_updateAt?_of_short (hf : ∀ m, (f m).command? = m.command?)
    (h : n.updateAt? f path = some changed) {keys : List String}
    (hkeys : keys.length ≤ path.length) : changed.commandUnder? keys = n.commandUnder? keys := by
  induction path generalizing n changed keys with
  | nil =>
    obtain rfl := List.length_eq_zero_iff.mp (Nat.le_zero.mp hkeys)
    exact command?_updateAt? hf h
  | cons name path ih =>
    cases keys with
    | nil => exact command?_updateAt? hf h
    | cons first keys =>
      obtain ⟨target, child, below, _, hc, hb, rfl⟩ := updateAt?_cons_eq_some_iff.mp h
      have hchildren : (n.replaceChild target below).children =
          n.children.insert target below := rfl
      rw [commandUnder?_cons, commandUnder?_cons, hchildren, Table.find?_insert]
      by_cases hkey : target = first
      · rw [if_pos hkey, Option.bind_some, ih hb (Nat.le_of_succ_le_succ hkeys), ← hkey, hc,
          Option.bind_some]
      · rw [if_neg hkey]

/-- No lookup key changes above the place of the change. -/
theorem keyUnder?_updateAt?_of_short (h : n.updateAt? f path = some changed) {keys : List String}
    (hkeys : keys.length < path.length) (key : String) :
    changed.keyUnder? keys key = n.keyUnder? keys key := by
  induction path generalizing n changed keys with
  | nil => cases hkeys
  | cons name path ih =>
    obtain ⟨target, child, below, _, hc, hb, rfl⟩ := updateAt?_cons_eq_some_iff.mp h
    cases keys with
    | nil => rfl
    | cons first keys =>
      have hchildren : (n.replaceChild target below).children =
          n.children.insert target below := rfl
      rw [keyUnder?_cons, keyUnder?_cons, hchildren, Table.find?_insert]
      by_cases hkey : target = first
      · rw [if_pos hkey, Option.bind_some, ih hb (Nat.lt_of_succ_lt_succ hkeys), ← hkey, hc,
          Option.bind_some]
      · rw [if_neg hkey]

/-- No path leads elsewhere whose end is not below the place of the change. -/
theorem route?_updateAt?_of_short (h : n.updateAt? f path = some changed) {other : List String}
    (hother : other.length ≤ path.length) : changed.route? other = n.route? other := by
  induction path generalizing n changed other with
  | nil =>
    obtain rfl := List.length_eq_zero_iff.mp (Nat.le_zero.mp hother)
    rfl
  | cons name path ih =>
    obtain ⟨target, child, below, _, hc, hb, rfl⟩ := updateAt?_cons_eq_some_iff.mp h
    cases other with
    | nil => rfl
    | cons first other =>
      have hchildren : (n.replaceChild target below).children =
          n.children.insert target below := rfl
      have hkeys : (n.replaceChild target below).canonical? first = n.canonical? first := rfl
      rw [route?, route?, hkeys, hchildren]
      congr 1
      funext key
      rw [Table.find?_insert]
      by_cases hkey : target = key
      · rw [if_pos hkey, Option.bind_some, ih hb (Nat.le_of_succ_le_succ hother), ← hkey, hc,
          Option.bind_some]
      · rw [if_neg hkey]

end Above

/-! ### Children found by their names -/

theorem WellNamed.exists_command {n child : Node σ} {key : String} (h : n.WellNamed)
    (hc : n.children.find? key = some child) :
    ∃ command, child.command? = some command ∧ Text.lower command.name = key := by
  obtain ⟨name, hname, hlower⟩ := Option.map_eq_some_iff.mp (h.name_eq key child hc)
  obtain ⟨command, hcommand, rfl⟩ := Option.map_eq_some_iff.mp hname
  exact ⟨command, hcommand, hlower⟩

/-- Below the top every node has a command, which is named as the path ends. -/
theorem exists_commandUnder?_concat {n : Node σ} (h : n.Everywhere WellNamed) {keys : List String}
    {key : String} (hsome : (n.at? (keys ++ [key])).isSome) :
    ∃ command, n.commandUnder? (keys ++ [key]) = some command ∧ Text.lower command.name = key := by
  obtain ⟨child, hchild⟩ := Option.isSome_iff_exists.mp hsome
  rw [at?_append] at hchild
  obtain ⟨m, hm, hlast⟩ := Option.bind_eq_some_iff.mp hchild
  cases hc : m.children.find? key with
  | none =>
    rw [at?_cons_of_none hc] at hlast
    cases hlast
  | some found =>
    obtain ⟨command, hcommand, hname⟩ := (h keys m hm).exists_command hc
    refine ⟨command, ?_, hname⟩
    rw [commandUnder?, at?_append, hm, Option.bind_some, at?_cons_of_some hc]
    exact hcommand

/-- Every child of a node is found by its name. -/
structure FindsOwn (n : Node σ) : Prop extends n.WellNamed where
  own : ∀ key child, n.children.find? key = some child → n.keys.find? key = some key

theorem findsOwn_root : (root : Node σ).FindsOwn :=
  ⟨wellNamed_root, fun _ _ hc => nomatch hc⟩

variable {n : Node σ}

theorem keyUnder?_of_findsOwn (h : n.Everywhere FindsOwn) {keys : List String} {key : String}
    (hsome : (n.at? (keys ++ [key])).isSome) : n.keyUnder? keys key = some key := by
  rw [at?_append] at hsome
  obtain ⟨m, hm⟩ := Option.isSome_iff_exists.mp (Option.isSome_of_isSome_bind hsome)
  rw [hm, Option.bind_some] at hsome
  cases hc : m.children.find? key with
  | none =>
    rw [at?_cons_of_none hc] at hsome
    cases hsome
  | some child =>
    rw [keyUnder?, hm, Option.bind_some]
    exact (h keys m hm).own key child hc

/-- Every child is found by its name when the keys of all nodes lead to themselves where they
stand. -/
theorem everywhere_findsOwn_of_keyUnder? (h : n.Everywhere WellNamed)
    (hkeys : ∀ keys key, (n.at? (keys ++ [key])).isSome → n.keyUnder? keys key = some key) :
    n.Everywhere FindsOwn := by
  intro keys m hm
  refine ⟨h keys m hm, fun key child hc => ?_⟩
  have hsome : (n.at? (keys ++ [key])).isSome := by
    rw [at?_append, hm, Option.bind_some, at?_cons_of_some hc]
    rfl
  have hkey := hkeys keys key hsome
  rwa [keyUnder?, hm, Option.bind_some] at hkey

/-- Where every child is found by its name, a name finds the child kept under it, and no other
child by its name. -/
theorem FindsOwn.named?_cons (h : n.FindsOwn) (name : String) (path : List String) :
    n.named? (name :: path) =
      match n.children.find? (Text.lower name) with
      | some child => child.named? path
      | none => none := by
  rw [named?]
  cases hc : n.children.find? (Text.lower name) with
  | some child =>
    have hf : n.find? name = some child := by
      rw [find?, canonical?, h.own _ child hc, Option.bind_some, hc]
    simp only [hf, h.name_eq _ child hc, if_true]
  | none =>
    simp only
    split
    next child hf =>
      -- what else is found goes by another name
      rw [find?] at hf
      obtain ⟨target, _, hchild⟩ := Option.bind_eq_some_iff.mp hf
      rw [h.name_eq target child hchild, if_neg]
      intro htarget
      rw [Option.some.inj htarget, hc] at hchild
      cases hchild
    next => rfl

theorem named?_eq_at? (h : n.Everywhere FindsOwn) (path : List String) :
    n.named? path = n.at? (path.map Text.lower) := by
  induction path generalizing n with
  | nil => rfl
  | cons name path ih =>
    rw [h.here.named?_cons, List.map_cons, at?]
    cases hc : n.children.find? (Text.lower name) with
    | none => rfl
    | some child => exact ih (h.child hc)

theorem commandAt?_eq_of_findsOwn (h : n.Everywhere FindsOwn) (path : List String) :
    n.commandAt? path = n.commandUnder? (path.map Text.lower) := by
  rw [commandAt?, commandUnder?, named?_eq_at? h]

/-- Where every child is found by its name, the keys of a node that is there lead by their
names. -/
theorem led_of_findsOwn (h : n.Everywhere FindsOwn) {keys : List String}
    (hsome : (n.at? keys).isSome) : n.Led keys := by
  induction keys generalizing n with
  | nil => trivial
  | cons key keys ih =>
    cases hc : n.children.find? key with
    | none =>
      rw [at?_cons_of_none hc] at hsome
      cases hsome
    | some child =>
      rw [at?_cons_of_some hc] at hsome
      exact ⟨h.here.own key child hc, child, hc, ih (h.child hc) hsome⟩

/-- Where every child is found by its name, a command is found under its path of keys. -/
theorem bind_findPath_of_findsOwn (h : n.Everywhere FindsOwn) {path : List String}
    {command : Command σ} (hcommand : n.commandUnder? (path.map Text.lower) = some command) :
    (n.findPath path).bind command? = some command := by
  have hsome : (n.commandUnder? (path.map Text.lower)).isSome := by
    rw [hcommand]
    rfl
  rw [findPath_of_led (led_of_findsOwn h (isSome_at?_of_commandUnder? hsome))]
  exact hcommand

/-- A command that is found by its name at the end of a path of names has its key. -/
theorem keyUnder?_of_findPath (h : n.Everywhere WellNamed) {path : List String} {name : String}
    {command : Command σ} (hled : n.Led (path.map Text.lower))
    (hfound : (n.findPath (path ++ [name])).bind command? = some command)
    (hname : Text.lower command.name = Text.lower name) :
    n.keyUnder? (path.map Text.lower) (Text.lower name) = some (Text.lower name) := by
  obtain ⟨child, hchild, hcommand⟩ := Option.bind_eq_some_iff.mp hfound
  rw [findPath_append, findPath_of_led hled] at hchild
  obtain ⟨m, hm, hlast⟩ := Option.bind_eq_some_iff.mp hchild
  have hfind : m.find? name = some child := by
    rw [findPath] at hlast
    cases hf : m.find? name with
    | none =>
      rw [hf] at hlast
      cases hlast
    | some found =>
      rw [hf] at hlast
      exact hlast
  obtain ⟨key, hkey, hc⟩ := Option.bind_eq_some_iff.mp hfind
  obtain ⟨other, hother, hlower⟩ := (h _ m hm).exists_command hc
  obtain rfl : other = command := Option.some.inj (hother.symm.trans hcommand)
  rw [canonical?, ← hname, hlower] at hkey
  rw [keyUnder?, hm, Option.bind_some, ← hname, hlower]
  exact hkey

end Node

end Switchboard
