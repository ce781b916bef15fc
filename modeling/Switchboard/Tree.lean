import Switchboard.Chain
import Switchboard.Table
import Switchboard.Text.LowerCase

/-!
# The command tree

A node is the nameless root or a command. Its children are kept under their
lower-cased names; names and aliases are lookup keys, each leading to the name
a child is kept under, so an alias never makes a second node.

* `findPath_append`: a path is walked segment by segment
* `isSome_updateAt?`, `findPath_updateAt?`: a node can be changed exactly where it can be found
* `walk_of_findPath`: the segment blamed for a path that leads nowhere
* `replaceChild_self`: a child put back where it is
-/

namespace Switchboard

/-- How a handler ended. -/
inductive Outcome where
  | done
  | failed (message : String)
  | panicked
deriving DecidableEq, Repr

/-- What a command does with its arguments, in a world of states `σ`. -/
abbrev Handler (σ : Type) := Args → σ → Outcome × σ

/-- A command: its name as declared, its parameters and its handler. -/
structure Command (σ : Type) where
  name : String
  parameters : List Parameter
  handler : Handler σ

namespace Command

variable {σ : Type}

/-- The number of values that must be bound before the defaults fill the rest. -/
def boundary (c : Command σ) : Nat :=
  Parameter.boundary c.parameters

/-- A chain with nothing bound. -/
def chain (c : Command σ) : Chain :=
  .start c.parameters c.boundary

/-- The type of the first parameter. -/
def firstType? (c : Command σ) : Option ParamType :=
  c.parameters.head?.map Parameter.type

end Command

/-- A node of the tree; the root has no command. -/
inductive Node (σ : Type) where
  | mk (command? : Option (Command σ)) (children : Table String (Node σ))
      (keys : Table String String)

namespace Node

variable {σ : Type}

/-- The command of a node; the root has none. -/
def command? : Node σ → Option (Command σ)
  | mk c _ _ => c

/-- The children, under their lower-cased names. -/
def children : Node σ → Table String (Node σ)
  | mk _ children _ => children

/-- The lookup keys, each with the lower-cased name it leads to. -/
def keys : Node σ → Table String String
  | mk _ _ keys => keys

/-- The root of an empty tree. -/
def root : Node σ :=
  mk none .empty .empty

/-- A command without children. -/
def leaf (command : Command σ) : Node σ :=
  mk (some command) .empty .empty

instance : Inhabited (Node σ) := ⟨root⟩

def isRoot (n : Node σ) : Bool :=
  n.command?.isNone

/-- The name of a command as declared. -/
def name? (n : Node σ) : Option String :=
  n.command?.map Command.name

/-! ### Lookup -/

/-- The lower-cased name of the child that a name or alias leads to. -/
def canonical? (n : Node σ) (name : String) : Option String :=
  n.keys.find? (Text.lower name)

/-- The child that a name or alias leads to, without regard to case. -/
def find? (n : Node σ) (name : String) : Option (Node σ) :=
  (n.canonical? name).bind n.children.find?

/-- Walk a path of names and aliases. -/
def findPath : Node σ → List String → Option (Node σ)
  | n, [] => some n
  | n, name :: path =>
    match n.find? name with
    | some child => child.findPath path
    | none => none

theorem findPath_append (n : Node σ) (path rest : List String) :
    n.findPath (path ++ rest) = (n.findPath path).bind (·.findPath rest) := by
  induction path generalizing n with
  | nil => rfl
  | cons name path ih =>
    simp only [List.cons_append, findPath]
    cases n.find? name with
    | none => rfl
    | some child => exact ih child

/-! ### Insertion -/

/-- Make every alias lead to a child. -/
def claim (keys : Table String String) (target : String) : List String → Table String String
  | [] => keys
  | name :: names => claim (keys.insert (Text.lower name) target) target names

theorem find?_claim (keys : Table String String) (target key : String) (names : List String) :
    (claim keys target names).find? key =
      if key ∈ names.map Text.lower then some target else keys.find? key := by
  induction names generalizing keys with
  | nil => simp [claim]
  | cons name names ih =>
    rw [claim, ih, Table.find?_insert]
    by_cases h : key ∈ names.map Text.lower
    · simp [h]
    · by_cases hn : Text.lower name = key
      · simp [hn]
      · simp [h, hn, Ne.symm hn]

/-- Put a child under its lower-cased name, in place of the one there with all below it, and
make its name and aliases lead to it. A root has no name and is ignored. -/
def addChild (n : Node σ) (aliases : List String) (child : Node σ) : Node σ :=
  match child.name? with
  | none => n
  | some name =>
    mk n.command? (n.children.insert (Text.lower name) child)
      (claim n.keys (Text.lower name) (name :: aliases))

theorem addChild_root (n : Node σ) (aliases : List String) {child : Node σ}
    (h : child.name? = none) : n.addChild aliases child = n := by
  simp [addChild, h]

@[simp] theorem command?_addChild (n : Node σ) (aliases : List String) (child : Node σ) :
    (n.addChild aliases child).command? = n.command? := by
  unfold addChild
  split <;> rfl

theorem canonical?_addChild (n : Node σ) (aliases : List String) {child : Node σ} {name : String}
    (h : child.name? = some name) (query : String) :
    (n.addChild aliases child).canonical? query =
      if Text.lower query ∈ (name :: aliases).map Text.lower then some (Text.lower name)
      else n.canonical? query := by
  simp only [addChild, h, canonical?, keys, find?_claim]

/-- The new child is found under its name and aliases, and wherever the child in its place was. -/
theorem find?_addChild (n : Node σ) (aliases : List String) {child : Node σ} {name : String}
    (h : child.name? = some name) (query : String) :
    (n.addChild aliases child).find? query =
      if Text.lower query ∈ (name :: aliases).map Text.lower then some child
      else (n.canonical? query).bind fun key =>
        if Text.lower name = key then some child else n.children.find? key := by
  have hchildren : (n.addChild aliases child).children =
      n.children.insert (Text.lower name) child := by
    simp only [addChild, h, children]
  rw [find?, canonical?_addChild n aliases h, hchildren]
  split
  next => exact Table.find?_insert_self n.children (Text.lower name) child
  next =>
    congr 1
    funext key
    exact Table.find?_insert n.children (Text.lower name) key child

theorem find?_addChild_name (n : Node σ) (aliases : List String) {child : Node σ} {name : String}
    (h : child.name? = some name) : (n.addChild aliases child).find? name = some child := by
  rw [find?_addChild n aliases h, if_pos (by simp)]

/-! ### Changing a node below -/

/-- Put a node in place of the child that a lower-cased name leads to. -/
def replaceChild (n : Node σ) (canonical : String) (child : Node σ) : Node σ :=
  mk n.command? (n.children.insert canonical child) n.keys

/-- Change the node at the end of a path; nothing when the path leads nowhere. -/
def updateAt? (n : Node σ) (f : Node σ → Node σ) : List String → Option (Node σ)
  | [] => some (f n)
  | name :: path =>
    match n.canonical? name with
    | none => none
    | some canonical =>
      match n.children.find? canonical with
      | none => none
      | some child => (child.updateAt? f path).map (n.replaceChild canonical)

theorem isSome_updateAt? (n : Node σ) (f : Node σ → Node σ) (path : List String) :
    (n.updateAt? f path).isSome = (n.findPath path).isSome := by
  induction path generalizing n with
  | nil => rfl
  | cons name path ih =>
    simp only [updateAt?, findPath, find?]
    cases n.canonical? name with
    | none => rfl
    | some canonical =>
      simp only [Option.bind_some]
      cases n.children.find? canonical with
      | none => rfl
      | some child => simpa using ih child

theorem find?_replaceChild_self {n : Node σ} {name canonical : String} (child : Node σ)
    (h : n.canonical? name = some canonical) :
    (n.replaceChild canonical child).find? name = some child := by
  have hc : (n.replaceChild canonical child).canonical? name = some canonical := h
  rw [find?, hc]
  exact Table.find?_insert_self n.children canonical child

/-- A child put back where it is changes nothing. -/
theorem replaceChild_self {n child : Node σ} {canonical : String}
    (h : n.children.find? canonical = some child) : n.replaceChild canonical child = n := by
  obtain ⟨command?, children, keys⟩ := n
  have hsame : children.insert canonical child = children := Table.insert_self h
  show mk command? (children.insert canonical child) keys = _
  rw [hsame]

/-- The node at the end of the path is the changed one. -/
theorem findPath_updateAt? {n changed : Node σ} {f : Node σ → Node σ} {path : List String}
    (h : n.updateAt? f path = some changed) :
    changed.findPath path = (n.findPath path).map f := by
  induction path generalizing n changed with
  | nil =>
    simp only [updateAt?, Option.some.injEq] at h
    simp [findPath, h]
  | cons name path ih =>
    simp only [updateAt?] at h
    cases hc : n.canonical? name with
    | none => simp [hc] at h
    | some canonical =>
      simp only [hc] at h
      cases hf : n.children.find? canonical with
      | none => simp [hf] at h
      | some child =>
        simp only [hf, Option.map_eq_some_iff] at h
        obtain ⟨below, hb, rfl⟩ := h
        have hn : n.find? name = some child := by simp [find?, hc, hf]
        simp only [findPath, find?_replaceChild_self below hc, hn]
        exact ih hb

/-! ### Paths that lead nowhere -/

/-- The first segment of a path that leads nowhere; the whole path if every segment leads on. -/
def firstMissing (n : Node σ) (path : List String) : String :=
  walk n path
where
  walk (n : Node σ) : List String → String
    | [] => " ".intercalate path
    | name :: rest =>
      match n.find? name with
      | some child => walk child rest
      | none => name

/-- The segment blamed is the first that leads nowhere from where the ones before it lead. The
whole path is not the answer then, and does not matter. -/
theorem walk_of_findPath (whole : List String) {n m : Node σ} {before after : List String}
    {name : String} (hm : n.findPath before = some m) (hn : m.find? name = none) :
    firstMissing.walk whole n (before ++ name :: after) = name := by
  induction before generalizing n with
  | nil =>
    simp only [findPath, Option.some.injEq] at hm
    simp [firstMissing.walk, hm, hn]
  | cons first before ih =>
    simp only [findPath] at hm
    cases hf : n.find? first with
    | none => simp [hf] at hm
    | some child =>
      simp only [hf] at hm
      simp only [List.cons_append, firstMissing.walk, hf]
      exact ih hm

end Node

end Switchboard
