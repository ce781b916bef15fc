import Mathlib.Order.Bounds.Basic
import Switchboard.Proofs.Registration.Failure

/-!
# Two walks along a path

A path is walked in order to look at the node at its end, and in order to
change it. The two walks are written apart from one another, and so is the
search for the segment to blame when a path leads nowhere. They agree: a change
is made to the node that is found and put in its place, and the segment blamed
is the first with which the walk comes to nothing.

* `Node.ChangesAt`, `changesAt_iff`: what the walk that changes a tree takes hold of
* `Node.FirstUnknown`, `firstUnknown_firstMissing`: the first segment that leads nowhere
* `walks_agree`: both, and what they mean for the report of a missing parent
-/

namespace Switchboard

variable {σ : Type}

namespace Node

variable {n m : Node σ} {path : List String}

/-! ### The node that is changed -/

/-- A change at the end of a path takes hold of a node: whatever is to be done is done to this
node and put back in its place, where it is found then. Put back as it was, it leaves the tree as
it was. -/
def ChangesAt (n : Node σ) (path : List String) (m : Node σ) : Prop :=
  ∃ putBack : Node σ → Node σ, putBack m = n ∧
    (∀ other, (putBack other).findPath path = some other) ∧
    ∀ f, n.updateAt? f path = some (putBack (f m))

theorem findPath_cons_eq_some_iff {name : String} :
    n.findPath (name :: path) = some m ↔
      ∃ key child, n.canonical? name = some key ∧ n.children.find? key = some child ∧
        child.findPath path = some m := by
  rw [findPath, find?]
  cases hkey : n.canonical? name with
  | none => simp
  | some key =>
    cases hchild : n.children.find? key with
    | none => simp [hchild]
    | some child => simp [hchild]

/-- From the node found, the tree is put together again child by child. -/
theorem exists_putBack (h : n.findPath path = some m) :
    ∃ putBack : Node σ → Node σ, putBack m = n ∧
      ∀ f, n.updateAt? f path = some (putBack (f m)) := by
  induction path generalizing n with
  | nil =>
    obtain rfl := Option.some.inj h
    exact ⟨id, rfl, fun _ => rfl⟩
  | cons name path ih =>
    obtain ⟨key, child, hkey, hchild, hbelow⟩ := findPath_cons_eq_some_iff.mp h
    obtain ⟨putBack, hsame, hupdate⟩ := ih hbelow
    refine ⟨fun other => n.replaceChild key (putBack other), ?_, fun f => ?_⟩
    · show n.replaceChild key (putBack m) = n
      rw [hsame]
      exact replaceChild_self hchild
    · exact updateAt?_cons_eq_some_iff.mpr ⟨key, child, _, hkey, hchild, hupdate f, rfl⟩

/-- The node changed is the node found. -/
theorem changesAt_iff : n.ChangesAt path m ↔ n.findPath path = some m := by
  constructor
  · rintro ⟨putBack, hsame, hfound, _⟩
    rw [← hfound m, hsame]
  · intro h
    obtain ⟨putBack, hsame, hupdate⟩ := exists_putBack h
    refine ⟨putBack, hsame, fun other => ?_, hupdate⟩
    have hother := findPath_updateAt? (hupdate fun _ => other)
    rw [hother, h]
    rfl

/-! ### The segment that is blamed -/

/-- The first segment of a path with which the walk along it comes to nothing. -/
def FirstUnknown (n : Node σ) (path : List String) (name : String) : Prop :=
  ∃ i, IsLeast {i | i < path.length ∧ n.findPath (path.take (i + 1)) = none} i ∧
    path[i]? = some name

/-- Where a path leads, all that comes before leads too. -/
theorem findPath_take_ne_none (h : n.findPath path = some m) (k : Nat) :
    n.findPath (path.take k) ≠ none := by
  intro hnone
  rw [← List.take_append_drop k path, findPath_append, hnone] at h
  cases h

/-- A path that leads nowhere is left at some segment. -/
theorem exists_split_of_findPath (h : n.findPath path = none) :
    ∃ before name after m, path = before ++ name :: after ∧ n.findPath before = some m ∧
      m.find? name = none := by
  induction path generalizing n with
  | nil => cases h
  | cons name path ih =>
    rw [findPath] at h
    cases hf : n.find? name with
    | none => exact ⟨[], name, path, n, rfl, rfl, hf⟩
    | some child =>
      rw [hf] at h
      obtain ⟨before, other, after, m, hsplit, hm, hother⟩ := ih h
      refine ⟨name :: before, other, after, m, ?_, ?_, hother⟩
      · rw [hsplit, List.cons_append]
      · rw [findPath, hf]
        exact hm

theorem firstUnknown_of_split {before after : List String} {name : String}
    (hm : n.findPath before = some m) (hn : m.find? name = none) :
    n.FirstUnknown (before ++ name :: after) name := by
  refine ⟨before.length, ⟨⟨by simp, ?_⟩, ?_⟩, by simp⟩
  · have htake : (before ++ name :: after).take (before.length + 1) = before ++ [name] :=
      List.take_length_add_append 1
    rw [htake, findPath_append, hm, Option.bind_some, findPath, hn]
  · -- any shorter part of the path is a part of what leads on
    rintro j ⟨_, hj⟩
    by_contra hlt
    have htake : (before ++ name :: after).take (j + 1) = before.take (j + 1) :=
      List.take_append_of_le_length (by omega)
    rw [htake] at hj
    exact findPath_take_ne_none hm (j + 1) hj

/-- The segment blamed for a path that leads nowhere is the first unknown one. What would be
answered at the end of the path is never the answer. -/
theorem firstUnknown_firstMissing (h : n.findPath path = none) :
    n.FirstUnknown path (n.firstMissing path) ∧
      ∀ whole, firstMissing.walk whole n path = n.firstMissing path := by
  obtain ⟨before, name, after, m, rfl, hm, hn⟩ := exists_split_of_findPath h
  have hwalk : ∀ whole, firstMissing.walk whole n (before ++ name :: after) = name :=
    fun whole => walk_of_findPath whole hm hn
  have hblamed : n.firstMissing (before ++ name :: after) = name := hwalk _
  rw [hblamed]
  exact ⟨firstUnknown_of_split hm hn, hwalk⟩

end Node

/-! ### Missing parents -/

namespace Registrar

/-- The parent that is reported missing is the first unknown segment in the tree as it is when the
turn of its child comes. -/
theorem firstUnknown_of_missingParent {r : Registrar σ} {specs : List (CommandSpec σ)}
    {command parent : String} (h : r.register specs = .error (.missingParent command parent)) :
    ∃ spec tree, r.Orphaned specs spec tree ∧ spec.name = command ∧
      tree.FirstUnknown spec.parent parent := by
  rcases register_eq_error_iff.mp h with hfault | ⟨_, spec, tree, horphaned, he⟩
  · exact absurd hfault not_firstFault_missingParent
  · obtain ⟨rfl, rfl⟩ := RegistrationError.missingParent.inj he
    have hnone : tree.findPath spec.parent = none := by
      obtain ⟨_, _, _, _, _, _, hmissing⟩ := horphaned
      exact hmissing
    exact ⟨spec, tree, horphaned, rfl, (Node.firstUnknown_firstMissing hnone).1⟩

/-- Along every path of every tree, the walk that changes a node comes to the node that the walk
that finds one comes to, and where they come to nothing, the segment blamed is the first unknown
one, whatever would have been answered behind the last. So is the parent reported missing, in the
tree as built when it was looked for. -/
theorem walks_agree :
    (∀ (n : Node σ) (path : List String),
      (∀ m, n.ChangesAt path m ↔ n.findPath path = some m) ∧
      (∀ f, n.updateAt? f path = none ↔ n.findPath path = none) ∧
      (n.findPath path = none → n.FirstUnknown path (n.firstMissing path) ∧
        ∀ whole, Node.firstMissing.walk whole n path = n.firstMissing path)) ∧
    ∀ (r : Registrar σ) (specs : List (CommandSpec σ)) (command parent : String),
      r.register specs = .error (.missingParent command parent) →
        ∃ spec tree, r.Orphaned specs spec tree ∧ spec.name = command ∧
          tree.FirstUnknown spec.parent parent := by
  refine ⟨fun n path => ⟨fun m => Node.changesAt_iff, fun f => ?_, fun h => ?_⟩, ?_⟩
  · have hsome := n.isSome_updateAt? f path
    rw [← Option.isNone_iff_eq_none, ← Option.isNone_iff_eq_none, ← Option.not_isSome,
      ← Option.not_isSome, hsome]
  · exact Node.firstUnknown_firstMissing h
  · intro r specs command parent h
    exact firstUnknown_of_missingParent h

/-- A command with an alias and one below it. -/
def yard : Registrar Unit :=
  built [.commands [(plain "Top").addAliases ["t"], (plain "sub").under ["top"]]]

/-- Two commands below what is not there, a name of their own among it. -/
def strays : List (CommandSpec Unit) :=
  [(plain "stray").under ["t", "T", "sub"], (plain "sub").under ["T", "stray"]]

/-- An alias leads to the node that is changed. The first unknown segment may be spelled like one
that leads on. -/
theorem walks_agree_yard :
    (∃ m, yard.root.ChangesAt ["t", "SUB"] m ∧ m.name? = some "sub") ∧
      yard.root.FirstUnknown ["t", "T", "sub"] "T" ∧
      (∀ f, yard.root.updateAt? f ["t", "T", "sub"] = none) ∧
      yard.register strays = .error (.missingParent "sub" "stray") ∧
      ∃ spec tree, yard.Orphaned strays spec tree ∧ tree.FirstUnknown spec.parent "stray" := by
  obtain ⟨hwalks, hmissing⟩ := @walks_agree Unit
  have hregister : yard.register strays = .error (.missingParent "sub" "stray") := by
    apply eq_error_of_map (f := fun _ => ())
    decide +kernel
  have hsub : (yard.root.findPath ["t", "SUB"]).map Node.name? = some (some "sub") := by
    decide +kernel
  obtain ⟨m, hm, hname⟩ := Option.map_eq_some_iff.mp hsub
  have hnone : yard.root.findPath ["t", "T", "sub"] = none :=
    Option.isNone_iff_eq_none.mp (by decide +kernel)
  have hblamed : yard.root.firstMissing ["t", "T", "sub"] = "T" := by
    decide +kernel
  obtain ⟨_, hchange, hunknown⟩ := hwalks yard.root ["t", "T", "sub"]
  refine ⟨⟨m, ((hwalks yard.root ["t", "SUB"]).1 m).mpr hm, hname⟩, ?_, ?_, hregister, ?_⟩
  · rw [← hblamed]
    exact (hunknown hnone).1
  · exact fun f => (hchange f).mpr hnone
  · obtain ⟨spec, tree, horphaned, _, hparent⟩ := hmissing yard strays "sub" "stray" hregister
    exact ⟨spec, tree, horphaned, hparent⟩

end Registrar

end Switchboard
