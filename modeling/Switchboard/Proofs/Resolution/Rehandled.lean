import Switchboard.Dispatcher

/-!
# Other handlers

To resolve a line is to look at names, types, defaults and parsers, never at a
handler. When every command of a tree is given another handler, a line leads
where it led before, with the same values bound at each word, and resolves to
the command with its new handler on the same arguments.

* `Node.rehandle`: a tree with another handler for each command
* `find?_rehandle`, `enter_rehandle`: lookup below a node of it
* `step_rehandle`, `foldlM_step_rehandle`: one word, and all of them
* `resolve_rehandle`: a line
-/

namespace Switchboard

variable {σ τ : Type}

/-! ### The tree -/

/-- A command with another handler. -/
def Command.rehandle (h : Command σ → Handler τ) (c : Command σ) : Command τ :=
  ⟨c.name, c.parameters, h c⟩

namespace Node

mutual

/-- A tree with another handler for each command. -/
def rehandle (h : Command σ → Handler τ) : Node σ → Node τ
  | mk command? children keys =>
    mk (command?.map (Command.rehandle h)) (rehandleChildren h children) keys

/-- The children of a node, each with other handlers. -/
def rehandleChildren (h : Command σ → Handler τ) : Table String (Node σ) → Table String (Node τ)
  | ⟨entries⟩ => ⟨rehandleEntries h entries⟩

/-- The entries of a table of children, each with other handlers. -/
def rehandleEntries (h : Command σ → Handler τ) : List (String × Node σ) → List (String × Node τ)
  | [] => []
  | entry :: rest => rehandleEntry h entry :: rehandleEntries h rest

/-- A child with other handlers, under its key. -/
def rehandleEntry (h : Command σ → Handler τ) : String × Node σ → String × Node τ
  | (key, n) => (key, n.rehandle h)

end

variable (h : Command σ → Handler τ) (n : Node σ)

@[simp] theorem command?_rehandle :
    (n.rehandle h).command? = n.command?.map (Command.rehandle h) := by
  cases n with
  | mk command? children keys => rw [rehandle, Node.command?, Node.command?]

@[simp] theorem keys_rehandle : (n.rehandle h).keys = n.keys := by
  cases n with
  | mk command? children keys => rw [rehandle, Node.keys, Node.keys]

theorem lookup_rehandleEntries (key : String) (entries : List (String × Node σ)) :
    Table.lookup key (rehandleEntries h entries) =
      (Table.lookup key entries).map (rehandle h) := by
  induction entries with
  | nil => simp [rehandleEntries, Table.lookup]
  | cons entry rest ih =>
    obtain ⟨own, child⟩ := entry
    rw [rehandleEntries, rehandleEntry, Table.lookup, Table.lookup]
    by_cases hown : own = key
    · simp [hown]
    · simp [hown, ih]

@[simp] theorem find?_children_rehandle (key : String) :
    (n.rehandle h).children.find? key = (n.children.find? key).map (rehandle h) := by
  cases n with
  | mk command? children keys =>
    obtain ⟨entries⟩ := children
    rw [rehandle, Node.children, Node.children, rehandleChildren]
    exact lookup_rehandleEntries h key entries

theorem find?_rehandle (name : String) :
    (n.rehandle h).find? name = (n.find? name).map (rehandle h) := by
  rw [find?, find?, canonical?, canonical?, keys_rehandle]
  cases n.keys.find? (Text.lower name) with
  | none => rfl
  | some key => exact find?_children_rehandle h n key

end Node

/-! ### Walking -/

/-- A place with other handlers. -/
def Place.rehandle (h : Command σ → Handler τ) (p : Place σ) : Place τ :=
  ⟨p.node.rehandle h, p.command.rehandle h, p.chain⟩

/-- A resolved line with other handlers. -/
def Resolved.rehandle (h : Command σ → Handler τ) (r : Resolved σ) : Resolved τ :=
  ⟨r.node.rehandle h, r.command.rehandle h, r.args⟩

/-- A dispatcher with another handler for each command. -/
def Dispatcher.rehandle (h : Command σ → Handler τ) (d : Dispatcher σ) : Dispatcher τ :=
  ⟨d.root.rehandle h, d.parsers⟩

section Walk

variable (h : Command σ → Handler τ) (parsers : ParserRegistry) (context : Option Value)

theorem Node.child_rehandle (n : Node σ) (word : String) :
    (n.rehandle h).child word =
      (n.child word).map fun found => (found.1.rehandle h, found.2.rehandle h) := by
  rw [child, child, find?_rehandle]
  cases n.find? word with
  | none => rfl
  | some found =>
    rw [Option.map_some]
    simp only [command?_rehandle]
    cases found.command? with
    | none => rfl
    | some command => rfl

/-- A command is entered with the same values. -/
theorem Node.enter_rehandle (n : Node σ) (carry : List Value) (word : String) :
    (n.rehandle h).enter context carry word =
      (n.enter context carry word).map (Place.rehandle h) := by
  rw [enter, enter, child_rehandle]
  cases n.child word with
  | error e => rfl
  | ok found =>
    obtain ⟨node, command⟩ := found
    have hchain : (command.rehandle h).chain = command.chain := rfl
    simp only [Except.map, hchain]
    cases command.chain.seed carry context with
    | error e => rfl
    | ok chain => rfl

namespace Place

theorem bind_rehandle (p : Place σ) (type : ParamType) (word : String) :
    (p.rehandle h).bind parsers type word = (p.bind parsers type word).map (rehandle h) := by
  have hchain : (p.rehandle h).chain = p.chain := rfl
  rw [bind, bind, hchain]
  cases parsers.parse word type with
  | error e => rfl
  | ok v =>
    simp only
    cases p.chain.offer v with
    | error e => rfl
    | ok chain => rfl

/-- One word leads on as before. -/
theorem step_rehandle (p : Place σ) (word : String) :
    step parsers context (p.rehandle h) word = (step parsers context p word).map (rehandle h) := by
  have hchain : (p.rehandle h).chain = p.chain := rfl
  have hnode : (p.rehandle h).node = p.node.rehandle h := rfl
  rw [step, step, hchain, hnode]
  cases p.chain.nextType? with
  | none => exact p.node.enter_rehandle h context p.chain.bound word
  | some type => exact p.bind_rehandle h parsers type word

/-- All words lead on as before. -/
theorem foldlM_step_rehandle (words : List String) (p : Place σ) :
    words.foldlM (step parsers context) (p.rehandle h) =
      (words.foldlM (step parsers context) p).map (rehandle h) := by
  induction words generalizing p with
  | nil => rfl
  | cons word words ih =>
    rw [List.foldlM_cons, List.foldlM_cons, step_rehandle]
    cases step parsers context p word with
    | error e => rfl
    | ok next => exact ih next

theorem settle_rehandle (p : Place σ) (line : String) :
    (p.rehandle h).settle line = (p.settle line).map (Resolved.rehandle h) := by
  have hchain : (p.rehandle h).chain = p.chain := rfl
  rw [settle, settle, hchain]
  by_cases hfurther : p.chain.requiresFurther = true
  · rw [if_pos hfurther, if_pos hfurther]
    rfl
  · rw [if_neg hfurther, if_neg hfurther]
    cases p.chain.complete with
    | error e => rfl
    | ok args => rfl

end Place

namespace Dispatcher

variable (d : Dispatcher σ)

theorem walk_rehandle (words : List String) :
    (d.rehandle h).walk context words = (d.walk context words).map (Place.rehandle h) := by
  cases words with
  | nil => rfl
  | cons first rest =>
    have hroot : (d.rehandle h).root = d.root.rehandle h := rfl
    rw [walk, walk, hroot, Node.enter_rehandle]
    cases d.root.enter context [] first with
    | error e => rfl
    | ok start => exact Place.foldlM_step_rehandle h d.parsers context rest start

/-- A line resolves as before, to the command with its new handler. -/
theorem resolve_rehandle (line : String) :
    (d.rehandle h).resolve context line = (d.resolve context line).map (Resolved.rehandle h) := by
  rw [resolve, resolve, walk_rehandle]
  cases d.walk context (Text.wordsOf line) with
  | error e => rfl
  | ok place => exact place.settle_rehandle h line

end Dispatcher

end Walk

end Switchboard
