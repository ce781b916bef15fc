import Switchboard.Proofs.Parsing
import Switchboard.Proofs.Resolution.Grounded
import Switchboard.Proofs.Resolution.LeftToRight

/-!
# Going down is decided by declarations

A command is left only when it is full. The values carried from it then have
the types that it declares, and of the context only the type counts. Whether a
command below can be entered is therefore read off the declarations of the two
commands, whatever was typed.

* `Command.own`: the types declared for what is typed, apart from the context
* `Entry`: a moment of a line at which a command is left for one below it
* `Entry.fails_iff`: it fails unless the types of the one command begin those of the other
* `exists_entry_of_incompatible`: with parsers that keep to their types nothing else is refused so
* `entries_decided`: all of this for the lines of a dispatcher
-/

namespace Switchboard

variable {σ : Type}

/-! ### Declared types -/

namespace Command

/-- The types that a command declares for typed values: those of its parameters, without the
first when that is the type of the context. -/
def own (c : Command σ) (context : Option Value) : List ParamType :=
  match c.parameters.map Parameter.type with
  | [] => []
  | type :: types => if context.bind Value.typeOf? = some type then types else type :: types

/-- The parameters of a command take the context, if the first has its type, and then its own
types. -/
theorem types_eq (c : Command σ) (context : Option Value) :
    (c.parameters.map Parameter.type).map some =
      (c.injected context).map Value.typeOf? ++ (c.own context).map some := by
  unfold own injected firstType?
  cases c.parameters with
  | nil => simp
  | cons p ps =>
    cases context with
    | none => simp
    | some ctx =>
      by_cases ha : p.type.accepts ctx = true
      · have ht : ctx.typeOf? = some p.type := (ParamType.accepts_iff p.type ctx).mp ha
        simp [ha, ht]
      · have ht : ctx.typeOf? ≠ some p.type := fun h => ha ((ParamType.accepts_iff p.type ctx).mpr h)
        simp [ha, ht]

/-- Typed values fit behind the context when they have the first of the command's own types. -/
theorem fits_iff_own (c : Command σ) (context : Option Value) (typed : List Value) :
    Fits c.parameters (c.injected context ++ typed) ↔
      typed.map Value.typeOf? <+: (c.own context).map some := by
  rw [fits_iff_types, c.types_eq context, List.map_append, List.prefix_append_right_inj]

/-- The values typed for a full command have exactly its own types. -/
theorem types_of_full {c : Command σ} {context : Option Value} {typed : List Value}
    (hfit : Fits c.parameters (c.injected context ++ typed))
    (hfull : (c.injected context ++ typed).length = c.parameters.length) :
    typed.map Value.typeOf? = (c.own context).map some := by
  have hprefix := (c.fits_iff_own context typed).mp hfit
  have hlen := congrArg List.length (c.types_eq context)
  simp only [List.length_map, List.length_append] at hlen hfull
  refine hprefix.eq_of_length ?_
  simp only [List.length_map]
  omega

/-- What was typed for a full command fits another exactly when the own types of the one begin
those of the other. -/
theorem fits_below_iff {above below : Command σ} {context : Option Value} {typed : List Value}
    (hfit : Fits above.parameters (above.injected context ++ typed))
    (hfull : (above.injected context ++ typed).length = above.parameters.length) :
    Fits below.parameters (below.injected context ++ typed) ↔
      above.own context <+: below.own context := by
  rw [below.fits_iff_own, types_of_full hfit hfull]
  exact List.prefix_map_iff_of_injective fun _ _ h => Option.some.inj h

end Command

/-! ### Places that words lead to -/

namespace Place

/-- A place holds the context, if its command takes it, and values typed for the command. -/
def IsSeated (context : Option Value) (p : Place σ) : Prop :=
  ∃ typed, Fits p.command.parameters (p.command.injected context ++ typed) ∧
    p = seated context p.node p.command typed

/-- A place with no parameter left is full. -/
theorem length_of_full {context : Option Value} {p : Place σ} {typed : List Value}
    (hfit : Fits p.command.parameters (p.command.injected context ++ typed))
    (hp : p = seated context p.node p.command typed) (hleft : p.chain.left = []) :
    (p.command.injected context ++ typed).length = p.command.parameters.length := by
  rw [hp, left_seated] at hleft
  exact Nat.le_antisymm hfit.length_le (List.drop_eq_nil_iff.mp hleft)

end Place

namespace Node

/-- Nothing but the want of a command goes wrong at the top level. -/
theorem enter_top_error {n : Node σ} {context : Option Value} {word : String} {e : DispatchError}
    (h : n.enter context [] word = .error e) : e = .noMatchingCommand word := by
  cases hchild : n.child word with
  | error e' =>
    rw [enter_of_child_error hchild] at h
    rw [← Except.error.inj h, child_error hchild]
  | ok found =>
    obtain ⟨child, command⟩ := found
    rw [enter_top hchild] at h
    cases h

end Node

/-- Words that do not fail lead to such a place, as they are decomposed. -/
theorem Dispatcher.isSeated_of_walk {d : Dispatcher σ} {context : Option Value}
    {words : List String} {p : Place σ} (hr : Recognisable context)
    (h : d.walk context words = .ok p) : p.IsSeated context := by
  have hfit := (grounded_of_walk h).fits
  obtain ⟨clauses, last, _, _, rfl⟩ := exists_decomposes_of_walk hr h
  exact ⟨clauses.flatMap Clause.values, hfit, rfl⟩

/-! ### Entries -/

/-- A moment in the resolution of a line: the words before lead to a command with no parameter
left, and the next word finds a command below it. -/
structure Entry (d : Dispatcher σ) (context : Option Value) (line : String) where
  before : List String
  word : String
  after : List String
  place : Place σ
  node : Node σ
  command : Command σ
  words_eq : Reader.wordsRead line = before ++ word :: after
  stands : d.walk context before = .ok place
  full : place.chain.nextType? = none
  finds : place.node.find? word = some node
  command_eq : node.command? = some command

namespace Entry

variable {d : Dispatcher σ} {context : Option Value} {line : String}

/-- The command below refuses the values carried to it. -/
def Refuses (m : Entry d context line) (source : ChainError) : Prop :=
  m.place.step d.parsers context m.word = .error (.incompatibleArguments m.command.name source)

/-- The own types of the command left begin those of the command entered. -/
def Compatible (m : Entry d context line) : Prop :=
  m.place.command.own context <+: m.command.own context

theorem left_eq_nil (m : Entry d context line) : m.place.chain.left = [] := by
  have hfull := m.full
  rw [Chain.nextType?_eq] at hfull
  cases hl : m.place.chain.left with
  | nil => rfl
  | cons slot more =>
    rw [hl] at hfull
    cases hfull

/-- An entry fails unless the own types of the command left begin those of the command
entered. -/
theorem fails_iff (m : Entry d context line) (hr : Recognisable context) :
    (∃ source, m.Refuses source) ↔ ¬ m.Compatible := by
  obtain ⟨typed, hfit, hp⟩ := Dispatcher.isSeated_of_walk hr m.stands
  have hfull := Place.length_of_full hfit hp m.left_eq_nil
  have hchild : m.place.node.child m.word = .ok (m.node, m.command) :=
    Node.child_eq_ok_iff.mpr ⟨m.finds, m.command_eq⟩
  have hbound : m.place.chain.bound = m.place.command.injected context ++ typed := by
    rw [hp]
    rfl
  have hstep : m.place.step d.parsers context m.word =
      m.place.node.enter context (m.place.command.injected context ++ typed) m.word := by
    rw [Place.step_of_left_nil m.left_eq_nil, hbound]
  rw [Node.enter_below hr hfit hchild] at hstep
  rw [Compatible, ← Command.fits_below_iff hfit hfull]
  constructor
  · intro hexists hfits
    obtain ⟨source, hrefuses⟩ := hexists
    have hb : m.command.chain.bindAll (m.command.injected context ++ typed) =
        .ok (m.command.holding (m.command.injected context ++ typed)) :=
      (Chain.bindAll_eq_ok_iff _ _ _).mpr ⟨hfits, rfl⟩
    rw [Refuses, hstep, hb] at hrefuses
    cases hrefuses
  · intro hfits
    cases hb : m.command.chain.bindAll (m.command.injected context ++ typed) with
    | ok chain => exact absurd ((Chain.bindAll_eq_ok_iff _ _ _).mp hb).1 hfits
    | error e =>
      refine ⟨e, ?_⟩
      rw [Refuses, hstep, hb]

/-- When an entry is refused, so is its line. -/
theorem resolve_of_refuses (m : Entry d context line) {source : ChainError}
    (h : m.Refuses source) :
    d.resolve context line = .error (.incompatibleArguments m.command.name source) :=
  Dispatcher.resolve_of_step m.words_eq m.stands h

end Entry

/-! ### Where values are refused -/

namespace Place

/-- With parsers that keep to their types no word is refused by an open parameter. -/
theorem left_of_incompatible {parsers : ParserRegistry} {context : Option Value} {p : Place σ}
    {word name : String} {source : ChainError} (hparsers : parsers.Faithful)
    (h : p.step parsers context word = .error (.incompatibleArguments name source)) :
    p.chain.left = [] := by
  cases hl : p.chain.left with
  | nil => rfl
  | cons slot more =>
    rw [step_of_left_cons hl] at h
    split at h
    next =>
      have he := Except.error.inj h
      cases he
    next v hv =>
      rw [if_pos (ParserRegistry.accepts_of_parse hparsers hv)] at h
      cases h

/-- A full place refuses values only where the word finds a command below. -/
theorem exists_child_of_incompatible {parsers : ParserRegistry} {context : Option Value}
    {p : Place σ} {word name : String} {source : ChainError} (hl : p.chain.left = [])
    (h : p.step parsers context word = .error (.incompatibleArguments name source)) :
    ∃ child command, p.node.child word = .ok (child, command) ∧ command.name = name := by
  rw [step_of_left_nil hl] at h
  cases hchild : p.node.child word with
  | error e =>
    rw [Node.enter_of_child_error hchild, Node.child_error hchild] at h
    have he := Except.error.inj h
    cases he
  | ok found =>
    obtain ⟨child, command⟩ := found
    rw [Node.enter_of_child hchild] at h
    split at h
    next =>
      have he := Except.error.inj h
      exact ⟨child, command, rfl, (DispatchError.incompatibleArguments.inj he).1⟩
    next => cases h

/-- Values are refused one by one, never for a lack of them. -/
theorem isRefusal_of_enter {n : Node σ} {context : Option Value} {carry : List Value}
    {word name : String} {source : ChainError}
    (h : n.enter context carry word = .error (.incompatibleArguments name source)) :
    source.IsRefusal := by
  cases hchild : n.child word with
  | error e =>
    rw [Node.enter_of_child_error hchild, Node.child_error hchild] at h
    have he := Except.error.inj h
    cases he
  | ok found =>
    obtain ⟨child, command⟩ := found
    rw [Node.enter_of_child hchild] at h
    split at h
    next e hseed =>
      have he := Except.error.inj h
      rw [← (DispatchError.incompatibleArguments.inj he).2]
      unfold Chain.seed at hseed
      split at hseed
      next => cases hseed
      next => exact Chain.isRefusal_of_bindAll hseed
    next => cases h

theorem isRefusal_of_step {parsers : ParserRegistry} {context : Option Value} {p : Place σ}
    {word name : String} {source : ChainError}
    (h : p.step parsers context word = .error (.incompatibleArguments name source)) :
    source.IsRefusal := by
  cases hl : p.chain.left with
  | nil =>
    rw [step_of_left_nil hl] at h
    exact isRefusal_of_enter h
  | cons slot more =>
    rw [step_of_left_cons hl] at h
    split at h
    next =>
      have he := Except.error.inj h
      cases he
    next =>
      split at h
      next => cases h
      next =>
        have he := Except.error.inj h
        rw [← (DispatchError.incompatibleArguments.inj he).2]
        trivial

end Place

/-- The own types of a node's command begin those of the commands right below it. -/
def Node.StartsThoseBelow (context : Option Value) (n : Node σ) : Prop :=
  ∀ key child above below, n.children.find? key = some child →
    n.command? = some above → child.command? = some below →
      above.own context <+: below.own context

namespace Dispatcher

variable {d : Dispatcher σ} {context : Option Value} {line : String}

/-- A fault other than the want of a command is found at a word behind the first, where the words
before it have led to. -/
theorem exists_step_of_fault {e : DispatchError} (h : d.resolve context line = .error e)
    (hfault : e.IsFault) (hfinds : ∀ word, e ≠ .noMatchingCommand word) :
    ∃ before word after place, Reader.wordsRead line = before ++ word :: after ∧
      d.walk context before = .ok place ∧ place.step d.parsers context word = .error e := by
  have hwalk := walk_of_fault h hfault
  cases hwords : Reader.wordsRead line with
  | nil =>
    rw [hwords, walk] at hwalk
    obtain rfl := Except.error.inj hwalk
    exact hfault.elim
  | cons first rest =>
    rw [hwords, walk] at hwalk
    rcases bind_eq_error_iff.mp hwalk with hfirst | ⟨start, hstart, hrest⟩
    · exact absurd (Node.enter_top_error hfirst) (hfinds first)
    · obtain ⟨before, word, after, place, hsplit, hbefore, hword⟩ :=
        foldlM_eq_error_iff.mp hrest
      refine ⟨first :: before, word, after, place, ?_, ?_, hword⟩
      · rw [hsplit, List.cons_append]
      · rw [walk]
        exact bind_eq_ok_iff.mpr ⟨start, hstart, hbefore⟩

/-- Arguments that do not fit are refused at such a word. -/
theorem exists_step_of_incompatible {name : String} {source : ChainError}
    (h : d.resolve context line = .error (.incompatibleArguments name source)) :
    ∃ before word after place, Reader.wordsRead line = before ++ word :: after ∧
      d.walk context before = .ok place ∧
      place.step d.parsers context word = .error (.incompatibleArguments name source) := by
  refine exists_step_of_fault h trivial fun word he => ?_
  cases he

/-- With parsers that keep to their types every refusal is that of a command which was entered
from an incompatible one. -/
theorem exists_entry_of_incompatible {name : String} {source : ChainError}
    (hr : Recognisable context) (hparsers : d.parsers.Faithful)
    (h : d.resolve context line = .error (.incompatibleArguments name source)) :
    ∃ m : Entry d context line, m.command.name = name ∧ m.Refuses source ∧ ¬ m.Compatible := by
  obtain ⟨before, word, after, place, hwords, hstands, hword⟩ := exists_step_of_incompatible h
  have hleft := Place.left_of_incompatible hparsers hword
  obtain ⟨child, command, hchild, hname⟩ := Place.exists_child_of_incompatible hleft hword
  obtain ⟨hfinds, hcommand⟩ := Node.child_eq_ok_iff.mp hchild
  have hfull : place.chain.nextType? = none := by
    rw [Chain.nextType?_eq, hleft]
    rfl
  let m : Entry d context line :=
    ⟨before, word, after, place, child, command, hwords, hstands, hfull, hfinds, hcommand⟩
  have hrefuses : m.Refuses source := by
    show place.step d.parsers context word = .error (.incompatibleArguments command.name source)
    rw [hname]
    exact hword
  exact ⟨m, hname, hrefuses, (m.fails_iff hr).mp ⟨source, hrefuses⟩⟩

/-- Each command's own types begin those of every command right below it. -/
def Layered (d : Dispatcher σ) (context : Option Value) : Prop :=
  d.root.Everywhere (Node.StartsThoseBelow context)

/-- In a layered tree every entry is compatible. -/
theorem compatible_of_layered (hd : d.Layered context) (m : Entry d context line) :
    m.Compatible := by
  have hplace := grounded_of_walk m.stands
  obtain ⟨keys, hkeys⟩ := hplace.inTree
  obtain ⟨key, hkey⟩ := Node.exists_key_of_find? m.finds
  exact hd keys m.place.node hkeys key m.node _ _ hkey hplace.command_eq m.command_eq

/-- Whether going down fails is decided by declarations alone. -/
theorem entries_decided (d : Dispatcher σ) {context : Option Value} (hr : Recognisable context) :
    (∀ line (m : Entry d context line), ((∃ source, m.Refuses source) ↔ ¬ m.Compatible) ∧
      ∀ source, m.Refuses source →
        d.resolve context line = .error (.incompatibleArguments m.command.name source)) ∧
    (d.parsers.Faithful → ∀ line name source,
      d.resolve context line = .error (.incompatibleArguments name source) →
        ∃ m : Entry d context line,
          m.command.name = name ∧ m.Refuses source ∧ ¬ m.Compatible) ∧
    (d.parsers.Faithful → d.Layered context → ∀ line name source,
      d.resolve context line ≠ .error (.incompatibleArguments name source)) ∧
    ∀ line name bound required,
      d.resolve context line ≠ .error (.incompatibleArguments name (.missingRequired bound required)) := by
  refine ⟨?_, ?_, ?_, ?_⟩
  · intro line m
    exact ⟨m.fails_iff hr, fun source => m.resolve_of_refuses⟩
  · intro hparsers line name source h
    exact exists_entry_of_incompatible hr hparsers h
  · intro hparsers hd line name source h
    obtain ⟨m, _, _, hm⟩ := exists_entry_of_incompatible hr hparsers h
    exact hm (compatible_of_layered hd m)
  · intro line name bound required h
    obtain ⟨_, _, _, place, _, _, hword⟩ := exists_step_of_incompatible h
    exact Place.isRefusal_of_step hword

/-- A till with a command for sales, which takes the clerk's name and an amount, and one below it
for exchanges, which takes two amounts. -/
def till : Dispatcher Unit :=
  let amount : Parameter := .required (.builtin (.int .i32))
  let sell : Command Unit :=
    ⟨"sell", [.required (.builtin .string), amount], fun _ s => (.done, s)⟩
  let exchange : Command Unit := ⟨"exchange", [amount, amount], fun _ s => (.done, s)⟩
  ⟨Node.root.addChild [] ((Node.leaf sell).addChild [] (.leaf exchange)), .empty⟩

/-- With the clerk as the context a sale can always become an exchange; without one, a sale for
which the clerk's name was typed cannot. -/
theorem entries_decided_till :
    (Recognisable (some (.ofString "ann")) ∧ till.parsers.Faithful ∧
      till.Layered (some (.ofString "ann")) ∧ ∀ line name source,
        till.resolve (some (.ofString "ann")) line ≠ .error (.incompatibleArguments name source)) ∧
    Recognisable none ∧ ∃ m : Entry till none "sell ann 3 exchange",
      m.command.name = "exchange" ∧ ¬ m.Compatible ∧
        ∃ source, till.resolve none "sell ann 3 exchange" =
          .error (.incompatibleArguments "exchange" source) := by
  have hann : Recognisable (some (.ofString "ann")) := by
    intro ctx h
    obtain rfl := Option.some.inj h
    decide
  have hnone : Recognisable none := fun _ h => nomatch h
  have hparsers : till.parsers.Faithful := ParserRegistry.faithful_empty
  have hlayered : till.Layered (some (.ofString "ann")) := by
    refine Node.everywhere_addChild rfl ?_ (Node.everywhere_root ?_)
      (Node.everywhere_addChild rfl ?_ (Node.everywhere_leaf ?_) (Node.everywhere_leaf ?_))
    · intro _ _ _ _ _ habove
      cases habove
    · intro _ _ _ _ hc
      cases hc
    · intro key child above below hc habove hbelow
      rw [Node.children_addChild [] rfl, Table.find?_insert] at hc
      split at hc
      next =>
        obtain rfl := Option.some.inj hc
        obtain rfl := Option.some.inj habove
        obtain rfl := Option.some.inj hbelow
        decide
      next => cases hc
    · intro _ _ _ _ hc
      cases hc
    · intro _ _ _ _ hc
      cases hc
  have hrefused : till.failure? none "sell ann 3 exchange" = some (.incompatibleArguments "exchange"
      (.typeMismatch (.builtin (.int .i32)) (some (.builtin .string)))) := by
    decide +kernel
  obtain ⟨_, _, hnever, _⟩ := entries_decided till hann
  obtain ⟨hentries, hcauses, _, _⟩ := entries_decided till hnone
  obtain ⟨m, hname, hm, hapart⟩ := hcauses hparsers _ _ _ (failure?_eq_some_iff.mp hrefused)
  have hresolve := (hentries _ m).2 _ hm
  rw [hname] at hresolve
  exact ⟨⟨hann, hparsers, hlayered, hnever hparsers hlayered⟩, hnone, m, hname, hapart, _, hresolve⟩

end Dispatcher

end Switchboard
