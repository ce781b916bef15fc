import Switchboard.Proofs.Registration.Agreement
import Switchboard.Proofs.Resolution.Offers

/-!
# What registering a parser changes

A parser changes what becomes of texts that are offered to its type, and that
is all. One for a built-in type is never asked, so nothing that is done later
comes out differently. One for a custom type may be registered before or after
a group, unless the group declares a default text of that type. Once the tree
is finished, a line can only resolve differently where a word of it is offered
to the parser; the defaults stay as they were read.

* `Dispatcher.Alike`, `Registrar.Alike`: nothing that can be done tells two of them apart
* `alike_registerParser_builtin`: with and without a parser for a built-in type
* `register_registerParser`: a parser and a group, in either order
* `exists_offers_of_registerParser`: a line that resolves differently with the parser
* `registerParser_changes`: all of this
-/

namespace Switchboard

variable {σ : Type}

/-! ### Dispatchers and registrars alike -/

namespace Dispatcher

/-- The dispatcher after parsers were registered one by one. -/
def registerAll (d : Dispatcher σ) (later : List (ParamType × Parser)) : Dispatcher σ :=
  later.foldl (fun d next => d.registerParser next.1 next.2) d

/-- Two dispatchers read every text and resolve every line alike. -/
structure Alike (d d' : Dispatcher σ) : Prop where
  parse_eq : ∀ input type, d.parsers.parse input type = d'.parsers.parse input type
  has_eq : ∀ type, d.parsers.has type = d'.parsers.has type
  resolve_eq : ∀ context line, d.resolve context line = d'.resolve context line

variable {d d' : Dispatcher σ}

/-- Over one tree, dispatchers whose parsers agree on every type are alike. -/
theorem alike_of_agreeOn (hroot : d.root = d'.root)
    (h : d.parsers.AgreeOn (fun _ => True) d'.parsers) : d.Alike d' := by
  refine ⟨fun input type => h.parse_eq type trivial input, fun type => h.has_eq type trivial, ?_⟩
  intro context line
  by_contra hne
  obtain ⟨type, o, _, _, _, _, hparse⟩ := exists_offers_of_ne hroot hne
  exact hparse (h.parse_eq type trivial o.word)

/-- Parsers that are registered with both keep them alike. -/
theorem alike_registerAll (hroot : d.root = d'.root)
    (h : d.parsers.AgreeOn (fun _ => True) d'.parsers) (later : List (ParamType × Parser)) :
    (d.registerAll later).Alike (d'.registerAll later) := by
  induction later generalizing d d' with
  | nil => exact alike_of_agreeOn hroot h
  | cons next later ih => exact ih hroot (h.register next.1 next.2)

end Dispatcher

namespace Registrar

/-- Two registrars hold one tree, read every text and register every group alike, and so do the
dispatchers they finish as, whatever parsers are registered there. -/
structure Alike (r r' : Registrar σ) : Prop where
  root_eq : r.root = r'.root
  parse_eq : ∀ input type, r.parsers.parse input type = r'.parsers.parse input type
  has_eq : ∀ type, r.parsers.has type = r'.parsers.has type
  register_eq : ∀ specs,
    (r.register specs).map Registrar.root = (r'.register specs).map Registrar.root
  finish : ∀ later, (r.finish.registerAll later).Alike (r'.finish.registerAll later)

theorem Agree.alike {r r' : Registrar σ} (h : r.Agree (fun _ => True) r') : r.Alike r' := by
  constructor
  · exact h.root_eq
  · intro input type
    exact h.parsers.parse_eq type trivial input
  · intro type
    exact h.parsers.has_eq type trivial
  · intro specs
    exact h.map_root_register fun _ _ _ _ _ _ => trivial
  · intro later
    exact Dispatcher.alike_registerAll h.root_eq h.parsers later

end Registrar

/-! ### Built-in types -/

/-- A parser for a built-in type makes no difference to what is done later. -/
theorem Registrar.alike_registerParser_builtin (r : Registrar σ) (s : Scalar) (parser : Parser)
    (calls : List (Call σ)) :
    (calls.foldl perform (r.registerParser (.builtin s) parser)).Alike (calls.foldl perform r) := by
  have hagree : (r.registerParser (.builtin s) parser).Agree (fun _ => True) r :=
    ⟨rfl, r.parsers.agreeOn_register_builtin s parser⟩
  exact (hagree.foldl fun _ _ _ _ _ _ _ _ => trivial).alike

theorem Dispatcher.alike_registerParser_builtin (d : Dispatcher σ) (s : Scalar) (parser : Parser)
    (later : List (ParamType × Parser)) :
    ((d.registerParser (.builtin s) parser).registerAll later).Alike (d.registerAll later) := by
  have hroot : (d.registerParser (.builtin s) parser).root = d.root := rfl
  exact alike_registerAll hroot (d.parsers.agreeOn_register_builtin s parser) later

/-! ### Groups -/

namespace Registrar

variable {type : ParamType} {specs : List (CommandSpec σ)}

/-- A parser may be registered before or after a group that declares no default text of its
type. -/
theorem register_registerParser (r : Registrar σ) (parser : Parser)
    (hspecs : ∀ spec ∈ specs, spec.DeclaresTextsIn (· ≠ type)) :
    (r.registerParser type parser).register specs =
      (r.register specs).map fun next => next.registerParser type parser := by
  have hagree : (r.registerParser type parser).Agree (· ≠ type) r :=
    ⟨rfl, r.parsers.agreeOn_register type parser⟩
  rw [hagree.register_congr hspecs]
  cases hregister : r.register specs with
  | error e => rfl
  | ok next =>
    show Except.ok { next with parsers := r.parsers.register type parser } =
      Except.ok { next with parsers := next.parsers.register type parser }
    rw [parsers_register hregister]

/-- The same of the registrar that is left, be the group registered or not. -/
theorem perform_registerParser (r : Registrar σ) (parser : Parser)
    (hspecs : ∀ spec ∈ specs, spec.DeclaresTextsIn (· ≠ type)) :
    (r.registerParser type parser).perform (.commands specs) =
      (r.perform (.commands specs)).registerParser type parser := by
  rw [perform, perform, register_registerParser r parser hspecs]
  cases r.register specs with
  | error e => rfl
  | ok next => rfl

end Registrar

/-! ### Lines -/

/-- A line resolves differently with the parser only where, with and without it, one word of the
line is offered for its type, and the parser makes something else of that word. -/
theorem Dispatcher.exists_offers_of_registerParser {d : Dispatcher σ} {context : Option Value}
    {line tag : String} {parser : Parser}
    (h : d.resolve context line ≠
      (d.registerParser (.custom tag) parser).resolve context line) :
    ∃ (o : Offer d context line (.custom tag))
      (o' : Offer (d.registerParser (.custom tag) parser) context line (.custom tag)),
      o'.before = o.before ∧ o'.word = o.word ∧ o'.place = o.place ∧
        d.parsers.parse o.word (.custom tag) ≠ parser o.word := by
  have hroot : d.root = (d.registerParser (.custom tag) parser).root := rfl
  obtain ⟨type, o, o', hbefore, hword, hplace, hparse⟩ := exists_offers_of_ne hroot h
  change d.parsers.parse o.word type ≠
    (d.parsers.register (.custom tag) parser).parse o.word type at hparse
  by_cases htype : .custom tag = type
  · subst htype
    rw [ParserRegistry.parse_register_self] at hparse
    exact ⟨o, o', hbefore, hword, hplace, hparse⟩
  · rw [ParserRegistry.parse_register_of_ne _ _ _ htype] at hparse
    exact absurd rfl hparse

/-- What a parser changes. For a built-in type nothing, whatever is done later with the registrar
or the dispatcher. For a custom type, no group without a default text of that type: it is
registered, or not, as before, and parser and group may come in either order. And no line, unless
a word of it is offered for the type at the same place with and without the parser; the tree and
its defaults are the same. -/
theorem registerParser_changes (parser : Parser) :
    (∀ (r : Registrar σ) s (calls : List (Registrar.Call σ)),
      (calls.foldl Registrar.perform (r.registerParser (.builtin s) parser)).Alike
        (calls.foldl Registrar.perform r)) ∧
    (∀ (d : Dispatcher σ) s later,
      ((d.registerParser (.builtin s) parser).registerAll later).Alike (d.registerAll later)) ∧
    (∀ (r : Registrar σ) tag specs,
      (∀ spec ∈ specs, ∀ d ∈ spec.declarations, d.type = .custom tag →
        ∀ content, d.default? ≠ some (.text content)) →
      (r.registerParser (.custom tag) parser).register specs =
          (r.register specs).map (fun next => next.registerParser (.custom tag) parser) ∧
        (r.registerParser (.custom tag) parser).perform (.commands specs) =
          (r.perform (.commands specs)).registerParser (.custom tag) parser) ∧
    ∀ (d : Dispatcher σ) tag, (d.registerParser (.custom tag) parser).root = d.root ∧
      ∀ context line, d.resolve context line ≠
          (d.registerParser (.custom tag) parser).resolve context line →
        ∃ (o : Offer d context line (.custom tag))
          (o' : Offer (d.registerParser (.custom tag) parser) context line (.custom tag)),
          o'.before = o.before ∧ o'.word = o.word ∧ o'.place = o.place ∧
            d.parsers.parse o.word (.custom tag) ≠ parser o.word := by
  refine ⟨?_, ?_, ?_, ?_⟩
  · intro r s calls
    exact r.alike_registerParser_builtin s parser calls
  · intro d s later
    exact d.alike_registerParser_builtin s parser later
  · intro r tag specs hspecs
    have htexts : ∀ spec ∈ specs, spec.DeclaresTextsIn (· ≠ .custom tag) :=
      fun spec hspec d hd content hcontent htype => hspecs spec hspec d hd htype content hcontent
    exact ⟨r.register_registerParser parser htexts, r.perform_registerParser parser htexts⟩
  · intro d tag
    refine ⟨rfl, fun context line h => ?_⟩
    exact Dispatcher.exists_offers_of_registerParser h

/-- A parser of points. -/
def readPoint : Parser :=
  fun content => .ok (.custom ⟨"point", 0, .text content⟩)

/-- A command that marks a point, and another one if it is given. -/
def mark : CommandSpec Unit :=
  ((CommandSpec.ofName "mark" fun _ s => (.done, s)).require (.custom "point")).defaultToNull
    (.custom "point")

/-- As a parser of booleans it makes no difference. As one of points it may be registered before
the command or after it, and a word that is offered for a point is read then. -/
theorem registerParser_changes_mark :
    ([.commands [mark]].foldl Registrar.perform
        (Registrar.empty.registerParser (.builtin .bool) readPoint)).Alike
      (Registrar.built [.commands [mark]]) ∧
    (Registrar.empty.registerParser (.custom "point") readPoint).perform (.commands [mark]) =
      (Registrar.built [.commands [mark]]).registerParser (.custom "point") readPoint ∧
    ∃ o : Offer (Registrar.built [.commands [mark]]).finish none "mark home" (.custom "point"),
      (Registrar.built [.commands [mark]]).finish.parsers.parse o.word (.custom "point") ≠
        readPoint o.word := by
  obtain ⟨hbuiltin, _, hgroups, hlines⟩ := registerParser_changes (σ := Unit) readPoint
  refine ⟨hbuiltin .empty .bool [.commands [mark]], ?_, ?_⟩
  · refine (hgroups .empty "point" [mark] ?_).2
    intro spec hspec d hd _ content hcontent
    obtain rfl := List.mem_singleton.mp hspec
    rcases List.mem_cons.mp hd with rfl | hd
    · cases hcontent
    · obtain rfl := List.mem_singleton.mp hd
      cases hcontent
  · obtain ⟨_, hoffers⟩ := hlines (Registrar.built [.commands [mark]]).finish "point"
    obtain ⟨o, _, _, _, _, hparse⟩ := hoffers none "mark home" fun hsame => by
      have hwithout : ((Registrar.built [.commands [mark]]).finish.resolve none
          "mark home").toOption.isSome = false := by
        decide +kernel
      have hwith : (((Registrar.built [.commands [mark]]).finish.registerParser (.custom "point")
          readPoint).resolve none "mark home").toOption.isSome = true := by
        decide +kernel
      rw [hsame, hwith] at hwithout
      cases hwithout
    exact ⟨o, hparse⟩

end Switchboard
