import Switchboard.Proofs.Registration.Consistent
import Switchboard.Proofs.Resolution.Checked

/-!
# Defaults left out or typed

A default is read when its command is registered, and a word when a line is
resolved. For a built-in type both go to the same parser, so it makes no
difference whether defaults are left out at the end of a line or typed there,
the first ones or all of them: the command and its arguments are the same.

* `supplied?`: how many arguments a line supplies to the command it leads to
* `readAs_fallbacks`: the texts of declared defaults are read as the stored defaults
* `settle_of_fallbacks`: with defaults bound a place is settled as without them
* `resolve_defaults_typed`: a line that resolves, and the line with its defaults typed
-/

namespace Switchboard

variable {σ : Type}

/-! ### Declared texts -/

namespace Declaration

/-- A declaration of a built-in type with a default that is declared by one word. The word `null`
declares no value and is not meant. -/
structure HasWord (d : Declaration) (text : String) : Prop where
  isBuiltin : d.type.isBuiltin = true
  default_eq : d.default? = some (.text text)
  isWord : Text.IsWord text

/-- What is read as the default of a built-in type is read of its text at any other time. -/
theorem HasWord.parse_eq {d : Declaration} {text command : String} {parsers : ParserRegistry}
    {v : Value} (h : d.HasWord text) (hread : d.readDefault parsers command = .ok (some v))
    (others : ParserRegistry) : others.parse text d.type = .ok v ∧ d.type.accepts v = true := by
  cases htype : d.type with
  | custom tag =>
    have hbuiltin := h.isBuiltin
    rw [htype] at hbuiltin
    cases hbuiltin
  | builtin s =>
    have hparse : parsers.parse text (.builtin s) = .ok v := by
      rcases readDefault_eq_some_iff.mp hread with ⟨hnull, _⟩ | ⟨content, hcontent, _, hparse⟩
      · rw [h.default_eq] at hnull
        cases hnull
      · rw [h.default_eq] at hcontent
        obtain rfl := DeclaredDefault.text.inj (Option.some.inj hcontent)
        rwa [htype] at hparse
    exact ⟨hparse, (ParamType.accepts_iff _ v).mpr (ParserRegistry.typeOf_of_parse_builtin hparse)⟩

end Declaration

/-- The texts of declared defaults are read as the defaults that were stored. -/
theorem readAs_fallbacks {parsers : ParserRegistry} {command : String} {ds : List Declaration}
    {ps : List Parameter} {texts : List String}
    (hreads : List.Forall₂ (Declaration.Reads parsers command) ds ps)
    (hopen : ∀ p ∈ ps, p.isRequired = false)
    (htexts : List.Forall₂ Declaration.HasWord (ds.take texts.length) texts)
    (others : ParserRegistry) :
    ReadAs others ps texts ((ps.take texts.length).map Parameter.fallback) := by
  induction texts generalizing ds ps with
  | nil => exact .nil ps
  | cons text texts ih =>
    cases hreads with
    | nil => cases htexts
    | @cons d p ds ps hd hds =>
      rw [List.length_cons, List.take_succ_cons] at htexts
      obtain ⟨hword, hwords⟩ := List.forall₂_cons.mp htexts
      obtain ⟨hopen, hopens⟩ := List.forall_mem_cons.mp hopen
      obtain ⟨hparse, haccepts⟩ := hword.parse_eq (hd.of_fallback hopen) others
      rw [← hd.type_eq] at hparse haccepts
      exact .cons hparse haccepts (ih hds hopens hwords)

/-! ### Arguments -/

/-- The defaults of the next parameters may be bound or left to be filled in. -/
theorem Command.filled_append_fallbacks (c : Command σ) (values : List Value) (n : Nat) :
    c.filled (values ++ ((c.parameters.drop values.length).take n).map Parameter.fallback) =
      c.filled values := by
  have hrest : c.parameters.drop (values.length +
      ((c.parameters.drop values.length).take n).length) =
      (c.parameters.drop values.length).drop n := by
    rw [← List.drop_drop, List.length_take]
    by_cases hn : n ≤ (c.parameters.drop values.length).length
    · rw [Nat.min_eq_left hn]
    · have hle : (c.parameters.drop values.length).length ≤ n := Nat.le_of_not_le hn
      rw [Nat.min_eq_right hle, List.drop_length, List.drop_of_length_le hle]
  rw [filled, filled, List.length_append, List.length_map, hrest, List.append_assoc,
    ← List.map_append, List.take_append_drop]

namespace Place.Grounded

variable {root : Node σ} {p : Place σ}

theorem left_eq (hp : p.Grounded root) :
    p.chain.left = p.command.parameters.drop p.chain.bound.length :=
  congrArg Chain.left hp.chain_eq

/-- With other values bound, the place is what its command is with them. -/
theorem rebound (hp : p.Grounded root) (values : List Value) :
    { p with chain := { p.chain with bound := values } } =
      (⟨p.node, p.command, p.command.holding values⟩ : Place σ) := by
  have hchain := congrArg (fun chain : Chain => { chain with bound := values }) hp.chain_eq
  exact congrArg (Place.mk p.node p.command) hchain

/-- With some of its defaults bound, a place that can be settled is settled alike. -/
theorem settle_of_fallbacks (hp : p.Grounded root) {line : String} {r : Resolved σ}
    (h : p.settle line = .ok r) (n : Nat) (other : String) :
    settle { p with chain := { p.chain with
      bound := p.chain.bound ++ (p.chain.left.take n).map Parameter.fallback } } other = .ok r := by
  rw [hp.settle_eq] at h
  split at h
  next => cases h
  next hlen =>
    have hlonger : ¬ (p.chain.bound ++
        (p.chain.left.take n).map Parameter.fallback).length < p.command.boundary := by
      rw [List.length_append]
      omega
    rw [hp.rebound, settle_holding, if_neg hlonger, hp.left_eq, Command.filled_append_fallbacks, h]

end Place.Grounded

/-! ### Lines -/

namespace Dispatcher

variable {d : Dispatcher σ} {context : Option Value} {line : String}

/-- The number of arguments that a line supplies to the command it leads to: the context, if the
command takes it, and the values typed. -/
def supplied? (d : Dispatcher σ) (context : Option Value) (line : String) : Option Nat :=
  (d.walk context (Reader.wordsRead line)).toOption.map fun place => place.chain.cursor

/-- A line whose words lead somewhere is not blank: the one word of a blank line is empty, and
nothing is found under it. -/
theorem exists_ne_space_of_walk {place : Place σ} (hroot : d.root.Keyed)
    (h : d.walk context (Reader.wordsRead line) = .ok place) : ∃ c ∈ line.toList, c ≠ ' ' := by
  by_contra hblank
  push Not at hblank
  rw [Reader.wordsRead_eq] at h
  rcases Reader.wordsOf_of_blank hblank with hnil | hempty
  · rw [hnil] at h
    cases h
  · rw [hempty, walk_empty hroot] at h
    cases h

/-- Words put behind a line go on from where the line leads. -/
theorem walk_written {place : Place σ} {words : List (Nat × String)}
    (hline : ∃ c ∈ line.toList, c ≠ ' ') (hwords : ∀ next ∈ words, Text.IsWord next.2)
    (h : d.walk context (Reader.wordsRead line) = .ok place) :
    d.walk context (Reader.wordsRead (Text.written line words)) =
      (words.map Prod.snd).foldlM (Place.step d.parsers context) place := by
  rw [Reader.wordsRead_eq] at h ⊢
  rw [Reader.wordsOf_written hline hwords, walk_append d context _ (ne_nil_of_walk h), h]
  rfl

/-- Words that are read as the defaults of the parameters left open change nothing. -/
theorem resolve_written_fallbacks {place : Place σ} {r : Resolved σ} {words : List (Nat × String)}
    (hroot : d.root.Keyed) (hwords : ∀ next ∈ words, Text.IsWord next.2)
    (hwalk : d.walk context (Reader.wordsRead line) = .ok place)
    (hsettle : place.settle line = .ok r)
    (hread : ReadAs d.parsers place.chain.left (words.map Prod.snd)
      ((place.chain.left.take words.length).map Parameter.fallback)) :
    d.resolve context (Text.written line words) = .ok r := by
  have hline := exists_ne_space_of_walk hroot hwalk
  rw [resolve_eq, walk_written hline hwords hwalk, Place.foldlM_step_of_left hread]
  exact (grounded_of_walk hwalk).settle_of_fallbacks hsettle _ _

end Dispatcher

namespace Registrar

variable {calls : List (Call σ)} {d : Dispatcher σ} {context : Option Value} {line : String}

/-- From some parameter on, all of them with defaults, the texts declared for the first ones are
read as what the command has stored. -/
theorem readAs_of_declares {spec : CommandSpec σ} {command : Command σ} {n : Nat}
    {texts : List String} (h : Declares calls spec command) (hboundary : command.boundary ≤ n)
    (htexts : List.Forall₂ Declaration.HasWord ((spec.declarations.drop n).take texts.length) texts)
    (others : ParserRegistry) :
    ReadAs others (command.parameters.drop n) texts
      (((command.parameters.drop n).take texts.length).map Parameter.fallback) := by
  obtain ⟨parsers, hreads⟩ := h.exists_reads
  exact readAs_fallbacks (List.forall₂_drop n hreads)
    (Command.not_isRequired_of_boundary_le hboundary) htexts others

/-- A line that resolves and leaves arguments out resolves to the same command with the same
arguments when the first of the declared defaults are typed behind it. Here the tree was built by
calls on a registrar; parsers may have been registered since. -/
theorem resolve_defaults_typed (hroot : d.root = (built calls).root) {r : Resolved σ}
    (h : d.resolve context line = .ok r) :
    ∃ supplied, d.supplied? context line = some supplied ∧
      supplied ≤ r.command.parameters.length ∧
      r.args.values.drop supplied =
        (r.command.parameters.drop supplied).map Parameter.fallback ∧
      (∃ spec, Declares calls spec r.command) ∧
      ∀ spec, Declares calls spec r.command → ∀ words : List (Nat × String),
        List.Forall₂ Declaration.HasWord ((spec.declarations.drop supplied).take words.length)
          (words.map Prod.snd) →
        d.resolve context (Text.written line words) = .ok r := by
  obtain ⟨p, hwalk, hsettle⟩ := Dispatcher.walk_of_resolve h
  have hp := Dispatcher.grounded_of_walk hwalk
  have hresolved := hsettle
  rw [hp.settle_eq] at hresolved
  split at hresolved
  next => cases hresolved
  next hlen =>
    obtain rfl := Except.ok.inj hresolved
    refine ⟨p.chain.bound.length, ?_, hp.fits.length_le, List.drop_left, ?_, ?_⟩
    · rw [Dispatcher.supplied?, hwalk]
      rfl
    · obtain ⟨keys, hkeys⟩ := hp.inTree
      rw [hroot] at hkeys
      exact exists_declares calls keys p.node hkeys p.command hp.command_eq
    · intro spec hdeclares words hwords
      have hkeyed : d.root.Keyed := by
        rw [hroot]
        exact (reachable_built calls).keyed.here
      have htexts : ∀ next ∈ words, Text.IsWord next.2 := by
        intro next hnext
        obtain ⟨_, _, hword⟩ := exists_left_of_forall₂ hwords (List.mem_map_of_mem hnext)
        exact hword.isWord
      rw [← List.length_map Prod.snd] at hwords
      have hread := readAs_of_declares hdeclares (Nat.le_of_not_lt hlen) hwords d.parsers
      rw [← hp.left_eq, List.length_map] at hread
      exact Dispatcher.resolve_written_fallbacks hkeyed htexts hwalk hsettle hread

/-- A command that serves something under a name, at a port and with a limit that is no number
unless they are given, for a session if there is one. -/
def serve : CommandSpec Unit :=
  ((((CommandSpec.ofName "serve" fun _ s => (.done, s)).require (.builtin .string)).defaultTo
    (.builtin (.int .i32)) "+8080").defaultTo (.builtin (.float .double)) "NaN").defaultToNull
    (.custom "session")

/-- With the port and the limit typed the command gets what it got without. -/
theorem resolve_defaults_typed_serve :
    ∃ r, (built [.commands [serve]]).finish.resolve none "serve fast" = .ok r ∧
      (built [.commands [serve]]).finish.supplied? none "serve fast" = some 1 ∧
      r.args.text = "[fast, 8080, NaN, null]" ∧
      (built [.commands [serve]]).finish.resolve none "serve fast +8080  NaN" = .ok r := by
  have hrun : ((built [.commands [serve]]).finish.resolve none "serve fast").toOption.map
      (fun r => r.args.text) = some "[fast, 8080, NaN, null]" := by
    decide +kernel
  have hsupplied : (built [.commands [serve]]).finish.supplied? none "serve fast" = some 1 := by
    decide +kernel
  cases hresolve : (built [.commands [serve]]).finish.resolve none "serve fast" with
  | error e =>
    rw [hresolve] at hrun
    cases hrun
  | ok r =>
    rw [hresolve] at hrun
    obtain ⟨supplied, hsome, _, _, ⟨spec, hspec⟩, htyped⟩ := resolve_defaults_typed rfl hresolve
    obtain rfl : 1 = supplied := Option.some.inj (hsupplied.symm.trans hsome)
    obtain ⟨call, hcall, hmem⟩ := hspec.exists_call
    obtain rfl := List.mem_singleton.mp hcall
    obtain rfl : spec = serve := List.mem_singleton.mp hmem
    refine ⟨r, rfl, hsupplied, Option.some.inj hrun, ?_⟩
    refine htyped serve hspec [(0, "+8080"), (1, "NaN")] (.cons ⟨rfl, rfl, ?_⟩
      (.cons ⟨rfl, rfl, ?_⟩ .nil))
    · decide
    · decide

end Registrar

end Switchboard
