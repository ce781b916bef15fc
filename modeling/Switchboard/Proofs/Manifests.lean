import Switchboard.Manifest
import Switchboard.Proofs.Registration.Defaults
import Switchboard.Proofs.Registration.Failure
import Switchboard.Proofs.Resolution.Offers

/-!
# What a valid manifest can still fail with

A manifest is checked before anything is registered: its command names are
valid, and its parameters have built-in types or the type of the session. The
rest is found later. Aliases, parents and declared defaults are looked at when
the commands are registered, where no type has a parser but the built-in ones,
and what is typed when a line is dispatched. A session is then supplied by the
context, to a first parameter only.

* `paramType_of_isKnown`: the types of a valid manifest
* `Manifest.Failure`: what can be wrong with a valid manifest
* `failure_of_register`: nothing else is reported when it is registered
* `register_validated`: the same, and the one type that lines lack a parser for
-/

namespace Switchboard

/-! ### Declared parameters -/

namespace ParamEntry

/-- A known type is built in or the type of the session. -/
theorem paramType_of_isKnown {p : ParamEntry} (h : p.isKnown = true) :
    (∃ s, p.paramType = .builtin s) ∨ p.paramType = .custom sessionTag := by
  unfold isKnown at h
  cases htype : p.paramType with
  | builtin s => exact .inl ⟨s, rfl⟩
  | custom tag =>
    right
    rw [htype] at h
    have htag : tag = sessionTag := by simpa [ParamType.isBuiltin, ParamType.name] using h
    rw [htag]

theorem type_declaration (p : ParamEntry) : p.declaration.type = p.paramType := by
  rw [declaration]

/-- A text that is declared is the one in the manifest, and not the word for null. -/
theorem default_of_declaration {p : ParamEntry} {content : String}
    (h : p.declaration.default? = some (.text content)) :
    p.default? = some content ∧ content ≠ "null" := by
  obtain ⟨given, hgiven, htext⟩ := Option.map_eq_some_iff.mp h
  unfold DeclaredDefault.ofText at htext
  split at htext
  next => cases htext
  next hne =>
    obtain rfl := DeclaredDefault.text.inj htext
    exact ⟨hgiven, hne⟩

end ParamEntry

/-! ### Registration -/

namespace Manifest

/-- What can be wrong with the commands of a valid manifest: an alias that is no valid name, a
parent that is missing, a default text that its built-in type refuses, and a default text for a
session, which nothing reads. -/
inductive Failure (m : Manifest) : RegistrationError → Prop
  | invalidAlias {c : CommandEntry} {name : String} : c ∈ m.commands → name ∈ c.aliases.names →
      isValidName name = false → Failure m (.invalidName name)
  | parent {c : CommandEntry} {parent : String} : c ∈ m.commands →
      Failure m (.missingParent c.name parent)
  | default {c : CommandEntry} {p : ParamEntry} {content : String} {s : Scalar}
      {source : ParseError} : c ∈ m.commands → p ∈ c.params → p.default? = some content →
      content ≠ "null" → p.paramType = .builtin s → s.parse content = .error source →
      Failure m (.invalidDefault c.name source)
  | session {c : CommandEntry} {p : ParamEntry} {content : String} : c ∈ m.commands →
      p ∈ c.params → p.default? = some content → content ≠ "null" →
      p.paramType = .custom sessionTag → Failure m (.noParser c.name (.custom sessionTag))

variable {m : Manifest} {e : RegistrationError}

/-- What is wrong with a default of a valid manifest. -/
theorem failure_of_default {c : CommandEntry} (hvalid : m.validate = .ok ()) (hc : c ∈ m.commands)
    {d : Declaration} (hd : d ∈ c.spec.declarations) (h : d.Fault .empty c.name e) :
    m.Failure e := by
  obtain ⟨p, hp, rfl⟩ := List.mem_map.mp hd
  have hknown := ((validate_eq_ok_iff m).mp hvalid c hc).2 p hp
  have htypes := ParamEntry.paramType_of_isKnown hknown
  cases h with
  | noParser hdefault hhas =>
    obtain ⟨hcontent, hne⟩ := ParamEntry.default_of_declaration hdefault
    rw [ParamEntry.type_declaration] at hhas ⊢
    rcases htypes with ⟨s, htype⟩ | htype
    · rw [htype] at hhas
      cases hhas
    · rw [htype]
      exact .session hc hp hcontent hne htype
  | @invalidDefault content source hdefault hhas hparse =>
    obtain ⟨hcontent, hne⟩ := ParamEntry.default_of_declaration hdefault
    rw [ParamEntry.type_declaration] at hhas hparse
    rcases htypes with ⟨s, htype⟩ | htype
    · rw [htype, ParserRegistry.parse_builtin] at hparse
      refine .default hc hp hcontent hne htype ?_
      cases hread : s.parse content with
      | error source =>
        rw [hread] at hparse
        exact congrArg Except.error (Except.error.inj hparse)
      | ok x =>
        rw [hread] at hparse
        cases hparse
    · rw [htype] at hhas
      cases hhas

/-- A valid manifest is registered, or fails in one of these ways. -/
theorem failure_of_register (hvalid : m.validate = .ok ()) (h : m.register = .error e) :
    m.Failure e := by
  rcases Registrar.register_eq_error_iff.mp h with hfault | ⟨_, spec, tree, horphaned, rfl⟩
  · obtain ⟨before, spec, after, hsplit, _, hfault⟩ := hfault
    have hspec : spec ∈ m.specs := List.mem_iff_append.mpr ⟨before, after, hsplit⟩
    obtain ⟨c, hc, rfl⟩ := List.mem_map.mp hspec
    cases hfault with
    | name hname =>
      have hvalidName : isValidName c.spec.name = true := ((validate_eq_ok_iff m).mp hvalid c hc).1
      rw [hname] at hvalidName
      cases hvalidName
    | @other before after name _ haliases _ hname =>
      have hmem : name ∈ c.spec.aliases := List.mem_iff_append.mpr ⟨before, after, haliases⟩
      exact .invalidAlias hc hmem hname
    | @default before after d _ _ _ hdeclarations _ hd =>
      have hmem : d ∈ c.spec.declarations :=
        List.mem_iff_append.mpr ⟨before, after, hdeclarations⟩
      exact failure_of_default hvalid hc hmem hd
  · obtain ⟨done, todo, _, horder, _⟩ := horphaned
    have hspec : spec ∈ CommandSpec.inOrder m.specs :=
      List.mem_iff_append.mpr ⟨done, todo, horder⟩
    obtain ⟨c, hc, rfl⟩ := List.mem_map.mp (CommandSpec.mem_inOrder.mp hspec)
    exact .parent hc

/-- The names of commands are not what is wrong. -/
theorem ne_invalidName_of_validate (hvalid : m.validate = .ok ()) {c : CommandEntry}
    (hc : c ∈ m.commands) : m.register ≠ .error (.invalidName c.name) := by
  intro h
  cases failure_of_register hvalid h with
  | invalidAlias _ _ hname =>
    rw [((validate_eq_ok_iff m).mp hvalid c hc).1] at hname
    cases hname

/-- Nor is any type but that of the session. -/
theorem type_of_noParser (hvalid : m.validate = .ok ()) {command : String} {type : ParamType}
    (h : m.register = .error (.noParser command type)) : type = .custom sessionTag := by
  cases failure_of_register hvalid h with
  | session => rfl

end Manifest

/-! ### Lines -/

/-- No built-in type refuses a text for want of a parser. -/
theorem Scalar.refusal_ne (s : Scalar) (tag : String) :
    s.refusal ≠ s!"no parser for type '{tag}'" := by
  intro h
  have hrefusal : s.refusal.toList.take 3 = ['n', 'o', 't'] := by
    cases s <;> simp only [refusal] <;> rfl
  have hnone : (s!"no parser for type '{tag}'").toList.take 3 = ['n', 'o', ' '] := by
    rw [String.toList_append, String.toList_append]
    rfl
  rw [h, hnone] at hrefusal
  cases hrefusal

/-- Without parsers of custom types, the types that lack one are the custom ones. -/
theorem ParserRegistry.parse_empty_eq_error {input tag : String} {type : ParamType} {e : ParseError}
    (h : empty.parse input type = .error e) (hreason : e.reason = s!"no parser for type '{tag}'") :
    ∃ other, type = .custom other ∧ e = ⟨s!"no parser for type '{other}'", input⟩ := by
  cases type with
  | custom other => exact ⟨other, rfl, (Except.error.inj h).symm⟩
  | builtin s =>
    have hrefusal : e.reason = s.refusal := by
      rw [parse_builtin, Scalar.parse] at h
      cases hread : s.read? input with
      | some x =>
        rw [hread] at h
        cases h
      | none =>
        rw [hread] at h
        rw [← Except.error.inj h]
    exact absurd (hrefusal.symm.trans hreason) (s.refusal_ne tag)

/-- A text that does not parse keeps the handler from being run. -/
theorem Dispatcher.resolve_of_dispatch {σ : Type} {d : Dispatcher σ} {context : Option Value}
    {line : String} {state : σ} {e : ParseError}
    (h : (d.dispatch context line state).1 = .finished (.error (.parse e))) :
    d.resolve context line = .error (.parse e) := by
  unfold dispatch at h
  split at h
  next e' hresolve => rw [hresolve, Except.error.inj (Completion.finished.inj h)]
  next r _ =>
    unfold Resolved.execute at h
    split at h
    next =>
      have hdone := Completion.finished.inj h
      cases hdone
    next =>
      have hfailed := Except.error.inj (Completion.finished.inj h)
      cases hfailed
    next => cases h

namespace Manifest

variable {m : Manifest}

/-- A registered manifest is what one call leads to. -/
theorem built_of_register {r : Registrar (List String)} (h : m.register = .ok r) :
    Registrar.built [.commands m.specs] = r := by
  show Registrar.empty.after (Registrar.empty.register m.specs) = r
  have hregister : Registrar.empty.register m.specs = .ok r := h
  rw [hregister]
  rfl

/-- The parameters of a registered manifest have the types of the manifest. -/
theorem known_of_register (hvalid : m.validate = .ok ()) {r : Registrar (List String)}
    (h : m.register = .ok r) {keys : List String} {n : Node (List String)}
    {command : Command (List String)} (hn : r.root.at? keys = some n)
    (hcommand : n.command? = some command) {p : Parameter} (hp : p ∈ command.parameters) :
    (∃ s, p.type = .builtin s) ∨ p.type = .custom sessionTag := by
  rw [← built_of_register h] at hn
  obtain ⟨spec, hspec⟩ := Registrar.exists_declares [.commands m.specs] keys n hn command hcommand
  obtain ⟨call, hcall, hmem⟩ := hspec.exists_call
  obtain rfl := List.mem_singleton.mp hcall
  obtain ⟨c, hc, rfl⟩ := List.mem_map.mp hmem
  obtain ⟨parsers, hreads⟩ := hspec.exists_reads
  obtain ⟨d, hd, hread⟩ := exists_left_of_forall₂ hreads hp
  obtain ⟨entry, hentry, rfl⟩ := List.mem_map.mp hd
  rw [hread.type_eq, ParamEntry.type_declaration]
  exact ParamEntry.paramType_of_isKnown (((validate_eq_ok_iff m).mp hvalid c hc).2 entry hentry)

/-- A session is equal to itself. -/
theorem recognisable_session (user : String) (serial : Nat) :
    Recognisable (some (sessionValue user serial)) :=
  recognisable_some (Value.eq_self _)

/-- In a session a word lacks a parser only where it is offered for another session. -/
theorem exists_offer_of_noParser (hvalid : m.validate = .ok ()) {r : Registrar (List String)}
    (h : m.register = .ok r) {user line tag : String} {serial : Nat} {e : ParseError}
    (hresolve : r.finish.resolve (some (sessionValue user serial)) line = .error (.parse e))
    (hreason : e.reason = s!"no parser for type '{tag}'") :
    ∃ o : Offer r.finish (some (sessionValue user serial)) line (.custom sessionTag),
      e = ⟨s!"no parser for type '{sessionTag}'", o.word⟩ ∧ o.place.chain.cursor ≠ 0 := by
  obtain ⟨type, o, hparse⟩ := Dispatcher.exists_offer_of_parse hresolve
  have hparsers : r.finish.parsers = .empty := Registrar.parsers_register h
  rw [hparsers] at hparse
  obtain ⟨other, rfl, rfl⟩ := ParserRegistry.parse_empty_eq_error hparse hreason
  have htag : ParamType.custom other = .custom sessionTag := by
    obtain ⟨p, hp, htype⟩ := o.exists_parameter
    have hplace := Dispatcher.grounded_of_walk o.stands
    obtain ⟨keys, hkeys⟩ := hplace.inTree
    have hknown := known_of_register hvalid h hkeys hplace.command_eq (List.mem_of_getElem? hp)
    rw [htype] at hknown
    rcases hknown with ⟨s, hs⟩ | hsession
    · cases hs
    · exact hsession
  obtain rfl := ParamType.custom.inj htag
  exact ⟨o, rfl, o.cursor_ne_zero rfl (recognisable_session user serial) rfl⟩

/-- What the check of a manifest is worth. Its commands are registered, or the report is of an
alias, a missing parent, a default that does not parse, or a default text for a session, and never
of the name of a command or the lack of a parser for another type. When they are registered, no
line of a session is refused for want of a parser but at a parameter of a session that is not the
first of its command. -/
theorem register_validated (hvalid : m.validate = .ok ()) :
    (∀ e, m.register = .error e → m.Failure e) ∧
    (∀ c ∈ m.commands, m.register ≠ .error (.invalidName c.name)) ∧
    (∀ command type, m.register = .error (.noParser command type) → type = .custom sessionTag) ∧
    ∀ r, m.register = .ok r → ∀ user serial line state e (tag : String),
      (r.finish.dispatch (some (sessionValue user serial)) line state).1 =
        .finished (.error (.parse e)) →
      e.reason = s!"no parser for type '{tag}'" →
      ∃ o : Offer r.finish (some (sessionValue user serial)) line (.custom sessionTag),
        e = ⟨s!"no parser for type '{sessionTag}'", o.word⟩ ∧ o.place.chain.cursor ≠ 0 ∧
          ∃ p, o.place.command.parameters[o.place.chain.cursor]? = some p ∧
            p.type = .custom sessionTag := by
  refine ⟨?_, ?_, ?_, ?_⟩
  · intro e he
    exact failure_of_register hvalid he
  · intro c hc
    exact ne_invalidName_of_validate hvalid hc
  · intro command type htype
    exact type_of_noParser hvalid htype
  · intro r hr user serial line state e tag hdispatch hreason
    have hresolve := Dispatcher.resolve_of_dispatch hdispatch
    obtain ⟨o, he, hcursor⟩ := exists_offer_of_noParser hvalid hr hresolve hreason
    exact ⟨o, he, hcursor, o.exists_parameter⟩

/-- A command for one session to reach another. -/
def whispers : Manifest :=
  ⟨"> ", [⟨"whisper", [], .joined "w, tell", [⟨"Session", none⟩, ⟨" session ", none⟩], none⟩]⟩

/-- A command with a default text for a session. -/
def hosts : Manifest :=
  ⟨"> ", [⟨"greet", [], .list [], [⟨"session", some "root"⟩, ⟨"int", some "null"⟩], none⟩]⟩

/-- The other session cannot be typed, and neither can it be declared. -/
theorem register_validated_whispers :
    whispers.validate = .ok () ∧ hosts.validate = .ok () ∧
      hosts.Failure (.noParser "greet" (.custom sessionTag)) ∧
      ∃ r, whispers.register = .ok r ∧
        ∃ o : Offer r.finish (some (sessionValue "ann" 1)) "whisper bob" (.custom sessionTag),
          o.word = "bob" ∧ o.place.chain.cursor ≠ 0 := by
  have hwhispers : whispers.validate = .ok () := by
    decide +kernel
  have hhosts : hosts.validate = .ok () := by
    decide +kernel
  have hgreet : hosts.register = .error (.noParser "greet" (.custom sessionTag)) := by
    have hfault : hosts.register.map (fun _ => ()) =
        .error (.noParser "greet" (.custom sessionTag)) := by
      decide +kernel
    cases hregister : hosts.register with
    | ok r =>
      rw [hregister] at hfault
      cases hfault
    | error e =>
      rw [hregister] at hfault
      exact congrArg Except.error (Except.error.inj hfault)
  have hrun : whispers.register.toOption.map (fun r =>
      r.finish.failure? (some (sessionValue "ann" 1)) "whisper bob") =
        some (some (.parse ⟨"no parser for type 'session'", "bob"⟩)) := by
    decide +kernel
  refine ⟨hwhispers, hhosts, (register_validated hhosts).1 _ hgreet, ?_⟩
  cases hregister : whispers.register with
  | error e =>
    rw [hregister] at hrun
    cases hrun
  | ok r =>
    rw [hregister] at hrun
    have hresolve := Dispatcher.failure?_eq_some_iff.mp (Option.some.inj hrun)
    have hdispatch : (r.finish.dispatch (some (sessionValue "ann" 1)) "whisper bob" []).1 =
        .finished (.error (.parse ⟨"no parser for type 'session'", "bob"⟩)) := by
      rw [Dispatcher.dispatch, hresolve]
    obtain ⟨_, _, _, hlines⟩ := register_validated hwhispers
    obtain ⟨o, he, hcursor, _⟩ := hlines r hregister "ann" 1 _ _ _ "session" hdispatch rfl
    exact ⟨r, rfl, o, (ParseError.mk.inj he).2.symm, hcursor⟩

end Manifest

end Switchboard
