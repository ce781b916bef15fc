import Switchboard.Proofs.Resolution.Outcome

/-!
# The grammar of lines

A line is a sequence of clauses: the name of a command, found below the
command before it, and the words read as its arguments. The values typed since
the first command all stay; each command but the last is left when it is full.

* `Decomposes`: the words of a line split into clauses
* `walk_eq_ok_iff`: a resolution goes through exactly the decompositions of its line
* `Decomposes.unique`: a line has one decomposition at most
* `resolve_iff_decomposes`: the lines that resolve, and to what
-/

namespace Switchboard

variable {σ : Type}

/-! ### Clauses -/

/-- A command of a line: its name, the node that the name finds, and its arguments as words and
as values. -/
@[ext] structure Clause (σ : Type) where
  name : String
  node : Node σ
  command : Command σ
  words : List String
  values : List Value

namespace Clause

/-- The words of a clause in the line. -/
def text (c : Clause σ) : List String :=
  c.name :: c.words

end Clause

/-- Words read one by one as arguments for a list of parameters: each parses as the type at its
place, and the type accepts the value. -/
inductive ReadAs (parsers : ParserRegistry) :
    List Parameter → List String → List Value → Prop
  | nil (ps : List Parameter) : ReadAs parsers ps [] []
  | cons {p : Parameter} {word : String} {v : Value} {ps : List Parameter}
      {words : List String} {vs : List Value} :
      parsers.parse word p.type = .ok v → p.type.accepts v = true →
      ReadAs parsers ps words vs → ReadAs parsers (p :: ps) (word :: words) (v :: vs)

/-- A clause below a node, behind the values typed before it: its words are read from the first
slot that the context and those values leave open. -/
structure Clause.Reads (parsers : ParserRegistry) (context : Option Value) (above : Node σ)
    (before : List Value) (c : Clause σ) : Prop where
  finds : above.find? c.name = some c.node
  command_eq : c.node.command? = some c.command
  reads : ReadAs parsers
    (c.command.parameters.drop (c.command.injected context ++ before).length) c.words c.values
  fits : Fits c.command.parameters (c.command.injected context ++ (before ++ c.values))

/-- The clauses that may follow at a command with the values typed so far. A command is left for
one below it when the context and the typed values fill its parameters. -/
inductive Descent (parsers : ParserRegistry) (context : Option Value) :
    Node σ → Command σ → List Value → List (Clause σ) → Prop
  | stop (node : Node σ) (command : Command σ) (typed : List Value) :
      Descent parsers context node command typed []
  | down {node : Node σ} {command : Command σ} {typed : List Value} {c : Clause σ}
      {rest : List (Clause σ)} :
      (command.injected context ++ typed).length = command.parameters.length →
      c.Reads parsers context node typed →
      Descent parsers context c.node c.command (typed ++ c.values) rest →
      Descent parsers context node command typed (c :: rest)

namespace Dispatcher

/-- The words of a line split into clauses, the first one of the top level. -/
def Decomposes (d : Dispatcher σ) (context : Option Value) (words : List String) :
    List (Clause σ) → Prop
  | [] => False
  | first :: rest =>
    words = (first :: rest).flatMap Clause.text ∧
      first.Reads d.parsers context d.root [] ∧
      Descent d.parsers context first.node first.command first.values rest

end Dispatcher

/-- The values that the last of some clauses holds: the context if its command takes it, and
the values typed in all of them. -/
def heldBy (context : Option Value) (last : Clause σ) (clauses : List (Clause σ)) : List Value :=
  last.command.injected context ++ clauses.flatMap Clause.values

/-! ### Reading arguments -/

namespace ReadAs

variable {parsers : ParserRegistry}

theorem length_eq {ps : List Parameter} {words : List String} {vs : List Value}
    (h : ReadAs parsers ps words vs) : vs.length = words.length := by
  induction h with
  | nil ps => rfl
  | cons _ _ _ ih => simp only [List.length_cons, ih]

theorem fits {ps : List Parameter} {words : List String} {vs : List Value}
    (h : ReadAs parsers ps words vs) : Fits ps vs := by
  induction h with
  | nil ps => exact .nil ps
  | cons _ ha _ ih => exact .cons ha ih

/-- The words determine the values. -/
theorem values_unique {ps : List Parameter} {words : List String} {vs ws : List Value}
    (h : ReadAs parsers ps words vs) (h' : ReadAs parsers ps words ws) : vs = ws := by
  induction h generalizing ws with
  | nil ps =>
    cases h' with
    | nil => rfl
  | cons hp _ _ ih =>
    cases h' with
    | cons hp' _ h' =>
      rw [hp] at hp'
      rw [Except.ok.inj hp', ih h']

end ReadAs

namespace Clause.Reads

variable {parsers : ParserRegistry} {context : Option Value} {above : Node σ}
  {before : List Value} {c c' : Clause σ}

theorem fits_before (h : c.Reads parsers context above before) :
    Fits c.command.parameters (c.command.injected context ++ before) := by
  have hfits := h.fits
  rw [← List.append_assoc] at hfits
  exact (Fits.append_iff.mp hfits).1

theorem child_eq (h : c.Reads parsers context above before) :
    above.child c.name = .ok (c.node, c.command) :=
  Node.child_eq_ok_iff.mpr ⟨h.finds, h.command_eq⟩

/-- A name determines the node and the command of its clause. -/
theorem command_unique (h : c.Reads parsers context above before)
    (h' : c'.Reads parsers context above before) (hname : c.name = c'.name) :
    c.node = c'.node ∧ c.command = c'.command := by
  have hchild := h.child_eq
  rw [hname, h'.child_eq] at hchild
  simp only [Except.ok.injEq, Prod.mk.injEq] at hchild
  exact ⟨hchild.1.symm, hchild.2.symm⟩

end Clause.Reads

namespace Place

variable {parsers : ParserRegistry} {context : Option Value} {node : Node σ}
  {command : Command σ}

/-- Words that are read as arguments are bound one after another, whatever was bound before. -/
theorem foldlM_step_of_left {p : Place σ} {words : List String} {vs : List Value}
    (h : ReadAs parsers p.chain.left words vs) :
    words.foldlM (step parsers context) p =
      .ok { p with chain := { p.chain with bound := p.chain.bound ++ vs } } := by
  generalize hps : p.chain.left = ps at h
  induction h generalizing p with
  | nil ps =>
    rw [List.append_nil]
    rfl
  | @cons next word v ps words vs hp ha _ ih =>
    have hstep : p.step parsers context word = .ok { p with chain := p.chain.push v } := by
      rw [step_of_left_cons hps, hp]
      simp only [if_pos ha]
    have hleft : (p.chain.push v).left = ps := by rw [Chain.left_push, hps, List.tail_cons]
    rw [List.foldlM_cons, hstep]
    show words.foldlM (step parsers context) { p with chain := p.chain.push v } = _
    rw [ih hleft, Chain.push, List.append_assoc]
    rfl

theorem foldlM_step_of_readAs {typed : List Value} {words : List String} {vs : List Value}
    (h : ReadAs parsers (command.parameters.drop (command.injected context ++ typed).length)
      words vs) :
    words.foldlM (step parsers context) (seated context node command typed) =
      .ok (seated context node command (typed ++ vs)) := by
  have hleft : ReadAs parsers (seated context node command typed).chain.left words vs := h
  rw [foldlM_step_of_left hleft, seated, seated, Command.bound_holding, List.append_assoc]
  rfl

/-! ### Going down -/

/-- The place that clauses lead to from a command with the values typed so far. -/
def afterClauses (context : Option Value) :
    Node σ → Command σ → List Value → List (Clause σ) → Place σ
  | node, command, typed, [] => seated context node command typed
  | _, _, typed, c :: rest => afterClauses context c.node c.command (typed ++ c.values) rest

theorem afterClauses_eq {first last : Clause σ} {rest : List (Clause σ)}
    (h : (first :: rest).getLast? = some last) (before : List Value) :
    afterClauses context first.node first.command (before ++ first.values) rest =
      seated context last.node last.command
        (before ++ (first :: rest).flatMap Clause.values) := by
  induction rest generalizing first before with
  | nil =>
    obtain rfl : first = last := by simpa using h
    simp [afterClauses]
  | cons next rest ih =>
    have hlast : (next :: rest).getLast? = some last := by
      rwa [List.getLast?_cons_cons] at h
    rw [afterClauses, ih hlast (before ++ first.values)]
    simp

/-- A full command is left by the name of one below it. -/
theorem step_of_full {typed : List Value} {word : String} {p : Place σ}
    (hr : Recognisable context)
    (hfit : Fits command.parameters (command.injected context ++ typed))
    (hfull : (command.injected context ++ typed).length = command.parameters.length) :
    (seated context node command typed).step parsers context word = .ok p ↔
      ∃ child below, node.child word = .ok (child, below) ∧
        Fits below.parameters (below.injected context ++ typed) ∧
        p = seated context child below typed := by
  have hleft : (seated context node command typed).chain.left = [] := by
    rw [left_seated, hfull, List.drop_length]
  rw [step_of_left_nil hleft]
  exact Node.enter_below_eq_ok_iff hr hfit

/-- Every descent is walked. -/
theorem foldlM_step_of_descent {typed : List Value} {rest : List (Clause σ)}
    (hr : Recognisable context)
    (hfit : Fits command.parameters (command.injected context ++ typed))
    (h : Descent parsers context node command typed rest) :
    (rest.flatMap Clause.text).foldlM (step parsers context)
      (seated context node command typed) =
      .ok (afterClauses context node command typed rest) := by
  induction h with
  | stop node command typed => rfl
  | @down node command typed c rest hfull hc _ ih =>
    have henter : (seated context node command typed).step parsers context c.name =
        .ok (seated context c.node c.command typed) :=
      (step_of_full hr hfit hfull).mpr ⟨_, _, hc.child_eq, hc.fits_before, rfl⟩
    rw [List.flatMap_cons, Clause.text, List.cons_append, List.foldlM_cons, henter]
    show (c.words ++ rest.flatMap Clause.text).foldlM (step parsers context)
      (seated context c.node c.command typed) = _
    rw [List.foldlM_append, foldlM_step_of_readAs hc.reads]
    exact ih hc.fits

/-- Every walk from a command is the reading of some more arguments and a descent. -/
theorem exists_descent_of_foldlM_step {typed : List Value} {words : List String} {p : Place σ}
    (hr : Recognisable context)
    (hfit : Fits command.parameters (command.injected context ++ typed))
    (h : words.foldlM (step parsers context) (seated context node command typed) = .ok p) :
    ∃ (texts : List String) (vs : List Value) (rest : List (Clause σ)),
      words = texts ++ rest.flatMap Clause.text ∧
      ReadAs parsers (command.parameters.drop (command.injected context ++ typed).length)
        texts vs ∧
      Fits command.parameters (command.injected context ++ (typed ++ vs)) ∧
      Descent parsers context node command (typed ++ vs) rest ∧
      p = afterClauses context node command (typed ++ vs) rest := by
  induction words generalizing node command typed with
  | nil =>
    have hp : seated context node command typed = p := Except.ok.inj h
    refine ⟨[], [], [], rfl, .nil _, ?_, .stop _ _ _, ?_⟩
    · rwa [List.append_nil]
    · rw [List.append_nil, ← hp]
      rfl
  | cons word words ih =>
    obtain ⟨next, hs, hrest⟩ := foldlM_cons_eq_ok_iff.mp h
    cases hl : command.parameters.drop (command.injected context ++ typed).length with
    | cons slot more =>
      -- the word is one more argument
      obtain ⟨v, hv, ha, rfl⟩ := (step_seated_eq_ok_iff hl parsers word).mp hs
      obtain ⟨texts, vs, rest, rfl, hread, hfits, hdown, hp⟩ :=
        ih (Command.fits_held_push hfit hl ha) hrest
      have happ : typed ++ [v] ++ vs = typed ++ v :: vs := by simp
      rw [Command.drop_held_push hl v] at hread
      rw [happ] at hfits hdown hp
      exact ⟨word :: texts, v :: vs, rest, rfl, .cons hv ha hread, hfits, hdown, hp⟩
    | nil =>
      -- the command is full, so the word names one below it
      have hfull : (command.injected context ++ typed).length = command.parameters.length :=
        Nat.le_antisymm hfit.length_le (List.drop_eq_nil_iff.mp hl)
      obtain ⟨child, below, hchild, hfit', rfl⟩ := (step_of_full hr hfit hfull).mp hs
      obtain ⟨texts, vs, rest, rfl, hread, hfits, hdown, hp⟩ := ih hfit' hrest
      obtain ⟨hfind, hcommand⟩ := Node.child_eq_ok_iff.mp hchild
      have hc : (⟨word, child, below, texts, vs⟩ : Clause σ).Reads parsers context node typed :=
        ⟨hfind, hcommand, hread, hfits⟩
      refine ⟨[], [], ⟨word, child, below, texts, vs⟩ :: rest, rfl, .nil _, ?_, ?_, ?_⟩
      · rwa [List.append_nil]
      · rw [List.append_nil]
        exact .down hfull hc hdown
      · rw [List.append_nil, hp, afterClauses]

end Place

/-! ### One decomposition at most -/

namespace Descent

variable {parsers : ParserRegistry} {context : Option Value}

/-- No reading of arguments goes on behind a word that a descent takes for a name. -/
theorem length_le_of_append {node : Node σ} {command : Command σ} {typed vs vs' : List Value}
    {texts texts' tail : List String} {rest : List (Clause σ)}
    (hfit : Fits command.parameters (command.injected context ++ typed))
    (hread : ReadAs parsers (command.parameters.drop (command.injected context ++ typed).length)
      texts vs)
    (hread' : ReadAs parsers (command.parameters.drop (command.injected context ++ typed).length)
      texts' vs')
    (hdown : Descent parsers context node command (typed ++ vs) rest)
    (h : texts ++ rest.flatMap Clause.text = texts' ++ tail) : texts'.length ≤ texts.length := by
  cases hdown with
  | stop =>
    have hlen := congrArg List.length h
    simp only [List.flatMap_nil, List.append_nil, List.length_append] at hlen
    omega
  | down hfull _ _ =>
    have hvs := hread.length_eq
    have hvs' := hread'.length_eq
    have hle' := hread'.fits.length_le
    have hle := hfit.length_le
    rw [List.length_drop] at hle'
    simp only [List.length_append] at hfull hle hle'
    omega

/-- Where the arguments of a command end is determined by the words. -/
theorem arguments_unique {node : Node σ} {command : Command σ} {typed vs vs' : List Value}
    {texts texts' : List String} {rest rest' : List (Clause σ)}
    (hfit : Fits command.parameters (command.injected context ++ typed))
    (hread : ReadAs parsers (command.parameters.drop (command.injected context ++ typed).length)
      texts vs)
    (hread' : ReadAs parsers (command.parameters.drop (command.injected context ++ typed).length)
      texts' vs')
    (hdown : Descent parsers context node command (typed ++ vs) rest)
    (hdown' : Descent parsers context node command (typed ++ vs') rest')
    (h : texts ++ rest.flatMap Clause.text = texts' ++ rest'.flatMap Clause.text) :
    texts = texts' ∧ vs = vs' ∧ rest.flatMap Clause.text = rest'.flatMap Clause.text := by
  have hlen : texts.length = texts'.length := Nat.le_antisymm
    (length_le_of_append hfit hread' hread hdown' h.symm)
    (length_le_of_append hfit hread hread' hdown h)
  obtain ⟨rfl, hrest⟩ := List.append_inj h hlen
  exact ⟨rfl, hread.values_unique hread', hrest⟩

/-- Arguments and clauses that follow a command are determined by their words. -/
theorem unique {node : Node σ} {command : Command σ} {typed vs vs' : List Value}
    {texts texts' : List String} {rest rest' : List (Clause σ)}
    (hfit : Fits command.parameters (command.injected context ++ typed))
    (hread : ReadAs parsers (command.parameters.drop (command.injected context ++ typed).length)
      texts vs)
    (hread' : ReadAs parsers (command.parameters.drop (command.injected context ++ typed).length)
      texts' vs')
    (hdown : Descent parsers context node command (typed ++ vs) rest)
    (hdown' : Descent parsers context node command (typed ++ vs') rest')
    (h : texts ++ rest.flatMap Clause.text = texts' ++ rest'.flatMap Clause.text) :
    texts = texts' ∧ vs = vs' ∧ rest = rest' := by
  obtain ⟨rfl, rfl, hrest⟩ := arguments_unique hfit hread hread' hdown hdown' h
  clear h hread'
  refine ⟨rfl, rfl, ?_⟩
  induction rest generalizing node command typed texts vs rest' with
  | nil =>
    cases rest' with
    | nil => rfl
    | cons c' rest' =>
      rw [List.flatMap_cons, Clause.text] at hrest
      cases hrest
  | cons c rest ih =>
    cases rest' with
    | nil =>
      rw [List.flatMap_cons, Clause.text] at hrest
      cases hrest
    | cons c' rest' =>
      obtain _ | ⟨_, hc, hbelow⟩ := hdown
      obtain _ | ⟨_, hc', hbelow'⟩ := hdown'
      simp only [List.flatMap_cons, Clause.text, List.cons_append, List.cons.injEq] at hrest
      obtain ⟨hname, hwords⟩ := hrest
      obtain ⟨hnode, hcommand⟩ := hc.command_unique hc' hname
      have hread₂ := hc'.reads
      rw [← hnode, ← hcommand] at hbelow'
      rw [← hcommand] at hread₂
      obtain ⟨hw, hv, hrest⟩ :=
        arguments_unique hc.fits_before hc.reads hread₂ hbelow hbelow' hwords
      rw [← hv] at hbelow'
      rw [ih hc.fits_before hc.reads hbelow hrest hbelow',
        show c = c' from Clause.ext hname hnode hcommand hw hv]

end Descent

namespace Dispatcher

variable {d : Dispatcher σ} {context : Option Value} {words : List String}

theorem Decomposes.unique {clauses clauses' : List (Clause σ)}
    (h : d.Decomposes context words clauses) (h' : d.Decomposes context words clauses') :
    clauses = clauses' := by
  cases clauses with
  | nil => exact h.elim
  | cons first rest =>
    cases clauses' with
    | nil => exact h'.elim
    | cons first' rest' =>
      obtain ⟨hw, hc, hdown⟩ := h
      obtain ⟨hw', hc', hdown'⟩ := h'
      rw [hw] at hw'
      simp only [List.flatMap_cons, Clause.text, List.cons_append, List.cons.injEq] at hw'
      obtain ⟨hname, hwords⟩ := hw'
      obtain ⟨hnode, hcommand⟩ := hc.command_unique hc' hname
      have hread' := hc'.reads
      rw [← hnode, ← hcommand] at hdown'
      rw [← hcommand] at hread'
      obtain ⟨hw, hv, hr⟩ :=
        Descent.unique hc.fits_before hc.reads hread' hdown hdown' hwords
      rw [hr, show first = first' from Clause.ext hname hnode hcommand hw hv]

/-- Every walk goes through a decomposition. -/
theorem exists_decomposes_of_walk {p : Place σ} (hr : Recognisable context)
    (h : d.walk context words = .ok p) :
    ∃ clauses last, d.Decomposes context words clauses ∧ clauses.getLast? = some last ∧
      p = ⟨last.node, last.command, last.command.holding (heldBy context last clauses)⟩ := by
  cases words with
  | nil => cases h
  | cons name words =>
    rw [walk] at h
    obtain ⟨start, hstart, hrun⟩ := bind_eq_ok_iff.mp h
    cases hchild : d.root.child name with
    | error e =>
      rw [Node.enter_of_child_error hchild] at hstart
      cases hstart
    | ok found =>
      obtain ⟨node, command⟩ := found
      rw [Node.enter_top hchild] at hstart
      obtain rfl := Except.ok.inj hstart
      have hfit : Fits command.parameters (command.injected context ++ []) := by
        rw [List.append_nil]
        exact command.fits_injected context
      obtain ⟨texts, vs, rest, rfl, hread, hfits, hdown, hp⟩ :=
        Place.exists_descent_of_foldlM_step hr hfit hrun
      obtain ⟨hfind, hcommand⟩ := Node.child_eq_ok_iff.mp hchild
      have hc : (⟨name, node, command, texts, vs⟩ : Clause σ).Reads d.parsers context d.root [] :=
        ⟨hfind, hcommand, hread, hfits⟩
      obtain ⟨last, hlast⟩ : ∃ last,
          ((⟨name, node, command, texts, vs⟩ : Clause σ) :: rest).getLast? = some last :=
        ⟨_, List.getLast?_eq_some_getLast (List.cons_ne_nil _ _)⟩
      refine ⟨⟨name, node, command, texts, vs⟩ :: rest, last, ⟨rfl, hc, hdown⟩, hlast, ?_⟩
      exact hp.trans (Place.afterClauses_eq hlast [])

/-- Every decomposition is walked. -/
theorem walk_of_decomposes {clauses : List (Clause σ)} {last : Clause σ}
    (hr : Recognisable context) (hd : d.Decomposes context words clauses)
    (hlast : clauses.getLast? = some last) :
    d.walk context words =
      .ok ⟨last.node, last.command, last.command.holding (heldBy context last clauses)⟩ := by
  cases clauses with
  | nil => exact hd.elim
  | cons first rest =>
    obtain ⟨rfl, hc, hdown⟩ := hd
    rw [List.flatMap_cons, Clause.text, List.cons_append, walk, Node.enter_top hc.child_eq]
    show (first.words ++ rest.flatMap Clause.text).foldlM (Place.step d.parsers context)
      (Place.seated context first.node first.command []) = _
    rw [List.foldlM_append, Place.foldlM_step_of_readAs hc.reads]
    have hrest := Place.foldlM_step_of_descent hr hc.fits hdown
    exact hrest.trans (congrArg Except.ok (Place.afterClauses_eq hlast []))

/-- A walk through the words of a line ends where a decomposition of them leads. -/
theorem walk_eq_ok_iff {p : Place σ} (hr : Recognisable context) :
    d.walk context words = .ok p ↔
      ∃ clauses last, d.Decomposes context words clauses ∧ clauses.getLast? = some last ∧
        p = ⟨last.node, last.command, last.command.holding (heldBy context last clauses)⟩ := by
  constructor
  · exact exists_decomposes_of_walk hr
  · intro hexists
    obtain ⟨clauses, last, hd, hlast, rfl⟩ := hexists
    exact walk_of_decomposes hr hd hlast

/-- What a line resolves to: its decomposition ends at a command that holds enough values. -/
theorem resolve_eq_ok_iff (hr : Recognisable context) (line : String) (r : Resolved σ) :
    d.resolve context line = .ok r ↔
      ∃ clauses last, d.Decomposes context (Reader.wordsRead line) clauses ∧
        clauses.getLast? = some last ∧
        last.command.boundary ≤ (heldBy context last clauses).length ∧
        r = ⟨last.node, last.command, last.command.filled (heldBy context last clauses)⟩ := by
  rw [resolve_eq]
  constructor
  · intro h
    cases hw : d.walk context (Reader.wordsRead line) with
    | error e => simp [hw] at h
    | ok place =>
      rw [hw] at h
      obtain ⟨clauses, last, hd, hlast, rfl⟩ := (walk_eq_ok_iff hr).mp hw
      simp only [Place.settle_holding] at h
      split at h
      next => cases h
      next hlen =>
        exact ⟨clauses, last, hd, hlast, Nat.le_of_not_lt hlen, (Except.ok.inj h).symm⟩
  · intro hexists
    obtain ⟨clauses, last, hd, hlast, hlen, rfl⟩ := hexists
    rw [(walk_eq_ok_iff hr).mpr ⟨clauses, last, hd, hlast, rfl⟩]
    simp only [Place.settle_holding]
    rw [if_neg (Nat.not_lt.mpr hlen)]

/-- When a line lacks arguments: its decomposition ends at a command that holds too few values. -/
theorem resolve_eq_tooFewArguments_iff (hr : Recognisable context) (line : String) :
    d.resolve context line = .error (.tooFewArguments line) ↔
      ∃ clauses last, d.Decomposes context (Reader.wordsRead line) clauses ∧
        clauses.getLast? = some last ∧
        (heldBy context last clauses).length < last.command.boundary := by
  rw [resolve_eq]
  constructor
  · intro h
    cases hw : d.walk context (Reader.wordsRead line) with
    | error e =>
      -- no word of the line fails this way
      rw [hw] at h
      have he : e = .tooFewArguments line := Except.error.inj h
      rw [he] at hw
      exact absurd rfl (ne_tooFewArguments_of_walk hw line)
    | ok place =>
      rw [hw] at h
      obtain ⟨clauses, last, hd, hlast, rfl⟩ := (walk_eq_ok_iff hr).mp hw
      simp only [Place.settle_holding] at h
      split at h
      next hlen => exact ⟨clauses, last, hd, hlast, hlen⟩
      next => cases h
  · intro hexists
    obtain ⟨clauses, last, hd, hlast, hlen⟩ := hexists
    rw [(walk_eq_ok_iff hr).mpr ⟨clauses, last, hd, hlast, rfl⟩]
    simp only [Place.settle_holding]
    rw [if_pos hlen]

/-- A line resolves exactly when it has a decomposition whose last command holds enough values.
There is one decomposition at most, so the line determines the command and the arguments: the
context, if the command takes it, the values typed since the first command, and the defaults. -/
theorem resolve_iff_decomposes (d : Dispatcher σ) {context : Option Value}
    (hr : Recognisable context) (line : String) :
    (∀ clauses clauses', d.Decomposes context (Reader.wordsRead line) clauses →
      d.Decomposes context (Reader.wordsRead line) clauses' → clauses = clauses') ∧
    (∀ r, d.resolve context line = .ok r ↔
      ∃ clauses last, d.Decomposes context (Reader.wordsRead line) clauses ∧
        clauses.getLast? = some last ∧
        last.command.boundary ≤ (heldBy context last clauses).length ∧
        r = ⟨last.node, last.command, last.command.filled (heldBy context last clauses)⟩) ∧
    (d.resolve context line = .error (.tooFewArguments line) ↔
      ∃ clauses last, d.Decomposes context (Reader.wordsRead line) clauses ∧
        clauses.getLast? = some last ∧
        (heldBy context last clauses).length < last.command.boundary) :=
  ⟨fun _ _ h h' => h.unique h', resolve_eq_ok_iff hr line,
    resolve_eq_tooFewArguments_iff hr line⟩

/-- A desk with a command for calls, which takes a session, and one below it for holding them,
which takes none. -/
def desk : Dispatcher Unit :=
  let call : Command Unit :=
    ⟨"call", [.required (.custom "session"), .required (.builtin .string)], fun _ s => (.done, s)⟩
  let hold : Command Unit :=
    ⟨"hold", [.required (.builtin .string), .defaultable (.builtin (.int .i32)) .null],
      fun _ s => (.done, s)⟩
  ⟨Node.root.addChild ["c"] ((Node.leaf call).addChild [] (.leaf hold)), .empty⟩

/-- The session of an operator at the desk. -/
def operator : Value :=
  .custom ⟨"session", 1, .session "ann"⟩

/-- The session is dropped and the word kept when a call is put on hold. -/
theorem resolve_iff_decomposes_desk :
    Recognisable (some operator) ∧
      ∃ clauses last, desk.Decomposes (some operator) (Reader.wordsRead " C  paris hold") clauses ∧
        clauses.getLast? = some last ∧ last.command.name = "hold" ∧
        (last.command.filled (heldBy (some operator) last clauses)).text = "[paris, null]" := by
  have hr : Recognisable (some operator) := by
    intro ctx h
    obtain rfl := Option.some.inj h
    decide
  have hrun : (desk.resolve (some operator) " C  paris hold").toOption.map
      (fun r => (r.command.name, r.args.text)) = some ("hold", "[paris, null]") := by
    decide +kernel
  refine ⟨hr, ?_⟩
  cases hres : desk.resolve (some operator) " C  paris hold" with
  | error e =>
    rw [hres] at hrun
    cases hrun
  | ok r =>
    obtain ⟨clauses, last, hd, hlast, _, rfl⟩ :=
      ((resolve_iff_decomposes desk hr " C  paris hold").2.1 r).mp hres
    rw [hres] at hrun
    simp only [Except.toOption, Option.map_some, Option.some.injEq, Prod.mk.injEq] at hrun
    exact ⟨clauses, last, hd, hlast, hrun.1, hrun.2⟩

end Dispatcher

end Switchboard
