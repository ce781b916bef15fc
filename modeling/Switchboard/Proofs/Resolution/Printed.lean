import Switchboard.Proofs.Resolution.LeftToRight
import Switchboard.Proofs.Writing

/-!
# Printed arguments

The arguments of a command can be printed and typed back. Behind the name of a
command of the top level the texts of its arguments are read as the very same
values, of every built-in type but the floating-point numbers, as long as each
text is one word and the context takes no parameter.

* `printed`: a line that calls a command with some values
* `readAs_texts`: the texts of values are read as those values
* `resolve_printed`: the line resolves to the command with exactly those values
-/

namespace Switchboard

variable {σ : Type}

/-- A list of values of the given types, each of which can be typed as one argument. -/
def Typed (ps : List Parameter) (vs : List Value) : Prop :=
  List.Forall₂ (fun p v => p.type.accepts v = true ∧ v.IsTypable) ps vs

variable {ps : List Parameter} {vs : List Value}

/-- Written out, the values are read as what they are. -/
theorem readAs_texts (parsers : ParserRegistry) (htypes : ∀ p ∈ ps, p.type.IsExact)
    (h : Typed ps vs) : ReadAs parsers ps (vs.map Value.text) vs := by
  induction h with
  | nil => exact .nil []
  | cons hpv _ ih =>
    obtain ⟨hp, hps⟩ := List.forall_mem_cons.mp htypes
    exact .cons (parsers.parse_text hp hpv.1) hpv.1 (ih hps)

/-- The text of each of the values is one word. -/
theorem isWord_texts (htypes : ∀ p ∈ ps, p.type.IsExact) (h : Typed ps vs) :
    ∀ v ∈ vs, Text.IsWord v.text := by
  intro v hv
  obtain ⟨p, hp, ha, htypable⟩ := exists_left_of_forall₂ h hv
  exact Value.isWord_text (htypes p hp) ha htypable

theorem Command.injected_eq_nil {c : Command σ} {context : Option Value}
    (h : ∀ ctx type, context = some ctx → c.firstType? = some type → type.accepts ctx = false) :
    c.injected context = [] := by
  unfold injected
  split
  next type ctx hfirst => rw [h ctx type rfl hfirst, if_neg Bool.false_ne_true]
  next => rfl

/-- With a value for every parameter no default is used. -/
theorem Command.filled_of_length {c : Command σ} (h : vs.length = c.parameters.length) :
    c.filled vs = ⟨vs⟩ := by
  rw [filled, h, List.drop_length, List.map_nil, List.append_nil]

namespace Dispatcher

/-- A line that calls a command with some values, each after one space and some more, with spaces
at both ends. -/
def printed (lead : Nat) (word : String) (args : List (Nat × Value)) (trail : Nat) : String :=
  Text.written (Text.spaces lead ++ word) (args.map fun arg => (arg.1, arg.2.text)) ++
    Text.spaces trail

/-- The words of such a line are the name and the texts of the values. -/
theorem wordsRead_printed {word : String} {args : List (Nat × Value)} (hword : Text.IsWord word)
    (hargs : ∀ v ∈ args.map Prod.snd, Text.IsWord v.text) (lead trail : Nat) :
    Reader.wordsRead (printed lead word args trail) =
      word :: (args.map Prod.snd).map Value.text := by
  have hstart : ∃ c ∈ (Text.spaces lead ++ word).toList, c ≠ ' ' := by
    obtain ⟨c, hc, hne⟩ := hword.exists_ne_space
    refine ⟨c, ?_, hne⟩
    rw [String.toList_append]
    exact List.mem_append_right _ hc
  have htexts : ∀ next ∈ args.map fun arg => (arg.1, arg.2.text), Text.IsWord next.2 := by
    intro next hnext
    obtain ⟨arg, harg, rfl⟩ := List.mem_map.mp hnext
    exact hargs arg.2 (List.mem_map_of_mem harg)
  rw [Reader.wordsRead_eq, printed,
    Reader.wordsOf_append_spaces trail (Reader.exists_ne_space_written hstart _),
    Reader.wordsOf_written hstart htexts,
    Reader.wordsOf_spaces_append lead hword.exists_ne_space, Reader.wordsOf_word hword]
  simp only [List.map_map, List.singleton_append, Function.comp_def]

/-- Behind a word that finds a command of the top level the texts of its arguments are bound as
the values they came from. -/
theorem resolve_printed (d : Dispatcher σ) {context : Option Value} {word : String}
    {node : Node σ} {command : Command σ} {args : List (Nat × Value)} (hword : Text.IsWord word)
    (hfind : d.root.find? word = some node) (hcommand : node.command? = some command)
    (htypes : ∀ p ∈ command.parameters, p.type.IsExact)
    (hcontext : ∀ ctx type, context = some ctx → command.firstType? = some type →
      type.accepts ctx = false)
    (hargs : Typed command.parameters (args.map Prod.snd)) (lead trail : Nat) :
    d.resolve context (printed lead word args trail) =
      .ok ⟨node, command, ⟨args.map Prod.snd⟩⟩ := by
  have hlength := List.Forall₂.length_eq hargs
  have hinjected := Command.injected_eq_nil hcontext
  -- the context takes no parameter, so all of them are open when the command is entered
  have hread : ReadAs d.parsers (command.parameters.drop (command.injected context ++ []).length)
      ((args.map Prod.snd).map Value.text) (args.map Prod.snd) := by
    rw [hinjected]
    exact readAs_texts d.parsers htypes hargs
  have hwalk : d.walk context (word :: (args.map Prod.snd).map Value.text) =
      .ok (Place.seated context node command (args.map Prod.snd)) := by
    rw [walk, Node.enter_top (Node.child_eq_ok_iff.mpr ⟨hfind, hcommand⟩)]
    exact Place.foldlM_step_of_readAs hread
  rw [resolve_eq, wordsRead_printed hword (isWord_texts htypes hargs), hwalk]
  show (Place.seated context node command (args.map Prod.snd)).settle _ = _
  rw [Place.seated, hinjected, List.nil_append, Place.settle_holding, if_neg,
    Command.filled_of_length hlength.symm]
  exact Nat.not_lt.mpr (hlength ▸ Parameter.boundary_le command.parameters)

/-- A command that notes a text, a character, a truth value and two whole numbers. -/
def note : Command Unit :=
  ⟨"note", [.required (.builtin .string), .required (.builtin .char), .required (.builtin .bool),
    .required (.builtin (.int .i64)), .defaultable (.builtin (.int .u8)) .null],
    fun _ s => (.done, s)⟩

/-- A dispatcher of that command, with an alias for it. -/
def notes : Dispatcher Unit :=
  ⟨Node.root.addChild ["n"] (.leaf note), .empty⟩

/-- Values for it, with the spaces before each: there are a tab, characters beyond ASCII, and the
least and the greatest number of their kinds. -/
def noted : List (Nat × Value) :=
  [(0, .ofString "a\tß"), (2, .scalar .char 'ẞ'), (0, .scalar .bool false),
    (1, .scalar (.int .i64) ⟨-9223372036854775808, by decide⟩),
    (0, .scalar (.int .u8) ⟨255, by decide⟩)]

/-- The operator at the desk is no text, so nothing is put before what is typed. -/
theorem resolve_printed_note :
    printed 1 "N" noted 2 = " N a\tß   ẞ false  -9223372036854775808 255  " ∧
      notes.resolve (some operator) (printed 1 "N" noted 2) =
        .ok ⟨.leaf note, note, ⟨noted.map Prod.snd⟩⟩ := by
  have hfind : notes.root.find? "N" = some (.leaf note) := by
    rw [notes, Node.find?_addChild Node.root ["n"] rfl, if_pos (by decide +kernel)]
  have hcontext : ∀ ctx type, some operator = some ctx → note.firstType? = some type →
      type.accepts ctx = false := by
    intro ctx type hctx htype
    obtain rfl := Option.some.inj hctx
    obtain rfl := Option.some.inj htype
    rfl
  have htyped : Typed note.parameters (noted.map Prod.snd) := by
    refine .cons ⟨rfl, ?_⟩ (.cons ⟨rfl, ?_⟩ (.cons ⟨rfl, trivial⟩ (.cons ⟨rfl, trivial⟩
      (.cons ⟨rfl, trivial⟩ .nil))))
    · decide
    · decide
  exact ⟨by decide +kernel,
    resolve_printed notes (by decide) hfind rfl (by decide) hcontext htyped 1 2⟩

end Dispatcher

end Switchboard
