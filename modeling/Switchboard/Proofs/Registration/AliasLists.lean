import Switchboard.Proofs.Registration.Failure
import Switchboard.Proofs.Registration.TrailingDefaults

/-!
# Alias lists

Several aliases may be written as one text: the names with commas between them,
spaces at will around each name, and behind the last name any commas and spaces.
A text without a comma is one name as it stands, so spaces are not dropped
there. Splitting gives the names back from any such text, and a text from which
it gives valid names only is such a text. Whatever else is given as a list, the
command is refused for the name of an alias.

* `SpacedName`, `listText`, `Lists`: the written form
* `aliasItems_listText`, `splitAliases_of_lists`: what is written is read back
* `exists_listText_of_comma`, `lists_splitAliases`: what is read was written
* `register_alone_iff`: when a command by itself is refused for a name
* `splitAliases_inverts`: all of this, for every text
-/

namespace Switchboard

variable {σ : Type}

/-! ### The written form -/

/-- A name with the numbers of spaces before and behind it. -/
structure SpacedName where
  before : Nat
  name : String
  after : Nat
deriving DecidableEq, Repr

namespace SpacedName

def chars (s : SpacedName) : List Char :=
  List.replicate s.before ' ' ++ s.name.toList ++ List.replicate s.after ' '

theorem comma_not_mem_chars {s : SpacedName} (h : isValidName s.name = true) : ',' ∉ s.chars := by
  have hname := comma_not_mem_of_isValidName h
  simp [chars, List.mem_replicate, hname]

theorem isSpace_of_mem_replicate (k : Nat) : ∀ c ∈ List.replicate k ' ', (c == ' ') = true := by
  intro c hc
  rw [(List.mem_replicate.mp hc).2]
  rfl

/-- Trimming leaves the name. -/
theorem trimBy_chars {s : SpacedName} (h : isValidName s.name = true) :
    Text.trimBy (· == ' ') s.chars = s.name.toList := by
  have hspace := space_not_mem_of_isValidName h
  rw [chars, Text.trimBy_pad (isSpace_of_mem_replicate _) (isSpace_of_mem_replicate _)]
  apply Text.trimBy_eq_self
  intro c hc
  rw [beq_eq_false_iff_ne]
  rintro rfl
  exact hspace hc

/-- Any text is what is left of it after trimming, with spaces around. -/
theorem exists_chars_eq (cs : List Char) :
    ∃ s : SpacedName, s.chars = cs ∧ s.name = String.ofList (Text.trimBy (· == ' ') cs) := by
  obtain ⟨before, after, hcs, hbefore, hafter⟩ := Text.exists_trimBy (· == ' ') cs
  have hspaces : ∀ ends : List Char, (∀ c ∈ ends, (c == ' ') = true) →
      List.replicate ends.length ' ' = ends := by
    intro ends hends
    exact (List.eq_replicate_length.mpr fun c hc => by simpa using hends c hc).symm
  refine ⟨⟨before.length, String.ofList (Text.trimBy (· == ' ') cs), after.length⟩, ?_, rfl⟩
  rw [chars, hspaces before hbefore, hspaces after hafter, String.toList_ofList]
  exact hcs.symm

end SpacedName

/-- What may stand behind the last name: commas and spaces. -/
def isFiller (c : Char) : Bool :=
  c == ',' || c == ' '

/-- Names in one text, with commas between them and something behind. -/
def listText (items : List SpacedName) (filler : List Char) : String :=
  String.ofList ([','].intercalate (items.map SpacedName.chars) ++ filler)

/-- A text lists names: it holds them with commas between, spaces around and filler behind. If it
holds no comma at all, it is one name and nothing else. -/
structure Lists (names : List String) (text : String) : Prop where
  written : ∃ items filler, text = listText items filler ∧ items.map SpacedName.name = names ∧
    ∀ c ∈ filler, isFiller c = true
  comma_or_alone : ',' ∈ text.toList ∨ names = [text]

/-! ### Reading what is written -/

theorem aliasItems_of_not_mem {cs : List Char} (h : ',' ∉ cs) :
    aliasItems cs = [Text.trimBy (· == ' ') cs] := by
  rw [aliasItems, List.splitOn_eq_singleton h]
  rfl

theorem aliasItems_append_comma (front back : List Char) :
    aliasItems (front ++ ',' :: back) = aliasItems front ++ aliasItems back := by
  rw [aliasItems, List.splitOn_append_cons_self, List.map_append]
  rfl

/-- Filler without a comma is spaces. -/
theorem isSpace_of_isFiller {cs : List Char} (hfiller : ∀ c ∈ cs, isFiller c = true)
    (hcomma : ',' ∉ cs) : ∀ c ∈ cs, (c == ' ') = true := by
  intro c hc
  rcases Bool.or_eq_true_iff.mp (hfiller c hc) with h | h
  · exact absurd (beq_iff_eq.mp h ▸ hc) hcomma
  · exact h

/-- The items of filler are empty. -/
theorem eq_nil_of_mem_aliasItems {filler item : List Char}
    (hfiller : ∀ c ∈ filler, isFiller c = true) (hitem : item ∈ aliasItems filler) : item = [] := by
  induction hn : filler.length using Nat.strongRecOn generalizing filler with
  | ind n ih =>
    -- a comma parts the filler into two shorter ones
    by_cases hcomma : ',' ∈ filler
    · obtain ⟨front, back, rfl, _⟩ := List.eq_append_cons_of_mem hcomma
      rw [aliasItems_append_comma, List.mem_append] at hitem
      have hlength : front.length < n ∧ back.length < n := by
        rw [← hn, List.length_append, List.length_cons]
        omega
      rcases hitem with hitem | hitem
      · refine ih _ hlength.1 (fun c hc => hfiller c ?_) hitem rfl
        exact List.mem_append_left _ hc
      · refine ih _ hlength.2 (fun c hc => hfiller c ?_) hitem rfl
        exact List.mem_append_right front (List.mem_cons_of_mem _ hc)
    · rw [aliasItems_of_not_mem hcomma, List.mem_singleton] at hitem
      rw [hitem, Text.trimBy_eq_nil_iff]
      exact isSpace_of_isFiller hfiller hcomma

/-- Behind the last name filler adds spaces to it and empty items. -/
theorem aliasItems_append_filler {cs filler : List Char} (hcs : ',' ∉ cs)
    (hfiller : ∀ c ∈ filler, isFiller c = true) :
    ∃ blanks, (∀ item ∈ blanks, item = []) ∧
      aliasItems (cs ++ filler) = Text.trimBy (· == ' ') cs :: blanks := by
  have hspaced : ∀ spaces : List Char, (∀ c ∈ spaces, isFiller c = true) → ',' ∉ spaces →
      aliasItems (cs ++ spaces) = [Text.trimBy (· == ' ') cs] := by
    intro spaces hspaces hcomma
    have hnot : ',' ∉ cs ++ spaces := by
      simp [hcs, hcomma]
    rw [aliasItems_of_not_mem hnot,
      Text.trimBy_append_right (isSpace_of_isFiller hspaces hcomma)]
  by_cases hcomma : ',' ∈ filler
  · -- up to its first comma the filler is spaces behind the name
    obtain ⟨spaces, back, rfl, hspaces⟩ := List.eq_append_cons_of_mem hcomma
    refine ⟨aliasItems back, fun item hitem => ?_, ?_⟩
    · refine eq_nil_of_mem_aliasItems (fun c hc => hfiller c ?_) hitem
      exact List.mem_append_right spaces (List.mem_cons_of_mem _ hc)
    · rw [← List.append_assoc, aliasItems_append_comma,
        hspaced spaces (fun c hc => hfiller c (List.mem_append_left _ hc)) hspaces]
      rfl
  · exact ⟨[], fun _ hitem => (nomatch hitem), hspaced filler hfiller hcomma⟩

/-- The items of a written list are its names, and behind them nothing but empty ones. -/
theorem aliasItems_listText {items : List SpacedName} {filler : List Char}
    (hvalid : ∀ s ∈ items, isValidName s.name = true)
    (hfiller : ∀ c ∈ filler, isFiller c = true) :
    ∃ blanks, (∀ item ∈ blanks, item = []) ∧
      aliasItems (listText items filler).toList =
        items.map (fun s => s.name.toList) ++ blanks := by
  rw [listText, String.toList_ofList]
  induction items with
  | nil => exact ⟨_, fun item hitem => eq_nil_of_mem_aliasItems hfiller hitem, rfl⟩
  | cons s items ih =>
    obtain ⟨hs, hitems⟩ := List.forall_mem_cons.mp hvalid
    have hcomma := SpacedName.comma_not_mem_chars hs
    cases items with
    | nil =>
      obtain ⟨blanks, hblanks, haliases⟩ := aliasItems_append_filler hcomma hfiller
      refine ⟨blanks, hblanks, ?_⟩
      rw [List.map_singleton, List.intercalate_singleton, haliases, SpacedName.trimBy_chars hs]
      rfl
    | cons next items =>
      obtain ⟨blanks, hblanks, haliases⟩ := ih hitems
      refine ⟨blanks, hblanks, ?_⟩
      rw [List.map_cons] at haliases ⊢
      rw [List.map_cons, List.intercalate_cons_cons, List.append_assoc, List.append_assoc,
        List.singleton_append, aliasItems_append_comma, haliases, aliasItems_of_not_mem hcomma,
        SpacedName.trimBy_chars hs]
      rfl

theorem splitAliases_of_comma {text : String} (h : ',' ∈ text.toList) :
    splitAliases text =
      ((aliasItems text.toList).take
        (upToLast (!·.isEmpty) (aliasItems text.toList))).map String.ofList := by
  have hcontains : text.toList.contains ',' = true := by
    simpa using h
  rw [splitAliases, if_pos hcontains]

/-- Empty items are dropped behind the last that is not. -/
theorem take_upToLast_append {items blanks : List (List Char)} (hitems : ∀ item ∈ items, item ≠ [])
    (hblanks : ∀ item ∈ blanks, item = []) :
    (items ++ blanks).take (upToLast (!·.isEmpty) (items ++ blanks)) = items := by
  have hcut : upToLast (!·.isEmpty) (items ++ blanks) = items.length := by
    apply upToLast_eq_of_iff
    · simp
    · intro i item hitem
      by_cases hi : i < items.length
      · rw [List.getElem?_append_left hi] at hitem
        simp [hi, hitems item (List.mem_of_getElem? hitem)]
      · rw [List.getElem?_append_right (by omega)] at hitem
        simp [hi, hblanks item (List.mem_of_getElem? hitem)]
  rw [hcut, List.take_left]

/-- From a text that lists valid names, splitting gives the names. -/
theorem splitAliases_of_lists {names : List String} {text : String}
    (hvalid : ∀ name ∈ names, isValidName name = true) (h : Lists names text) :
    splitAliases text = names := by
  obtain ⟨⟨items, filler, rfl, rfl, hfiller⟩, hcomma⟩ := h
  by_cases hmem : ',' ∈ (listText items filler).toList
  · have hitems : ∀ s ∈ items, isValidName s.name = true :=
      fun s hs => hvalid s.name (List.mem_map_of_mem hs)
    obtain ⟨blanks, hblanks, haliases⟩ := aliasItems_listText hitems hfiller
    have hne : ∀ item ∈ items.map (fun s => s.name.toList), item ≠ [] := by
      intro item hitem
      obtain ⟨s, hs, rfl⟩ := List.mem_map.mp hitem
      exact ((isValidName_iff s.name).mp (hitems s hs)).1
    rw [splitAliases_of_comma hmem, haliases, take_upToLast_append hne hblanks, List.map_map]
    exact List.map_congr_left fun s _ => String.ofList_toList
  · rw [splitAliases_of_not_mem hmem]
    exact (hcomma.resolve_left hmem).symm

/-! ### What is read was written -/

theorem isFiller_of_mem_intercalate {pieces : List (List Char)}
    (h : ∀ piece ∈ pieces, ∀ c ∈ piece, isFiller c = true) :
    ∀ c ∈ [','].intercalate pieces, isFiller c = true := by
  induction pieces with
  | nil => exact fun _ hc => (nomatch hc)
  | cons piece pieces ih =>
    obtain ⟨hpiece, hpieces⟩ := List.forall_mem_cons.mp h
    cases pieces with
    | nil =>
      rw [List.intercalate_singleton]
      exact hpiece
    | cons next pieces =>
      intro c hc
      rw [List.intercalate_cons_cons, List.append_assoc, List.mem_append, List.singleton_append,
        List.mem_cons] at hc
      rcases hc with hc | rfl | hc
      · exact hpiece c hc
      · rfl
      · exact ih hpieces c hc

/-- Pieces of filler behind others are filler of the whole. -/
theorem exists_filler (front back : List (List Char))
    (h : ∀ piece ∈ back, ∀ c ∈ piece, isFiller c = true) :
    ∃ filler, (∀ c ∈ filler, isFiller c = true) ∧
      [','].intercalate (front ++ back) = [','].intercalate front ++ filler := by
  have hback := isFiller_of_mem_intercalate h
  induction front with
  | nil => exact ⟨[','].intercalate back, hback, rfl⟩
  | cons piece front ih =>
    cases front with
    | nil =>
      cases back with
      | nil => exact ⟨[], fun _ hc => (nomatch hc), by simp⟩
      | cons first back =>
        refine ⟨',' :: [','].intercalate (first :: back), List.forall_mem_cons.mpr ⟨rfl, hback⟩, ?_⟩
        rw [List.singleton_append, List.intercalate_cons_cons, List.intercalate_singleton,
          List.append_assoc, List.singleton_append]
    | cons next front =>
      obtain ⟨filler, hfiller, hjoin⟩ := ih
      refine ⟨filler, hfiller, ?_⟩
      rw [List.cons_append] at hjoin
      rw [List.cons_append, List.cons_append, List.intercalate_cons_cons, hjoin,
        List.intercalate_cons_cons, List.append_assoc, List.append_assoc, List.append_assoc]

/-- Of the pieces between the commas of a text, those at the end that hold nothing but spaces are
dropped, and the others are trimmed. -/
theorem exists_kept {text : String} (h : ',' ∈ text.toList) :
    ∃ kept dropped, text.toList.splitOn ',' = kept ++ dropped ∧
      (∀ piece ∈ dropped, ∀ c ∈ piece, isFiller c = true) ∧
      splitAliases text =
        kept.map fun piece => String.ofList (Text.trimBy (· == ' ') piece) := by
  have hcut := upToLast_map (!·.isEmpty) (Text.trimBy (· == ' ')) (text.toList.splitOn ',')
  have hsplit := List.take_append_drop
    (upToLast (fun piece => !(Text.trimBy (· == ' ') piece).isEmpty) (text.toList.splitOn ','))
    (text.toList.splitOn ',')
  refine ⟨_, _, hsplit.symm, ?_, ?_⟩
  · intro piece hpiece c hc
    obtain ⟨i, hi⟩ := List.getElem?_of_mem hpiece
    rw [List.getElem?_drop] at hi
    have hblank := not_of_upToLast_le (Nat.le_add_right _ i) hi
    have hnil : Text.trimBy (· == ' ') piece = [] := by
      simpa using hblank
    rw [isFiller, Text.trimBy_eq_nil_iff.mp hnil c hc, Bool.or_true]
  · rw [splitAliases_of_comma h, aliasItems, hcut, ← List.map_take, List.map_map]
    rfl

/-- A text with a comma holds what it is split into with commas between, and filler behind. -/
theorem exists_listText_of_comma {text : String} (h : ',' ∈ text.toList) :
    ∃ items filler, text = listText items filler ∧
      items.map SpacedName.name = splitAliases text ∧ ∀ c ∈ filler, isFiller c = true := by
  obtain ⟨kept, dropped, hpieces, hdropped, hnames⟩ := exists_kept h
  obtain ⟨filler, hfiller, hjoin⟩ := exists_filler kept dropped hdropped
  rw [← hpieces, List.intercalate_splitOn] at hjoin
  choose spaced hchars hname using SpacedName.exists_chars_eq
  have hkept : (kept.map spaced).map SpacedName.chars = kept := by
    rw [List.map_map]
    exact List.map_id'' hchars kept
  refine ⟨kept.map spaced, filler, ?_, ?_, hfiller⟩
  · apply String.toList_injective
    rw [listText, String.toList_ofList, hkept, hjoin]
  · rw [hnames, List.map_map]
    exact List.map_congr_left fun piece _ => hname piece

/-- Every text lists what it is split into. -/
theorem lists_splitAliases (text : String) : Lists (splitAliases text) text := by
  by_cases hcomma : ',' ∈ text.toList
  · obtain ⟨items, filler, htext, hnames, hfiller⟩ := exists_listText_of_comma hcomma
    exact ⟨⟨items, filler, htext, hnames, hfiller⟩, .inl hcomma⟩
  · rw [splitAliases_of_not_mem hcomma]
    refine ⟨⟨[⟨0, text, 0⟩], [], ?_, rfl, fun _ hc => (nomatch hc)⟩, .inr rfl⟩
    apply String.toList_injective
    simp [listText, SpacedName.chars]

/-- The texts that list no name. -/
theorem lists_nil_iff {text : String} :
    Lists [] text ↔ ',' ∈ text.toList ∧ ∀ c ∈ text.toList, isFiller c = true := by
  constructor
  · rintro ⟨⟨items, filler, rfl, hnames, hfiller⟩, hcomma⟩
    obtain rfl := List.map_eq_nil_iff.mp hnames
    refine ⟨hcomma.resolve_right fun h => (nomatch h), ?_⟩
    rwa [listText, String.toList_ofList]
  · rintro ⟨hcomma, hfiller⟩
    refine ⟨⟨[], text.toList, ?_, rfl, hfiller⟩, .inl hcomma⟩
    exact (String.ofList_toList).symm

/-- What may be given as a list of aliases: a text that lists valid names, or nothing but commas
and spaces, with a comma at least. -/
def IsAliasList (text : String) : Prop :=
  (∃ names, names ≠ [] ∧ (∀ name ∈ names, isValidName name = true) ∧ Lists names text) ∨
    ',' ∈ text.toList ∧ ∀ c ∈ text.toList, isFiller c = true

theorem splitAliases_of_filler {text : String}
    (h : ',' ∈ text.toList ∧ ∀ c ∈ text.toList, isFiller c = true) : splitAliases text = [] :=
  splitAliases_of_lists (fun _ hname => (nomatch hname)) (lists_nil_iff.mpr h)

theorem isAliasList_iff {text : String} :
    IsAliasList text ↔ ∀ name ∈ splitAliases text, isValidName name = true := by
  constructor
  · rintro (⟨names, _, hvalid, hlists⟩ | hfiller)
    · rwa [splitAliases_of_lists hvalid hlists]
    · rw [splitAliases_of_filler hfiller]
      exact fun _ hname => (nomatch hname)
  · intro hvalid
    have hlists := lists_splitAliases text
    by_cases hnil : splitAliases text = []
    · rw [hnil] at hlists
      exact .inr (lists_nil_iff.mp hlists)
    · exact .inl ⟨_, hnil, hvalid, hlists⟩

/-! ### Refused names -/

namespace CommandSpec

variable {parsers : ParserRegistry} {spec : CommandSpec σ}

/-- The fault of a specification is a name as soon as one of its names is not valid. -/
theorem exists_fault_invalidName_iff :
    (∃ name, spec.Fault parsers (.invalidName name)) ↔
      isValidName spec.name = false ∨ ∃ other ∈ spec.aliases, isValidName other = false := by
  constructor
  · rintro ⟨name, h⟩
    cases h with
    | name hname => exact .inl hname
    | other _ hsplit _ hother =>
      refine .inr ⟨name, ?_, hother⟩
      rw [hsplit]
      exact List.mem_append_right _ List.mem_cons_self
    | default _ _ _ _ hd => cases hd
  · rintro (hname | ⟨other, hmem, hother⟩)
    · exact ⟨_, .name hname⟩
    · cases hvalid : isValidName spec.name with
      | false => exact ⟨_, .name hvalid⟩
      | true =>
        cases hrun : spec.aliases.forM checkName with
        | ok _ =>
          have hok := checkName_eq_ok_iff.mp (forM_eq_ok_iff.mp hrun other hmem)
          rw [hother] at hok
          cases hok
        | error e =>
          obtain ⟨before, first, after, hsplit, hbefore, hfirst, _⟩ :=
            forM_checkName_eq_error_iff.mp hrun
          exact ⟨first, .other hvalid hsplit hbefore hfirst⟩

end CommandSpec

theorem firstFault_singleton_iff {parsers : ParserRegistry} {spec : CommandSpec σ}
    {e : RegistrationError} : FirstFault parsers [spec] e ↔ spec.Fault parsers e := by
  constructor
  · rintro ⟨before, other, after, hsplit, _, hfault⟩
    obtain ⟨rfl, hrest⟩ | ⟨_, hnil⟩ := List.singleton_eq_append_iff.mp hsplit
    · obtain ⟨rfl, _⟩ := List.cons.inj hrest
      exact hfault
    · cases hnil
  · intro hfault
    exact ⟨[], spec, [], rfl, fun _ h => (nomatch h), hfault⟩

namespace Registrar

/-- A command by itself is refused for a name exactly when one of its names is not valid. -/
theorem register_alone_iff {r : Registrar σ} {spec : CommandSpec σ} :
    (∃ name, r.register [spec] = .error (.invalidName name)) ↔
      isValidName spec.name = false ∨ ∃ other ∈ spec.aliases, isValidName other = false := by
  rw [← CommandSpec.exists_fault_invalidName_iff]
  constructor
  · rintro ⟨name, h⟩
    rcases register_eq_error_iff.mp h with hfault | ⟨_, _, _, _, he⟩
    · exact ⟨name, firstFault_singleton_iff.mp hfault⟩
    · cases he
  · rintro ⟨name, h⟩
    exact ⟨name, register_eq_error_iff.mpr (.inl (firstFault_singleton_iff.mpr h))⟩

/-- Splitting a text that lists valid names gives these names, and a text from which it gives valid
names only lists them, or is nothing but commas and spaces. With any other text as a list of
aliases a command is refused for a name, and with such a text only for another of its names. -/
theorem splitAliases_inverts :
    (∀ (names : List String) (text : String), names ≠ [] →
      (∀ name ∈ names, isValidName name = true) → Lists names text →
      splitAliases text = names) ∧
    (∀ text : String, (∀ name ∈ splitAliases text, isValidName name = true) →
      (∃ names, names ≠ [] ∧ (∀ name ∈ names, isValidName name = true) ∧ Lists names text ∧
        splitAliases text = names) ∨
      (',' ∈ text.toList ∧ ∀ c ∈ text.toList, isFiller c = true) ∧ splitAliases text = []) ∧
    ∀ (r : Registrar σ) (spec : CommandSpec σ) (text : String),
      (∃ name, r.register [spec.addAliasList text] = .error (.invalidName name)) ↔
        isValidName spec.name = false ∨ (∃ other ∈ spec.aliases, isValidName other = false) ∨
          ¬ IsAliasList text := by
  refine ⟨fun names text _ hvalid hlists => splitAliases_of_lists hvalid hlists, ?_, ?_⟩
  · intro text hvalid
    rcases isAliasList_iff.mpr hvalid with ⟨names, hne, hnames, hlists⟩ | hfiller
    · exact .inl ⟨names, hne, hnames, hlists, splitAliases_of_lists hnames hlists⟩
    · exact .inr ⟨hfiller, splitAliases_of_filler hfiller⟩
  · intro r spec text
    have haliases : (spec.addAliasList text).aliases = spec.aliases ++ splitAliases text := rfl
    have hlist : ¬ IsAliasList text ↔ ∃ other ∈ splitAliases text, isValidName other = false := by
      simp [isAliasList_iff]
    rw [register_alone_iff, haliases, hlist]
    simp only [List.mem_append, or_and_right, exists_or]
    rfl

/-- A list with spaces around its commas and more behind is read, a name with a space before it
and nothing else is refused. -/
theorem splitAliases_inverts_letters :
    Lists ["d", "e", "f"] " d , e,  f , ," ∧ splitAliases " d , e,  f , ," = ["d", "e", "f"] ∧
      splitAliases " ," = [] ∧ (∀ c ∈ " ,".toList, isFiller c = true) ∧
      ∃ name, (empty : Registrar Unit).register [(plain "cmd").addAliasList " a"] =
        .error (.invalidName name) := by
  obtain ⟨hread, hwritten, hrefused⟩ := @splitAliases_inverts Unit
  have hlists : Lists ["d", "e", "f"] " d , e,  f , ," := by
    refine ⟨⟨[⟨1, "d", 1⟩, ⟨1, "e", 0⟩, ⟨2, "f", 1⟩], [',', ' ', ','], ?_, rfl, ?_⟩, .inl ?_⟩
    · decide +kernel
    · exact List.all_eq_true.mp (by decide)
    · decide +kernel
  have hnone : splitAliases " ," = [] := by
    decide +kernel
  have hvalid : ∀ name ∈ splitAliases " ,", isValidName name = true := by
    rw [hnone]
    exact fun _ hname => (nomatch hname)
  refine ⟨hlists, hread _ _ (by simp) (by decide +kernel) hlists, hnone, ?_, ?_⟩
  · rcases hwritten " ," hvalid with ⟨names, hne, _, _, hnames⟩ | ⟨⟨_, hfiller⟩, _⟩
    · exact absurd (hnames.symm.trans hnone) hne
    · exact hfiller
  · refine (hrefused empty (plain "cmd") " a").mpr (.inr (.inr ?_))
    rw [isAliasList_iff]
    decide +kernel

end Registrar

end Switchboard
