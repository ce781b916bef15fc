import Mathlib.Data.List.DropRight
import Switchboard.Template

/-!
# What a template renders to

A template is gone through brace by brace, and an argument that is filled in is
not looked at again. So a text can be cut wherever its braces are closed, and what
a template renders to follows from what single pairs of braces do. A brace that
is left open takes the placeholder behind it with it.

* `Closed`: a text without an opening brace behind its last closing one
* `renderChars_append`: behind such a text rendering starts anew
* `ReadsAs`, `index?_eq_some_iff`: the texts that read as an index
* `Renders`, `render_determined`: the laws of rendering, which leave no choice
* `renderChars_between`, `render_placeholder`: when a placeholder between two texts is filled in
-/

namespace Switchboard

namespace Template

/-! ### Closed braces -/

/-- No opening brace stands behind the last closing one. -/
def Closed (cs : List Char) : Prop :=
  '{' ∉ cs.rtakeWhile (· != '}')

instance (cs : List Char) : Decidable (Closed cs) :=
  inferInstanceAs (Decidable (¬ _))

theorem closed_nil : Closed [] :=
  List.not_mem_nil

theorem closed_of_not_mem {cs : List Char} (h : '{' ∉ cs) : Closed cs := by
  intro hmem
  exact h ((List.rtakeWhile_suffix _ _).subset hmem)

theorem closed_cons (c : Char) (cs : List Char) :
    Closed (c :: cs) ↔ (c = '{' → '}' ∈ cs) ∧ Closed cs := by
  unfold Closed List.rtakeWhile
  rw [List.reverse_cons]
  by_cases hclose : '}' ∈ cs
  · -- the last closing brace stands behind the first character
    have hshort : (cs.reverse.takeWhile (· != '}')).length ≠ cs.reverse.length := by
      intro hlength
      have hall := (List.takeWhile_prefix (· != '}')).eq_of_length hlength
      have hne := List.takeWhile_eq_self_iff.mp hall _ (List.mem_reverse.mpr hclose)
      exact absurd hne (by decide)
    rw [List.takeWhile_append, if_neg hshort]
    exact ⟨fun h => ⟨fun _ => hclose, h⟩, fun h => h.2⟩
  · -- there is none, so all characters count
    have hall : ∀ d ∈ cs.reverse, (d != '}') = true := by
      intro d hd
      rw [bne_iff_ne]
      rintro rfl
      exact hclose (List.mem_reverse.mp hd)
    have hhead : '{' ∈ [c].takeWhile (· != '}') ↔ c = '{' := by
      constructor
      · intro hmem
        exact (List.mem_singleton.mp (List.takeWhile_subset _ hmem)).symm
      · rintro rfl
        decide
    rw [List.takeWhile_append_of_pos hall, List.takeWhile_eq_self_iff.mpr hall,
      List.mem_reverse, List.mem_reverse, List.mem_append, not_or, hhead, List.mem_reverse]
    simp only [hclose, imp_false, and_comm]

/-- What stands behind the first part of such a text is one too. -/
theorem Closed.of_append {front cs : List Char} (h : Closed (front ++ cs)) : Closed cs := by
  induction front with
  | nil => exact h
  | cons c front ih => exact ih ((closed_cons c _).mp h).2

/-- A pair of braces leaves nothing open. -/
theorem closed_pair (inside : List Char) : Closed ('{' :: inside ++ ['}']) := by
  rw [Closed, List.rtakeWhile_concat_neg _ _ _ (by decide)]
  exact List.not_mem_nil

/-- The first brace that is left open: all before it are closed, and it never is. -/
theorem exists_open {cs : List Char} (h : ¬ Closed cs) :
    ∃ front rest, cs = front ++ '{' :: rest ∧ Closed front ∧ '}' ∉ rest := by
  induction cs with
  | nil => exact absurd closed_nil h
  | cons c cs ih =>
    by_cases hcs : Closed cs
    · rw [closed_cons, not_and_or, Classical.not_imp] at h
      obtain ⟨rfl, hclose⟩ := h.resolve_right (not_not.mpr hcs)
      exact ⟨[], cs, rfl, closed_nil, hclose⟩
    · obtain ⟨front, rest, rfl, hfront, hrest⟩ := ih hcs
      by_cases hc : c = '{' → '}' ∈ front
      · exact ⟨c :: front, rest, rfl, (closed_cons c front).mpr ⟨hc, hfront⟩, hrest⟩
      · -- not closed before the other one, so not at all
        rw [Classical.not_imp] at hc
        obtain ⟨rfl, hclose⟩ := hc
        refine ⟨[], front ++ '{' :: rest, rfl, closed_nil, ?_⟩
        simp only [List.mem_append, List.mem_cons, not_or]
        exact ⟨hclose, by decide, hrest⟩

/-! ### Cutting a template -/

/-- A pair of braces is rendered on its own. -/
theorem renderChars_pair (args : Args) {inside : List Char} (h : '}' ∉ inside)
    (after : List Char) :
    renderChars args ('{' :: (inside ++ '}' :: after)) =
      fill args inside ++ renderChars args after :=
  renderChars_open args (cutAtClose_append h after)

/-- Behind a text whose braces are closed rendering starts anew. -/
theorem renderChars_append (args : Args) {l : List Char} (h : Closed l) (r : List Char) :
    renderChars args (l ++ r) = renderChars args l ++ renderChars args r := by
  induction hn : l.length using Nat.strongRecOn generalizing l with
  | ind n ih =>
    cases l with
    | nil =>
      rw [List.nil_append, renderChars_of_not_mem args List.not_mem_nil]
      rfl
    | cons c cs =>
      obtain ⟨hopen, hcs⟩ := (closed_cons c cs).mp h
      by_cases hc : c = '{'
      · obtain ⟨inside, after, rfl, hinside⟩ := List.eq_append_cons_of_mem (hopen hc)
        have hafter : Closed after := by
          rw [List.append_cons] at hcs
          exact hcs.of_append
        have hlt : after.length < n := by
          rw [← hn, List.length_cons, List.length_append, List.length_cons]
          omega
        rw [hc, List.cons_append, List.append_assoc, List.cons_append,
          renderChars_pair args hinside, renderChars_pair args hinside,
          ih after.length hlt hafter rfl, List.append_assoc]
      · have hlt : cs.length < n := by
          rw [← hn, List.length_cons]
          omega
        rw [List.cons_append, renderChars_cons_of_ne args _ hc, renderChars_cons_of_ne args _ hc,
          ih cs.length hlt hcs rfl, List.cons_append]

/-! ### Indices between braces -/

/-- The text reads as an index: digits after an optional plus sign, for a number below two to the
power 64. -/
def ReadsAs (cs : List Char) (index : Nat) : Prop :=
  ∃ digits, (cs = digits ∨ cs = '+' :: digits) ∧ digits ≠ [] ∧
    (∀ c ∈ digits, c.isDigit = true) ∧ Nat.ofDigitChars 10 digits 0 = index ∧ index < Nat.pow 2 64

theorem holds_u64_iff (n : Nat) : IntKind.u64.Holds (Int.ofNat n) ↔ n < Nat.pow 2 64 := by
  have hleast : IntKind.u64.least = 0 := rfl
  have hgreatest : IntKind.u64.greatest = Nat.pow 2 64 - 1 := rfl
  rw [IntKind.Holds, hleast, hgreatest, Int.ofNat_eq_natCast]
  omega

theorem index?_eq_some_iff {cs : List Char} {i : Nat} : index? cs = some i ↔ ReadsAs cs i := by
  unfold index? IntKind.read?
  constructor
  · intro h
    cases hread : intOfDigits? IntKind.u64.isSigned cs with
    | none =>
      rw [hread] at h
      cases h
    | some n =>
      obtain ⟨digits, m, hcs, hm, rfl⟩ := intOfDigits?_eq_some_iff.mp hread
      obtain ⟨hne, hdigits, hvalue⟩ := natOfDigits?_eq_some_iff.mp hm
      rw [hread] at h
      simp only at h
      split at h
      next _ hk =>
        split at hk
        next hholds =>
          obtain rfl := Option.some.inj hk
          obtain rfl : m = i := Option.some.inj h
          exact ⟨digits, hcs, hne, hdigits, hvalue, (holds_u64_iff m).mp hholds⟩
        next => cases hk
      next => cases h
  · rintro ⟨digits, hcs, hne, hdigits, hvalue, hlt⟩
    have hread : intOfDigits? IntKind.u64.isSigned cs = some (Int.ofNat i) :=
      intOfDigits?_eq_some_iff.mpr
        ⟨digits, i, hcs, natOfDigits?_eq_some_iff.mpr ⟨hne, hdigits, hvalue⟩, rfl⟩
    rw [hread]
    simp only
    rw [dif_pos ((holds_u64_iff i).mpr hlt)]
    rfl

/-- A text with an opening brace in it is no index. -/
theorem not_readsAs {cs : List Char} (h : '{' ∈ cs) (i : Nat) : ¬ ReadsAs cs i := by
  rintro ⟨digits, hcs, -, hdigits, -⟩
  have hbrace : '{' ∈ digits := by
    rcases hcs with rfl | rfl
    · exact h
    · exact (List.mem_cons.mp h).resolve_left (by decide)
  exact absurd (hdigits _ hbrace) (by decide)

/-- What does not read as the index of an argument is kept. -/
theorem fill_eq_self {args : Args} {inside : List Char}
    (h : ∀ i < args.values.length, ¬ ReadsAs inside i) :
    fill args inside = '{' :: inside ++ ['}'] := by
  have hnone : (index? inside).bind args.value? = none := by
    rw [Option.bind_eq_none_iff]
    intro i hi
    refine List.getElem?_eq_none (Nat.le_of_not_lt fun hlt => ?_)
    exact h i hlt (index?_eq_some_iff.mp hi)
  rw [fill, hnone]

theorem fill_of_readsAs {args : Args} {inside : List Char} {i : Nat} (hi : ReadsAs inside i)
    (hlt : i < args.values.length) :
    fill args inside = args.values[i].replyText.toList := by
  have hv : args.value? i = some args.values[i] := List.getElem?_eq_getElem hlt
  rw [fill, index?_eq_some_iff.mpr hi, Option.bind_some, hv]

/-! ### The laws of rendering -/

/-- A text behind an opening brace. -/
def opened (t : String) : String :=
  String.singleton '{' ++ t

/-- A text between braces. -/
def braced (t : String) : String :=
  opened t ++ String.singleton '}'

/-- The laws of rendering with some arguments: texts with closed braces are rendered on their own,
texts without a pair of braces are kept, and a pair of braces gives way to the argument whose
index stands between them, if there is one. -/
structure Renders (args : Args) (f : String → String) : Prop where
  split : ∀ l r : String, Closed l.toList → f (l ++ r) = f l ++ f r
  plain : ∀ t : String, '{' ∉ t.toList → f t = t
  unclosed : ∀ t : String, '}' ∉ t.toList → f (opened t) = opened t
  filled : ∀ (t : String) (i : Nat) (_ : i < args.values.length), '}' ∉ t.toList →
    ReadsAs t.toList i → f (braced t) = args.values[i].replyText
  kept : ∀ t : String, '}' ∉ t.toList → (∀ i < args.values.length, ¬ ReadsAs t.toList i) →
    f (braced t) = braced t

theorem ofList_open (cs : List Char) : String.ofList ('{' :: cs) = opened (String.ofList cs) := by
  rw [← List.singleton_append, String.ofList_append]
  rfl

theorem ofList_pair (inside after : List Char) :
    String.ofList ('{' :: (inside ++ '}' :: after)) =
      braced (String.ofList inside) ++ String.ofList after := by
  rw [List.append_cons, ← List.cons_append, String.ofList_append, ← List.cons_append,
    String.ofList_append, ofList_open]
  rfl

theorem toList_opened (t : String) : (opened t).toList = '{' :: t.toList :=
  String.toList_append

theorem toList_braced (t : String) : (braced t).toList = '{' :: (t.toList ++ ['}']) := by
  rw [braced, String.toList_append, toList_opened]
  rfl

theorem render_append (args : Args) {l : String} (h : Closed l.toList) (r : String) :
    render (l ++ r) args = render l args ++ render r args := by
  unfold render
  rw [String.toList_append, renderChars_append args h, String.ofList_append]

theorem render_of_not_mem (args : Args) {t : String} (h : '{' ∉ t.toList) :
    render t args = t := by
  rw [render, renderChars_of_not_mem args h, String.ofList_toList]

theorem render_braced (args : Args) {t : String} (h : '}' ∉ t.toList) :
    render (braced t) args = String.ofList (fill args t.toList) := by
  rw [render, toList_braced, renderChars_pair args h, renderChars_of_not_mem args List.not_mem_nil,
    List.append_nil]

theorem renders_render (args : Args) : Renders args (render · args) where
  split l r h := render_append args h r
  plain _ h := render_of_not_mem args h
  unclosed t h := by
    show render (opened t) args = opened t
    rw [render, toList_opened, renderChars_unclosed args (cutAtClose_of_not_mem h),
      ← toList_opened, String.ofList_toList]
  filled t i hlt h hi := by
    show render (braced t) args = args.values[i].replyText
    rw [render_braced args h, fill_of_readsAs hi hlt, String.ofList_toList]
  kept t h hi := by
    show render (braced t) args = braced t
    rw [render_braced args h, fill_eq_self hi, List.cons_append, ← toList_braced,
      String.ofList_toList]

namespace Renders

variable {args : Args} {f g : String → String}

/-- On a pair of braces the laws leave no choice. -/
theorem eq_braced (hf : Renders args f) (hg : Renders args g) {t : String}
    (h : '}' ∉ t.toList) : f (braced t) = g (braced t) := by
  by_cases hindex : ∃ i < args.values.length, ReadsAs t.toList i
  · obtain ⟨i, hlt, hi⟩ := hindex
    rw [hf.filled t i hlt h hi, hg.filled t i hlt h hi]
  · have hnone : ∀ i < args.values.length, ¬ ReadsAs t.toList i := fun i hlt hi =>
      hindex ⟨i, hlt, hi⟩
    rw [hf.kept t h hnone, hg.kept t h hnone]

/-- The laws leave no choice on any text: at its first pair of braces it falls apart into two texts
they speak of and a shorter one. -/
theorem eq_ofList (hf : Renders args f) (hg : Renders args g) (cs : List Char) :
    f (String.ofList cs) = g (String.ofList cs) := by
  induction hn : cs.length using Nat.strongRecOn generalizing cs with
  | ind n ih =>
    by_cases hopen : '{' ∈ cs
    · obtain ⟨front, rest, rfl, hfront⟩ := List.eq_append_cons_of_mem hopen
      have hclosed : Closed (String.ofList front).toList := by
        rw [String.toList_ofList]
        exact closed_of_not_mem hfront
      rw [← String.toList_ofList (l := front)] at hfront
      rw [String.ofList_append, hf.split _ _ hclosed, hg.split _ _ hclosed, hf.plain _ hfront,
        hg.plain _ hfront]
      congr 1
      by_cases hclose : '}' ∈ rest
      · obtain ⟨inside, after, rfl, hinside⟩ := List.eq_append_cons_of_mem hclose
        have hpair : Closed (braced (String.ofList inside)).toList := by
          rw [toList_braced]
          exact closed_pair _
        have hlt : after.length < n := by
          rw [← hn]
          simp only [List.length_append, List.length_cons]
          omega
        rw [← String.toList_ofList (l := inside)] at hinside
        rw [ofList_pair, hf.split _ _ hpair, hg.split _ _ hpair, hf.eq_braced hg hinside,
          ih after.length hlt after rfl]
      · rw [← String.toList_ofList (l := rest)] at hclose
        rw [ofList_open, hf.unclosed _ hclose, hg.unclosed _ hclose]
    · rw [← String.toList_ofList (l := cs)] at hopen
      rw [hf.plain _ hopen, hg.plain _ hopen]

theorem unique (hf : Renders args f) (hg : Renders args g) (t : String) : f t = g t := by
  have h := hf.eq_ofList hg t.toList
  rwa [String.ofList_toList] at h

end Renders

/-- Without arguments a template renders to itself. With any arguments, rendering obeys the laws,
and nothing else does. What is filled in for a session is its user, and for any other argument its
text. -/
theorem render_determined :
    (∀ t, render t ⟨[]⟩ = t) ∧
      (∀ args f, Renders args f ↔ ∀ t, f t = render t args) ∧
      (∀ (v : Value) user, v.payload? = some (.session user) → v.replyText = user) ∧
      ∀ v : Value, (∀ user, v.payload? ≠ some (.session user)) → v.replyText = v.text := by
  refine ⟨fun t => ?_, fun args f => ⟨fun h t => ?_, fun h => ?_⟩, ?_, ?_⟩
  · -- keeping every text obeys the laws when there is nothing to fill in
    have hkeep : Renders ⟨[]⟩ id :=
      { split := fun _ _ _ => rfl
        plain := fun _ _ => rfl
        unclosed := fun _ _ => rfl
        filled := fun _ _ hlt => nomatch hlt
        kept := fun _ _ _ => rfl }
    exact (renders_render ⟨[]⟩).unique hkeep t
  · exact h.unique (renders_render args) t
  · obtain rfl : f = (render · args) := funext h
    exact renders_render args
  · intro v user huser
    rw [Value.replyText, huser]
  · intro v hnone
    rw [Value.replyText]
    split
    next user huser => exact absurd huser (hnone user)
    next => rfl

/-! ### Placeholders between texts -/

/-- The placeholder of an index, which is written in decimal. -/
def placeholder (n : Nat) : String :=
  braced (String.ofList (Nat.toDigits 10 n))

/-- A pair of braces between two texts is filled in when the braces before it are closed. A brace
that is still open takes it in, and all is kept up to its end. -/
theorem renderChars_between (args : Args) {inside : List Char} (h : '}' ∉ inside)
    (l r : List Char) :
    renderChars args (l ++ '{' :: (inside ++ '}' :: r)) =
      renderChars args l ++
        ((if Closed l then fill args inside else '{' :: inside ++ ['}']) ++
          renderChars args r) := by
  by_cases hl : Closed l
  · rw [if_pos hl, renderChars_append args hl, renderChars_pair args h]
  · obtain ⟨front, rest, rfl, hfront, hrest⟩ := exists_open hl
    have hinside : '}' ∉ rest ++ '{' :: inside := by
      simp only [List.mem_append, List.mem_cons, not_or]
      exact ⟨hrest, by decide, h⟩
    have hkept : fill args (rest ++ '{' :: inside) =
        '{' :: rest ++ ('{' :: inside ++ ['}']) := by
      rw [fill_eq_self, List.cons_append, List.append_assoc]
      · rfl
      · intro i _ hi
        have hbrace : '{' ∈ rest ++ '{' :: inside :=
          List.mem_append_right rest List.mem_cons_self
        exact absurd hi (not_readsAs hbrace i)
    have hassoc : front ++ '{' :: rest ++ '{' :: (inside ++ '}' :: r) =
        front ++ '{' :: ((rest ++ '{' :: inside) ++ '}' :: r) := by
      simp only [List.append_assoc, List.cons_append]
    rw [if_neg hl, hassoc, renderChars_append args hfront, renderChars_append args hfront,
      renderChars_pair args hinside, hkept,
      renderChars_unclosed args (cutAtClose_of_not_mem hrest)]
    simp only [List.append_assoc]

theorem placeholder_toList (n : Nat) :
    (placeholder n).toList = '{' :: (Nat.toDigits 10 n ++ ['}']) := by
  rw [placeholder, toList_braced, String.toList_ofList]

theorem toDigits_isDigit (n : Nat) : ∀ c ∈ Nat.toDigits 10 n, c.isDigit = true :=
  (natOfDigits?_eq_some_iff.mp (natOfDigits?_toDigits n)).2.1

theorem readsAs_toDigits (n i : Nat) : ReadsAs (Nat.toDigits 10 n) i ↔ n = i ∧ n < twoTo 64 := by
  constructor
  · rintro ⟨digits, rfl | hplus, -, -, rfl, hlt⟩
    · rw [Nat.ofDigitChars_ten_toDigits] at hlt ⊢
      exact ⟨rfl, hlt⟩
    · have hdigit := toDigits_isDigit n '+' (by rw [hplus]; exact List.mem_cons_self)
      exact absurd hdigit (by decide)
  · rintro ⟨rfl, hlt⟩
    exact ⟨_, .inl rfl, Nat.toDigits_ne_nil, toDigits_isDigit n, Nat.ofDigitChars_ten_toDigits,
      hlt⟩

/-- What stands for the placeholder of an argument between two texts. -/
theorem render_placeholder_between {args : Args} {n : Nat} (hn : n < args.values.length)
    (l r : String) :
    render (l ++ placeholder n ++ r) args =
      render l args ++
        (if Closed l.toList ∧ n < twoTo 64 then args.values[n].replyText else placeholder n) ++
          render r args := by
  have hinside : '}' ∉ Nat.toDigits 10 n := fun hmem =>
    absurd (toDigits_isDigit n _ hmem) (by decide)
  apply String.toList_injective
  have hchars : (l ++ placeholder n ++ r).toList =
      l.toList ++ '{' :: (Nat.toDigits 10 n ++ '}' :: r.toList) := by
    simp only [String.toList_append, placeholder_toList, List.append_assoc, List.cons_append,
      List.nil_append]
  simp only [render, hchars, renderChars_between args hinside, String.toList_append,
    String.toList_ofList, List.append_assoc]
  congr 2
  by_cases hl : Closed l.toList
  · rw [if_pos hl]
    by_cases hlt : n < twoTo 64
    · rw [if_pos ⟨hl, hlt⟩, fill_of_readsAs ((readsAs_toDigits n n).mpr ⟨rfl, hlt⟩) hn]
    · rw [if_neg fun h => hlt h.2, placeholder_toList]
      apply fill_eq_self
      intro i _ hi
      exact absurd ((readsAs_toDigits n i).mp hi).2 hlt
  · rw [if_neg hl, if_neg fun h => hl h.1, placeholder_toList]
    rfl

/-- The placeholder of an argument, with an index of 64 bits, is filled in exactly when no brace
before it is left open (or when the argument's text is the placeholder itself). Otherwise it is
kept. -/
theorem render_placeholder (args : Args) (n : Nat) (hn : n < args.length) (l r : String) :
    ∃ v, args.value? n = some v ∧
      (render (l ++ placeholder n ++ r) args = render l args ++ v.replyText ++ render r args ↔
        Closed l.toList ∧ n < twoTo 64 ∨ v.replyText = placeholder n) ∧
      (¬ (Closed l.toList ∧ n < twoTo 64) →
        render (l ++ placeholder n ++ r) args =
          render l args ++ placeholder n ++ render r args) := by
  have hv : args.value? n = some args.values[n] := List.getElem?_eq_getElem hn
  refine ⟨args.values[n], hv, ?_, fun hkept => ?_⟩
  · rw [render_placeholder_between hn, String.append_left_inj, String.append_right_inj]
    by_cases hfilled : Closed l.toList ∧ n < twoTo 64
    · rw [if_pos hfilled]
      exact iff_of_true rfl (.inl hfilled)
    · rw [if_neg hfilled, or_iff_right hfilled, eq_comm]
  · rw [render_placeholder_between hn, if_neg hkept]

/-- A quoted placeholder is filled in. -/
theorem render_placeholder_quoted :
    render ("\"" ++ placeholder 0 ++ "\"") ⟨[.ofString "bob"]⟩ =
      render "\"" ⟨[.ofString "bob"]⟩ ++ "bob" ++ render "\"" ⟨[.ofString "bob"]⟩ := by
  obtain ⟨v, hv, hiff, _⟩ := render_placeholder ⟨[.ofString "bob"]⟩ 0 (by decide) "\"" "\""
  obtain rfl := Option.some.inj hv
  exact hiff.mpr (.inl ⟨by decide, by decide⟩)

/-- Inside a literal pair of braces a placeholder stays. -/
theorem placeholder_kept_in_braces :
    render ("\x7b\"user\": \"" ++ placeholder 0 ++ "\"\x7d") ⟨[.ofString "bob"]⟩ ≠
      render "\x7b\"user\": \"" ⟨[.ofString "bob"]⟩ ++ (Value.ofString "bob").replyText ++
        render "\"\x7d" ⟨[.ofString "bob"]⟩ := by
  decide +kernel

end Template

end Switchboard
