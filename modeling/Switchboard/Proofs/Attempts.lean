import Mathlib.Data.List.Forall2

/-!
# Lists of attempts

A list is gone through with steps that may fail. What it takes for all of them
to succeed is said here, once for each way of going through a list, after what
is needed of lists that are related member by member and of the last member
with a property.

* `lastWith_concat`: the last with a property, when one more is appended
* `bind_eq_ok_iff`, `bind_eq_error_iff`: two steps, the second after the first
* `mapM_eq_ok_iff`, `exists_mapM_iff`, `forM_eq_ok_iff`: steps that do not depend on one another
* `mapM_eq_error_iff`, `forM_eq_error_iff`: they fail as the first of them that fails
* `foldlM_cons_eq_ok_iff`, `foldlM_concat_eq_ok_iff`: a run, by its first or its last step
* `foldlM_invariant_of_mem`, `foldlM_invariant`: what each step keeps, a run keeps
* `foldlM_progress`: the same, of the steps done and those to do
* `foldlM_eq_error_iff`: a run fails at a step that it gets to
-/

namespace Switchboard

/-! ### Related lists -/

section Related

variable {α β : Type} {R : α → β → Prop} {xs : List α} {ys : List β}

theorem exists_left_of_forall₂ (h : List.Forall₂ R xs ys) {y : β} (hy : y ∈ ys) :
    ∃ x ∈ xs, R x y := by
  induction h with
  | nil => cases hy
  | cons hxy _ ih =>
    rcases List.mem_cons.mp hy with rfl | hy
    · exact ⟨_, List.mem_cons_self, hxy⟩
    · obtain ⟨x, hx, hR⟩ := ih hy
      exact ⟨x, List.mem_cons_of_mem _ hx, hR⟩

theorem exists_right_of_forall₂ (h : List.Forall₂ R xs ys) {x : α} (hx : x ∈ xs) :
    ∃ y ∈ ys, R x y := by
  have hflip : List.Forall₂ (flip R) ys xs := List.Forall₂.flip h
  exact exists_left_of_forall₂ hflip hx

theorem getElem?_left_of_forall₂ (h : List.Forall₂ R xs ys) {i : Nat} {y : β}
    (hy : ys[i]? = some y) : ∃ x, xs[i]? = some x ∧ R x y := by
  induction h generalizing i with
  | nil => cases hy
  | cons hxy _ ih =>
    cases i with
    | zero =>
      obtain rfl := Option.some.inj hy
      exact ⟨_, rfl, hxy⟩
    | succ i => exact ih hy

theorem getElem?_right_of_forall₂ (h : List.Forall₂ R xs ys) {i : Nat} {x : α}
    (hx : xs[i]? = some x) : ∃ y, ys[i]? = some y ∧ R x y := by
  have hflip : List.Forall₂ (flip R) ys xs := List.Forall₂.flip h
  exact getElem?_left_of_forall₂ hflip hx

theorem getLast?_left_of_forall₂ (h : List.Forall₂ R xs ys) {y : β} (hy : ys.getLast? = some y) :
    ∃ x, xs.getLast? = some x ∧ R x y := by
  have hreverse : List.Forall₂ R xs.reverse ys.reverse := List.rel_reverse h
  rw [List.getLast?_eq_head?_reverse] at hy ⊢
  generalize xs.reverse = xs' at hreverse ⊢
  generalize ys.reverse = ys' at hreverse hy
  cases hreverse with
  | nil => cases hy
  | cons hxy _ =>
    obtain rfl := Option.some.inj hy
    exact ⟨_, rfl, hxy⟩

/-- Where one of two related lists is cut, the other can be cut as well. -/
theorem split_left_of_forall₂ {before after : List β} {y : β}
    (h : List.Forall₂ R xs (before ++ y :: after)) :
    ∃ before' x after', xs = before' ++ x :: after' ∧ List.Forall₂ R before' before ∧ R x y ∧
      List.Forall₂ R after' after := by
  have hfront := List.forall₂_take_append xs before (y :: after) h
  have hback := List.forall₂_drop_append xs before (y :: after) h
  obtain ⟨x, after', hxy, hafter, hdrop⟩ := List.forall₂_cons_right_iff.mp hback
  refine ⟨xs.take before.length, x, after', ?_, hfront, hxy, hafter⟩
  rw [← hdrop, List.take_append_drop]

theorem split_right_of_forall₂ {before after : List α} {x : α}
    (h : List.Forall₂ R (before ++ x :: after) ys) :
    ∃ before' y after', ys = before' ++ y :: after' ∧ List.Forall₂ R before before' ∧ R x y ∧
      List.Forall₂ R after after' := by
  have hflip : List.Forall₂ (flip R) ys (before ++ x :: after) := List.Forall₂.flip h
  obtain ⟨before', y, after', hsplit, hbefore, hxy, hafter⟩ := split_left_of_forall₂ hflip
  exact ⟨before', y, after', hsplit, List.Forall₂.flip hbefore, hxy, List.Forall₂.flip hafter⟩

end Related

/-! ### The last with a property -/

section Last

variable {α : Type} (p : α → Prop) [DecidablePred p]

/-- The last element of a list with a property. -/
def lastWith (xs : List α) : Option α :=
  (xs.filter p).getLast?

theorem lastWith_concat (xs : List α) (x : α) :
    lastWith p (xs ++ [x]) = if p x then some x else lastWith p xs := by
  rw [lastWith, List.filter_append, List.getLast?_append]
  by_cases h : p x
  · simp [h]
  · simp [h, lastWith]

theorem lastWith_eq_none_iff {xs : List α} : lastWith p xs = none ↔ ∀ x ∈ xs, ¬ p x := by
  simp [lastWith]

variable {p}

theorem of_lastWith {xs : List α} {x : α} (h : lastWith p xs = some x) : x ∈ xs ∧ p x := by
  have hmem := List.mem_filter.mp (List.mem_of_getLast? h)
  exact ⟨hmem.1, of_decide_eq_true hmem.2⟩

end Last

/-! ### Steps one after another -/

section Attempts

variable {ε α β : Type}

theorem bind_eq_ok_iff {x : Except ε α} {f : α → Except ε β} {b : β} :
    (x >>= f) = .ok b ↔ ∃ a, x = .ok a ∧ f a = .ok b := by
  cases x with
  | error e =>
    constructor
    · intro h
      cases h
    · intro hexists
      obtain ⟨a, ha, _⟩ := hexists
      cases ha
  | ok a =>
    show f a = .ok b ↔ _
    constructor
    · intro h
      exact ⟨a, rfl, h⟩
    · intro hexists
      obtain ⟨other, ha, h⟩ := hexists
      rwa [← Except.ok.inj ha] at h

theorem bind_eq_error_iff {x : Except ε α} {f : α → Except ε β} {e : ε} :
    (x >>= f) = .error e ↔ x = .error e ∨ ∃ a, x = .ok a ∧ f a = .error e := by
  cases x with
  | error other =>
    show Except.error other = .error e ↔ _
    simp
  | ok a =>
    show f a = .error e ↔ _
    simp

/-- A failure shows in whatever is made of the result. -/
theorem eq_error_of_map {x : Except ε α} {f : α → β} {e : ε} (h : x.map f = .error e) :
    x = .error e := by
  cases x with
  | ok a => cases h
  | error other => exact congrArg Except.error (Except.error.inj h)

theorem mapM_eq_ok_iff {f : α → Except ε β} {xs : List α} {ys : List β} :
    xs.mapM f = .ok ys ↔ List.Forall₂ (fun x y => f x = .ok y) xs ys := by
  induction xs generalizing ys with
  | nil =>
    constructor
    · intro h
      obtain rfl := Except.ok.inj h
      exact .nil
    · intro h
      cases h
      rfl
  | cons x xs ih =>
    rw [List.mapM_cons, bind_eq_ok_iff]
    constructor
    · intro hexists
      obtain ⟨y, hx, h⟩ := hexists
      obtain ⟨rest, hrest, h⟩ := bind_eq_ok_iff.mp h
      obtain rfl := Except.ok.inj h
      exact .cons hx (ih.mp hrest)
    · intro h
      cases h with
      | cons hx hxs => exact ⟨_, hx, bind_eq_ok_iff.mpr ⟨_, ih.mpr hxs, rfl⟩⟩

theorem mapM_congr {f g : α → Except ε β} {xs : List α} (h : ∀ x ∈ xs, f x = g x) :
    xs.mapM f = xs.mapM g := by
  induction xs with
  | nil => rfl
  | cons x xs ih =>
    have hrest := ih fun y hy => h y (List.mem_cons_of_mem x hy)
    rw [List.mapM_cons, List.mapM_cons, h x List.mem_cons_self, hrest]

theorem exists_mapM_iff {f : α → Except ε β} {xs : List α} :
    (∃ ys, xs.mapM f = .ok ys) ↔ ∀ x ∈ xs, ∃ y, f x = .ok y := by
  constructor
  · intro hexists x hx
    obtain ⟨ys, h⟩ := hexists
    obtain ⟨y, _, hy⟩ := exists_right_of_forall₂ (mapM_eq_ok_iff.mp h) hx
    exact ⟨y, hy⟩
  · intro h
    induction xs with
    | nil => exact ⟨[], rfl⟩
    | cons x xs ih =>
      obtain ⟨y, hy⟩ := h x List.mem_cons_self
      obtain ⟨ys, hys⟩ := ih fun z hz => h z (List.mem_cons_of_mem x hz)
      exact ⟨y :: ys, mapM_eq_ok_iff.mpr (.cons hy (mapM_eq_ok_iff.mp hys))⟩

theorem forM_eq_ok_iff {f : α → Except ε Unit} {xs : List α} :
    xs.forM f = .ok () ↔ ∀ x ∈ xs, f x = .ok () := by
  induction xs with
  | nil => exact ⟨fun _ _ hx => (nomatch hx), fun _ => rfl⟩
  | cons x xs ih =>
    show (f x >>= fun _ => xs.forM f) = .ok () ↔ _
    rw [List.forall_mem_cons, bind_eq_ok_iff, ih]
    exact ⟨fun ⟨_, hx, hxs⟩ => ⟨hx, hxs⟩, fun ⟨hx, hxs⟩ => ⟨(), hx, hxs⟩⟩

/-! ### The first failure -/

/-- A step fails at some element of a list, and at none before it. -/
def FailsFirst (f : α → Except ε β) (xs : List α) (e : ε) : Prop :=
  ∃ before x after, xs = before ++ x :: after ∧ (∀ y ∈ before, ∃ b, f y = .ok b) ∧ f x = .error e

theorem failsFirst_cons {f : α → Except ε β} {x : α} {xs : List α} {e : ε} :
    FailsFirst f (x :: xs) e ↔ f x = .error e ∨ ∃ b, f x = .ok b ∧ FailsFirst f xs e := by
  constructor
  · rintro ⟨before, y, after, hsplit, hbefore, hy⟩
    cases before with
    | nil =>
      obtain ⟨rfl, _⟩ := List.cons.inj hsplit
      exact .inl hy
    | cons z before =>
      obtain ⟨rfl, hrest⟩ := List.cons.inj hsplit
      obtain ⟨⟨b, hb⟩, hbefore⟩ := List.forall_mem_cons.mp hbefore
      exact .inr ⟨b, hb, before, y, after, hrest, hbefore, hy⟩
  · rintro (hx | ⟨b, hb, before, y, after, rfl, hbefore, hy⟩)
    · exact ⟨[], x, xs, rfl, fun _ hmem => (nomatch hmem), hx⟩
    · exact ⟨x :: before, y, after, rfl, List.forall_mem_cons.mpr ⟨⟨b, hb⟩, hbefore⟩, hy⟩

theorem not_failsFirst_nil {f : α → Except ε β} {e : ε} : ¬ FailsFirst f [] e := by
  rintro ⟨before, x, after, hsplit, _⟩
  cases before with
  | nil => cases hsplit
  | cons y before => cases hsplit

/-- Independent steps fail as the first of them that fails. -/
theorem mapM_eq_error_iff {f : α → Except ε β} {xs : List α} {e : ε} :
    xs.mapM f = .error e ↔ FailsFirst f xs e := by
  induction xs with
  | nil => exact ⟨fun h => (nomatch h), fun h => absurd h not_failsFirst_nil⟩
  | cons x xs ih =>
    have hrest : ∀ b, (xs.mapM f >>= fun bs => pure (b :: bs)) = .error e ↔ FailsFirst f xs e := by
      intro b
      rw [bind_eq_error_iff, ih]
      exact ⟨fun h => h.resolve_right fun ⟨_, _, hpure⟩ => (nomatch hpure), .inl⟩
    rw [List.mapM_cons, bind_eq_error_iff, failsFirst_cons]
    simp only [hrest]

/-- Some failure is the first as soon as a step fails at all. -/
theorem exists_failsFirst_iff {f : α → Except ε β} {xs : List α} :
    (∃ e, FailsFirst f xs e) ↔ ∃ x ∈ xs, ¬ ∃ b, f x = .ok b := by
  simp only [← mapM_eq_error_iff]
  cases hmap : xs.mapM f with
  | error e =>
    have hfails : ¬ ∀ x ∈ xs, ∃ b, f x = .ok b := by
      rw [← exists_mapM_iff, hmap]
      rintro ⟨_, h⟩
      cases h
    push Not at hfails
    obtain ⟨x, hx, hnot⟩ := hfails
    exact ⟨fun _ => ⟨x, hx, fun ⟨b, hb⟩ => hnot b hb⟩, fun _ => ⟨e, rfl⟩⟩
  | ok ys =>
    have hall := exists_mapM_iff.mp ⟨ys, hmap⟩
    exact ⟨fun ⟨_, h⟩ => (nomatch h), fun ⟨x, hx, hnot⟩ => absurd (hall x hx) hnot⟩

theorem forM_eq_error_iff {f : α → Except ε Unit} {xs : List α} {e : ε} :
    xs.forM f = .error e ↔ FailsFirst f xs e := by
  induction xs with
  | nil => exact ⟨fun h => (nomatch h), fun h => absurd h not_failsFirst_nil⟩
  | cons x xs ih =>
    show (f x >>= fun _ => xs.forM f) = .error e ↔ _
    rw [bind_eq_error_iff, failsFirst_cons, ih]

/-! ### Runs -/

variable {f : β → α → Except ε β}

theorem foldlM_cons_eq_ok_iff {x : α} {xs : List α} {start result : β} :
    (x :: xs).foldlM f start = .ok result ↔
      ∃ next, f start x = .ok next ∧ xs.foldlM f next = .ok result := by
  rw [List.foldlM_cons, bind_eq_ok_iff]

theorem foldlM_concat_eq_ok_iff {x : α} {xs : List α} {start result : β} :
    (xs ++ [x]).foldlM f start = .ok result ↔
      ∃ last, xs.foldlM f start = .ok last ∧ f last x = .ok result := by
  rw [List.foldlM_append, bind_eq_ok_iff]
  simp only [List.foldlM_cons, List.foldlM_nil, bind_pure]

/-- A run fails at a step that it gets to. -/
theorem foldlM_eq_error_iff {xs : List α} {start : β} {e : ε} :
    xs.foldlM f start = .error e ↔
      ∃ before x after b, xs = before ++ x :: after ∧ before.foldlM f start = .ok b ∧
        f b x = .error e := by
  constructor
  · intro h
    induction xs generalizing start with
    | nil => cases h
    | cons x xs ih =>
      rw [List.foldlM_cons] at h
      rcases bind_eq_error_iff.mp h with hx | ⟨next, hx, hxs⟩
      · exact ⟨[], x, xs, start, rfl, rfl, hx⟩
      · obtain ⟨before, y, after, b, hsplit, hbefore, hy⟩ := ih hxs
        refine ⟨x :: before, y, after, b, ?_, foldlM_cons_eq_ok_iff.mpr ⟨next, hx, hbefore⟩, hy⟩
        rw [hsplit, List.cons_append]
  · rintro ⟨before, x, after, b, rfl, hbefore, hx⟩
    rw [List.foldlM_append, hbefore]
    show (x :: after).foldlM f b = .error e
    rw [List.foldlM_cons, hx]
    rfl

/-- A run fails as one of its steps does. -/
theorem exists_of_foldlM_eq_error {xs : List α} {start : β} {e : ε}
    (h : xs.foldlM f start = .error e) : ∃ b, ∃ x ∈ xs, f b x = .error e := by
  obtain ⟨before, x, after, b, hsplit, _, hx⟩ := foldlM_eq_error_iff.mp h
  refine ⟨b, x, ?_, hx⟩
  rw [hsplit]
  exact List.mem_append_right before List.mem_cons_self

/-- What every step of a list keeps, the run over the list keeps. -/
theorem foldlM_invariant_of_mem {I : β → Prop} {xs : List α} {start result : β}
    (hstep : ∀ x ∈ xs, ∀ b next, I b → f b x = .ok next → I next) (hstart : I start)
    (h : xs.foldlM f start = .ok result) : I result := by
  induction xs generalizing start with
  | nil =>
    obtain rfl := Except.ok.inj h
    exact hstart
  | cons x xs ih =>
    obtain ⟨next, hx, hxs⟩ := foldlM_cons_eq_ok_iff.mp h
    have hnext : I next := hstep x List.mem_cons_self start next hstart hx
    exact ih (fun y hy => hstep y (List.mem_cons_of_mem x hy)) hnext hxs

/-- What is said of the steps done and the steps to do, and kept by each step as it goes from the
one to the other, holds at the end of all steps. -/
theorem foldlM_progress {I : List α → List α → β → Prop} {xs : List α} {start result : β}
    (hstep : ∀ done x todo b next, xs = done ++ x :: todo → I done (x :: todo) b →
      f b x = .ok next → I (done ++ [x]) todo next)
    (hstart : I [] xs start) (h : xs.foldlM f start = .ok result) : I xs [] result := by
  have hrun : ∀ todo done b, xs = done ++ todo → I done todo b →
      todo.foldlM f b = .ok result → I xs [] result := by
    intro todo
    induction todo with
    | nil =>
      intro done b hsplit hb hrest
      obtain rfl := Except.ok.inj hrest
      rwa [hsplit, List.append_nil]
    | cons x todo ih =>
      intro done b hsplit hb hrest
      obtain ⟨next, hx, hrest⟩ := foldlM_cons_eq_ok_iff.mp hrest
      refine ih (done ++ [x]) next ?_ (hstep done x todo b next hsplit hb hx) hrest
      rw [hsplit, List.append_assoc, List.singleton_append]
  exact hrun xs [] start rfl hstart h

theorem foldlM_invariant {I : β → Prop} {xs : List α} {start result : β}
    (hstep : ∀ b x next, I b → f b x = .ok next → I next) (hstart : I start)
    (h : xs.foldlM f start = .ok result) : I result :=
  foldlM_invariant_of_mem (fun x _ b next => hstep b x next) hstart h

end Attempts

end Switchboard
