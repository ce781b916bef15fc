import Switchboard.Dispatcher

/-!
# Values bound to parameters

What binding does, said without the chain that does it: values fit parameters
position by position, and only their types decide whether they do.

* `Fits`: values fit the first parameters of a list, one after another
* `fits_iff_types`: they do when their types are the first of the declared ones
* `bindAll_eq_ok_iff`: a chain binds exactly the values that fit what is left of it
* `bindAll_error_congr`: a refusal depends on the types of the values alone
-/

namespace Switchboard

/-- Values fit the first parameters of a list: each is accepted by the type at its place. -/
inductive Fits : List Parameter → List Value → Prop
  | nil (ps : List Parameter) : Fits ps []
  | cons {p : Parameter} {v : Value} {ps : List Parameter} {vs : List Value} :
      p.type.accepts v = true → Fits ps vs → Fits (p :: ps) (v :: vs)

namespace Fits

theorem length_le {ps : List Parameter} {vs : List Value} (h : Fits ps vs) :
    vs.length ≤ ps.length := by
  induction h with
  | nil ps => exact Nat.zero_le _
  | cons _ _ ih => exact Nat.succ_le_succ ih

theorem append_iff {ps : List Parameter} {vs ws : List Value} :
    Fits ps (vs ++ ws) ↔ Fits ps vs ∧ Fits (ps.drop vs.length) ws := by
  induction vs generalizing ps with
  | nil => exact ⟨fun h => ⟨.nil ps, h⟩, fun h => h.2⟩
  | cons v vs ih =>
    constructor
    · intro h
      cases h with
      | cons hv h => exact ⟨.cons hv (ih.mp h).1, (ih.mp h).2⟩
    · intro hboth
      obtain ⟨h, hw⟩ := hboth
      cases h with
      | cons hv h => exact .cons hv (ih.mpr ⟨h, hw⟩)

/-- Each value is accepted by the parameter at its place. -/
theorem accepts_of_getElem? {ps : List Parameter} {vs : List Value} (h : Fits ps vs) {i : Nat}
    {v : Value} (hv : vs[i]? = some v) : ∃ p, ps[i]? = some p ∧ p.type.accepts v = true := by
  induction h generalizing i with
  | nil ps => cases hv
  | cons ha _ ih =>
    cases i with
    | zero =>
      obtain rfl := Option.some.inj hv
      exact ⟨_, rfl, ha⟩
    | succ i => exact ih hv

/-- Only the types of the values matter. -/
theorem of_types {ps : List Parameter} {vs ws : List Value} (h : Fits ps vs)
    (ht : vs.map Value.typeOf? = ws.map Value.typeOf?) : Fits ps ws := by
  induction h generalizing ws with
  | nil ps =>
    have hw : ws = [] := by simpa using ht.symm
    rw [hw]
    exact .nil ps
  | cons hv _ ih =>
    cases ws with
    | nil => simp at ht
    | cons w ws =>
      simp only [List.map_cons, List.cons.injEq] at ht
      refine .cons ?_ (ih ht.2)
      rw [ParamType.accepts_iff] at hv ⊢
      rw [← ht.1, hv]

end Fits

/-- Values fit when their types are the first of the declared ones. -/
theorem fits_iff_types {ps : List Parameter} {vs : List Value} :
    Fits ps vs ↔ vs.map Value.typeOf? <+: (ps.map Parameter.type).map some := by
  induction vs generalizing ps with
  | nil => exact ⟨fun _ => List.nil_prefix, fun _ => .nil ps⟩
  | cons v vs ih =>
    cases ps with
    | nil =>
      constructor
      · intro h
        cases h
      · intro h
        have hlen := h.length_le
        simp at hlen
    | cons p ps =>
      simp only [List.map_cons, List.cons_prefix_cons]
      constructor
      · intro h
        cases h with
        | cons hv h => exact ⟨(ParamType.accepts_iff p.type v).mp hv, ih.mp h⟩
      · intro hboth
        obtain ⟨hv, h⟩ := hboth
        exact .cons ((ParamType.accepts_iff p.type v).mpr hv) (ih.mpr h)

/-! ### What a chain binds -/

/-- The failures to bind a value, as opposed to a lack of values. -/
def ChainError.IsRefusal : ChainError → Prop
  | full _ | typeMismatch _ _ => True
  | missingRequired _ _ => False

namespace Chain

/-- The parameters that nothing is bound to yet. -/
def left (c : Chain) : List Parameter :=
  c.parameters.drop c.cursor

theorem nextType?_eq (c : Chain) : c.nextType? = c.left.head?.map Parameter.type := by
  rw [nextType?, left, List.head?_drop]

@[simp] theorem left_push (c : Chain) (v : Value) : (c.push v).left = c.left.tail := by
  simp [left, push, cursor, List.tail_drop]

theorem offer_of_left_nil {c : Chain} (h : c.left = []) (v : Value) :
    c.offer v = .error (.full c.parameters.length) := by
  rw [offer, nextType?_eq, h]
  rfl

theorem offer_of_left_cons {c : Chain} {p : Parameter} {ps : List Parameter}
    (h : c.left = p :: ps) (v : Value) :
    c.offer v =
      if p.type.accepts v then .ok (c.push v) else .error (.typeMismatch p.type v.typeOf?) := by
  rw [offer, nextType?_eq, h]
  rfl

theorem isRefusal_of_offer {c : Chain} {v : Value} {e : ChainError} (h : c.offer v = .error e) :
    e.IsRefusal := by
  unfold offer at h
  split at h
  next =>
    rw [← Except.error.inj h]
    trivial
  next =>
    split at h
    next => cases h
    next =>
      rw [← Except.error.inj h]
      trivial

theorem bindAll_nil (c : Chain) : c.bindAll [] = .ok c := rfl

theorem bindAll_cons (c : Chain) (v : Value) (vs : List Value) :
    c.bindAll (v :: vs) =
      match c.offer v with
      | .ok next => next.bindAll vs
      | .error e => .error e := by
  rw [bindAll, offerAll]
  cases c.offer v with
  | ok next => rfl
  | error e => rfl

theorem isRefusal_of_bindAll {c : Chain} {vs : List Value} {e : ChainError}
    (h : c.bindAll vs = .error e) : e.IsRefusal := by
  induction vs generalizing c with
  | nil => cases h
  | cons v vs ih =>
    rw [bindAll_cons] at h
    cases ho : c.offer v with
    | ok next =>
      rw [ho] at h
      exact ih h
    | error other =>
      rw [ho] at h
      rw [← Except.error.inj h]
      exact isRefusal_of_offer ho

/-- A chain binds all of the values exactly when they fit the parameters left. -/
theorem bindAll_eq_ok_iff (c next : Chain) (vs : List Value) :
    c.bindAll vs = .ok next ↔ Fits c.left vs ∧ { c with bound := c.bound ++ vs } = next := by
  induction vs generalizing c with
  | nil =>
    rw [bindAll_nil, List.append_nil, Except.ok.injEq]
    exact ⟨fun h => ⟨.nil _, h⟩, fun h => h.2⟩
  | cons v vs ih =>
    rw [bindAll_cons]
    cases hl : c.left with
    | nil =>
      rw [offer_of_left_nil hl]
      constructor
      · intro h
        simp at h
      · intro hboth
        obtain ⟨h, _⟩ := hboth
        cases h
    | cons p ps =>
      rw [offer_of_left_cons hl]
      by_cases ha : p.type.accepts v = true
      · have hpush : { c with bound := c.bound ++ v :: vs } =
            { c.push v with bound := (c.push v).bound ++ vs } := by
          simp [push]
        rw [if_pos ha]
        simp only
        rw [ih (c.push v), left_push, hl, hpush]
        constructor
        · intro hboth
          obtain ⟨h, hn⟩ := hboth
          exact ⟨.cons ha h, hn⟩
        · intro hboth
          obtain ⟨h, hn⟩ := hboth
          cases h with
          | cons _ h => exact ⟨h, hn⟩
      · rw [if_neg ha]
        constructor
        · intro h
          simp at h
        · intro hboth
          obtain ⟨h, _⟩ := hboth
          cases h with
          | cons hv _ => exact absurd hv ha

/-- Two chains over one list of parameters, with as much bound, refuse values of the same types
alike. -/
theorem bindAll_error_congr {c c' : Chain} {vs ws : List Value} {e : ChainError}
    (hp : c.parameters = c'.parameters) (hc : c.cursor = c'.cursor)
    (ht : vs.map Value.typeOf? = ws.map Value.typeOf?) (h : c.bindAll vs = .error e) :
    c'.bindAll ws = .error e := by
  induction vs generalizing c c' ws with
  | nil => simp [bindAll_nil] at h
  | cons v vs ih =>
    cases ws with
    | nil => simp at ht
    | cons w ws =>
      simp only [List.map_cons, List.cons.injEq] at ht
      have hleft : c'.left = c.left := by rw [left, left, hp, hc]
      have hacc : ∀ type : ParamType, type.accepts w = type.accepts v := by
        intro type
        rw [ParamType.accepts, ParamType.accepts, ht.1]
      rw [bindAll_cons] at h ⊢
      cases hl : c.left with
      | nil =>
        rw [offer_of_left_nil hl] at h
        rw [offer_of_left_nil (hleft.trans hl), ← hp]
        exact h
      | cons p ps =>
        rw [offer_of_left_cons hl] at h
        rw [offer_of_left_cons (hleft.trans hl), hacc, ← ht.1]
        by_cases ha : p.type.accepts v = true
        · rw [if_pos ha] at h ⊢
          have hparams : (c.push v).parameters = (c'.push w).parameters := hp
          have hcur : (c.push v).cursor = (c'.push w).cursor := by
            simpa [push, cursor] using hc
          exact ih hparams hcur ht.2 h
        · rw [if_neg ha] at h ⊢
          exact h

end Chain

end Switchboard
