import Switchboard.Proofs.Binding

/-!
# A chain over many offers

A chain is offered values, one at a time or in lists, and a refusal does not end
its use: what was bound before stays bound. Whatever it was offered, the values
bound fit its parameters, and what the next offer does and when the chain can be
completed follows from that alone.

* `Operation`, `perform`, `after`: what is done to a chain, and what becomes of it
* `LongestFit`: the longest beginning of a list of values that fits
* `longestFit_offerAll`: a list is bound up to there, and refused as the next value is
* `Sound`, `sound_after`: what every operation keeps
* `operations_sound`: any list of operations on a chain with nothing bound
-/

namespace Switchboard

/-! ### The longest beginning that fits -/

/-- The longest beginning of a list of values that fits the first parameters of a list. -/
structure LongestFit (ps : List Parameter) (vs front : List Value) : Prop where
  isPrefix : front <+: vs
  fits : Fits ps front
  longest : ∀ other, other <+: vs → Fits ps other → other <+: front

/-- A beginning that fits is the longest when nothing follows it, or a value that does not fit
behind it. -/
theorem longestFit_of_split {ps : List Parameter} {front rest : List Value} (h : Fits ps front)
    (hrest : ∀ v, rest.head? = some v → ¬ Fits ps (front ++ [v])) :
    LongestFit ps (front ++ rest) front := by
  refine ⟨List.prefix_append front rest, h, fun other hother hfit => ?_⟩
  rcases List.prefix_or_prefix_of_prefix hother (List.prefix_append front rest) with hle | hge
  · exact hle
  · -- a longer one has the value behind the front in it
    obtain ⟨more, rfl⟩ := hge
    cases more with
    | nil => simp
    | cons v more =>
      obtain ⟨last, hlast⟩ := (List.prefix_append_right_inj front).mp hother
      have hhead : rest.head? = some v := by rw [← hlast]; rfl
      have hcut : Fits ps ((front ++ [v]) ++ more) := by
        rwa [List.append_assoc, List.singleton_append]
      exact absurd (Fits.append_iff.mp hcut).1 (hrest v hhead)

namespace Chain

/-! ### Offers -/

/-- A chain binds a value exactly when the value fits what is left of it. -/
theorem exists_offer_iff {c : Chain} {v : Value} :
    (∃ next, c.offer v = .ok next) ↔ Fits c.left [v] := by
  cases hl : c.left with
  | nil =>
    rw [offer_of_left_nil hl]
    constructor
    · intro hexists
      obtain ⟨next, hnext⟩ := hexists
      cases hnext
    · intro h
      cases h
  | cons p ps =>
    rw [offer_of_left_cons hl]
    by_cases ha : p.type.accepts v = true
    · rw [if_pos ha]
      exact ⟨fun _ => .cons ha (.nil ps), fun _ => ⟨_, rfl⟩⟩
    · rw [if_neg ha]
      constructor
      · intro hexists
        obtain ⟨next, hnext⟩ := hexists
        cases hnext
      · intro h
        cases h with
        | cons hv _ => exact absurd hv ha

/-- A refused value does not fit what is left. -/
theorem not_fits_of_offer_error {c : Chain} {v : Value} {e : ChainError}
    (h : c.offer v = .error e) : ¬ Fits c.left [v] := by
  intro hfit
  obtain ⟨next, hnext⟩ := exists_offer_iff.mpr hfit
  rw [h] at hnext
  cases hnext

/-- A value is refused for want of a parameter, or by the type of the next one. -/
theorem offer_eq_error_iff {c : Chain} {v : Value} {e : ChainError} :
    c.offer v = .error e ↔
      (c.parameters[c.cursor]? = none ∧ e = .full c.parameters.length) ∨
        ∃ p, c.parameters[c.cursor]? = some p ∧ p.type.accepts v = false ∧
          e = .typeMismatch p.type v.typeOf? := by
  rw [offer, nextType?]
  cases hp : c.parameters[c.cursor]? with
  | none =>
    rw [Option.map_none]
    constructor
    · intro h
      exact .inl ⟨rfl, (Except.error.inj h).symm⟩
    · rintro (⟨_, rfl⟩ | ⟨p, hp, _⟩)
      · rfl
      · cases hp
  | some p =>
    rw [Option.map_some]
    simp only
    constructor
    · intro h
      split at h
      next => cases h
      next ha => exact .inr ⟨p, rfl, Bool.eq_false_iff.mpr ha, (Except.error.inj h).symm⟩
    · rintro (⟨hnone, _⟩ | ⟨q, hq, ha, rfl⟩)
      · cases hnone
      · obtain rfl := Option.some.inj hq
        rw [if_neg (Bool.eq_false_iff.mp ha)]

/-- No parameter takes a null. -/
theorem exists_offer_null (c : Chain) : ∃ e, c.offer .null = .error e := by
  cases ho : c.offer .null with
  | error e => exact ⟨e, rfl⟩
  | ok next =>
    obtain ⟨⟨type, _, ha⟩, _⟩ := (offer_eq_ok_iff c next .null).mp ho
    rw [ParamType.accepts_null] at ha
    cases ha

/-- What is left behind values that are bound. -/
theorem left_append (c : Chain) (vs : List Value) :
    ({ c with bound := c.bound ++ vs } : Chain).left = c.left.drop vs.length := by
  simp only [left, cursor, List.length_append, List.drop_drop]

/-- A list of values is bound up to its longest beginning that fits what is left, and fails as the
value behind that one does. -/
theorem longestFit_offerAll (c : Chain) (vs : List Value) :
    ∃ front rest, vs = front ++ rest ∧ LongestFit c.left vs front ∧
      (c.offerAll vs).2 = { c with bound := c.bound ++ front } ∧
      (rest = [] → (c.offerAll vs).1 = none) ∧
      ∀ v, rest.head? = some v →
        ∃ e, (c.offerAll vs).1 = some e ∧ (c.offerAll vs).2.offer v = .error e := by
  suffices h : ∃ front rest, vs = front ++ rest ∧ Fits c.left front ∧
      (c.offerAll vs).2 = { c with bound := c.bound ++ front } ∧
      (rest = [] → (c.offerAll vs).1 = none) ∧
      ∀ v, rest.head? = some v →
        ∃ e, (c.offerAll vs).1 = some e ∧ (c.offerAll vs).2.offer v = .error e by
    obtain ⟨front, rest, rfl, hfit, hbound, hdone, hrefused⟩ := h
    refine ⟨front, rest, rfl, longestFit_of_split hfit fun v hv hmore => ?_, hbound, hdone,
      hrefused⟩
    obtain ⟨e, _, he⟩ := hrefused v hv
    have hnot := not_fits_of_offer_error he
    rw [hbound, left_append] at hnot
    exact hnot (Fits.append_iff.mp hmore).2
  -- by induction on the list, as it is gone through
  induction vs generalizing c with
  | nil =>
    refine ⟨[], [], rfl, .nil _, ?_, fun _ => rfl, fun v hv => ?_⟩
    · show c = { c with bound := c.bound ++ [] }
      rw [List.append_nil]
    · cases hv
  | cons v vs ih =>
    cases ho : c.offer v with
    | error e =>
      have hrun : c.offerAll (v :: vs) = (some e, c) := by rw [offerAll, ho]
      refine ⟨[], v :: vs, rfl, .nil _, ?_, fun hnil => ?_, fun other hother => ?_⟩
      · rw [hrun, List.append_nil]
      · cases hnil
      · obtain rfl : v = other := Option.some.inj hother
        rw [hrun]
        exact ⟨e, rfl, ho⟩
    | ok next =>
      have hrun : c.offerAll (v :: vs) = next.offerAll vs := by rw [offerAll, ho]
      obtain ⟨front, rest, rfl, hfit, hbound, hdone, hrefused⟩ := ih next
      obtain ⟨_, rfl⟩ := (offer_eq_ok_iff c next v).mp ho
      have hhead : Fits c.left ([v] ++ front) := by
        refine Fits.append_iff.mpr ⟨exists_offer_iff.mp ⟨_, ho⟩, ?_⟩
        rwa [left_push, ← List.drop_one] at hfit
      rw [hrun]
      refine ⟨v :: front, rest, rfl, hhead, ?_, hdone, hrefused⟩
      rw [hbound, push, List.append_assoc, List.singleton_append]

/-! ### What every operation keeps -/

/-- What is done to a chain. -/
inductive Operation where
  | offer (v : Value)
  | offerAll (vs : List Value)

/-- The chain after an operation. A refused value leaves it as it was; of a list, what was bound
before a refusal stays bound. -/
def perform (c : Chain) : Operation → Chain
  | .offer v =>
    match c.offer v with
    | .ok next => next
    | .error _ => c
  | .offerAll vs => (c.offerAll vs).2

/-- The chain after one operation after another. -/
def after (c : Chain) (ops : List Operation) : Chain :=
  ops.foldl perform c

theorem perform_of_error {c : Chain} {v : Value} {e : ChainError} (h : c.offer v = .error e) :
    c.perform (.offer v) = c := by
  simp only [perform, h]

/-- A value alone is offered as a list of one is. -/
theorem perform_offer (c : Chain) (v : Value) :
    c.perform (.offer v) = c.perform (.offerAll [v]) := by
  simp only [perform, offerAll]
  cases c.offer v with
  | ok next => rfl
  | error e => rfl

/-- The chain is one over the given parameters, and its values fit them. -/
structure Sound (ps : List Parameter) (boundary : Nat) (c : Chain) : Prop where
  parameters_eq : c.parameters = ps
  boundary_eq : c.boundary = min boundary ps.length
  fits : Fits ps c.bound

namespace Sound

variable {ps : List Parameter} {boundary : Nat} {c : Chain}

theorem left_eq (h : c.Sound ps boundary) : c.left = ps.drop c.cursor := by
  rw [left, h.parameters_eq]

theorem cursor_le (h : c.Sound ps boundary) : c.cursor ≤ ps.length :=
  h.fits.length_le

/-- The next value is bound when the next type accepts it. -/
theorem offer_eq_ok_iff (h : c.Sound ps boundary) (v : Value) (next : Chain) :
    c.offer v = .ok next ↔
      (∃ p : Parameter, ps[c.cursor]? = some p ∧ p.type.accepts v = true) ∧
        { c with bound := c.bound ++ [v] } = next := by
  have htype : c.nextType? = ps[c.cursor]?.map Parameter.type := by
    rw [nextType?, h.parameters_eq]
  rw [Chain.offer_eq_ok_iff, htype]
  simp only [Option.map_eq_some_iff]
  constructor
  · rintro ⟨⟨_, ⟨p, hp, rfl⟩, ha⟩, hnext⟩
    exact ⟨⟨p, hp, ha⟩, hnext⟩
  · rintro ⟨⟨p, hp, ha⟩, hnext⟩
    exact ⟨⟨p.type, ⟨p, hp, rfl⟩, ha⟩, hnext⟩

/-- Values that fit what is left may follow those bound. -/
theorem append (h : c.Sound ps boundary) {vs : List Value} (hfit : Fits c.left vs) :
    ({ c with bound := c.bound ++ vs } : Chain).Sound ps boundary := by
  refine ⟨h.parameters_eq, h.boundary_eq, Fits.append_iff.mpr ⟨h.fits, ?_⟩⟩
  rwa [h.left_eq] at hfit

/-- One operation, whether it succeeds or fails. -/
theorem perform (h : c.Sound ps boundary) (op : Operation) :
    (c.perform op).Sound ps boundary := by
  have hlist : ∀ vs, (c.perform (.offerAll vs)).Sound ps boundary := by
    intro vs
    obtain ⟨front, _, _, hfront, hbound, _⟩ := longestFit_offerAll c vs
    show (c.offerAll vs).2.Sound ps boundary
    rw [hbound]
    exact h.append hfront.fits
  cases op with
  | offer v =>
    rw [perform_offer]
    exact hlist [v]
  | offerAll vs => exact hlist vs

end Sound

theorem sound_start (ps : List Parameter) (boundary : Nat) :
    (start ps boundary).Sound ps boundary :=
  ⟨rfl, rfl, .nil ps⟩

theorem sound_after {ps : List Parameter} {boundary : Nat} {c : Chain}
    (h : c.Sound ps boundary) (ops : List Operation) : (c.after ops).Sound ps boundary := by
  induction ops generalizing c with
  | nil => exact h
  | cons op ops ih => exact ih (h.perform op)

/-! ### Completion -/

namespace Sound

variable {ps : List Parameter} {boundary : Nat} {c : Chain}

theorem exists_complete_iff (h : c.Sound ps boundary) :
    (∃ args, c.complete = .ok args) ↔ min boundary ps.length ≤ c.cursor := by
  rw [← h.boundary_eq]
  constructor
  · intro hexists
    obtain ⟨args, hargs⟩ := hexists
    exact ((complete_eq_ok_iff c args).mp hargs).1
  · intro hle
    exact ⟨_, (complete_eq_ok_iff c _).mpr ⟨hle, rfl⟩⟩

/-- A complete vector has the values bound first, then a default, or null, for each parameter
left. -/
theorem values_of_complete (h : c.Sound ps boundary) {args : Args} (hargs : c.complete = .ok args) :
    args.values = c.bound ++ (ps.drop c.cursor).map (fun p => p.default?.getD .null) ∧
      args.length = ps.length := by
  have hlength : args.length = c.parameters.length :=
    length_complete hargs (by rw [h.parameters_eq]; exact h.cursor_le)
  rw [h.parameters_eq] at hlength
  obtain ⟨_, rfl⟩ := (complete_eq_ok_iff c args).mp hargs
  refine ⟨?_, hlength⟩
  rw [h.parameters_eq]
  rfl

/-- A refusal is for want of a parameter exactly when every parameter has a value, and else by the
type of the next one. -/
theorem refusal (h : c.Sound ps boundary) {v : Value} {e : ChainError}
    (ho : c.offer v = .error e) :
    (e = .full ps.length ↔ c.cursor = ps.length) ∧
      (c.cursor < ps.length →
        ∃ p, ps[c.cursor]? = some p ∧ e = .typeMismatch p.type v.typeOf?) := by
  have hle := h.cursor_le
  have hcases := offer_eq_error_iff.mp ho
  rw [h.parameters_eq] at hcases
  rcases hcases with ⟨hnone, rfl⟩ | ⟨p, hp, _, rfl⟩
  · have hge : ps.length ≤ c.cursor := List.getElem?_eq_none_iff.mp hnone
    exact ⟨⟨fun _ => by omega, fun _ => rfl⟩, fun hlt => by omega⟩
  · obtain ⟨hlt, _⟩ := List.getElem?_eq_some_iff.mp hp
    exact ⟨⟨fun heq => (nomatch heq), fun heq => by omega⟩, fun _ => ⟨p, hp, rfl⟩⟩

end Sound

/-- A chain after any list of operations, with any boundary. The values bound fit the parameters
one by one. The next value is bound when the next type accepts it; else it is refused, as the chain
is full or by that type, null always, and nothing changes. Of a list of values the longest
beginning that fits is bound, and the value behind it decides the failure. The chain can be
completed once the boundary is reached, with one value for each parameter: those bound, then the
defaults of the others, or null. -/
theorem operations_sound (ps : List Parameter) (boundary : Nat) (ops : List Operation) :
    ∃ c : Chain, (start ps boundary).after ops = c ∧
      (c.cursor ≤ ps.length ∧ ∀ (i : Nat) (v : Value), c.bound[i]? = some v →
        ∃ p : Parameter, ps[i]? = some p ∧ p.type.accepts v = true) ∧
      (∀ v next, c.offer v = .ok next ↔
        (∃ p : Parameter, ps[c.cursor]? = some p ∧ p.type.accepts v = true) ∧
          { c with bound := c.bound ++ [v] } = next) ∧
      (∀ v e, c.offer v = .error e → c.perform (.offer v) = c ∧
        (e = .full ps.length ↔ c.cursor = ps.length) ∧
        (c.cursor < ps.length →
          ∃ p, ps[c.cursor]? = some p ∧ e = .typeMismatch p.type v.typeOf?)) ∧
      (∃ e, c.offer .null = .error e) ∧
      (∀ vs, ∃ front rest, vs = front ++ rest ∧ LongestFit (ps.drop c.cursor) vs front ∧
        c.perform (.offerAll vs) = { c with bound := c.bound ++ front } ∧
        (rest = [] → (c.offerAll vs).1 = none) ∧
        ∀ v, rest.head? = some v → ∃ e, (c.offerAll vs).1 = some e ∧
          (c.perform (.offerAll vs)).offer v = .error e) ∧
      ((∃ args, c.complete = .ok args) ↔ min boundary ps.length ≤ c.cursor) ∧
      ∀ args, c.complete = .ok args →
        args.values = c.bound ++ (ps.drop c.cursor).map (fun p => p.default?.getD .null) ∧
          args.length = ps.length := by
  have h : ((start ps boundary).after ops).Sound ps boundary :=
    sound_after (sound_start ps boundary) ops
  refine ⟨_, rfl, ⟨h.cursor_le, fun i v hv => h.fits.accepts_of_getElem? hv⟩, h.offer_eq_ok_iff,
    fun v e ho => ⟨perform_of_error ho, h.refusal ho⟩, exists_offer_null _, fun vs => ?_,
    h.exists_complete_iff, fun args hargs => h.values_of_complete hargs⟩
  rw [← h.left_eq]
  exact longestFit_offerAll _ vs

end Chain

end Switchboard
