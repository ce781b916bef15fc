/-!
# Up to the last element of a kind

Where the trailing run of elements without a property begins: one past the
last element that has it.

* `not_of_upToLast_le`: no element at or after that place has the property
* `of_upToLast_eq_succ`: the element just before it has
-/

namespace Switchboard

variable {α : Type}

/-- The number of elements up to the last one with a property, that one included. -/
def upToLast (p : α → Bool) : List α → Nat
  | [] => 0
  | x :: xs =>
    match upToLast p xs with
    | 0 => if p x then 1 else 0
    | n + 1 => n + 2

theorem upToLast_le_length (p : α → Bool) (xs : List α) : upToLast p xs ≤ xs.length := by
  induction xs with
  | nil => exact Nat.le_refl 0
  | cons x xs ih =>
    simp only [upToLast, List.length_cons]
    split
    next => split <;> omega
    next n h => omega

theorem not_of_upToLast_le {p : α → Bool} {xs : List α} {i : Nat} {x : α}
    (hi : upToLast p xs ≤ i) (hx : xs[i]? = some x) : p x = false := by
  induction xs generalizing i with
  | nil => simp at hx
  | cons y ys ih =>
    simp only [upToLast] at hi
    cases i with
    | zero =>
      simp only [List.getElem?_cons_zero, Option.some.injEq] at hx
      subst hx
      split at hi
      next => cases hp : p y <;> simp [hp] at hi ⊢
      next => omega
    | succ i =>
      simp only [List.getElem?_cons_succ] at hx
      refine ih ?_ hx
      split at hi
      next h => omega
      next n h => omega

theorem of_upToLast_eq_succ {p : α → Bool} {xs : List α} {n : Nat}
    (h : upToLast p xs = n + 1) : ∃ x, xs[n]? = some x ∧ p x = true := by
  induction xs generalizing n with
  | nil => simp [upToLast] at h
  | cons y ys ih =>
    simp only [upToLast] at h
    split at h
    next hy =>
      cases hp : p y with
      | false => simp [hp] at h
      | true =>
        simp only [hp, if_true] at h
        obtain rfl : n = 0 := by omega
        exact ⟨y, rfl, hp⟩
    next m hy =>
      obtain rfl : n = m + 1 := by omega
      exact ih hy

theorem upToLast_map {β : Type} (p : β → Bool) (f : α → β) (xs : List α) :
    upToLast p (xs.map f) = upToLast (fun x => p (f x)) xs := by
  induction xs with
  | nil => rfl
  | cons x xs ih => simp only [List.map_cons, upToLast, ih]

end Switchboard
