/-!
# Stable sorting

Insertion sort: elements of which neither comes before the other keep their
order.

* `sortBy_perm`: nothing is lost and nothing added
* `pairwise_sortBy`: the result is in order
* `filter_sortBy`: elements of one rank keep their order
* `sortOn_eq`: sorting by a key computes each key once and changes nothing else
* `sortOn_congr`: the elements of each key, in their order, determine the sorted list
-/

namespace Switchboard

variable {α : Type}

/-- Put an element before the first that it may precede. -/
def insertBy (le : α → α → Bool) (x : α) : List α → List α
  | [] => [x]
  | y :: ys => if le x y then x :: y :: ys else y :: insertBy le x ys

/-- Sort, keeping the order of elements of equal rank. -/
def sortBy (le : α → α → Bool) : List α → List α
  | [] => []
  | x :: xs => insertBy le x (sortBy le xs)

theorem insertBy_perm (le : α → α → Bool) (x : α) (ys : List α) :
    (insertBy le x ys).Perm (x :: ys) := by
  induction ys with
  | nil => exact .refl _
  | cons y ys ih =>
    simp only [insertBy]
    split
    · exact .refl _
    · exact (ih.cons y).trans (.swap x y ys)

theorem sortBy_perm (le : α → α → Bool) (xs : List α) : (sortBy le xs).Perm xs := by
  induction xs with
  | nil => exact .refl _
  | cons x xs ih => exact (insertBy_perm le x _).trans (ih.cons x)

variable {le : α → α → Bool}

theorem pairwise_insertBy (trans : ∀ a b c, le a b → le b c → le a c)
    (total : ∀ a b, le a b || le b a) (x : α) {ys : List α}
    (h : ys.Pairwise (le · ·)) : (insertBy le x ys).Pairwise (le · ·) := by
  induction ys with
  | nil => simp [insertBy]
  | cons y ys ih =>
    simp only [insertBy]
    rw [List.pairwise_cons] at h
    split
    next hle =>
      refine List.pairwise_cons.mpr ⟨fun z hz => ?_, List.pairwise_cons.mpr h⟩
      rcases List.mem_cons.mp hz with rfl | hz
      · exact hle
      · exact trans _ _ _ hle (h.1 z hz)
    next hle =>
      refine List.pairwise_cons.mpr ⟨fun z hz => ?_, ih h.2⟩
      rcases List.mem_cons.mp ((insertBy_perm le x ys).mem_iff.mp hz) with rfl | hz
      · have := total z y
        simp only [hle, Bool.false_or] at this
        exact this
      · exact h.1 z hz

theorem pairwise_sortBy (trans : ∀ a b c, le a b → le b c → le a c)
    (total : ∀ a b, le a b || le b a) (xs : List α) : (sortBy le xs).Pairwise (le · ·) := by
  induction xs with
  | nil => exact .nil
  | cons x xs ih => exact pairwise_insertBy trans total x ih

theorem filter_insertBy_of_not (p : α → Bool) {x : α} (hx : p x = false) (ys : List α) :
    (insertBy le x ys).filter p = ys.filter p := by
  induction ys with
  | nil => simp [insertBy, hx]
  | cons y ys ih =>
    simp only [insertBy]
    split
    · simp [hx]
    · simp only [List.filter_cons, ih]

theorem filter_insertBy_of (p : α → Bool) {x : α} (hx : p x = true)
    (before : ∀ y, p y = true → le x y = true) (ys : List α) :
    (insertBy le x ys).filter p = x :: ys.filter p := by
  induction ys with
  | nil => simp [insertBy, hx]
  | cons y ys ih =>
    simp only [insertBy]
    split
    next => simp [hx]
    next hle =>
      have hy : p y = false := by
        cases hp : p y with
        | false => rfl
        | true => exact absurd (before y hp) hle
      simp [hy, ih]

/-- The elements of a class within which any may precede any keep their order. -/
theorem filter_sortBy (p : α → Bool) (class_le : ∀ x y, p x = true → p y = true → le x y = true)
    (xs : List α) : (sortBy le xs).filter p = xs.filter p := by
  induction xs with
  | nil => rfl
  | cons x xs ih =>
    simp only [sortBy]
    cases hx : p x with
    | false => rw [filter_insertBy_of_not p hx, ih, List.filter_cons_of_neg (by simp [hx])]
    | true =>
      rw [filter_insertBy_of p hx (fun y hy => class_le x y hx hy), ih,
        List.filter_cons_of_pos hx]

/-! ### Sorting by a key -/

variable {κ : Type}

/-- Sort by a key, computed once for each element. -/
def sortOn (le : κ → κ → Bool) (key : α → κ) (xs : List α) : List α :=
  (sortBy (fun a b => le a.1 b.1) (xs.map fun x => (key x, x))).map (·.2)

theorem insertBy_map (le : κ → κ → Bool) (f : α → κ) (x : α) (ys : List α) :
    insertBy le (f x) (ys.map f) = (insertBy (fun a b => le (f a) (f b)) x ys).map f := by
  induction ys with
  | nil => rfl
  | cons y ys ih =>
    simp only [List.map_cons, insertBy]
    split
    · rfl
    · rw [ih, List.map_cons]

theorem sortBy_map (le : κ → κ → Bool) (f : α → κ) (xs : List α) :
    sortBy le (xs.map f) = (sortBy (fun a b => le (f a) (f b)) xs).map f := by
  induction xs with
  | nil => rfl
  | cons x xs ih => rw [List.map_cons, sortBy, ih, insertBy_map, sortBy]

theorem sortOn_eq (le : κ → κ → Bool) (key : α → κ) (xs : List α) :
    sortOn le key xs = sortBy (fun a b => le (key a) (key b)) xs := by
  rw [sortOn, sortBy_map, List.map_map]
  exact List.map_id _

theorem mem_sortOn (le : κ → κ → Bool) (key : α → κ) {x : α} {xs : List α} :
    x ∈ sortOn le key xs ↔ x ∈ xs := by
  rw [sortOn_eq]
  exact (sortBy_perm _ xs).mem_iff

/-! ### One sorted list -/

section Classes

variable [DecidableEq κ] {order : κ → κ → Bool} {key : α → κ}

/-- The first of a list in order may precede what it has in common with another list. -/
theorem le_of_sorted_of_mem {x y : α} {xs ys : List α} (refl : ∀ k, order k k = true)
    (hx : (x :: xs).Pairwise fun a b => order (key a) (key b) = true)
    (h : (x :: xs).filter (fun a => key a = key y) = (y :: ys).filter (fun a => key a = key y)) :
    order (key x) (key y) = true := by
  have hmem : y ∈ (x :: xs).filter (fun a => key a = key y) := by
    rw [h, List.mem_filter]
    exact ⟨List.mem_cons_self, decide_eq_true rfl⟩
  have hy : y ∈ x :: xs := (List.mem_filter.mp hmem).1
  rcases List.mem_cons.mp hy with rfl | hy
  · exact refl _
  · exact (List.pairwise_cons.mp hx).1 y hy

/-- A list in order is determined by its elements of each key in their order. -/
theorem eq_of_sorted_of_filter_eq (refl : ∀ k, order k k = true)
    (antisymm : ∀ a b, order a b = true → order b a = true → a = b) {xs ys : List α}
    (hx : xs.Pairwise fun a b => order (key a) (key b) = true)
    (hy : ys.Pairwise fun a b => order (key a) (key b) = true)
    (h : ∀ k, xs.filter (fun a => key a = k) = ys.filter (fun a => key a = k)) : xs = ys := by
  induction xs generalizing ys with
  | nil =>
    cases ys with
    | nil => rfl
    | cons y ys =>
      have hclass := h (key y)
      simp at hclass
  | cons x xs ih =>
    cases ys with
    | nil =>
      have hclass := h (key x)
      simp at hclass
    | cons y ys =>
      -- each of the two may precede the other, so both have one key and head its class
      have hxy : order (key x) (key y) = true := le_of_sorted_of_mem refl hx (h (key y))
      have hyx : order (key y) (key x) = true := le_of_sorted_of_mem refl hy (h (key x)).symm
      have hkey : key x = key y := antisymm _ _ hxy hyx
      have hclass := h (key x)
      rw [List.filter_cons_of_pos (by simp), List.filter_cons_of_pos (by simp [hkey])] at hclass
      obtain rfl : x = y := (List.cons.inj hclass).1
      have hrest : ∀ k, xs.filter (fun a => key a = k) = ys.filter (fun a => key a = k) := by
        intro k
        have hk := h k
        rw [List.filter_cons, List.filter_cons] at hk
        split at hk
        next => exact (List.cons.inj hk).2
        next => exact hk
      rw [ih (List.pairwise_cons.mp hx).2 (List.pairwise_cons.mp hy).2 hrest]

/-- Lists with the same elements of each key, in the same order, are sorted to one list. -/
theorem sortOn_congr (trans : ∀ a b c, order a b = true → order b c = true → order a c = true)
    (total : ∀ a b, (order a b || order b a) = true)
    (antisymm : ∀ a b, order a b = true → order b a = true → a = b) {xs ys : List α}
    (h : ∀ k, xs.filter (fun a => key a = k) = ys.filter (fun a => key a = k)) :
    sortOn order key xs = sortOn order key ys := by
  have refl : ∀ k, order k k = true := by
    intro k
    have hk := total k k
    rwa [Bool.or_self] at hk
  have hsorted : ∀ zs : List α,
      (sortBy (fun a b => order (key a) (key b)) zs).Pairwise
        fun a b => order (key a) (key b) = true := by
    intro zs
    exact pairwise_sortBy (fun a b c => trans (key a) (key b) (key c))
      (fun a b => total (key a) (key b)) zs
  have hclass : ∀ (zs : List α) (k : κ),
      (sortBy (fun a b => order (key a) (key b)) zs).filter (fun a => key a = k) =
        zs.filter (fun a => key a = k) := by
    intro zs k
    refine filter_sortBy _ (fun a b ha hb => ?_) zs
    rw [of_decide_eq_true ha, of_decide_eq_true hb]
    exact refl k
  rw [sortOn_eq, sortOn_eq]
  refine eq_of_sorted_of_filter_eq refl antisymm (hsorted xs) (hsorted ys) fun k => ?_
  rw [hclass, hclass, h]

end Classes

end Switchboard
