/-!
# Tables

A finite map as a list of entries. An entry for a key that is present replaces
the old one in its place; an entry for a new key goes to the end.

* `find?_insert`: the last entry written for a key is the one found
* `insert_self`: an entry written again changes nothing
* `keys_insert`: the keys after an insertion
* `nodup_keys_insert`: no key comes twice
-/

namespace Switchboard

/-- A finite map, as entries in the order in which their keys first came. -/
structure Table (κ : Type) (β : Type) where
  entries : List (κ × β)

namespace Table

variable {κ β : Type} [DecidableEq κ]

omit [DecidableEq κ] in
/-- No entries. -/
def empty : Table κ β := ⟨[]⟩

omit [DecidableEq κ] in
def keys (t : Table κ β) : List κ :=
  t.entries.map (·.1)

omit [DecidableEq κ] in
def values (t : Table κ β) : List β :=
  t.entries.map (·.2)

/-- Find the value of a key in a list of entries. -/
def lookup (key : κ) : List (κ × β) → Option β
  | [] => none
  | (k, v) :: rest => if k = key then some v else lookup key rest

def find? (t : Table κ β) (key : κ) : Option β :=
  lookup key t.entries

def contains (t : Table κ β) (key : κ) : Bool :=
  (t.find? key).isSome

/-- Write an entry into a list of entries. -/
def write (key : κ) (value : β) : List (κ × β) → List (κ × β)
  | [] => [(key, value)]
  | (k, v) :: rest => if k = key then (key, value) :: rest else (k, v) :: write key value rest

def insert (t : Table κ β) (key : κ) (value : β) : Table κ β :=
  ⟨write key value t.entries⟩

theorem lookup_write (key other : κ) (value : β) (entries : List (κ × β)) :
    lookup other (write key value entries) =
      if key = other then some value else lookup other entries := by
  induction entries with
  | nil => simp [write, lookup]
  | cons entry rest ih =>
    obtain ⟨k, v⟩ := entry
    by_cases hk : k = key
    · subst hk
      by_cases ho : k = other
      · simp [write, lookup, ho]
      · simp [write, lookup, ho]
    · by_cases ho : k = other
      · subst ho
        simp [write, lookup, hk, Ne.symm hk]
      · simp [write, lookup, hk, ho, ih]

theorem find?_insert (t : Table κ β) (key other : κ) (value : β) :
    (t.insert key value).find? other = if key = other then some value else t.find? other :=
  lookup_write key other value t.entries

theorem find?_insert_self (t : Table κ β) (key : κ) (value : β) :
    (t.insert key value).find? key = some value := by
  simp [find?_insert]

theorem find?_insert_of_ne (t : Table κ β) {key other : κ} (value : β) (h : key ≠ other) :
    (t.insert key value).find? other = t.find? other := by
  simp [find?_insert, h]

/-- An entry that is there keeps its place, so writing it again changes nothing. -/
theorem insert_self {t : Table κ β} {key : κ} {value : β} (h : t.find? key = some value) :
    t.insert key value = t := by
  obtain ⟨entries⟩ := t
  simp only [find?] at h
  simp only [insert, mk.injEq]
  induction entries with
  | nil => cases h
  | cons entry rest ih =>
    obtain ⟨k, v⟩ := entry
    by_cases hk : k = key
    · simp only [lookup, hk, if_true, Option.some.injEq] at h
      simp [write, hk, h]
    · simp only [lookup, hk, if_false] at h
      simp [write, hk, ih h]

theorem mem_keys_iff (t : Table κ β) (key : κ) : key ∈ t.keys ↔ ∃ v, t.find? key = some v := by
  obtain ⟨entries⟩ := t
  simp only [keys, find?]
  induction entries with
  | nil => simp [lookup]
  | cons entry rest ih =>
    obtain ⟨k, v⟩ := entry
    by_cases hk : k = key
    · simp [lookup, hk]
    · simp only [List.map_cons, List.mem_cons, lookup, hk, if_false, ih]
      simp [Ne.symm hk]

theorem keys_insert (t : Table κ β) (key : κ) (value : β) :
    (t.insert key value).keys = if key ∈ t.keys then t.keys else t.keys ++ [key] := by
  obtain ⟨entries⟩ := t
  simp only [keys, insert]
  induction entries with
  | nil => simp [write]
  | cons entry rest ih =>
    obtain ⟨k, v⟩ := entry
    by_cases hk : k = key
    · simp [write, hk]
    · by_cases hm : key ∈ rest.map (·.1)
      · simp [write, hk, ih, hm]
      · simp [write, hk, ih, hm, Ne.symm hk]

theorem nodup_keys_insert {t : Table κ β} (h : t.keys.Nodup) (key : κ) (value : β) :
    (t.insert key value).keys.Nodup := by
  rw [keys_insert]
  split
  next => exact h
  next hk =>
    rw [List.nodup_append]
    refine ⟨h, by simp, fun k hm other ho he => hk ?_⟩
    rwa [← List.mem_singleton.mp ho, ← he]

theorem find?_of_mem {t : Table κ β} (h : t.keys.Nodup) {key : κ} {value : β}
    (hm : (key, value) ∈ t.entries) : t.find? key = some value := by
  obtain ⟨entries⟩ := t
  simp only [keys] at h
  simp only [find?]
  induction entries with
  | nil => simp at hm
  | cons entry rest ih =>
    obtain ⟨k, v⟩ := entry
    simp only [List.map_cons, List.nodup_cons] at h
    rcases List.mem_cons.mp hm with he | hr
    · simp only [Prod.mk.injEq] at he
      simp [lookup, he.1, he.2]
    · have hk : k ≠ key := fun he => h.1 (he ▸ List.mem_map.mpr ⟨_, hr, rfl⟩)
      simp only [lookup, hk, if_false]
      exact ih h.2 hr

theorem mem_of_find? {t : Table κ β} {key : κ} {value : β} (h : t.find? key = some value) :
    (key, value) ∈ t.entries := by
  obtain ⟨entries⟩ := t
  simp only [find?] at h
  induction entries with
  | nil => simp [lookup] at h
  | cons entry rest ih =>
    obtain ⟨k, v⟩ := entry
    by_cases hk : k = key
    · simp only [lookup, hk, if_true, Option.some.injEq] at h
      simp [hk, h]
    · simp only [lookup, hk, if_false] at h
      exact List.mem_cons_of_mem _ (ih h)

end Table

end Switchboard
