import Mathlib.Data.List.Forall2
import Switchboard.Manifest

/-!
# Names of types

A type is named by a text, which is normalised before it is looked at: white
space is dropped from its ends, and its ASCII letters go to lower case. Neither
undoes what the other did, since no letter is white space in any case, so the
name of the type that comes out is normal, and names the same type.

* `toLower_toLower`, `toLower_toUpper`: the lower case of a letter that was changed
* `isBlank_toLower`: the case of a letter does not matter to trimming
* `normalise_normalise`, `normalise_spelled`: a normal name, and the texts that share one
* `ofName_eq_custom_iff`: the names of custom types
* `typeNames_normalised`: naming a type by its name, spellings of a name, and custom tags
-/

namespace Switchboard

namespace Text

/-! ### Letters by their code points -/

theorem toNat_toLower {c : Char} (h : 65 ≤ c.toNat ∧ c.toNat ≤ 90) :
    c.toLower.toNat = c.toNat + 32 := by
  have hcapital : c.val ≥ 'A'.val ∧ c.val ≤ 'Z'.val := h
  have hval : c.toLower.val = c.val + ('a'.val - 'A'.val) := by
    delta Char.toLower
    rw [dif_pos hcapital]
  have hshift : ('a'.val - 'A'.val).toNat = 32 := rfl
  rw [← Char.toNat_val, hval, UInt32.toNat_add, hshift, Char.toNat_val]
  omega

theorem toLower_eq_self {c : Char} (h : ¬ (65 ≤ c.toNat ∧ c.toNat ≤ 90)) : c.toLower = c :=
  dif_neg h

theorem toNat_toUpper {c : Char} (h : 97 ≤ c.toNat ∧ c.toNat ≤ 122) :
    c.toUpper.toNat + 32 = c.toNat := by
  have hsmall : 'a'.val ≤ c.val ∧ c.val ≤ 'z'.val := h
  have hval : c.toUpper.val = c.val + ('A'.val - 'a'.val) := by
    delta Char.toUpper
    rw [dif_pos hsmall]
  have hshift : ('A'.val - 'a'.val).toNat = 4294967264 := rfl
  rw [← Char.toNat_val, hval, UInt32.toNat_add, hshift, Char.toNat_val]
  omega

theorem toUpper_eq_self {c : Char} (h : ¬ (97 ≤ c.toNat ∧ c.toNat ≤ 122)) : c.toUpper = c :=
  dif_neg h

theorem isUpper_iff (c : Char) : c.isUpper = true ↔ 65 ≤ c.toNat ∧ c.toNat ≤ 90 :=
  decide_eq_true_iff

theorem toLower_toLower (c : Char) : c.toLower.toLower = c.toLower := by
  by_cases h : 65 ≤ c.toNat ∧ c.toNat ≤ 90
  · have hlower := toNat_toLower h
    exact toLower_eq_self (by omega)
  · rw [toLower_eq_self h, toLower_eq_self h]

theorem toLower_toUpper (c : Char) : c.toUpper.toLower = c.toLower := by
  by_cases h : 97 ≤ c.toNat ∧ c.toNat ≤ 122
  · have hupper := toNat_toUpper h
    have hlower : c.toUpper.toLower.toNat = c.toUpper.toNat + 32 := toNat_toLower (by omega)
    have hself : c.toLower = c := toLower_eq_self (by omega)
    rw [hself, ← Char.toNat_inj]
    omega
  · rw [toUpper_eq_self h]

theorem isUpper_toLower (c : Char) : c.toLower.isUpper = false := by
  rw [Bool.eq_false_iff, ne_eq, isUpper_iff]
  by_cases h : 65 ≤ c.toNat ∧ c.toNat ≤ 90
  · rw [toNat_toLower h]
    omega
  · rwa [toLower_eq_self h]

/-! ### White space and letters -/

theorem isBlank_of_letter {c : Char}
    (h : 65 ≤ c.toNat ∧ c.toNat ≤ 90 ∨ 97 ≤ c.toNat ∧ c.toNat ≤ 122) : isBlank c = false := by
  have hranges : ∀ range ∈ blankRanges, range.2 < 65 ∨ 122 < range.1 := by
    decide
  rw [Bool.eq_false_iff, isBlank, ne_eq, Ranges.contains_iff]
  rintro ⟨range, hrange, hlow, hhigh⟩
  have hapart := hranges range hrange
  omega

/-- Only letters change, and neither a letter nor what it changes to is white space. -/
theorem isBlank_toLower (c : Char) : isBlank c.toLower = isBlank c := by
  by_cases h : 65 ≤ c.toNat ∧ c.toNat ≤ 90
  · have hlower := toNat_toLower h
    rw [isBlank_of_letter (.inl h), isBlank_of_letter (.inr (by omega))]
  · rw [toLower_eq_self h]

theorem trimBy_isBlank_map_toLower (cs : List Char) :
    trimBy isBlank (cs.map Char.toLower) = (trimBy isBlank cs).map Char.toLower :=
  trimBy_map isBlank_toLower cs

/-- A text letter by letter in any case; other characters are the same. -/
def Recased (s t : String) : Prop :=
  List.Forall₂ (fun c d => d = c ∨ d = c.toLower ∨ d = c.toUpper) s.toList t.toList

instance (s t : String) : Decidable (Recased s t) :=
  inferInstanceAs (Decidable (List.Forall₂ _ s.toList t.toList))

theorem Recased.map_toLower {s t : String} (h : Recased s t) :
    t.toList.map Char.toLower = s.toList.map Char.toLower := by
  unfold Recased at h
  generalize s.toList = cs at h ⊢
  generalize t.toList = ds at h ⊢
  induction h with
  | nil => rfl
  | cons hcd _ ih =>
    rw [List.map_cons, List.map_cons, ih]
    rcases hcd with rfl | rfl | rfl
    · rfl
    · rw [toLower_toLower]
    · rw [toLower_toUpper]

end Text

namespace ParamType

open Text

/-! ### Normal names -/

theorem toList_normalise (s : String) :
    (normalise s).toList = (trimBy isBlank s.toList).map Char.toLower :=
  String.toList_ofList

theorem trimBy_normalise (s : String) :
    trimBy isBlank (normalise s).toList = (normalise s).toList := by
  rw [toList_normalise, trimBy_isBlank_map_toLower, trimBy_trimBy]

theorem trim_normalise (s : String) : trim (normalise s) = normalise s := by
  rw [trim, trimBy_normalise, String.ofList_toList]

theorem isUpper_of_mem_normalise {s : String} {c : Char} (h : c ∈ (normalise s).toList) :
    c.isUpper = false := by
  rw [toList_normalise] at h
  obtain ⟨d, _, rfl⟩ := List.mem_map.mp h
  exact isUpper_toLower d

theorem normalise_normalise (s : String) : normalise (normalise s) = normalise s := by
  have hlower : (normalise s).toList.map Char.toLower = (normalise s).toList := by
    rw [toList_normalise, List.map_map]
    exact List.map_congr_left fun c _ => toLower_toLower c
  apply String.toList_injective
  rw [toList_normalise (normalise s), trimBy_normalise, hlower]

/-- White space around a name and the case of its letters are lost. -/
theorem normalise_spelled {before s t after : String}
    (hbefore : ∀ c ∈ before.toList, isBlank c = true)
    (hafter : ∀ c ∈ after.toList, isBlank c = true) (h : Recased s t) :
    normalise (before ++ t ++ after) = normalise s := by
  apply String.toList_injective
  calc (normalise (before ++ t ++ after)).toList
      = (trimBy isBlank (before.toList ++ t.toList ++ after.toList)).map Char.toLower := by
        rw [toList_normalise, String.toList_append, String.toList_append]
    _ = trimBy isBlank (t.toList.map Char.toLower) := by
        rw [trimBy_pad hbefore hafter, trimBy_isBlank_map_toLower]
    _ = trimBy isBlank (s.toList.map Char.toLower) := by rw [h.map_toLower]
    _ = (normalise s).toList := by rw [trimBy_isBlank_map_toLower, toList_normalise]

theorem normalise_name (s : Scalar) : normalise s.name = s.name := by
  cases s with
  | string => decide +kernel
  | char => decide +kernel
  | bool => decide +kernel
  | int k => cases k <;> decide +kernel
  | float k => cases k <;> decide +kernel

/-! ### The type of a name -/

theorem ofName_eq_custom_iff {s tag : String} :
    ofName s = custom tag ↔ normalise s = tag ∧ Scalar.ofSpelling? tag = none := by
  unfold ofName
  cases hspelled : Scalar.ofSpelling? (normalise s) with
  | some scalar =>
    constructor
    · intro h
      cases h
    · rintro ⟨rfl, hnone⟩
      rw [hspelled] at hnone
      cases hnone
  | none =>
    constructor
    · intro h
      obtain rfl := custom.inj h
      exact ⟨rfl, hspelled⟩
    · rintro ⟨rfl, _⟩
      rfl

/-- A built-in type is named by its name. -/
theorem ofName_name_builtin (scalar : Scalar) : ofName scalar.name = builtin scalar := by
  rw [ofName, normalise_name, Scalar.ofSpelling?_name]

/-- The name of a type that was named names it again. -/
theorem ofName_name_ofName (s : String) : ofName (ofName s).name = ofName s := by
  cases htype : ofName s with
  | builtin scalar => exact ofName_name_builtin scalar
  | custom tag =>
    obtain ⟨rfl, hnone⟩ := ofName_eq_custom_iff.mp htype
    exact ofName_eq_custom_iff.mpr ⟨normalise_normalise s, hnone⟩

/-- The tag of a custom type that was named is none of the spellings of the built-in types. -/
theorem not_spelling_of_ofName {s tag : String} (h : ofName s = custom tag) :
    ∀ entry ∈ Scalar.spellings, entry.1 ≠ tag := by
  obtain ⟨_, hnone⟩ := ofName_eq_custom_iff.mp h
  intro entry hentry htag
  have hne := List.lookup_eq_none_iff.mp hnone entry hentry
  simp [htag] at hne

theorem name_ne_of_ofName {s tag : String} (h : ofName s = custom tag) (scalar : Scalar) :
    scalar.name ≠ tag := by
  obtain ⟨_, hnone⟩ := ofName_eq_custom_iff.mp h
  rintro rfl
  rw [Scalar.ofSpelling?_name] at hnone
  cases hnone

end ParamType

/-- The types that a manifest declares are named in it. -/
theorem Manifest.exists_ofName {m : Manifest} {spec : CommandSpec (List String)}
    (hspec : spec ∈ m.specs) {d : Declaration} (hd : d ∈ spec.declarations) :
    ∃ s, d.type = ParamType.ofName s := by
  obtain ⟨c, _, rfl⟩ := List.mem_map.mp hspec
  obtain ⟨p, _, rfl⟩ := List.mem_map.mp hd
  exact ⟨p.type, rfl⟩

namespace ParamType

/-- The type of a name is named by its own name as well. White space around a name and the case of
its letters do not matter. The tag of a custom type has neither white space at its ends nor upper
case letters, and is no spelling of a built-in type, so that no custom type of a manifest has the
name of one. -/
theorem typeNames_normalised :
    (∀ s, ofName (ofName s).name = ofName s) ∧
    (∀ before s t after : String, (∀ c ∈ before.toList, Text.isBlank c = true) →
      (∀ c ∈ after.toList, Text.isBlank c = true) → Text.Recased s t →
      ofName (before ++ t ++ after) = ofName s) ∧
    (∀ s tag, ofName s = custom tag →
      Text.trim tag = tag ∧ (∀ c ∈ tag.toList, c.isUpper = false) ∧
        ∀ entry ∈ Scalar.spellings, entry.1 ≠ tag) ∧
    ∀ m : Manifest, ∀ spec ∈ m.specs, ∀ d ∈ spec.declarations, ∀ tag, d.type = custom tag →
      (∀ entry ∈ Scalar.spellings, entry.1 ≠ tag) ∧ ∀ scalar : Scalar, scalar.name ≠ tag := by
  refine ⟨ofName_name_ofName, ?_, ?_, ?_⟩
  · intro before s t after hbefore hafter h
    unfold ofName
    rw [normalise_spelled hbefore hafter h]
  · intro s tag h
    have hspelling := not_spelling_of_ofName h
    obtain ⟨rfl, _⟩ := ofName_eq_custom_iff.mp h
    exact ⟨trim_normalise s, fun c hc => isUpper_of_mem_normalise hc, hspelling⟩
  · intro m spec hspec d hd tag htag
    obtain ⟨s, hs⟩ := Manifest.exists_ofName hspec hd
    rw [hs] at htag
    exact ⟨not_spelling_of_ofName htag, name_ne_of_ofName htag⟩

/-- A command to a place, whose type is written in letters of both cases. -/
def journeys : Manifest :=
  ⟨"> ", [⟨"go", [], .list [], [⟨"\tPlaCe ", none⟩, ⟨" INT", some "1"⟩], none⟩]⟩

/-- A no-break space and the case of letters are lost, of a tag as of a built-in type. -/
theorem typeNames_normalised_place :
    ofName "\u00a0pLACE\t" = ofName "Place" ∧ ofName "Place" = custom "place" ∧
      ofName " dOuBLE " = builtin (.float .double) ∧ Text.trim "place" = "place" ∧
      (∃ spec ∈ journeys.specs, ∃ d ∈ spec.declarations, d.type = custom "place") ∧
      ∀ scalar : Scalar, scalar.name ≠ "place" := by
  obtain ⟨_, hspelled, htag, hmanifest⟩ := typeNames_normalised
  have hplace : ofName "Place" = custom "place" := by
    decide +kernel
  have hdouble : ofName "double" = builtin (.float .double) := by
    decide +kernel
  have hdeclared : ∃ spec ∈ journeys.specs, ∃ d ∈ spec.declarations, d.type = custom "place" :=
    ⟨_, List.mem_cons_self, _, List.mem_cons_self, by decide +kernel⟩
  refine ⟨?_, hplace, ?_, (htag "Place" "place" hplace).1, hdeclared, ?_⟩
  · exact hspelled "\u00a0" "Place" "pLACE" "\t" (List.all_eq_true.mp (by decide +kernel))
      (List.all_eq_true.mp (by decide +kernel)) (by decide +kernel)
  · rw [← hdouble]
    exact hspelled " " "double" "dOuBLE" " " (List.all_eq_true.mp (by decide +kernel))
      (List.all_eq_true.mp (by decide +kernel)) (by decide +kernel)
  · obtain ⟨spec, hspec, d, hd, htype⟩ := hdeclared
    exact (hmanifest journeys spec hspec d hd "place" htype).2

end ParamType

end Switchboard
