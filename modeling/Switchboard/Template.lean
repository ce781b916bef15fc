import Switchboard.Value

/-!
# Reply templates

A template is text with placeholders: an index between braces stands for the
argument at that index. Each opening brace is paired with the next closing
one; what stands between them is a placeholder when it reads as the index of
an argument, and is kept as it is otherwise. Argument texts are not looked at
again.

* `renderChars_of_not_mem`: a text without an opening brace is kept
* `renderChars_unclosed`: so is one whose opening brace is never closed
* `renderChars_open`: what stands between a pair of braces is filled in, and the rest is rendered
-/

namespace Switchboard

namespace Value

/-- The text of a value in a reply: of a session its user. -/
def replyText (v : Value) : String :=
  match v.payload? with
  | some (.session user) => user
  | _ => v.text

end Value

namespace Template

/-- Read an index: digits after an optional plus sign, below two to the power 64. -/
def index? (cs : List Char) : Option Nat :=
  match IntKind.u64.read? cs with
  | some n => some n.val.toNat
  | none => none

/-- What stands for the text between a pair of braces. -/
def fill (args : Args) (inside : List Char) : List Char :=
  match (index? inside).bind args.value? with
  | some v => v.replyText.toList
  | none => '{' :: inside ++ ['}']

/-- Cut a text at its first closing brace. -/
def cutAtClose : List Char → Option (List Char × List Char)
  | [] => none
  | c :: cs =>
    if c = '}' then some ([], cs)
    else (cutAtClose cs).map fun cut => (c :: cut.1, cut.2)

theorem eq_of_cutAtClose {cs inside after : List Char} (h : cutAtClose cs = some (inside, after)) :
    cs = inside ++ '}' :: after := by
  induction cs generalizing inside with
  | nil => simp [cutAtClose] at h
  | cons c cs ih =>
    simp only [cutAtClose] at h
    split at h
    next hc =>
      simp only [Option.some.injEq, Prod.mk.injEq] at h
      simp [← h.1, ← h.2, hc]
    next hc =>
      simp only [Option.map_eq_some_iff, Prod.mk.injEq] at h
      obtain ⟨cut, hcut, h1, h2⟩ := h
      have hrest : cs = cut.1 ++ '}' :: after := ih (by rw [hcut, ← h2])
      simp [← h1, hrest]

theorem length_cutAtClose {cs inside after : List Char}
    (h : cutAtClose cs = some (inside, after)) : after.length < cs.length := by
  have := congrArg List.length (eq_of_cutAtClose h)
  simp only [List.length_append, List.length_cons] at this
  omega

theorem cutAtClose_of_not_mem {cs : List Char} (h : '}' ∉ cs) : cutAtClose cs = none := by
  induction cs with
  | nil => rfl
  | cons c cs ih =>
    simp only [List.mem_cons, not_or] at h
    rw [cutAtClose, if_neg (Ne.symm h.1), ih h.2, Option.map_none]

theorem cutAtClose_append {inside : List Char} (h : '}' ∉ inside) (after : List Char) :
    cutAtClose (inside ++ '}' :: after) = some (inside, after) := by
  induction inside with
  | nil => rfl
  | cons c inside ih =>
    simp only [List.mem_cons, not_or] at h
    rw [List.cons_append, cutAtClose, if_neg (Ne.symm h.1), ih h.2, Option.map_some]

/-- Replace the placeholders of a template. -/
def renderChars (args : Args) : List Char → List Char
  | [] => []
  | c :: cs =>
    if c = '{' then
      match _h : cutAtClose cs with
      | none => c :: cs
      | some (inside, after) => fill args inside ++ renderChars args after
    else c :: renderChars args cs
termination_by cs => cs.length
decreasing_by
  · have := length_cutAtClose _h
    simp only [List.length_cons]
    omega
  · simp

/-- Replace each placeholder of a template by the argument at its index. -/
def render (template : String) (args : Args) : String :=
  String.ofList (renderChars args template.toList)

theorem renderChars_cons_of_ne (args : Args) {c : Char} (cs : List Char) (h : c ≠ '{') :
    renderChars args (c :: cs) = c :: renderChars args cs := by
  rw [renderChars, if_neg h]

theorem renderChars_open (args : Args) {cs inside after : List Char}
    (h : cutAtClose cs = some (inside, after)) :
    renderChars args ('{' :: cs) = fill args inside ++ renderChars args after := by
  rw [renderChars, if_pos rfl]
  split
  next hn => rw [h] at hn; simp at hn
  next i a hs =>
    rw [h, Option.some.injEq, Prod.mk.injEq] at hs
    rw [hs.1, hs.2]

theorem renderChars_unclosed (args : Args) {cs : List Char} (h : cutAtClose cs = none) :
    renderChars args ('{' :: cs) = '{' :: cs := by
  rw [renderChars, if_pos rfl]
  split
  next => rfl
  next hs => rw [h] at hs; simp at hs

theorem renderChars_of_not_mem (args : Args) {cs : List Char} (h : '{' ∉ cs) :
    renderChars args cs = cs := by
  induction cs with
  | nil => rw [renderChars]
  | cons c cs ih =>
    simp only [List.mem_cons, not_or] at h
    rw [renderChars_cons_of_ne args cs (Ne.symm h.1), ih h.2]

end Template

end Switchboard
