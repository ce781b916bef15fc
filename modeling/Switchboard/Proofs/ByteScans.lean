import Switchboard.Proofs.Reading

/-!
# A line in bytes

Positions in a line are counted in bytes, and the ends of a word can be found by
looking at one byte after another. A space is a single byte that no other
character has in its encoding, so such a search stops between two characters
only, where the reader stands.

* `skipBytes`: the search from a position on for the first byte that fails a test
* `space_mem_utf8EncodeChar_iff`: only a space is encoded with the byte of a space
* `IsSlice`: the text between two positions of a line, which lie between characters
* `cuts_position`: the searches for a word end where the reader cuts the line
* `isSlice_firstWord`, `isSlice_rest`: what can be read is a slice of the line
* `Located`, `located`: what a reader does, told by its position and the bytes of the line
-/

namespace Switchboard

namespace Text

/-! ### Searching bytes -/

/-- The first position from `i` on whose byte fails a test, or the end of the bytes. -/
def skipBytes (p : UInt8 → Bool) (bytes : ByteArray) (i : Nat) : Nat :=
  if h : i < bytes.size then
    if p bytes[i] then skipBytes p bytes (i + 1) else i
  else i
termination_by bytes.size - i

theorem skipBytes_end (p : UInt8 → Bool) (front : List UInt8) :
    skipBytes p front.toByteArray front.length = front.length := by
  rw [skipBytes, dif_neg (by simp)]

theorem skipBytes_cons (p : UInt8 → Bool) (front : List UInt8) (b : UInt8) (rest : List UInt8) :
    skipBytes p (front ++ b :: rest).toByteArray front.length =
      if p b then skipBytes p (front ++ b :: rest).toByteArray (front.length + 1)
      else front.length := by
  have hlt : front.length < (front ++ b :: rest).toByteArray.size := by simp
  have hbyte : (front ++ b :: rest).toByteArray[front.length] = b := by
    rw [List.getElem_toByteArray, List.getElem_append_right (Nat.le_refl _)]
    simp
  rw [skipBytes, dif_pos hlt, hbyte]

/-- A search never goes back. -/
theorem le_skipBytes (p : UInt8 → Bool) (bytes : ByteArray) (i : Nat) :
    i ≤ skipBytes p bytes i := by
  fun_induction skipBytes p bytes i with
  | case1 i hlt hp ih => omega
  | case2 => exact Nat.le_refl _
  | case3 => exact Nat.le_refl _

/-- The search passes a run of bytes that fulfil the test, up to one that does not or the end. -/
theorem skipBytes_run {p : UInt8 → Bool} {run rest : List UInt8} (front : List UInt8)
    (hrun : ∀ b ∈ run, p b = true) (hrest : ∀ b, rest.head? = some b → p b = false) :
    skipBytes p (front ++ (run ++ rest)).toByteArray front.length =
      (front ++ run).length := by
  induction run generalizing front with
  | nil =>
    rw [List.nil_append, List.append_nil]
    cases rest with
    | nil => rw [List.append_nil, skipBytes_end]
    | cons b rest =>
      rw [skipBytes_cons, if_neg]
      rw [hrest b rfl]
      exact Bool.false_ne_true
  | cons b run ih =>
    have hnext := ih (front ++ [b]) fun b hb => hrun b (List.mem_cons_of_mem _ hb)
    rw [List.append_assoc, List.append_assoc, List.singleton_append, List.singleton_append,
      List.length_append, List.length_singleton] at hnext
    rw [List.cons_append, skipBytes_cons, if_pos (hrun b List.mem_cons_self)]
    exact hnext

/-! ### The byte of a space -/

/-- A character is encoded by its own number, or by bytes above those of such characters. -/
theorem toNat_of_mem_utf8EncodeChar {c : Char} {b : UInt8} (h : b ∈ String.utf8EncodeChar c) :
    b.toNat = c.toNat ∨ 128 ≤ b.toNat := by
  have hc : c.val.toNat = c.toNat := rfl
  simp only [String.utf8EncodeChar, hc] at h
  split at h
  next =>
    left
    rw [List.mem_singleton.mp h, UInt8.toNat_ofNat']
    omega
  next =>
    right
    split at h
    next =>
      simp only [List.mem_cons, List.not_mem_nil, or_false] at h
      rcases h with rfl | rfl <;> rw [UInt8.toNat_ofNat'] <;> omega
    next =>
      split at h
      next =>
        simp only [List.mem_cons, List.not_mem_nil, or_false] at h
        rcases h with rfl | rfl | rfl <;> rw [UInt8.toNat_ofNat'] <;> omega
      next =>
        simp only [List.mem_cons, List.not_mem_nil, or_false] at h
        rcases h with rfl | rfl | rfl | rfl <;> rw [UInt8.toNat_ofNat'] <;> omega

theorem space_mem_utf8EncodeChar_iff (c : Char) :
    (32 : UInt8) ∈ String.utf8EncodeChar c ↔ c = ' ' := by
  constructor
  · intro h
    rcases toNat_of_mem_utf8EncodeChar h with heq | hle
    · exact Char.toNat_inj.mp heq.symm
    · exact absurd hle (by decide)
  · rintro rfl
    exact List.mem_singleton.mpr rfl

/-! ### Searching the bytes of a text -/

theorem length_flatMap_utf8EncodeChar (cs : List Char) :
    (cs.flatMap String.utf8EncodeChar).length = (String.ofList cs).utf8ByteSize := by
  rw [← String.size_toByteArray, String.toByteArray_ofList, List.utf8Encode,
    List.size_toByteArray]

/-- The search passes the characters all of whose bytes fulfil the test, up to one none of whose
bytes does or the end. -/
theorem skipBytes_ofList {p : UInt8 → Bool} (front run rest : List Char)
    (hrun : ∀ c ∈ run, ∀ b ∈ String.utf8EncodeChar c, p b = true)
    (hrest : ∀ c, rest.head? = some c → ∀ b ∈ String.utf8EncodeChar c, p b = false) :
    skipBytes p (String.ofList (front ++ (run ++ rest))).toByteArray
        (String.ofList front).utf8ByteSize = (String.ofList (front ++ run)).utf8ByteSize := by
  have hpass : ∀ b ∈ run.flatMap String.utf8EncodeChar, p b = true := by
    intro b hb
    obtain ⟨c, hc, hbc⟩ := List.mem_flatMap.mp hb
    exact hrun c hc b hbc
  have hstop : ∀ b, (rest.flatMap String.utf8EncodeChar).head? = some b → p b = false := by
    intro b hb
    cases rest with
    | nil => cases hb
    | cons c rest =>
      rw [List.flatMap_cons, List.head?_append,
        Option.or_of_isSome (by simp [List.isSome_head?])] at hb
      exact hrest c rfl b (List.mem_of_head? hb)
  rw [String.toByteArray_ofList, List.utf8Encode, ← length_flatMap_utf8EncodeChar,
    ← length_flatMap_utf8EncodeChar, List.flatMap_append, List.flatMap_append,
    List.flatMap_append]
  exact skipBytes_run _ hpass hstop

/-! ### Slices -/

/-- A text is what a line holds from one position to another: both lie between characters, the
first not behind the second, and the bytes between them are those of the text. -/
structure IsSlice (line : String) (start stop : Nat) (text : String) : Prop where
  isValid_start : (⟨start⟩ : String.Pos.Raw).IsValid line
  isValid_stop : (⟨stop⟩ : String.Pos.Raw).IsValid line
  start_le_stop : start ≤ stop
  extract_eq : line.toByteArray.extract start stop = text.toByteArray

theorem isValid_append (before after : String) :
    (⟨before.utf8ByteSize⟩ : String.Pos.Raw).IsValid (before ++ after) :=
  String.Pos.Raw.isValid_iff_exists_append.mpr ⟨before, after, rfl, rfl⟩

theorem isSlice_append (before text after : String) :
    IsSlice (before ++ text ++ after) before.utf8ByteSize (before ++ text).utf8ByteSize text := by
  refine ⟨?_, isValid_append (before ++ text) after, ?_, ?_⟩
  · rw [String.append_assoc]
    exact isValid_append before (text ++ after)
  · rw [String.utf8ByteSize_append]
    exact Nat.le_add_right _ _
  · rw [String.append_assoc, String.toByteArray_append, String.toByteArray_append,
      String.utf8ByteSize_append]
    calc (before.toByteArray ++ (text.toByteArray ++ after.toByteArray)).extract
          before.utf8ByteSize (before.utf8ByteSize + text.utf8ByteSize)
        = (text.toByteArray ++ after.toByteArray).extract 0 text.utf8ByteSize :=
          ByteArray.extract_append_size_add' (i := 0) String.size_toByteArray.symm
      _ = text.toByteArray := ByteArray.extract_append_eq_left String.size_toByteArray.symm

end Text

namespace Reader

open Text

/-! ### The positions of a reader -/

/-- Where the searches for a word end: before its first byte, behind its last one, and behind the
spaces that follow. -/
structure Cuts where
  start : Nat
  stop : Nat
  next : Nat
deriving DecidableEq, Repr

/-- The next word of a line from a position on, by three searches: over spaces, over anything
else, and over spaces. -/
def cuts (line : String) (i : Nat) : Cuts :=
  let start := skipBytes (· == 32) line.toByteArray i
  let stop := skipBytes (· != 32) line.toByteArray start
  ⟨start, stop, skipBytes (· == 32) line.toByteArray stop⟩

theorem head?_afterGap_ne (cs : List Char) : (afterGap cs).head? ≠ some ' ' := by
  intro h
  have hhead := List.head?_dropWhile_not (· == ' ') cs
  rw [show (cs.dropWhile (· == ' ')).head? = some ' ' from h] at hhead
  simp at hhead

/-- Skipping the bytes of spaces skips the spaces. -/
theorem skipBytes_gap (front cs : List Char) :
    skipBytes (· == 32) (String.ofList (front ++ cs)).toByteArray
        (String.ofList front).utf8ByteSize = (String.ofList (front ++ gap cs)).utf8ByteSize := by
  have hpass : ∀ c ∈ gap cs, ∀ b ∈ String.utf8EncodeChar c, (b == 32) = true := by
    intro c hc b hb
    rw [eq_space_of_mem_gap c hc] at hb
    rw [List.mem_singleton.mp hb]
    rfl
  have hstop : ∀ c, (afterGap cs).head? = some c →
      ∀ b ∈ String.utf8EncodeChar c, (b == 32) = false := by
    intro c hc b hb
    rw [beq_eq_false_iff_ne]
    rintro rfl
    exact head?_afterGap_ne cs (by rw [hc, (space_mem_utf8EncodeChar_iff c).mp hb])
  have h := skipBytes_ofList front (gap cs) (afterGap cs) hpass hstop
  rwa [gap_append_afterGap] at h

/-- Skipping the bytes that are not those of spaces skips the characters up to the next space. -/
theorem skipBytes_unspaced (front cs : List Char) :
    skipBytes (· != 32) (String.ofList (front ++ cs)).toByteArray
        (String.ofList front).utf8ByteSize =
      (String.ofList (front ++ unspaced cs)).utf8ByteSize := by
  have hpass : ∀ c ∈ unspaced cs, ∀ b ∈ String.utf8EncodeChar c, (b != 32) = true := by
    intro c hc b hb
    rw [bne_iff_ne]
    rintro rfl
    exact space_not_mem_unspaced cs ((space_mem_utf8EncodeChar_iff c).mp hb ▸ hc)
  have hstop : ∀ c, (afterUnspaced cs).head? = some c →
      ∀ b ∈ String.utf8EncodeChar c, (b != 32) = false := by
    intro c hc b hb
    rcases afterUnspaced_eq_nil_or_cons cs with hnil | ⟨more, hmore⟩
    · rw [hnil] at hc
      cases hc
    · rw [hmore] at hc
      obtain rfl := Option.some.inj hc
      rw [List.mem_singleton.mp hb]
      rfl
  have h := skipBytes_ofList front (unspaced cs) (afterUnspaced cs) hpass hstop
  rwa [unspaced_append_afterUnspaced] at h

/-- The line, cut before its next word and behind it. -/
theorem passed_append_rest (r : Reader) :
    r.passed ++ r.rest =
      r.passed ++ gap r.rest ++ firstWord r.rest ++ afterUnspaced (afterGap r.rest) := by
  rw [List.append_assoc _ (firstWord r.rest), firstWord, unspaced_append_afterUnspaced,
    List.append_assoc, gap_append_afterGap]

/-- The searches end where a reader cuts the line: before the word, behind it, and where the
reader goes on. -/
theorem cuts_position (r : Reader) :
    cuts r.input r.position =
      ⟨(String.ofList (r.passed ++ gap r.rest)).utf8ByteSize,
        (String.ofList (r.passed ++ gap r.rest ++ firstWord r.rest)).utf8ByteSize,
        (String.ofList (r.passed ++ wordSpan r.rest)).utf8ByteSize⟩ := by
  have hstart : skipBytes (· == 32) r.input.toByteArray r.position =
      (String.ofList (r.passed ++ gap r.rest)).utf8ByteSize :=
    skipBytes_gap r.passed r.rest
  have hstop : skipBytes (· != 32) r.input.toByteArray
        (String.ofList (r.passed ++ gap r.rest)).utf8ByteSize =
      (String.ofList (r.passed ++ gap r.rest ++ firstWord r.rest)).utf8ByteSize := by
    have hcut : r.passed ++ r.rest = r.passed ++ gap r.rest ++ afterGap r.rest := by
      rw [List.append_assoc, gap_append_afterGap]
    rw [input, hcut]
    exact skipBytes_unspaced _ _
  have hnext : skipBytes (· == 32) r.input.toByteArray
        (String.ofList (r.passed ++ gap r.rest ++ firstWord r.rest)).utf8ByteSize =
      (String.ofList (r.passed ++ wordSpan r.rest)).utf8ByteSize := by
    rw [input, passed_append_rest, skipBytes_gap, wordSpan, ← List.append_assoc,
      ← List.append_assoc]
  simp only [cuts, hstart, hstop, hnext]

/-! ### What is read -/

theorem isValid_position (r : Reader) : (⟨r.position⟩ : String.Pos.Raw).IsValid r.input := by
  rw [input, String.ofList_append]
  exact isValid_append _ _

/-- A word can be read before the last byte. -/
theorem canRead_iff_position_lt (r : Reader) :
    r.canRead = true ↔ r.position < r.input.utf8ByteSize := by
  have hsize : r.input.utf8ByteSize = r.position + (String.ofList r.rest).utf8ByteSize := by
    rw [input, String.ofList_append, String.utf8ByteSize_append]
    rfl
  have hrest : (String.ofList r.rest).utf8ByteSize = 0 ↔ r.rest = [] := by
    rw [String.utf8ByteSize_eq_zero_iff, String.ofList_eq_empty_iff]
  rw [hsize, canRead_iff, Ne, ← hrest]
  omega

theorem position_eq_zero_iff (r : Reader) : r.position = 0 ↔ r.passed = [] := by
  rw [position, String.utf8ByteSize_eq_zero_iff, String.ofList_eq_empty_iff]

/-- The next word is the slice of the line between the ends found. -/
theorem isSlice_firstWord (r : Reader) :
    IsSlice r.input (cuts r.input r.position).start (cuts r.input r.position).stop
      (String.ofList (firstWord r.rest)) := by
  rw [cuts_position, input, passed_append_rest, String.ofList_append, String.ofList_append]
  exact isSlice_append _ _ _

/-- What remains is the slice of the line from the reader's position to the end. -/
theorem isSlice_rest (r : Reader) :
    IsSlice r.input r.position r.input.utf8ByteSize (String.ofList r.rest) := by
  have h := isSlice_append (String.ofList r.passed) (String.ofList r.rest) ""
  rwa [String.append_empty, ← String.ofList_append] at h

/-- A reader of a line, told by its position in the bytes of the line: where it stands, and what
each reading gives and where it leads. -/
structure Located (line : String) (r : Reader) : Prop where
  position_le : r.position ≤ line.utf8ByteSize
  boundary : (⟨r.position⟩ : String.Pos.Raw).IsValid line
  canRead_iff : r.canRead = true ↔ r.position < line.utf8ByteSize
  word : r.canRead = true → ∃ word next, r.readWord = .ok (word, next) ∧
    IsSlice line (cuts line r.position).start (cuts line r.position).stop word ∧
      next.position = (cuts line r.position).next
  noWord : r.canRead = false → r.readWord = .error ⟨r.position⟩
  remaining : r.position = 0 ∨ r.canRead = true →
    ∃ text next, r.readRemaining = .ok (text, next) ∧
      IsSlice line r.position line.utf8ByteSize text ∧
        next.position = if r.position = 0 then 0 else line.utf8ByteSize
  noRemaining : r.position ≠ 0 → r.canRead = false → r.readRemaining = .error ⟨r.position⟩

theorem located (r : Reader) : r.Located r.input where
  position_le := (isValid_position r).le_utf8ByteSize
  boundary := isValid_position r
  canRead_iff := canRead_iff_position_lt r
  word hcan := by
    have hrest : r.rest ≠ [] := (canRead_iff r).mp hcan
    refine ⟨_, _, readWord_of_ne_nil hrest, isSlice_firstWord r, ?_⟩
    rw [cuts_position]
    rfl
  noWord hcan := readWord_of_nil ((canRead_eq_false_iff r).mp hcan)
  remaining h := by
    by_cases hpassed : r.passed = []
    · have hposition := (position_eq_zero_iff r).mpr hpassed
      have hwhole : String.ofList r.rest = r.input := by
        rw [input, hpassed, List.nil_append]
      have hslice := isSlice_rest r
      rw [hwhole] at hslice
      exact ⟨r.input, r, readRemaining_start hpassed, hslice, by rw [if_pos hposition, hposition]⟩
    · have hposition := mt (position_eq_zero_iff r).mp hpassed
      have hrest : r.rest ≠ [] := (canRead_iff r).mp (h.resolve_left hposition)
      refine ⟨_, _, readRemaining_of_ne_nil hpassed hrest, isSlice_rest r, ?_⟩
      rw [if_neg hposition]
      rfl
  noRemaining hposition hcan :=
    readRemaining_of_nil (mt (position_eq_zero_iff r).mpr hposition)
      ((canRead_eq_false_iff r).mp hcan)

end Reader

end Switchboard
