import EmojiPalette.Core.Utf8
import EmojiPalette.Library.SelfSynchronizing

/-!
# The decoder against the standard

Lean's characters are the scalar values of the standard, and its strings are encoded as the standard says. The decoder is held to that encoding here, and once more to the bytes it is given: it is written a second time over positions, as in the source, where a read outside the text is an error of its own.
-/

namespace EmojiPalette

/-! ### Scalar values and their encodings -/

theorem isScalar_iff {codepoint : Nat} : isScalar codepoint = true ↔ codepoint.isValidChar := by
  simp only [isScalar, Bool.and_eq_true, Bool.not_eq_true', Bool.and_eq_false_iff, decide_eq_true_eq,
    decide_eq_false_iff_not, Nat.isValidChar]
  omega

theorem isScalar_toNat (character : Char) : isScalar character.toNat = true :=
  isScalar_iff.mpr character.valid

theorem exists_toNat_of_isScalar {codepoint : Nat} (h : isScalar codepoint = true) :
    ∃ character : Char, character.toNat = codepoint :=
  ⟨Char.ofNatAux codepoint (isScalar_iff.mp h), rfl⟩

/-- The lists of scalar values are the texts. -/
theorem forall_isScalar_iff {codepoints : List Nat} :
    (∀ codepoint ∈ codepoints, isScalar codepoint = true) ↔ ∃ text : List Char, codepoints = text.map Char.toNat := by
  constructor
  · intro h
    induction codepoints with
    | nil => exact ⟨[], rfl⟩
    | cons codepoint rest ih =>
        obtain ⟨hscalar, hrest⟩ := List.forall_mem_cons.mp h
        obtain ⟨character, rfl⟩ := exists_toNat_of_isScalar hscalar
        obtain ⟨text, rfl⟩ := ih hrest
        exact ⟨character :: text, rfl⟩
  · intro h
    obtain ⟨text, rfl⟩ := h
    intro codepoint hmem
    obtain ⟨character, -, rfl⟩ := List.mem_map.mp hmem
    exact isScalar_toNat character

theorem encodeCodepoint_toNat (character : Char) :
    encodeCodepoint character.toNat = String.utf8EncodeChar character := by
  have hmax : character.val.toNat ≤ 0x10FFFF := le_of_isScalar (isScalar_toNat character)
  have htoNat : character.toNat = character.val.toNat := rfl
  rw [htoNat, encodeCodepoint_eq hmax, String.utf8EncodeChar]
  split_ifs with hone htwo hthree
  · rfl
  · rw [Nat.mod_eq_of_lt (b := 0x20) (by omega), Nat.add_comm 0xC0, Nat.add_comm 0x80]
  · rw [Nat.mod_eq_of_lt (b := 0x10) (by omega), Nat.add_comm 0xE0, Nat.add_comm 0x80, Nat.add_comm 0x80]
  · rw [Nat.mod_eq_of_lt (b := 0x08) (by omega), Nat.add_comm 0xF0, Nat.add_comm 0x80, Nat.add_comm 0x80,
      Nat.add_comm 0x80]

theorem flatMap_encodeCodepoint_map_toNat (text : List Char) :
    (text.map Char.toNat).flatMap encodeCodepoint = text.flatMap String.utf8EncodeChar := by
  rw [List.flatMap_map]
  exact List.flatMap_congr fun character _ => encodeCodepoint_toNat character

/-- Decoding finds the one text a byte string encodes. -/
theorem decodeUtf8_eq_some_iff_text {value : Bytes} {codepoints : List Nat} :
    decodeUtf8 value = some codepoints ↔
      ∃ text : List Char, value = text.flatMap String.utf8EncodeChar ∧ codepoints = text.map Char.toNat := by
  rw [decodeUtf8_eq_some_iff, forall_isScalar_iff]
  constructor
  · intro h
    obtain ⟨⟨text, rfl⟩, hvalue⟩ := h
    exact ⟨text, by rw [hvalue, flatMap_encodeCodepoint_map_toNat], rfl⟩
  · intro h
    obtain ⟨text, hvalue, rfl⟩ := h
    exact ⟨⟨text, rfl⟩, by rw [hvalue, flatMap_encodeCodepoint_map_toNat]⟩

/-! ### Where characters begin

The first byte of an encoded character is never one of the later bytes of one, so byte strings found in a text are found there as texts.
-/

def isLeadByte (byte : UInt8) : Bool := byte < 0x80 || 0xC0 ≤ byte

private theorem isLeadByte_ofNat {n : Nat} (h : n < 256) :
    isLeadByte (UInt8.ofNat n) = true ↔ n < 0x80 ∨ 0xC0 ≤ n := by
  simp only [isLeadByte, Bool.or_eq_true, decide_eq_true_eq, UInt8.lt_iff_toNat_lt, UInt8.le_iff_toNat_le,
    UInt8.toNat_ofNat', Nat.mod_eq_of_lt h]
  simp

private theorem isLeadByte_continuation (n : Nat) : isLeadByte (UInt8.ofNat (0x80 + n % 64)) = false := by
  rw [← Bool.not_eq_true, isLeadByte_ofNat (by omega)]
  omega

theorem utf8_code : SelfSynchronizing.Code isLeadByte String.utf8EncodeChar where
  word := by
    intro character
    have hmax := le_of_isScalar (isScalar_toNat character)
    have hnil : ∀ byte ∈ ([] : Bytes), isLeadByte byte = false := by simp
    have hcons : ∀ (n : Nat) {tail : Bytes}, (∀ byte ∈ tail, isLeadByte byte = false) →
        ∀ byte ∈ UInt8.ofNat (0x80 + n % 64) :: tail, isLeadByte byte = false :=
      fun n _ htail => List.forall_mem_cons.mpr ⟨isLeadByte_continuation n, htail⟩
    rw [← encodeCodepoint_toNat, encodeCodepoint_eq hmax]
    split_ifs with hone htwo hthree
    · exact ⟨_, _, rfl, (isLeadByte_ofNat (by omega)).mpr (by omega), hnil⟩
    · exact ⟨_, _, rfl, (isLeadByte_ofNat (by omega)).mpr (by omega), hcons _ hnil⟩
    · exact ⟨_, _, rfl, (isLeadByte_ofNat (by omega)).mpr (by omega), hcons _ (hcons _ hnil)⟩
    · exact ⟨_, _, rfl, (isLeadByte_ofNat (by omega)).mpr (by omega), hcons _ (hcons _ (hcons _ hnil))⟩
  eq_of_isPrefix := by
    intro left right h
    obtain ⟨more, hmore⟩ := h
    rw [← encodeCodepoint_toNat, ← encodeCodepoint_toNat] at hmore
    obtain ⟨first, tail, hleft, hnext⟩ := decodeNext_encodeCodepoint (isScalar_toNat left) more
    obtain ⟨other, others, hright, hdone⟩ := decodeNext_encodeCodepoint (isScalar_toNat right) []
    rw [hleft, hright, List.cons_append, List.cons.injEq] at hmore
    obtain ⟨rfl, rfl⟩ := hmore
    rw [List.append_nil, hnext] at hdone
    have hsame := (Prod.mk.inj (Option.some.inj hdone)).1
    exact Char.ext (UInt32.toNat_inj.mp hsame)

section Parts

variable {part whole : Bytes} {inner outer : List Nat}

/-- The bytes of a part of a text are a part of its bytes only where the text has that part. -/
theorem isInfix_of_decodeUtf8 (hpart : decodeUtf8 part = some inner) (hwhole : decodeUtf8 whole = some outer)
    (h : part <:+: whole) : inner <:+: outer := by
  obtain ⟨text, rfl, rfl⟩ := decodeUtf8_eq_some_iff_text.mp hpart
  obtain ⟨others, rfl, rfl⟩ := decodeUtf8_eq_some_iff_text.mp hwhole
  exact (utf8_code.infix_iff.mp h).map Char.toNat

theorem isPrefix_of_decodeUtf8 (hpart : decodeUtf8 part = some inner) (hwhole : decodeUtf8 whole = some outer)
    (h : part <+: whole) : inner <+: outer := by
  obtain ⟨text, rfl, rfl⟩ := decodeUtf8_eq_some_iff_text.mp hpart
  obtain ⟨others, rfl, rfl⟩ := decodeUtf8_eq_some_iff_text.mp hwhole
  exact (utf8_code.prefix_iff.mp h).map Char.toNat

theorem isSuffix_of_decodeUtf8 (hpart : decodeUtf8 part = some inner) (hwhole : decodeUtf8 whole = some outer)
    (h : part <:+ whole) : inner <:+ outer := by
  obtain ⟨text, rfl, rfl⟩ := decodeUtf8_eq_some_iff_text.mp hpart
  obtain ⟨others, rfl, rfl⟩ := decodeUtf8_eq_some_iff_text.mp hwhole
  exact (utf8_code.suffix_iff.mp h).map Char.toNat

end Parts

/-! ### The bytes read -/

/-- `value[index]`; outside the text, the position is the error. -/
def readByte (value : Bytes) (index : Nat) : Except Nat UInt8 :=
  match value[index]? with
  | some byte => .ok byte
  | none => .error index

/-- The inner loop from a position on, with as many bytes left to read as the last argument says. -/
def continueReads (value : Bytes) (codepoint position : Nat) : Nat → Except Nat (Option Nat)
  | 0 => .ok (some codepoint)
  | remaining + 1 => do
      let continuation ← readByte value position
      match continueWith codepoint continuation with
      | none => .ok none
      | some codepoint => continueReads value codepoint (position + 1) remaining

/-- The outer loop from an index on, each byte read where the source reads it. -/
def decodeReads (value : Bytes) : Nat → Nat → Except Nat (Option (List Nat))
  | 0, index => .ok (if index < value.length then none else some [])
  | turns + 1, index =>
      if index < value.length then do
        let first ← readByte value index
        match leadByte first with
        | none => .ok none
        | some (bits, length, minimum) =>
            if index + length > value.length then .ok none
            else match ← continueReads value bits (index + 1) (length - 1) with
              | none => .ok none
              | some codepoint =>
                  if codepoint < minimum || !isScalar codepoint then .ok none
                  else return (← decodeReads value turns (index + length)).map (codepoint :: ·)
      else .ok (some [])

theorem readByte_of_drop {value rest : Bytes} {index : Nat} {byte : UInt8} (h : value.drop index = byte :: rest) :
    readByte value index = .ok byte ∧ value.drop (index + 1) = rest := by
  have hread : value[index]? = some byte := by
    rw [← List.head?_drop, h, List.head?_cons]
  refine ⟨by rw [readByte, hread], ?_⟩
  rw [← List.drop_drop, h, List.drop_one, List.tail_cons]

theorem continueReads_eq {value : Bytes} (codepoint : Nat) {position remaining : Nat}
    (h : position + remaining ≤ value.length) :
    continueReads value codepoint position remaining =
      .ok (((value.drop position).take remaining).foldlM continueWith codepoint) := by
  induction remaining generalizing codepoint position with
  | zero => rfl
  | succ remaining ih =>
      cases hdrop : value.drop position with
      | nil =>
          have hlength := List.drop_eq_nil_iff.mp hdrop
          omega
      | cons byte rest =>
          obtain ⟨hread, rfl⟩ := readByte_of_drop hdrop
          rw [continueReads, hread, List.take_succ_cons, List.foldlM_cons]
          simp only [bind, Except.bind]
          cases hnext : continueWith codepoint byte with
          | none => rfl
          | some next =>
              have hrest := ih next (show position + 1 + remaining ≤ value.length by omega)
              exact hrest

theorem length_of_leadByte {first : UInt8} {bits length minimum : Nat}
    (h : leadByte first = some (bits, length, minimum)) : 1 ≤ length := by
  unfold leadByte at h
  split_ifs at h <;> cases h <;> decide

theorem decodeReads_eq (value : Bytes) (turns index : Nat) :
    decodeReads value turns index = .ok (decodeLoop turns (value.drop index)) := by
  induction turns generalizing index with
  | zero =>
      cases hdrop : value.drop index with
      | nil => rw [decodeReads, if_neg (Nat.not_lt.mpr (List.drop_eq_nil_iff.mp hdrop)), decodeLoop]
      | cons first rest =>
          have hlength := congrArg List.length hdrop
          rw [List.length_drop, List.length_cons] at hlength
          rw [decodeReads, if_pos (by omega), decodeLoop]
  | succ turns ih =>
      cases hdrop : value.drop index with
      | nil => rw [decodeReads, if_neg (Nat.not_lt.mpr (List.drop_eq_nil_iff.mp hdrop)), decodeLoop]
      | cons first rest =>
          have hlength := congrArg List.length hdrop
          rw [List.length_drop, List.length_cons] at hlength
          obtain ⟨hread, hrest⟩ := readByte_of_drop hdrop
          rw [decodeReads, if_pos (by omega), hread, decodeLoop, decodeNext]
          simp only [bind, Except.bind]
          cases hlead : leadByte first with
          | none => rfl
          | some lead =>
              obtain ⟨bits, length, minimum⟩ := lead
              have hpos := length_of_leadByte hlead
              by_cases hshort : index + length > value.length
              · have hrestShort : rest.length + 1 < length := by omega
                simp only [if_pos hshort, if_pos hrestShort]
              · have hrestLong : ¬ rest.length + 1 < length := by omega
                have hafter : rest.drop (length - 1) = value.drop (index + length) := by
                  rw [← hrest, List.drop_drop, Nat.add_assoc, Nat.add_sub_cancel' hpos]
                have hreads := continueReads_eq bits (show index + 1 + (length - 1) ≤ value.length by omega)
                simp only [if_neg hshort, if_neg hrestLong, hafter, ih, hreads, hrest]
                cases (rest.take (length - 1)).foldlM continueWith bits with
                | none => rfl
                | some codepoint =>
                    by_cases hrefused : (decide (codepoint < minimum) || !isScalar codepoint) = true
                    · simp only [hrefused, if_true]
                    · simp only [hrefused]
                      rfl

/-- Decoding accepts exactly the encodings of texts and returns their scalar values, so encoding and decoding undo each other; and no read of the loop leaves the bytes it is given. -/
theorem decodeUtf8_standard (value : Bytes) :
    (∀ codepoints, decodeUtf8 value = some codepoints ↔
      ∃ text : List Char, value = text.flatMap String.utf8EncodeChar ∧ codepoints = text.map Char.toNat) ∧
    (∀ codepoints, decodeUtf8 value = some codepoints → encodeUtf8 codepoints = value) ∧
    (∀ text : List Char, decodeUtf8 (encodeUtf8 (text.map Char.toNat)) = some (text.map Char.toNat)) ∧
    decodeReads value value.length 0 = .ok (decodeUtf8 value) := by
  refine ⟨fun codepoints => decodeUtf8_eq_some_iff_text, fun codepoints => encodeUtf8_of_decodeUtf8, fun text => ?_,
    decodeReads_eq value value.length 0⟩
  exact decodeUtf8_encodeUtf8 (forall_isScalar_iff.mpr ⟨text, rfl⟩)

end EmojiPalette
