import Mathlib.Algebra.Order.Ring.Nat
import Mathlib.Data.List.Basic
import Mathlib.Data.List.Flatten

/-!
# UTF-8 and hexadecimal text

Strings are byte lists and code points natural numbers. `decodeUtf8` walks the bytes one sequence at a time, as the source's loop does: the lead byte fixes the length and the least code point that needs it, and the continuation bytes are folded onto the lead byte's bits. The round trip with `encodeUtf8` says that it accepts exactly the encodings of scalar values.
-/

namespace EmojiPalette

abbrev Bytes := List UInt8

def isScalar (value : Nat) : Bool := value ≤ 0x10FFFF && !(0xD800 ≤ value && value ≤ 0xDFFF)

/-- What a lead byte announces: its bits of the code point, the length of the sequence, and the least code point that needs it. -/
def leadByte (first : UInt8) : Option (Nat × Nat × Nat) :=
  if first < 0x80 then some (first.toNat, 1, 0)
  else if first &&& 0xE0 = 0xC0 then some ((first &&& 0x1F).toNat, 2, 0x80)
  else if first &&& 0xF0 = 0xE0 then some ((first &&& 0x0F).toNat, 3, 0x800)
  else if first &&& 0xF8 = 0xF0 then some ((first &&& 0x07).toNat, 4, 0x10000)
  else none

/-- The inner loop's body: six more bits from a continuation byte. -/
def continueWith (codepoint : Nat) (continuation : UInt8) : Option Nat :=
  if continuation &&& 0xC0 = 0x80 then some (codepoint <<< 6 ||| (continuation &&& 0x3F).toNat) else none

/-- One turn of the outer loop: the code point at the head of the text, and the text after it. -/
def decodeNext (first : UInt8) (rest : Bytes) : Option (Nat × Bytes) :=
  match leadByte first with
  | none => none
  | some (bits, length, minimum) =>
      if rest.length + 1 < length then none
      else match (rest.take (length - 1)).foldlM continueWith bits with
        | none => none
        | some codepoint =>
            if codepoint < minimum || !isScalar codepoint then none
            else some (codepoint, rest.drop (length - 1))

/-- The outer loop, with a bound on its turns. Every turn takes at least one byte, so the number of bytes is enough. -/
def decodeLoop : Nat → Bytes → Option (List Nat)
  | _, [] => some []
  | 0, _ :: _ => none
  | turns + 1, first :: rest =>
      match decodeNext first rest with
      | none => none
      | some (codepoint, rest) => (decodeLoop turns rest).map (codepoint :: ·)

def decodeUtf8 (value : Bytes) : Option (List Nat) := decodeLoop value.length value

def isValidUtf8 (value : Bytes) : Bool := (decodeUtf8 value).isSome

def encodeCodepoint (codepoint : Nat) : Bytes :=
  if codepoint ≤ 0x7F then [UInt8.ofNat codepoint]
  else if codepoint ≤ 0x7FF then
    [UInt8.ofNat (0xC0 ||| codepoint >>> 6), UInt8.ofNat (0x80 ||| codepoint &&& 0x3F)]
  else if codepoint ≤ 0xFFFF then
    [UInt8.ofNat (0xE0 ||| codepoint >>> 12), UInt8.ofNat (0x80 ||| (codepoint >>> 6) &&& 0x3F),
      UInt8.ofNat (0x80 ||| codepoint &&& 0x3F)]
  else
    [UInt8.ofNat (0xF0 ||| codepoint >>> 18), UInt8.ofNat (0x80 ||| (codepoint >>> 12) &&& 0x3F),
      UInt8.ofNat (0x80 ||| (codepoint >>> 6) &&& 0x3F), UInt8.ofNat (0x80 ||| codepoint &&& 0x3F)]

/-- Empty as soon as one code point is no scalar value. -/
def encodeUtf8 (codepoints : List Nat) : Bytes :=
  if codepoints.all isScalar then codepoints.flatMap encodeCodepoint else []

/-! ### Search text -/

/-- Upper case to lower case in the three languages of the catalog, and hyphens to spaces. -/
def foldCodepoint (value : Nat) : Nat :=
  if 0x41 ≤ value && value ≤ 0x5A then value + 0x20
  else if 0x0410 ≤ value && value ≤ 0x042F then value + 0x20
  else match value with
    | 0x00C4 => 0x00E4
    | 0x00D6 => 0x00F6
    | 0x00DC => 0x00FC
    | 0x1E9E => 0x00DF
    | 0x0401 => 0x0451
    | 0x2D => 0x20
    | 0x5F => 0x20
    | _ => value

/-- Space, tab, newline and carriage return. -/
def isSpace (codepoint : Nat) : Bool := codepoint = 0x20 || codepoint = 0x09 || codepoint = 0x0A || codepoint = 0x0D

/-- The loop of `normalizeForSearch`: a run of spaces becomes one, and none if another space came before it. -/
def foldSpaces : Bool → List Nat → List Nat
  | _, [] => []
  | previousSpace, original :: rest =>
      let codepoint := foldCodepoint original
      if isSpace codepoint then
        if previousSpace then foldSpaces true rest else 0x20 :: foldSpaces true rest
      else codepoint :: foldSpaces false rest

def normalizeForSearch (value : Bytes) : Bytes :=
  match decodeUtf8 value with
  | none => []
  | some decoded =>
      let normalized := foldSpaces true decoded
      encodeUtf8 (if normalized.getLast? = some 0x20 then normalized.dropLast else normalized)

/-! ### Hexadecimal -/

def hexDigit (nibble : UInt8) : UInt8 := if nibble < 10 then 48 + nibble else 87 + nibble

def hexEncode (value : Bytes) : Bytes :=
  value.flatMap fun (byte : UInt8) => [hexDigit (byte >>> 4), hexDigit (byte &&& 0x0F)]

/-- The digit's value, in either case; none where the source returns -1. -/
def hexValue (value : UInt8) : Option UInt8 :=
  if 48 ≤ value ∧ value ≤ 57 then some (value - 48)
  else if 97 ≤ value ∧ value ≤ 102 then some (value - 97 + 10)
  else if 65 ≤ value ∧ value ≤ 70 then some (value - 65 + 10)
  else none

/-- The bytes two digits each; none at an odd length or at anything that is no digit. -/
def hexPairs : Bytes → Option Bytes
  | [] => some []
  | [_] => none
  | high :: low :: rest =>
      match hexValue high, hexValue low with
      | some high, some low => (hexPairs rest).map ((high <<< 4 ||| low) :: ·)
      | _, _ => none

def hexDecode (value : Bytes) : Option Bytes :=
  match hexPairs value with
  | none => none
  | some result => if isValidUtf8 result then some result else none

/-! ### Bytes, one by one -/

theorem forall_byte {p : UInt8 → Prop} (h : ∀ n : Fin 256, p (UInt8.ofNat n)) (byte : UInt8) : p byte := by
  have hbyte := h ⟨byte.toNat, byte.toNat_lt⟩
  rwa [UInt8.ofNat_toNat] at hbyte

/-- The masks of the lead byte, read as ranges. -/
private theorem lead_bits (first : UInt8) :
    (first &&& 0xE0 = 0xC0 → 0xC0 + (first &&& 0x1F).toNat = first.toNat ∧ (first &&& 0x1F).toNat < 32) ∧
    (first &&& 0xF0 = 0xE0 → 0xE0 + (first &&& 0x0F).toNat = first.toNat ∧ (first &&& 0x0F).toNat < 16) ∧
    (first &&& 0xF8 = 0xF0 → 0xF0 + (first &&& 0x07).toNat = first.toNat ∧ (first &&& 0x07).toNat < 8) := by
  revert first
  apply forall_byte
  decide +kernel

private theorem leadByte_cases {first : UInt8} {bits length minimum : Nat}
    (h : leadByte first = some (bits, length, minimum)) :
    (length = 1 ∧ minimum = 0 ∧ first.toNat = bits ∧ bits < 128) ∨
    (length = 2 ∧ minimum = 0x80 ∧ first.toNat = 0xC0 + bits ∧ bits < 32) ∨
    (length = 3 ∧ minimum = 0x800 ∧ first.toNat = 0xE0 + bits ∧ bits < 16) ∨
    (length = 4 ∧ minimum = 0x10000 ∧ first.toNat = 0xF0 + bits ∧ bits < 8) := by
  obtain ⟨htwo, hthree, hfour⟩ := lead_bits first
  unfold leadByte at h
  split at h
  · rename_i hone
    have hascii : first.toNat < 128 := UInt8.lt_iff_toNat_lt.mp hone
    cases h
    omega
  split at h
  · have := htwo ‹_›
    cases h
    omega
  split at h
  · have := hthree ‹_›
    cases h
    omega
  split at h
  · have := hfour ‹_›
    cases h
    omega
  · cases h

private theorem leadByte_one {bits : Nat} (h : bits < 128) : leadByte (UInt8.ofNat bits) = some (bits, 1, 0) := by
  have hall : ∀ n : Fin 128, leadByte (UInt8.ofNat n) = some (n.val, 1, 0) := by decide +kernel
  exact hall ⟨bits, h⟩

private theorem leadByte_two {bits : Nat} (h : bits < 32) :
    leadByte (UInt8.ofNat (0xC0 + bits)) = some (bits, 2, 0x80) := by
  have hall : ∀ n : Fin 32, leadByte (UInt8.ofNat (0xC0 + n)) = some (n.val, 2, 0x80) := by decide +kernel
  exact hall ⟨bits, h⟩

private theorem leadByte_three {bits : Nat} (h : bits < 16) :
    leadByte (UInt8.ofNat (0xE0 + bits)) = some (bits, 3, 0x800) := by
  have hall : ∀ n : Fin 16, leadByte (UInt8.ofNat (0xE0 + n)) = some (n.val, 3, 0x800) := by decide +kernel
  exact hall ⟨bits, h⟩

private theorem leadByte_four {bits : Nat} (h : bits < 8) :
    leadByte (UInt8.ofNat (0xF0 + bits)) = some (bits, 4, 0x10000) := by
  have hall : ∀ n : Fin 8, leadByte (UInt8.ofNat (0xF0 + n)) = some (n.val, 4, 0x10000) := by decide +kernel
  exact hall ⟨bits, h⟩

/-- A continuation byte is one of 0x80 to 0xBF, and carries its offset from 0x80. -/
private theorem continuation_bits (byte : UInt8) :
    (byte &&& 0xC0 = 0x80 ↔ 0x80 ≤ byte.toNat ∧ byte.toNat < 0xC0) ∧
      (byte &&& 0xC0 = 0x80 → 0x80 + (byte &&& 0x3F).toNat = byte.toNat) := by
  revert byte
  apply forall_byte
  decide +kernel

private theorem shiftLeft_or_eq (high : Nat) {low i : Nat} (h : low < 2 ^ i) :
    high <<< i ||| low = high * 2 ^ i + low := by
  rw [← Nat.shiftLeft_add_eq_or_of_lt h, Nat.shiftLeft_eq]

theorem continueWith_eq_some_iff {codepoint result : Nat} {byte : UInt8} :
    continueWith codepoint byte = some result ↔
      0x80 ≤ byte.toNat ∧ byte.toNat < 0xC0 ∧ result = codepoint * 64 + (byte.toNat - 0x80) := by
  obtain ⟨hmask, hbits⟩ := continuation_bits byte
  unfold continueWith
  split
  · rename_i hcont
    obtain ⟨hlow, hhigh⟩ := hmask.mp hcont
    have hbyte := hbits hcont
    rw [shiftLeft_or_eq _ (i := 6) (by omega), Option.some.injEq]
    omega
  · rename_i hcont
    have hrange := fun h => hcont (hmask.mpr h)
    constructor
    · intro h
      cases h
    · intro h
      obtain ⟨hlow, hhigh, _⟩ := h
      exact absurd ⟨hlow, hhigh⟩ hrange

/-! ### One code point -/

/-- The encoding in plain arithmetic: quotients and remainders by 64 above the marker bits. -/
theorem encodeCodepoint_eq {codepoint : Nat} (h : codepoint ≤ 0x10FFFF) :
    encodeCodepoint codepoint =
      if codepoint ≤ 0x7F then [UInt8.ofNat codepoint]
      else if codepoint ≤ 0x7FF then
        [UInt8.ofNat (0xC0 + codepoint / 64), UInt8.ofNat (0x80 + codepoint % 64)]
      else if codepoint ≤ 0xFFFF then
        [UInt8.ofNat (0xE0 + codepoint / 4096), UInt8.ofNat (0x80 + codepoint / 64 % 64),
          UInt8.ofNat (0x80 + codepoint % 64)]
      else
        [UInt8.ofNat (0xF0 + codepoint / 262144), UInt8.ofNat (0x80 + codepoint / 4096 % 64),
          UInt8.ofNat (0x80 + codepoint / 64 % 64), UInt8.ofNat (0x80 + codepoint % 64)] := by
  have hlow : ∀ value : Nat, 0x80 ||| value &&& 0x3F = 0x80 + value % 64 := fun value => by
    rw [show (0x3F : Nat) = 2 ^ 6 - 1 from rfl, Nat.and_two_pow_sub_one_eq_mod]
    exact shiftLeft_or_eq 2 (i := 6) (Nat.mod_lt _ (by decide))
  have hmarker : ∀ marker i value : Nat, value < 2 ^ i → marker <<< i ||| value = marker <<< i + value :=
    fun marker i value hvalue => (Nat.shiftLeft_add_eq_or_of_lt hvalue marker).symm
  unfold encodeCodepoint
  simp only [hlow, Nat.shiftRight_eq_div_pow]
  split
  · rfl
  split
  · rw [show (0xC0 : Nat) = 3 <<< 6 from rfl, hmarker 3 6 _ (by omega)]
  split
  · rw [show (0xE0 : Nat) = 7 <<< 5 from rfl, hmarker 7 5 _ (by omega)]
  · rw [show (0xF0 : Nat) = 15 <<< 4 from rfl, hmarker 15 4 _ (by omega)]

theorem le_of_isScalar {codepoint : Nat} (h : isScalar codepoint = true) : codepoint ≤ 0x10FFFF := by
  simp only [isScalar, Bool.and_eq_true, decide_eq_true_eq] at h
  exact h.1

theorem encodeCodepoint_ne_nil (codepoint : Nat) : encodeCodepoint codepoint ≠ [] := by
  unfold encodeCodepoint
  split_ifs <;> simp

/-- One turn succeeds exactly when the announced number of continuation bytes is there, folds onto the lead byte's bits, and gives a scalar value that needs the length. -/
private theorem decodeNext_eq_some_iff {first : UInt8} {rest after : Bytes} {codepoint : Nat} :
    decodeNext first rest = some (codepoint, after) ↔
      ∃ bits length minimum tail, leadByte first = some (bits, length, minimum) ∧ rest = tail ++ after ∧
        tail.length = length - 1 ∧ tail.foldlM continueWith bits = some codepoint ∧
        minimum ≤ codepoint ∧ isScalar codepoint = true := by
  unfold decodeNext
  constructor
  · intro h
    split at h
    · cases h
    rename_i bits length minimum hlead
    split at h
    · cases h
    rename_i hlength
    split at h
    · cases h
    rename_i decoded hfold
    split at h
    · cases h
    rename_i hchecks
    simp only [Option.some.injEq, Prod.mk.injEq] at h
    obtain ⟨rfl, rfl⟩ := h
    simp only [Bool.or_eq_true, decide_eq_true_eq, Bool.not_eq_true', not_or, Bool.not_eq_false,
      Nat.not_lt] at hchecks
    refine ⟨bits, length, minimum, rest.take (length - 1), hlead, (List.take_append_drop _ _).symm, ?_,
      hfold, hchecks.1, hchecks.2⟩
    rw [List.length_take]
    omega
  · intro h
    obtain ⟨bits, length, minimum, tail, hlead, rfl, htail, hfold, hminimum, hscalar⟩ := h
    have hlength : ¬ (tail ++ after).length + 1 < length := by
      rw [List.length_append]
      omega
    simp only [hlead, if_neg hlength, ← htail, List.take_left, List.drop_left, hfold]
    rw [if_neg]
    simp [hscalar, hminimum]

private theorem foldlM_continueWith_cons {bits result : Nat} {byte : UInt8} {tail : Bytes} :
    (byte :: tail).foldlM continueWith bits = some result ↔
      0x80 ≤ byte.toNat ∧ byte.toNat < 0xC0 ∧
        tail.foldlM continueWith (bits * 64 + (byte.toNat - 0x80)) = some result := by
  rw [List.foldlM_cons, Option.bind_eq_bind, Option.bind_eq_some_iff]
  constructor
  · intro h
    obtain ⟨next, hnext, hrest⟩ := h
    obtain ⟨hlow, hhigh, hvalue⟩ := continueWith_eq_some_iff.mp hnext
    exact ⟨hlow, hhigh, hvalue ▸ hrest⟩
  · intro h
    obtain ⟨hlow, hhigh, hrest⟩ := h
    exact ⟨_, continueWith_eq_some_iff.mpr ⟨hlow, hhigh, rfl⟩, hrest⟩

private theorem foldlM_continueWith_nil {bits result : Nat} :
    ([] : Bytes).foldlM continueWith bits = some result ↔ bits = result := by
  simp

private theorem toNat_ofNat_add {base bits : Nat} (h : base + bits < 256) :
    (UInt8.ofNat (base + bits)).toNat = base + bits := by
  rw [UInt8.toNat_ofNat', Nat.mod_eq_of_lt h]

private theorem eq_ofNat_of_toNat_eq {byte : UInt8} {n : Nat} (h : byte.toNat = n) : byte = UInt8.ofNat n := by
  rw [← h, UInt8.ofNat_toNat]

/-- Decoding the head of an encoded scalar value gives it back and leaves what follows. -/
theorem decodeNext_encodeCodepoint {codepoint : Nat} (h : isScalar codepoint = true) (rest : Bytes) :
    ∃ first tail, encodeCodepoint codepoint = first :: tail ∧
      decodeNext first (tail ++ rest) = some (codepoint, rest) := by
  have hmax := le_of_isScalar h
  rw [encodeCodepoint_eq hmax]
  split_ifs with hone htwo hthree
  · refine ⟨_, [], rfl, decodeNext_eq_some_iff.mpr
      ⟨_, _, _, [], leadByte_one (Nat.lt_succ_of_le hone), rfl, rfl, rfl, Nat.zero_le _, h⟩⟩
  · refine ⟨_, _, rfl, decodeNext_eq_some_iff.mpr
      ⟨_, _, _, _, leadByte_two (by omega), rfl, rfl, ?_, by omega, h⟩⟩
    simp only [foldlM_continueWith_cons, foldlM_continueWith_nil]
    rw [toNat_ofNat_add (by omega)]
    omega
  · refine ⟨_, _, rfl, decodeNext_eq_some_iff.mpr
      ⟨_, _, _, _, leadByte_three (by omega), rfl, rfl, ?_, by omega, h⟩⟩
    simp only [foldlM_continueWith_cons, foldlM_continueWith_nil]
    rw [toNat_ofNat_add (by omega), toNat_ofNat_add (by omega)]
    omega
  · refine ⟨_, _, rfl, decodeNext_eq_some_iff.mpr
      ⟨_, _, _, _, leadByte_four (by omega), rfl, rfl, ?_, by omega, h⟩⟩
    simp only [foldlM_continueWith_cons, foldlM_continueWith_nil]
    rw [toNat_ofNat_add (by omega), toNat_ofNat_add (by omega), toNat_ofNat_add (by omega)]
    omega

/-- What one turn decodes is a scalar value, and the bytes it took are that value's encoding. -/
private theorem eq_encodeCodepoint_of_decodeNext {first : UInt8} {rest after : Bytes} {codepoint : Nat}
    (h : decodeNext first rest = some (codepoint, after)) :
    isScalar codepoint = true ∧ first :: rest = encodeCodepoint codepoint ++ after := by
  obtain ⟨bits, length, minimum, tail, hlead, rfl, htail, hfold, hminimum, hscalar⟩ :=
    decodeNext_eq_some_iff.mp h
  refine ⟨hscalar, ?_⟩
  rw [← List.cons_append, encodeCodepoint_eq (le_of_isScalar hscalar)]
  congr 1
  rcases leadByte_cases hlead with ⟨rfl, rfl, hfirst, hbits⟩ | ⟨rfl, rfl, hfirst, hbits⟩ |
    ⟨rfl, rfl, hfirst, hbits⟩ | ⟨rfl, rfl, hfirst, hbits⟩
  · obtain rfl := List.length_eq_zero_iff.mp htail
    have hcodepoint := foldlM_continueWith_nil.mp hfold
    rw [if_pos (by omega), ← hcodepoint, eq_ofNat_of_toNat_eq hfirst]
  · obtain ⟨b, rfl⟩ := List.length_eq_one_iff.mp htail
    simp only [foldlM_continueWith_cons, foldlM_continueWith_nil] at hfold
    rw [if_neg (by omega), if_pos (by omega)]
    congr 1
    · exact eq_ofNat_of_toNat_eq (by omega)
    · exact congrArg (· :: []) (eq_ofNat_of_toNat_eq (by omega))
  · obtain ⟨b, c, rfl⟩ := List.length_eq_two.mp htail
    simp only [foldlM_continueWith_cons, foldlM_continueWith_nil] at hfold
    rw [if_neg (by omega), if_neg (by omega), if_pos (by omega)]
    refine congrArg₂ _ (eq_ofNat_of_toNat_eq (by omega)) (congrArg₂ _ (eq_ofNat_of_toNat_eq (by omega))
      (congrArg₂ _ (eq_ofNat_of_toNat_eq (by omega)) rfl))
  · obtain ⟨b, c, d, rfl⟩ := List.length_eq_three.mp htail
    simp only [foldlM_continueWith_cons, foldlM_continueWith_nil] at hfold
    rw [if_neg (by omega), if_neg (by omega), if_neg (by omega)]
    refine congrArg₂ _ (eq_ofNat_of_toNat_eq (by omega)) (congrArg₂ _ (eq_ofNat_of_toNat_eq (by omega))
      (congrArg₂ _ (eq_ofNat_of_toNat_eq (by omega)) (congrArg₂ _ (eq_ofNat_of_toNat_eq (by omega)) rfl)))

/-! ### Whole strings -/

private theorem decodeLoop_eq_some_iff {turns : Nat} {value : Bytes} {codepoints : List Nat}
    (h : value.length ≤ turns) :
    decodeLoop turns value = some codepoints ↔
      (∀ codepoint ∈ codepoints, isScalar codepoint = true) ∧ value = codepoints.flatMap encodeCodepoint := by
  induction turns generalizing value codepoints with
  | zero =>
      obtain rfl := List.length_eq_zero_iff.mp (Nat.le_zero.mp h)
      cases codepoints with
      | nil => simp [decodeLoop]
      | cons codepoint rest => simp [decodeLoop, encodeCodepoint_ne_nil]
  | succ turns ih =>
      cases value with
      | nil =>
          cases codepoints with
          | nil => simp [decodeLoop]
          | cons codepoint rest => simp [decodeLoop, encodeCodepoint_ne_nil]
      | cons first rest =>
          rw [decodeLoop]
          constructor
          · intro hdecode
            split at hdecode
            · cases hdecode
            rename_i codepoint after hnext
            obtain ⟨hscalar, hbytes⟩ := eq_encodeCodepoint_of_decodeNext hnext
            have hshort : after.length ≤ turns := by
              have hlength := congrArg List.length hbytes
              have hpos := List.length_pos_of_ne_nil (encodeCodepoint_ne_nil codepoint)
              rw [List.length_append] at hlength
              omega
            obtain ⟨others, hothers, rfl⟩ := Option.map_eq_some_iff.mp hdecode
            obtain ⟨hscalars, rfl⟩ := (ih hshort).mp hothers
            refine ⟨?_, by rw [List.flatMap_cons, hbytes]⟩
            simpa [hscalar] using hscalars
          · intro h
            obtain ⟨hscalars, hbytes⟩ := h
            cases codepoints with
            | nil => simp at hbytes
            | cons codepoint others =>
                obtain ⟨hscalar, hothers⟩ := List.forall_mem_cons.mp hscalars
                obtain ⟨head, tail, hencode, hnext⟩ :=
                  decodeNext_encodeCodepoint hscalar (others.flatMap encodeCodepoint)
                rw [List.flatMap_cons, hencode, List.cons_append, List.cons.injEq] at hbytes
                obtain ⟨rfl, rfl⟩ := hbytes
                rw [hnext]
                have hshort : (others.flatMap encodeCodepoint).length ≤ turns := by
                  rw [List.length_cons, List.length_append] at h
                  omega
                simp [(ih hshort).mpr ⟨hothers, rfl⟩]

/-- Decoding accepts exactly the encodings of scalar values, and returns them. -/
theorem decodeUtf8_eq_some_iff {value : Bytes} {codepoints : List Nat} :
    decodeUtf8 value = some codepoints ↔
      (∀ codepoint ∈ codepoints, isScalar codepoint = true) ∧ value = codepoints.flatMap encodeCodepoint :=
  decodeLoop_eq_some_iff le_rfl

theorem encodeUtf8_eq {codepoints : List Nat} (h : ∀ codepoint ∈ codepoints, isScalar codepoint = true) :
    encodeUtf8 codepoints = codepoints.flatMap encodeCodepoint := by
  rw [encodeUtf8, if_pos (List.all_eq_true.mpr h)]

theorem decodeUtf8_encodeUtf8 {codepoints : List Nat} (h : ∀ codepoint ∈ codepoints, isScalar codepoint = true) :
    decodeUtf8 (encodeUtf8 codepoints) = some codepoints :=
  decodeUtf8_eq_some_iff.mpr ⟨h, encodeUtf8_eq h⟩

theorem encodeUtf8_of_decodeUtf8 {value : Bytes} {codepoints : List Nat} (h : decodeUtf8 value = some codepoints) :
    encodeUtf8 codepoints = value := by
  obtain ⟨hscalars, rfl⟩ := decodeUtf8_eq_some_iff.mp h
  exact encodeUtf8_eq hscalars

theorem isValidUtf8_iff {value : Bytes} : isValidUtf8 value = true ↔
    ∃ codepoints : List Nat, (∀ codepoint ∈ codepoints, isScalar codepoint = true) ∧
      value = codepoints.flatMap encodeCodepoint := by
  simp only [isValidUtf8, Option.isSome_iff_exists, decodeUtf8_eq_some_iff]

theorem isValidUtf8_encodeUtf8 (codepoints : List Nat) : isValidUtf8 (encodeUtf8 codepoints) = true := by
  by_cases h : ∀ codepoint ∈ codepoints, isScalar codepoint = true
  · exact isValidUtf8_iff.mpr ⟨codepoints, h, encodeUtf8_eq h⟩
  · rw [encodeUtf8, if_neg fun hall => h (List.all_eq_true.mp hall)]
    rfl

theorem isValidUtf8_append {left right : Bytes} (hleft : isValidUtf8 left = true)
    (hright : isValidUtf8 right = true) : isValidUtf8 (left ++ right) = true := by
  obtain ⟨first, hfirst, rfl⟩ := isValidUtf8_iff.mp hleft
  obtain ⟨second, hsecond, rfl⟩ := isValidUtf8_iff.mp hright
  refine isValidUtf8_iff.mpr ⟨first ++ second, fun codepoint h => ?_, List.flatMap_append.symm⟩
  exact (List.mem_append.mp h).elim (hfirst codepoint) (hsecond codepoint)

theorem isValidUtf8_normalizeForSearch (value : Bytes) : isValidUtf8 (normalizeForSearch value) = true := by
  unfold normalizeForSearch
  split
  · rfl
  · exact isValidUtf8_encodeUtf8 _

/-- Dropping the last code point never lengthens a text. -/
theorem length_encodeUtf8_dropLast_le {value : Bytes} {codepoints : List Nat}
    (h : decodeUtf8 value = some codepoints) : (encodeUtf8 codepoints.dropLast).length ≤ value.length := by
  obtain ⟨hscalars, rfl⟩ := decodeUtf8_eq_some_iff.mp h
  rw [encodeUtf8_eq fun codepoint hmem => hscalars codepoint (List.dropLast_subset codepoints hmem)]
  exact ((List.dropLast_sublist codepoints).flatMap encodeCodepoint).length_le

/-! ### Hexadecimal text -/

private theorem hexValue_hexDigit (byte : UInt8) :
    hexValue (hexDigit (byte >>> 4)) = some (byte >>> 4) ∧
      hexValue (hexDigit (byte &&& 0x0F)) = some (byte &&& 0x0F) ∧
      (byte >>> 4) <<< 4 ||| (byte &&& 0x0F) = byte := by
  revert byte
  apply forall_byte
  decide +kernel

private theorem hexPairs_hexEncode (value : Bytes) : hexPairs (hexEncode value) = some value := by
  induction value with
  | nil => rfl
  | cons byte rest ih =>
      obtain ⟨hhigh, hlow, hbyte⟩ := hexValue_hexDigit byte
      rw [hexEncode] at ih ⊢
      simp only [List.flatMap_cons, List.cons_append, List.nil_append, hexPairs, hhigh, hlow, hbyte]
      rw [ih]
      rfl

theorem hexDecode_hexEncode {value : Bytes} (h : isValidUtf8 value = true) :
    hexDecode (hexEncode value) = some value := by
  rw [hexDecode, hexPairs_hexEncode]
  simp [h]

@[simp] theorem length_hexEncode (value : Bytes) : (hexEncode value).length = 2 * value.length := by
  induction value with
  | nil => rfl
  | cons byte rest ih =>
      rw [hexEncode] at ih ⊢
      simp only [List.flatMap_cons, List.length_append, ih, List.length_cons, List.length_nil]
      omega

/-- Hexadecimal text holds digits only, so it has no byte below the digit zero. -/
theorem le_of_mem_hexEncode {value : Bytes} {byte : UInt8} (h : byte ∈ hexEncode value) : 48 ≤ byte := by
  have hdigits : ∀ b : UInt8, (48 : UInt8) ≤ hexDigit (b >>> 4) ∧ (48 : UInt8) ≤ hexDigit (b &&& 0x0F) := by
    apply forall_byte
    decide +kernel
  simp only [hexEncode, List.mem_flatMap, List.mem_cons, List.not_mem_nil, or_false] at h
  obtain ⟨b, _, rfl | rfl⟩ := h
  · exact (hdigits b).1
  · exact (hdigits b).2

end EmojiPalette
