import EmojiPalette.Ipc.Protocol

/-!
# Transaction ids as text

A transaction id is written as two lowercase hexadecimal digits a byte, and read back from exactly that text. The reading goes through the sixteen bytes by their index, the writing through the bytes themselves. They meet in the two digits each byte has at its own place in the text.
-/

namespace EmojiPalette

namespace Ipc

/-- The lambda `decode`: a digit's value, in lower case only. -/
def decodeDigit (character : UInt8) : Option UInt8 :=
  if character ≥ 48 && character ≤ 57 then some (character - 48)
  else if character ≥ 97 && character ≤ 102 then some (character - 97 + 10)
  else none

/-- One turn of the loop: the byte of two digits. -/
def decodePair (high low : UInt8) : Option UInt8 := do
  let highValue ← decodeDigit high
  let lowValue ← decodeDigit low
  return highValue <<< 4 ||| lowValue

def transactionIdFromString (value : Bytes) : Option TransactionId :=
  if hsize : value.length = 32 then
    let bytes := (List.finRange 16).mapM fun index => decodePair value[index.val * 2] value[index.val * 2 + 1]
    bytes.bind TransactionId.ofBytes
  else none

def transactionIdToString (value : TransactionId) : Bytes := hexEncode value.bytes

/-! ### A byte and its two digits -/

def isLowerHex (character : UInt8) : Bool := (48 ≤ character && character ≤ 57) || (97 ≤ character && character ≤ 102)

theorem hexDigit_of_decodeDigit {character value : UInt8} (h : decodeDigit character = some value) :
    hexDigit value = character ∧ value < 16 := by
  have hall : ∀ character : UInt8, ∀ value ∈ decodeDigit character, hexDigit value = character ∧ value < 16 := by
    apply forall_byte
    decide +kernel
  exact hall character value h

theorem exists_decodeDigit {character : UInt8} (h : isLowerHex character = true) :
    ∃ value, decodeDigit character = some value := by
  have hall : ∀ character : UInt8, isLowerHex character = true → (decodeDigit character).isSome = true := by
    apply forall_byte
    decide +kernel
  exact Option.isSome_iff_exists.mp (hall character h)

/-- The digits of a byte are lowercase digits, and read back as the byte. -/
theorem decodePair_hexDigit (byte : UInt8) :
    isLowerHex (hexDigit (byte >>> 4)) = true ∧ isLowerHex (hexDigit (byte &&& 0x0F)) = true ∧
      decodePair (hexDigit (byte >>> 4)) (hexDigit (byte &&& 0x0F)) = some byte := by
  revert byte
  apply forall_byte
  decide +kernel

theorem halves_of_lt {high low : UInt8} (hhigh : high < 16) (hlow : low < 16) :
    (high <<< 4 ||| low) >>> 4 = high ∧ (high <<< 4 ||| low) &&& 0x0F = low := by
  have hall : ∀ high low : Fin 16, (UInt8.ofNat high <<< 4 ||| UInt8.ofNat low) >>> 4 = UInt8.ofNat high ∧
      (UInt8.ofNat high <<< 4 ||| UInt8.ofNat low) &&& 0x0F = UInt8.ofNat low := by
    decide +kernel
  have hpair := hall ⟨high.toNat, hhigh⟩ ⟨low.toNat, hlow⟩
  rwa [UInt8.ofNat_toNat, UInt8.ofNat_toNat] at hpair

/-- Two characters are read as a byte exactly if they are its digits, the high half first. -/
theorem decodePair_eq_some_iff {high low byte : UInt8} :
    decodePair high low = some byte ↔ high = hexDigit (byte >>> 4) ∧ low = hexDigit (byte &&& 0x0F) := by
  constructor
  · intro h
    obtain ⟨highValue, hhigh, hrest⟩ := Option.bind_eq_some_iff.mp h
    obtain ⟨lowValue, hlow, hbyte⟩ := Option.bind_eq_some_iff.mp hrest
    obtain ⟨hhighDigit, hhighSmall⟩ := hexDigit_of_decodeDigit hhigh
    obtain ⟨hlowDigit, hlowSmall⟩ := hexDigit_of_decodeDigit hlow
    obtain ⟨hupper, hlower⟩ := halves_of_lt hhighSmall hlowSmall
    obtain rfl := Option.some.inj hbyte
    rw [hupper, hlower]
    exact ⟨hhighDigit.symm, hlowDigit.symm⟩
  · intro h
    obtain ⟨rfl, rfl⟩ := h
    exact (decodePair_hexDigit byte).2.2

/-! ### The whole text -/

theorem getElem?_hexEncode (bytes : Bytes) (index : Nat) :
    (hexEncode bytes)[index * 2]? = bytes[index]?.map (fun (byte : UInt8) => hexDigit (byte >>> 4)) ∧
      (hexEncode bytes)[index * 2 + 1]? = bytes[index]?.map fun (byte : UInt8) => hexDigit (byte &&& 0x0F) := by
  induction bytes generalizing index with
  | nil => exact ⟨rfl, rfl⟩
  | cons byte rest ih =>
      have hcons : hexEncode (byte :: rest) = hexDigit (byte >>> 4) :: hexDigit (byte &&& 0x0F) :: hexEncode rest := rfl
      rw [hcons]
      cases index with
      | zero => exact ⟨rfl, rfl⟩
      | succ index =>
          rw [Nat.add_mul]
          exact ih index

/-- A text is the digits of the bytes exactly if each byte has its two digits at its place. -/
theorem eq_hexEncode_iff {text bytes : Bytes} (hsize : text.length = 2 * bytes.length) :
    text = hexEncode bytes ↔ ∀ index (h : index < bytes.length),
      text[index * 2] = hexDigit (bytes[index] >>> 4) ∧ text[index * 2 + 1] = hexDigit (bytes[index] &&& 0x0F) := by
  constructor
  · rintro rfl index h
    obtain ⟨hhigh, hlow⟩ := getElem?_hexEncode bytes index
    rw [List.getElem?_eq_getElem h, Option.map_some, List.getElem?_eq_some_iff] at hhigh hlow
    exact ⟨hhigh.2, hlow.2⟩
  · intro h
    apply List.ext_getElem?
    intro place
    obtain ⟨hhigh, hlow⟩ := getElem?_hexEncode bytes (place / 2)
    by_cases hplace : place / 2 < bytes.length
    · obtain ⟨htextHigh, htextLow⟩ := h (place / 2) hplace
      rw [List.getElem?_eq_getElem hplace, Option.map_some] at hhigh hlow
      -- A place of the text is the first or the second of a pair.
      obtain heven | hodd : place = place / 2 * 2 ∨ place = place / 2 * 2 + 1 := by omega
      · rw [heven, hhigh, List.getElem?_eq_getElem (by omega), htextHigh]
      · rw [hodd, hlow, List.getElem?_eq_getElem (by omega), htextLow]
    · rw [List.getElem?_eq_none (by omega), List.getElem?_eq_none (by rw [length_hexEncode]; omega)]

/-- All the turns of a loop yield values exactly if each of them yields its own. -/
theorem mapM_finRange_eq_some_iff {α : Type} {n : Nat} {turn : Fin n → Option α} {values : List α} :
    (List.finRange n).mapM turn = some values ↔
      ∃ hsize : values.length = n, ∀ index (h : index < n), turn ⟨index, h⟩ = some values[index] := by
  have hmap : ∀ (l : List (Fin n)) (values : List α), l.mapM turn = some values ↔ l.map turn = values.map some := by
    intro l
    induction l with
    | nil =>
        intro values
        cases values <;> simp
    | cons index rest ih =>
        intro values
        cases values <;> simp [Option.bind_eq_some_iff, ih]
  rw [hmap]
  constructor
  · intro h
    have hsize := congrArg List.length h
    rw [List.length_map, List.length_map, List.length_finRange] at hsize
    refine ⟨hsize.symm, fun index hindex => ?_⟩
    have hplace := congrArg (·[index]?) h
    simpa [hindex, hsize.symm] using hplace
  · intro h
    obtain ⟨hsize, hturns⟩ := h
    apply List.ext_getElem
    · rw [List.length_map, List.length_map, List.length_finRange, hsize]
    · intro index hindex _
      rw [List.length_map, List.length_finRange] at hindex
      rw [List.getElem_map, List.getElem_map, List.getElem_finRange]
      exact hturns index hindex

theorem transactionIdFromString_eq_some_iff {text : Bytes} {transaction : TransactionId} :
    transactionIdFromString text = some transaction ↔ text = transactionIdToString transaction := by
  have hbytes := transaction.size
  unfold transactionIdFromString
  split
  · rename_i hsize
    have hof : ∀ bytes, TransactionId.ofBytes bytes = some transaction ↔ bytes = transaction.bytes := by
      intro bytes
      rw [TransactionId.ofBytes, Option.dite_none_right_eq_some]
      constructor
      · intro h
        obtain ⟨_, h⟩ := h
        exact congrArg TransactionId.bytes (Option.some.inj h)
      · rintro rfl
        exact ⟨hbytes, rfl⟩
    rw [Option.bind_eq_some_iff, transactionIdToString, eq_hexEncode_iff (by omega)]
    constructor
    · rintro ⟨bytes, hturns, htransaction⟩ index hindex
      obtain rfl := (hof bytes).mp htransaction
      obtain ⟨_, hturns⟩ := mapM_finRange_eq_some_iff.mp hturns
      exact decodePair_eq_some_iff.mp (hturns index (by omega))
    · intro h
      refine ⟨transaction.bytes, mapM_finRange_eq_some_iff.mpr ⟨hbytes, fun index hindex => ?_⟩, (hof _).mpr rfl⟩
      exact decodePair_eq_some_iff.mpr (h index (by omega))
  · rename_i hsize
    refine iff_of_false (fun h => by cases h) fun h => hsize ?_
    rw [h, transactionIdToString, length_hexEncode, hbytes]

/-- Thirty-two lowercase hexadecimal digits. -/
structure TransactionText where
  text : Bytes
  size : text.length = 32
  lowerHex : ∀ character ∈ text, isLowerHex character = true
  deriving DecidableEq

def TransactionId.toText (transaction : TransactionId) : TransactionText where
  text := transactionIdToString transaction
  size := by rw [transactionIdToString, length_hexEncode, transaction.size]
  lowerHex := by
    intro character hmem
    obtain ⟨byte, _, hdigit⟩ := List.mem_flatMap.mp hmem
    obtain ⟨hhigh, hlow, _⟩ := decodePair_hexDigit byte
    simp only [List.mem_cons, List.not_mem_nil, or_false] at hdigit
    obtain rfl | rfl := hdigit
    · exact hhigh
    · exact hlow

/-- Every text of the form is the text of some id. -/
theorem TransactionText.exists_toText (value : TransactionText) :
    ∃ transaction : TransactionId, transaction.toText = value := by
  have hsize := value.size
  have hturn : ∀ index : Fin 16, ∃ byte,
      decodePair value.text[index.val * 2] value.text[index.val * 2 + 1] = some byte := by
    intro index
    obtain ⟨high, hhigh⟩ := exists_decodeDigit (value.lowerHex _ (List.getElem_mem (n := index.val * 2) (by omega)))
    obtain ⟨low, hlow⟩ := exists_decodeDigit (value.lowerHex _ (List.getElem_mem (n := index.val * 2 + 1) (by omega)))
    exact ⟨high <<< 4 ||| low, by rw [decodePair, hhigh, hlow]; rfl⟩
  choose bytes hbytes using hturn
  refine ⟨⟨List.ofFn bytes, List.length_ofFn⟩, TransactionText.mk.injEq .. ▸ ?_⟩
  refine ((eq_hexEncode_iff (by rw [hsize, List.length_ofFn])).mpr fun index hindex => ?_).symm
  rw [List.length_ofFn] at hindex
  rw [List.getElem_ofFn]
  exact decodePair_eq_some_iff.mp (hbytes ⟨index, hindex⟩)

/-- The text form of the ids: reading undoes writing and takes nothing else, each id has a text of thirty-two lowercase digits and each such text an id, and any other text is rejected. -/
theorem transactionId_text_bijective :
    (∀ text transaction, transactionIdFromString text = some transaction ↔ text = transactionIdToString transaction) ∧
      (∀ transaction, (transactionIdToString transaction).length = 32 ∧
        ∀ character ∈ transactionIdToString transaction, isLowerHex character = true) ∧
      Function.Bijective TransactionId.toText ∧
      (∀ text, ¬ (text.length = 32 ∧ ∀ character ∈ text, isLowerHex character = true) →
        transactionIdFromString text = none) := by
  refine ⟨fun text transaction => transactionIdFromString_eq_some_iff, fun transaction =>
    ⟨transaction.toText.size, transaction.toText.lowerHex⟩, ⟨?_, ?_⟩, ?_⟩
  · intro first second h
    have hsecond := transactionIdFromString_eq_some_iff.mpr (congrArg TransactionText.text h)
    have hfirst : transactionIdFromString first.toText.text = some first := transactionIdFromString_eq_some_iff.mpr rfl
    exact Option.some.inj (hfirst.symm.trans hsecond)
  · exact TransactionText.exists_toText
  · intro text hother
    rw [Option.eq_none_iff_forall_ne_some]
    intro transaction hread
    obtain rfl := transactionIdFromString_eq_some_iff.mp hread
    exact hother ⟨transaction.toText.size, transaction.toText.lowerHex⟩

end Ipc

end EmojiPalette
