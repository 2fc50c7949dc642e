import EmojiPalette.Core.State
import EmojiPalette.Core.Utf8Standard
import EmojiPalette.Library.Memo

/-!
# Glyph coverage

Whether a font can draw a sequence, and if it cannot, the first code point it lacks. The probe is a function of the caller's, which may remember what it was asked, so the scan is written over any monad the probe answers in. A pure probe answers in `Id`. One that keeps a record of its questions shows which code points a probe is asked about at all.
-/

namespace EmojiPalette

/-- Answers for a single code point. -/
abbrev GlyphProbe (m : Type → Type) := Nat → m Bool

structure GlyphCoverage where
  renderable : Bool
  missingCodepoint : Option Nat
  deriving DecidableEq

namespace GlyphCoverage

/-- The value a coverage has before anything is found missing. -/
def complete : GlyphCoverage := ⟨true, none⟩

end GlyphCoverage

/-- The joiner, the variation selectors and the tag characters. -/
def isNonRenderingCodepoint (codepoint : Nat) : Bool :=
  let zeroWidthJoiner := 0x200D
  let variationSelectorFirst := 0xFE00
  let variationSelectorLast := 0xFE0F
  let tagFirst := 0xE0020
  let tagLast := 0xE007F
  if codepoint = zeroWidthJoiner then true
  else if codepoint ≥ variationSelectorFirst && codepoint ≤ variationSelectorLast then true
  else codepoint ≥ tagFirst && codepoint ≤ tagLast

section Inspection

variable {m : Type → Type} [Monad m]

/-- The loop over the code points. -/
def inspectCodepoints (probe : GlyphProbe m) : List Nat → m GlyphCoverage
  | [] => return .complete
  | codepoint :: rest =>
      if isNonRenderingCodepoint codepoint then inspectCodepoints probe rest
      else do
        if !(← probe codepoint) then return ⟨false, some codepoint⟩
        inspectCodepoints probe rest

/-- No probe stands for the empty function. -/
def inspectGlyphCoverage (sequence : Bytes) (probe : Option (GlyphProbe m)) : m GlyphCoverage :=
  match probe with
  | none => return .complete
  | some probe =>
      match decodeUtf8 sequence with
      | none => return ⟨false, none⟩
      | some decoded => if decoded.isEmpty then return ⟨false, none⟩ else inspectCodepoints probe decoded

end Inspection

/-! ### The label -/

def upperDigit (nibble : Nat) : UInt8 := if nibble < 10 then UInt8.ofNat (48 + nibble) else UInt8.ofNat (55 + nibble)

/-- The digits of the value, lowest first, each put before the result so far. At least one is. -/
def prependDigits (value : Nat) (result : Bytes) : Bytes :=
  let result := upperDigit (value &&& 0xF) :: result
  if value >>> 4 ≠ 0 then prependDigits (value >>> 4) result else result
termination_by value
decreasing_by
  rename_i hrest
  rw [Nat.shiftRight_eq_div_pow] at hrest ⊢
  omega

/-- Zeros before the result until it has four digits. -/
def padDigits (result : Bytes) : Bytes := if result.length < 4 then padDigits (48 :: result) else result
termination_by 4 - result.length

def missingGlyphLabel (coverage : GlyphCoverage) : Bytes :=
  match coverage.missingCodepoint with
  | none => []
  | some codepoint => padDigits (prependDigits codepoint [])

/-! ### The scan -/

/-- A probe that answers from a hidden state, but always alike for what carries a glyph, is as good as a pure one. -/
theorem yields_inspectCodepoints {σ : Type} {inv : σ → Prop} {probe : GlyphProbe (StateM σ)} {answer : GlyphProbe Id}
    (h : ∀ codepoint, isNonRenderingCodepoint codepoint = false → Memo.Yields inv (probe codepoint) (answer codepoint))
    (codepoints : List Nat) :
    Memo.Yields inv (inspectCodepoints probe codepoints) (inspectCodepoints answer codepoints) := by
  induction codepoints with
  | nil => exact Memo.yields_pure _
  | cons codepoint rest ih =>
      rw [inspectCodepoints, inspectCodepoints]
      split
      · exact ih
      · rename_i hrendering
        refine (h codepoint (by simpa using hrendering)).bind ?_
        cases answer codepoint with
        | false => exact Memo.yields_pure _
        | true => exact ih

theorem yields_inspectGlyphCoverage {σ : Type} {inv : σ → Prop} {probe : GlyphProbe (StateM σ)} {answer : GlyphProbe Id}
    (h : ∀ codepoint, isNonRenderingCodepoint codepoint = false → Memo.Yields inv (probe codepoint) (answer codepoint))
    (sequence : Bytes) :
    Memo.Yields inv (inspectGlyphCoverage sequence (some probe)) (inspectGlyphCoverage sequence (some answer)) := by
  unfold inspectGlyphCoverage
  dsimp only
  split
  · exact Memo.yields_pure _
  · split
    · exact Memo.yields_pure _
    · exact yields_inspectCodepoints h _

/-! ### Pure probes -/

section Pure

variable {probe : Nat → Bool}

/-- The first code point that carries a glyph the probe does not have. -/
def firstMissing (probe : Nat → Bool) (codepoints : List Nat) : Option Nat :=
  codepoints.find? fun codepoint => !isNonRenderingCodepoint codepoint && !probe codepoint

theorem inspectCodepoints_eq (codepoints : List Nat) :
    inspectCodepoints (m := Id) probe codepoints =
      ⟨(firstMissing probe codepoints).isNone, firstMissing probe codepoints⟩ := by
  induction codepoints with
  | nil => rfl
  | cons codepoint rest ih =>
      rw [inspectCodepoints, firstMissing, List.find?_cons]
      cases hrendering : isNonRenderingCodepoint codepoint with
      | true => exact ih
      | false =>
          change (if !probe codepoint then _ else _) = _
          cases hprobe : probe codepoint with
          | true => exact ih
          | false => rfl

theorem firstMissing_eq_none_iff {codepoints : List Nat} :
    firstMissing probe codepoints = none ↔
      ∀ codepoint ∈ codepoints, isNonRenderingCodepoint codepoint = false → probe codepoint = true := by
  rw [firstMissing, List.find?_eq_none]
  refine forall₂_congr fun codepoint _ => ?_
  cases isNonRenderingCodepoint codepoint <;> cases probe codepoint <;> simp

theorem inspectGlyphCoverage_of_decodeUtf8 {sequence : Bytes} {codepoints : List Nat}
    (h : decodeUtf8 sequence = some codepoints) (hne : codepoints ≠ []) :
    inspectGlyphCoverage (m := Id) sequence (some probe) =
      ⟨(firstMissing probe codepoints).isNone, firstMissing probe codepoints⟩ := by
  rw [inspectGlyphCoverage, h]
  exact (if_neg (by simpa using hne)).trans (inspectCodepoints_eq codepoints)

/-- Without a code point there is nothing to ask for, and nothing renderable. -/
theorem inspectGlyphCoverage_of_malformed {sequence : Bytes} (h : sequence = [] ∨ decodeUtf8 sequence = none) :
    inspectGlyphCoverage (m := Id) sequence (some probe) = ⟨false, none⟩ := by
  obtain rfl | h := h
  · rfl
  · rw [inspectGlyphCoverage, h]
    rfl

/-- A text that is not empty has code points. -/
theorem decodeUtf8_cases (sequence : Bytes) :
    (sequence = [] ∨ decodeUtf8 sequence = none) ∨
      ∃ codepoints, decodeUtf8 sequence = some codepoints ∧ codepoints ≠ [] ∧ sequence ≠ [] := by
  cases hdecoded : decodeUtf8 sequence with
  | none => exact .inl (.inr rfl)
  | some codepoints =>
      by_cases hempty : sequence = []
      · exact .inl (.inl hempty)
      · refine .inr ⟨codepoints, rfl, ?_, hempty⟩
        rintro rfl
        exact hempty (encodeUtf8_of_decodeUtf8 hdecoded).symm

theorem renderable_iff {sequence : Bytes} :
    (inspectGlyphCoverage (m := Id) sequence (some probe)).renderable = true ↔
      ∃ codepoints, decodeUtf8 sequence = some codepoints ∧ codepoints ≠ [] ∧
        ∀ codepoint ∈ codepoints, isNonRenderingCodepoint codepoint = false → probe codepoint = true := by
  obtain hmalformed | ⟨codepoints, hdecoded, hne, hsequence⟩ := decodeUtf8_cases sequence
  · rw [inspectGlyphCoverage_of_malformed hmalformed]
    refine iff_of_false (by decide) fun h => ?_
    obtain ⟨codepoints, hdecoded, hne, _⟩ := h
    obtain rfl | hnone := hmalformed
    · exact hne (Option.some.inj hdecoded).symm
    · rw [hnone] at hdecoded
      cases hdecoded
  · rw [inspectGlyphCoverage_of_decodeUtf8 hdecoded hne, Option.isNone_iff_eq_none, firstMissing_eq_none_iff]
    constructor
    · intro h
      exact ⟨codepoints, hdecoded, hne, h⟩
    · intro h
      obtain ⟨_, hdecoded', _, h⟩ := h
      obtain rfl := Option.some.inj (hdecoded.symm.trans hdecoded')
      exact h

theorem missingCodepoint_eq_some_iff {sequence : Bytes} {codepoint : Nat} :
    (inspectGlyphCoverage (m := Id) sequence (some probe)).missingCodepoint = some codepoint ↔
      ∃ before after, decodeUtf8 sequence = some (before ++ codepoint :: after) ∧
        isNonRenderingCodepoint codepoint = false ∧ probe codepoint = false ∧
        ∀ earlier ∈ before, isNonRenderingCodepoint earlier = false → probe earlier = true := by
  obtain hmalformed | ⟨codepoints, hdecoded, hne, hsequence⟩ := decodeUtf8_cases sequence
  · rw [inspectGlyphCoverage_of_malformed hmalformed]
    refine iff_of_false (fun h => by cases h) fun h => ?_
    obtain ⟨before, after, hdecoded, _⟩ := h
    obtain rfl | hnone := hmalformed
    · have hnil : [] = before ++ codepoint :: after := Option.some.inj hdecoded
      simp at hnil
    · rw [hnone] at hdecoded
      cases hdecoded
  · rw [inspectGlyphCoverage_of_decodeUtf8 hdecoded hne, hdecoded, firstMissing, List.find?_eq_some_iff_append]
    simp only [Bool.and_eq_true, Bool.not_eq_true', Option.some.injEq, Bool.not_and, Bool.not_not, Bool.or_eq_true]
    constructor
    · intro h
      obtain ⟨⟨hrendering, hprobe⟩, before, after, hsplit, hbefore⟩ := h
      exact ⟨before, after, hsplit, hrendering, hprobe, fun earlier hmem hearlier =>
        (hbefore earlier hmem).resolve_left (by simp [hearlier])⟩
    · intro h
      obtain ⟨before, after, hsplit, hrendering, hprobe, hbefore⟩ := h
      refine ⟨⟨hrendering, hprobe⟩, before, after, hsplit, fun earlier hmem => ?_⟩
      cases hearlier : isNonRenderingCodepoint earlier with
      | true => exact .inl rfl
      | false => exact .inr (hbefore earlier hmem hearlier)

/-- In terms of the text the bytes are the encoding of. -/
theorem renderable_iff_text {sequence : Bytes} :
    (inspectGlyphCoverage (m := Id) sequence (some probe)).renderable = true ↔
      ∃ text : List Char, text ≠ [] ∧ sequence = text.flatMap String.utf8EncodeChar ∧
        ∀ character ∈ text, isNonRenderingCodepoint character.toNat = false → probe character.toNat = true := by
  rw [renderable_iff]
  constructor
  · intro h
    obtain ⟨_, hdecoded, hne, hall⟩ := h
    obtain ⟨text, hsequence, rfl⟩ := decodeUtf8_eq_some_iff_text.mp hdecoded
    exact ⟨text, fun hnil => hne (by rw [hnil]; rfl), hsequence, List.forall_mem_map.mp hall⟩
  · intro h
    obtain ⟨text, hne, hsequence, hall⟩ := h
    have hdecoded := decodeUtf8_eq_some_iff_text.mpr ⟨text, hsequence, rfl⟩
    exact ⟨_, hdecoded, by simpa using hne, List.forall_mem_map.mpr hall⟩

/-- What is not renderable names the code point that is missing, unless there is no text. -/
theorem missingCodepoint_eq_none_iff {sequence : Bytes}
    (h : (inspectGlyphCoverage (m := Id) sequence (some probe)).renderable = false) :
    (inspectGlyphCoverage (m := Id) sequence (some probe)).missingCodepoint = none ↔
      sequence = [] ∨ ¬ ∃ text : List Char, sequence = text.flatMap String.utf8EncodeChar := by
  obtain hmalformed | ⟨codepoints, hdecoded, hne, hsequence⟩ := decodeUtf8_cases sequence
  · rw [inspectGlyphCoverage_of_malformed hmalformed]
    refine iff_of_true rfl (hmalformed.imp_right fun hnone hexists => ?_)
    obtain ⟨text, htext⟩ := hexists
    rw [decodeUtf8_eq_some_iff_text.mpr ⟨text, htext, rfl⟩] at hnone
    cases hnone
  · rw [inspectGlyphCoverage_of_decodeUtf8 hdecoded hne] at h ⊢
    refine iff_of_false (fun hnone => ?_) fun hempty => ?_
    · dsimp only at h hnone
      rw [hnone] at h
      cases h
    · obtain ⟨text, htext, _⟩ := decodeUtf8_eq_some_iff_text.mp hdecoded
      exact hempty.elim hsequence fun hnot => hnot ⟨text, htext⟩

theorem renderable_mono {wider : Nat → Bool} (h : ∀ codepoint, probe codepoint = true → wider codepoint = true)
    {sequence : Bytes} (hrenderable : (inspectGlyphCoverage (m := Id) sequence (some probe)).renderable = true) :
    (inspectGlyphCoverage (m := Id) sequence (some wider)).renderable = true := by
  obtain ⟨codepoints, hdecoded, hne, hall⟩ := renderable_iff.mp hrenderable
  exact renderable_iff.mpr ⟨codepoints, hdecoded, hne, fun codepoint hmem hrendering =>
    h codepoint (hall codepoint hmem hrendering)⟩

end Pure

/-- A pure probe that writes down what it is asked. -/
def loggedProbe (probe : Nat → Bool) : GlyphProbe (StateM (List Nat)) :=
  fun codepoint asked => (probe codepoint, asked ++ [codepoint])

/-- The inspection by such a probe yields what the probe alone does, and has asked for nothing that carries no glyph. -/
theorem inspectGlyphCoverage_loggedProbe (sequence : Bytes) (probe : Nat → Bool) :
    (inspectGlyphCoverage sequence (some (loggedProbe probe)) []).1
        = inspectGlyphCoverage (m := Id) sequence (some probe) ∧
      ∀ codepoint ∈ (inspectGlyphCoverage sequence (some (loggedProbe probe)) []).2,
        isNonRenderingCodepoint codepoint = false := by
  have hlogged : ∀ codepoint, isNonRenderingCodepoint codepoint = false →
      Memo.Yields (fun asked : List Nat => ∀ codepoint ∈ asked, isNonRenderingCodepoint codepoint = false)
        (loggedProbe probe codepoint) (probe codepoint) := by
    intro codepoint hrendering asked hasked
    refine ⟨rfl, fun other hmem => ?_⟩
    obtain hmem | hmem := List.mem_append.mp hmem
    · exact hasked other hmem
    · exact List.mem_singleton.mp hmem ▸ hrendering
  exact yields_inspectGlyphCoverage hlogged sequence [] (by simp)

/-! ### The label's digits -/

theorem upperDigit_and (value : Nat) :
    [upperDigit (value &&& 0xF)] = ascii ([(value % 16).digitChar].map Char.toUpper) := by
  have hall : ∀ nibble : Fin 16, [upperDigit nibble] = ascii ([nibble.val.digitChar].map Char.toUpper) := by
    decide
  have hmask : value &&& 0xF = value % 16 := Nat.and_two_pow_sub_one_eq_mod value 4
  rw [hmask]
  exact hall ⟨value % 16, Nat.mod_lt _ (by decide)⟩

/-- The loop puts the numeral's digits before what is there. -/
theorem prependDigits_eq (value : Nat) (result : Bytes) :
    prependDigits value result = ascii ((Nat.toDigits 16 value).map Char.toUpper) ++ result := by
  induction value using Nat.strong_induction_on generalizing result with
  | _ value ih =>
      have hdigit := upperDigit_and value
      rw [prependDigits, Nat.shiftRight_eq_div_pow]
      split
      · rename_i hrest
        have hsplit : Nat.toDigits 16 value = Nat.toDigits 16 (value / 2 ^ 4) ++ [(value % 16).digitChar] :=
          Nat.toDigits_of_base_le (by decide) (by omega)
        rw [ih (value / 2 ^ 4) (by omega), hsplit, List.map_append, ascii, ascii, List.map_append,
          List.append_assoc, ← ascii, ← ascii, ← hdigit]
        rfl
      · rename_i hrest
        rw [Nat.toDigits_of_lt_base (by omega), ← Nat.mod_eq_of_lt (show value < 16 by omega), ← upperDigit_and]
        rw [Nat.mod_eq_of_lt (show value < 16 by omega)]
        rfl

theorem padDigits_eq (result : Bytes) : padDigits result = List.leftpad 4 48 result := by
  induction result using padDigits.induct with
  | case1 result hshort ih =>
      rw [padDigits, if_pos hshort, ih, List.leftpad, List.leftpad, List.length_cons]
      obtain ⟨missing, hmissing⟩ : ∃ missing, 4 - result.length = missing + 1 := ⟨3 - result.length, by omega⟩
      rw [hmissing, List.replicate_succ', List.append_assoc, show 4 - (result.length + 1) = missing by omega]
      rfl
  | case2 result hlong =>
      rw [padDigits, if_neg hlong, List.leftpad, Nat.sub_eq_zero_of_le (by omega)]
      rfl

/-- The uppercase hexadecimal numeral of at least four digits. -/
def hexNumeral (codepoint : Nat) : Bytes :=
  ascii (List.leftpad 4 '0' ((Nat.toDigits 16 codepoint).map Char.toUpper))

theorem missingGlyphLabel_of_some (renderable : Bool) (codepoint : Nat) :
    missingGlyphLabel ⟨renderable, some codepoint⟩ = hexNumeral codepoint := by
  change padDigits (prependDigits codepoint []) = _
  rw [padDigits_eq, prependDigits_eq, List.append_nil, hexNumeral, List.leftpad, List.leftpad, ascii, ascii,
    List.map_append, List.length_map, List.map_replicate]
  rfl

/-- The number hexadecimal digits denote. -/
def hexNumber (digits : Bytes) : Nat :=
  digits.foldl (fun total digit => total * 16 + ((hexValue digit).getD 0).toNat) 0

theorem hexNumber_digitChar {nibble : Nat} (h : nibble < 16) :
    ((hexValue (UInt8.ofNat nibble.digitChar.toUpper.toNat)).getD 0).toNat = nibble := by
  have hall : ∀ nibble : Fin 16,
      ((hexValue (UInt8.ofNat nibble.val.digitChar.toUpper.toNat)).getD 0).toNat = nibble.val := by
    decide +kernel
  exact hall ⟨nibble, h⟩

theorem hexNumber_toDigits (value : Nat) :
    hexNumber (ascii ((Nat.toDigits 16 value).map Char.toUpper)) = value := by
  induction value using Nat.strong_induction_on with
  | _ value ih =>
      by_cases hsmall : value < 16
      · rw [Nat.toDigits_of_lt_base hsmall]
        exact (Nat.zero_add _).trans (hexNumber_digitChar hsmall)
      · have hhead := ih (value / 16) (by omega)
        rw [Nat.toDigits_of_base_le (by decide) (by omega), List.map_append, ascii, List.map_append, ← ascii,
          hexNumber, List.foldl_append, ← hexNumber, hhead]
        have hlast := hexNumber_digitChar (Nat.mod_lt value (show 16 > 0 by decide))
        change value / 16 * 16 + _ = value
        rw [hlast]
        omega

theorem hexNumber_replicate_append (n : Nat) (digits : Bytes) :
    hexNumber (List.replicate n 48 ++ digits) = hexNumber digits := by
  induction n with
  | zero => rfl
  | succ n ih => exact ih

theorem hexNumeral_injective : Function.Injective hexNumeral := by
  have hnumber : ∀ codepoint, hexNumber (hexNumeral codepoint) = codepoint := by
    intro codepoint
    rw [hexNumeral, List.leftpad, ascii, List.map_append, List.map_replicate, ← ascii]
    exact (hexNumber_replicate_append _ _).trans (hexNumber_toDigits codepoint)
  exact Function.LeftInverse.injective hnumber

theorem missingGlyphLabel_eq_nil_iff {coverage : GlyphCoverage} :
    missingGlyphLabel coverage = [] ↔ coverage.missingCodepoint = none := by
  obtain ⟨renderable, missing⟩ := coverage
  cases missing with
  | none => exact iff_of_true rfl rfl
  | some codepoint =>
      refine iff_of_false (fun h => ?_) (by simp)
      have hlength := congrArg List.length h
      rw [missingGlyphLabel_of_some, hexNumeral, ascii, List.length_map, List.length_leftpad, List.length_nil] at hlength
      omega

theorem isNonRenderingCodepoint_iff (codepoint : Nat) :
    isNonRenderingCodepoint codepoint = true ↔
      codepoint = 0x200D ∨ (0xFE00 ≤ codepoint ∧ codepoint ≤ 0xFE0F) ∨ (0xE0020 ≤ codepoint ∧ codepoint ≤ 0xE007F) := by
  rw [isNonRenderingCodepoint]
  split_ifs with hjoiner hselector
  · exact iff_of_true rfl (.inl hjoiner)
  · rw [Bool.and_eq_true, decide_eq_true_eq, decide_eq_true_eq] at hselector
    exact iff_of_true rfl (.inr (.inl hselector))
  · rw [Bool.and_eq_true, decide_eq_true_eq, decide_eq_true_eq] at hselector ⊢
    rw [or_iff_right hjoiner, or_iff_right hselector]

/-- The contract of the coverage, where no glyph is needed for the joiner, the variation selectors and the tag characters: renderable is what is text, not empty, and accepted wherever a glyph is needed; else the first code point that is not accepted is reported, and none only without a text; the probe is asked for what carries a glyph only; accepting more loses nothing; and the label is the numeral of the code point reported. -/
theorem glyphCoverage_contract (sequence : Bytes) (probe : Nat → Bool) :
    (∀ codepoint, isNonRenderingCodepoint codepoint = true ↔ codepoint = 0x200D ∨
        (0xFE00 ≤ codepoint ∧ codepoint ≤ 0xFE0F) ∨ (0xE0020 ≤ codepoint ∧ codepoint ≤ 0xE007F)) ∧
    ((inspectGlyphCoverage (m := Id) sequence (some probe)).renderable = true ↔
        ∃ text : List Char, text ≠ [] ∧ sequence = text.flatMap String.utf8EncodeChar ∧
          ∀ character ∈ text, isNonRenderingCodepoint character.toNat = false → probe character.toNat = true) ∧
      ((inspectGlyphCoverage (m := Id) sequence (some probe)).renderable = false →
        ((inspectGlyphCoverage (m := Id) sequence (some probe)).missingCodepoint = none ↔
          sequence = [] ∨ ¬ ∃ text : List Char, sequence = text.flatMap String.utf8EncodeChar)) ∧
      (∀ codepoint, (inspectGlyphCoverage (m := Id) sequence (some probe)).missingCodepoint = some codepoint ↔
        ∃ before after, decodeUtf8 sequence = some (before ++ codepoint :: after) ∧
          isNonRenderingCodepoint codepoint = false ∧ probe codepoint = false ∧
          ∀ earlier ∈ before, isNonRenderingCodepoint earlier = false → probe earlier = true) ∧
      ((inspectGlyphCoverage sequence (some (loggedProbe probe)) []).1
          = inspectGlyphCoverage (m := Id) sequence (some probe) ∧
        ∀ codepoint ∈ (inspectGlyphCoverage sequence (some (loggedProbe probe)) []).2,
          isNonRenderingCodepoint codepoint = false) ∧
      (∀ wider : Nat → Bool, (∀ codepoint, probe codepoint = true → wider codepoint = true) →
        (inspectGlyphCoverage (m := Id) sequence (some probe)).renderable = true →
        (inspectGlyphCoverage (m := Id) sequence (some wider)).renderable = true) ∧
      (∀ coverage, missingGlyphLabel coverage = [] ↔ coverage.missingCodepoint = none) ∧
      (∀ renderable codepoint, missingGlyphLabel ⟨renderable, some codepoint⟩
        = ascii (List.leftpad 4 '0' ((Nat.toDigits 16 codepoint).map Char.toUpper))) ∧
      (∀ renderable renderable' codepoint codepoint',
        missingGlyphLabel ⟨renderable, some codepoint⟩ = missingGlyphLabel ⟨renderable', some codepoint'⟩ →
        codepoint = codepoint') := by
  refine ⟨isNonRenderingCodepoint_iff, renderable_iff_text, missingCodepoint_eq_none_iff,
    fun _ => missingCodepoint_eq_some_iff, inspectGlyphCoverage_loggedProbe sequence probe,
    fun wider hwider => renderable_mono hwider,
    fun _ => missingGlyphLabel_eq_nil_iff, missingGlyphLabel_of_some, ?_⟩
  intro renderable renderable' codepoint codepoint' h
  rw [missingGlyphLabel_of_some, missingGlyphLabel_of_some] at h
  exact hexNumeral_injective h

end EmojiPalette
