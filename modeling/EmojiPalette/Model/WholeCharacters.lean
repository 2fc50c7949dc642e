import EmojiPalette.Core.Utf8Standard
import EmojiPalette.Model.Matching
import Mathlib.Data.List.Count

/-!
# Matches and characters

Texts are compared by their bytes. Where the bytes of a token stand together this is the same as comparing characters, since no character begins inside another. The fuzzy test lets bytes stand apart, and so it can take the first bytes of one character and the last of another. It cannot when every character of the token is one byte; and for any longer character there is a text in which it does.
-/

namespace EmojiPalette

/-- The scores `documentScore` gives to a text that is the token. -/
def exactScores : List Int := [1000, 700, 900, 600]

/-- A match of any other kind than the fuzzy one stands together in the text's code points. -/
def StandsTogether (token text : Bytes) : Prop :=
  ∀ exact ∈ exactScores, ∀ points others, decodeUtf8 token = some points → decodeUtf8 text = some others →
    textScore token text exact ∈ [exact, exact - 150, exact - 250, exact - 400] → points <:+: others

/-- A fuzzy match has the token's code points in their order. -/
def StandsInOrder (token text : Bytes) : Prop :=
  ∀ exact ∈ exactScores, ∀ points others, decodeUtf8 token = some points → decodeUtf8 text = some others →
    textScore token text exact = exact - 750 → points.Sublist others

/-! ### What a score says -/

theorem textScore_cases (token text : Bytes) (exact : Int) :
    textScore token text exact = -1 ∨ token <:+: text ∨
      (textScore token text exact = exact - 750 ∧ 3 ≤ token.length ∧ token.Sublist text) := by
  by_cases hempty : text = []
  · rw [textScore, hempty]
    exact Or.inl rfl
  by_cases hoccurs : token <:+: text
  · exact Or.inr (Or.inl hoccurs)
  rw [textScore_of_apart hempty hoccurs]
  by_cases hfuzzy : 3 ≤ token.length ∧ token.Sublist text
  · rw [if_pos hfuzzy]
    exact Or.inr (Or.inr ⟨rfl, hfuzzy⟩)
  · rw [if_neg hfuzzy]
    exact Or.inl rfl

theorem textScore_fuzzy {token text : Bytes} (hoccurs : ¬ token <:+: text) (hlength : 3 ≤ token.length)
    (hsublist : token.Sublist text) (exact : Int) : textScore token text exact = exact - 750 := by
  have htext : text ≠ [] := by
    intro hnil
    rw [hnil, List.sublist_nil] at hsublist
    rw [hsublist] at hlength
    cases hlength
  rw [textScore_of_apart htext hoccurs, if_pos ⟨hlength, hsublist⟩]

theorem standsTogether (token text : Bytes) : StandsTogether token text := by
  intro exact hexact points others hpoints hothers hscore
  have hoccurs : token <:+: text := by
    rcases textScore_cases token text exact with hnone | hoccurs | ⟨hfuzzy, -⟩
    · have hnegative : ∀ score ∈ exactScores, (-1 : Int) ∉ [score, score - 150, score - 250, score - 400] := by decide
      exact absurd (hnone ▸ hscore) (hnegative exact hexact)
    · exact hoccurs
    · rw [hfuzzy] at hscore
      simp only [List.mem_cons, List.not_mem_nil, or_false] at hscore
      omega
  exact isInfix_of_decodeUtf8 hpoints hothers hoccurs

/-! ### Tokens of single bytes -/

theorem decodeUtf8_ascii {token : Bytes} (h : ∀ byte ∈ token, byte < 0x80) :
    decodeUtf8 token = some (token.map UInt8.toNat) := by
  have hbyte : ∀ byte ∈ token, byte.toNat < 0x80 := fun byte hmem => UInt8.lt_iff_toNat_lt.mp (h byte hmem)
  refine decodeUtf8_eq_some_iff.mpr ⟨fun codepoint hmem => ?_, ?_⟩
  · obtain ⟨byte, hbytes, rfl⟩ := List.mem_map.mp hmem
    have hsmall := hbyte byte hbytes
    rw [isScalar_iff]
    exact Or.inl (by omega)
  · have hword : ∀ byte ∈ token, encodeCodepoint byte.toNat = [byte] := by
      intro byte hmem
      have hsmall := hbyte byte hmem
      rw [encodeCodepoint, if_pos (by omega), UInt8.ofNat_toNat]
    rw [List.flatMap_map, List.flatMap_congr hword, List.flatMap_singleton']

theorem not_lt_of_mem_encodeCodepoint {codepoint : Nat} (h : isScalar codepoint = true) (hlong : 0x80 ≤ codepoint) :
    ∀ byte ∈ encodeCodepoint codepoint, ¬ byte < 0x80 := by
  have hmax := le_of_isScalar h
  have hnil : ∀ byte ∈ ([] : Bytes), ¬ byte < 0x80 := by simp
  have hcons : ∀ n, n < 256 → 0x80 ≤ n → ∀ {tail : Bytes}, (∀ byte ∈ tail, ¬ byte < 0x80) →
      ∀ byte ∈ UInt8.ofNat n :: tail, ¬ byte < 0x80 := by
    intro n hn hle tail htail
    refine List.forall_mem_cons.mpr ⟨fun hlt => ?_, htail⟩
    have hvalue := UInt8.lt_iff_toNat_lt.mp hlt
    rw [UInt8.toNat_ofNat', Nat.mod_eq_of_lt hn] at hvalue
    exact absurd hvalue (not_lt.mpr hle)
  rw [encodeCodepoint_eq hmax]
  split_ifs with hone htwo hthree
  · omega
  · exact hcons _ (by omega) (by omega) (hcons _ (by omega) (by omega) hnil)
  · exact hcons _ (by omega) (by omega) (hcons _ (by omega) (by omega) (hcons _ (by omega) (by omega) hnil))
  · exact hcons _ (by omega) (by omega) (hcons _ (by omega) (by omega) (hcons _ (by omega) (by omega)
      (hcons _ (by omega) (by omega) hnil)))

/-- A byte below 0x80 is a character of its own wherever it stands. -/
theorem filter_encodeCodepoint {codepoint : Nat} (h : isScalar codepoint = true) :
    (encodeCodepoint codepoint).filter (· < 0x80) = if codepoint < 0x80 then [UInt8.ofNat codepoint] else [] := by
  by_cases hshort : codepoint < 0x80
  · have hlow : UInt8.ofNat codepoint < 0x80 := by
      rw [UInt8.lt_iff_toNat_lt, UInt8.toNat_ofNat', Nat.mod_eq_of_lt (by omega)]
      exact hshort
    rw [if_pos hshort, encodeCodepoint, if_pos (by omega), List.filter_cons_of_pos (by simpa using hlow),
      List.filter_nil]
  · rw [if_neg hshort]
    refine List.filter_eq_nil_iff.mpr fun byte hmem => ?_
    rw [decide_eq_true_iff]
    exact not_lt_of_mem_encodeCodepoint h (by omega) byte hmem

theorem map_toNat_filter {codepoints : List Nat} (h : ∀ codepoint ∈ codepoints, isScalar codepoint = true) :
    ((codepoints.flatMap encodeCodepoint).filter (· < 0x80)).map UInt8.toNat = codepoints.filter (· < 0x80) := by
  induction codepoints with
  | nil => rfl
  | cons codepoint rest ih =>
      obtain ⟨hscalar, hrest⟩ := List.forall_mem_cons.mp h
      rw [List.flatMap_cons, List.filter_append, List.map_append, ih hrest, filter_encodeCodepoint hscalar]
      by_cases hshort : codepoint < 0x80
      · rw [if_pos hshort, List.filter_cons_of_pos (by simpa using hshort), List.map_cons, UInt8.toNat_ofNat',
          Nat.mod_eq_of_lt (by omega)]
        rfl
      · rw [if_neg hshort, List.filter_cons_of_neg (by simpa using hshort)]
        rfl

/-- Single bytes taken out of a text are characters taken out of it. -/
theorem sublist_of_ascii {token text : Bytes} {points others : List Nat} (hascii : ∀ byte ∈ token, byte < 0x80)
    (hpoints : decodeUtf8 token = some points) (hothers : decodeUtf8 text = some others) (h : token.Sublist text) :
    points.Sublist others := by
  obtain rfl := Option.some.inj ((decodeUtf8_ascii hascii).symm.trans hpoints)
  obtain ⟨hscalars, rfl⟩ := decodeUtf8_eq_some_iff.mp hothers
  have hkept : token.filter (· < 0x80) = token :=
    List.filter_eq_self.mpr fun byte hmem => decide_eq_true (hascii byte hmem)
  have hsub := (h.filter (· < 0x80)).map UInt8.toNat
  rw [hkept, map_toNat_filter hscalars] at hsub
  exact hsub.trans List.filter_sublist

/-! ### A character split in two

The text has, in place of a character, another one that begins with the same bytes and a third that ends in the same byte.
-/

/-- The code point with the last six bits counted on. -/
def besideCodepoint (codepoint : Nat) : Nat := codepoint / 64 * 64 + (codepoint % 64 + 1) % 64

/-- A code point of two bytes that ends in the same byte, and is another one. -/
def endingAlike (codepoint : Nat) : Nat :=
  if codepoint = 0x80 + codepoint % 64 then 0xC0 + codepoint % 64 else 0x80 + codepoint % 64

theorem besideCodepoint_ne (codepoint : Nat) : besideCodepoint codepoint ≠ codepoint := by
  rw [besideCodepoint]
  omega

theorem endingAlike_ne (codepoint : Nat) : endingAlike codepoint ≠ codepoint := by
  rw [endingAlike]
  split_ifs <;> omega

theorem isScalar_besideCodepoint {codepoint : Nat} (h : isScalar codepoint = true) :
    isScalar (besideCodepoint codepoint) = true := by
  rw [isScalar_iff, Nat.isValidChar] at h ⊢
  rw [besideCodepoint]
  omega

theorem isScalar_endingAlike (codepoint : Nat) : isScalar (endingAlike codepoint) = true := by
  rw [isScalar_iff, Nat.isValidChar, endingAlike]
  split_ifs <;> omega

/-- The last byte of a longer character holds its last six bits, and the bytes before it the others. -/
theorem encodeCodepoint_last {codepoint : Nat} (h : codepoint ≤ 0x10FFFF) (hlong : 0x80 ≤ codepoint) :
    ∃ front, ∀ low < 64, encodeCodepoint (codepoint / 64 * 64 + low) = front ++ [UInt8.ofNat (0x80 + low)] := by
  by_cases htwo : codepoint ≤ 0x7FF
  · refine ⟨[UInt8.ofNat (0xC0 + codepoint / 64)], fun low hlow => ?_⟩
    rw [encodeCodepoint_eq (by omega), if_neg (by omega), if_pos (by omega),
      show (codepoint / 64 * 64 + low) / 64 = codepoint / 64 by omega,
      show (codepoint / 64 * 64 + low) % 64 = low by omega]
    rfl
  by_cases hthree : codepoint ≤ 0xFFFF
  · refine ⟨[UInt8.ofNat (0xE0 + codepoint / 4096), UInt8.ofNat (0x80 + codepoint / 64 % 64)], fun low hlow => ?_⟩
    rw [encodeCodepoint_eq (by omega), if_neg (by omega), if_neg (by omega), if_pos (by omega),
      show (codepoint / 64 * 64 + low) / 4096 = codepoint / 4096 by omega,
      show (codepoint / 64 * 64 + low) / 64 = codepoint / 64 by omega,
      show (codepoint / 64 * 64 + low) % 64 = low by omega]
    rfl
  · refine ⟨[UInt8.ofNat (0xF0 + codepoint / 262144), UInt8.ofNat (0x80 + codepoint / 4096 % 64),
      UInt8.ofNat (0x80 + codepoint / 64 % 64)], fun low hlow => ?_⟩
    rw [encodeCodepoint_eq (by omega), if_neg (by omega), if_neg (by omega), if_neg (by omega),
      show (codepoint / 64 * 64 + low) / 262144 = codepoint / 262144 by omega,
      show (codepoint / 64 * 64 + low) / 4096 = codepoint / 4096 by omega,
      show (codepoint / 64 * 64 + low) / 64 = codepoint / 64 by omega,
      show (codepoint / 64 * 64 + low) % 64 = low by omega]
    rfl

theorem encodeCodepoint_endingAlike (codepoint : Nat) :
    ∃ first, encodeCodepoint (endingAlike codepoint) = [first, UInt8.ofNat (0x80 + codepoint % 64)] := by
  have hrange : 0x80 ≤ endingAlike codepoint ∧ endingAlike codepoint ≤ 0x7FF ∧
      endingAlike codepoint % 64 = codepoint % 64 := by
    rw [endingAlike]
    split_ifs <;> omega
  rw [encodeCodepoint_eq (by omega), if_neg (by omega), if_pos hrange.2.1, hrange.2.2]
  exact ⟨_, rfl⟩

theorem encodeCodepoint_sublist {codepoint : Nat} (h : isScalar codepoint = true) (hlong : 0x80 ≤ codepoint) :
    (encodeCodepoint codepoint).Sublist
      (encodeCodepoint (besideCodepoint codepoint) ++ encodeCodepoint (endingAlike codepoint)) := by
  obtain ⟨front, hfront⟩ := encodeCodepoint_last (le_of_isScalar h) hlong
  have hself := hfront (codepoint % 64) (by omega)
  rw [Nat.div_add_mod' codepoint 64] at hself
  have hbeside := hfront ((codepoint % 64 + 1) % 64) (by omega)
  obtain ⟨first, hending⟩ := encodeCodepoint_endingAlike codepoint
  rw [besideCodepoint, hself, hbeside, hending, List.append_assoc]
  refine (List.Sublist.refl front).append ?_
  exact ((List.Sublist.refl _).cons first).cons _

/-- Every token with a longer character is split by a text that does not have its characters. -/
theorem exists_split {token : Bytes} {points : List Nat} (hpoints : decodeUtf8 token = some points)
    (hlong : ∃ byte ∈ token, ¬ byte < 0x80) :
    ∃ text others, decodeUtf8 text = some others ∧ token.Sublist text ∧ ¬ points.Sublist others := by
  obtain ⟨hscalars, rfl⟩ := decodeUtf8_eq_some_iff.mp hpoints
  have hmany : ∃ codepoint ∈ points, 0x80 ≤ codepoint := by
    by_contra hshort
    obtain ⟨byte, hmem, hbyte⟩ := hlong
    obtain ⟨codepoint, hcodepoint, hin⟩ := List.mem_flatMap.mp hmem
    have hsmall : codepoint < 0x80 := not_le.mp fun hle => hshort ⟨codepoint, hcodepoint, hle⟩
    rw [encodeCodepoint, if_pos (by omega), List.mem_singleton] at hin
    refine hbyte ?_
    rw [hin, UInt8.lt_iff_toNat_lt, UInt8.toNat_ofNat', Nat.mod_eq_of_lt (by omega)]
    exact hsmall
  obtain ⟨codepoint, hmem, hle⟩ := hmany
  obtain ⟨before, after, rfl⟩ := List.append_of_mem hmem
  have hscalar := hscalars codepoint hmem
  refine ⟨_, before ++ besideCodepoint codepoint :: endingAlike codepoint :: after,
    decodeUtf8_eq_some_iff.mpr ⟨fun other hother => ?_, rfl⟩, ?_, fun hsub => ?_⟩
  · rcases List.mem_append.mp hother with hbefore | hrest
    · exact hscalars other (List.mem_append_left _ hbefore)
    · rcases List.mem_cons.mp hrest with rfl | hrest
      · exact isScalar_besideCodepoint hscalar
      · rcases List.mem_cons.mp hrest with rfl | hafter
        · exact isScalar_endingAlike codepoint
        · exact hscalars other (List.mem_append_right _ (List.mem_cons_of_mem _ hafter))
  · simp only [List.flatMap_append, List.flatMap_cons]
    rw [← List.append_assoc (encodeCodepoint (besideCodepoint codepoint))]
    exact (List.Sublist.refl _).append ((encodeCodepoint_sublist hscalar hle).append (List.Sublist.refl _))
  · have hcount := hsub.count_le codepoint
    rw [List.count_append, List.count_append, List.count_cons_self,
      List.count_cons_of_ne (besideCodepoint_ne codepoint), List.count_cons_of_ne (endingAlike_ne codepoint)] at hcount
    omega

/-- Matches stand together wherever the score says so; fuzzy matches keep the characters of a token in every text exactly when the token is shorter than the fuzzy test wants or has single bytes only. -/
theorem standsInOrder_iff (token : Bytes) (htoken : isValidUtf8 token = true) :
    (∀ text, isValidUtf8 text = true → StandsTogether token text) ∧
    ((∀ text, isValidUtf8 text = true → StandsInOrder token text) ↔
      token.length < 3 ∨ ∀ byte ∈ token, byte < 0x80) := by
  refine ⟨fun text _ => standsTogether token text, fun h => ?_, fun h => ?_⟩
  · by_contra hlong
    rw [not_or, not_lt] at hlong
    obtain ⟨points, hpoints⟩ := Option.isSome_iff_exists.mp htoken
    obtain ⟨text, others, hothers, hsublist, hsplit⟩ := exists_split hpoints (by simpa using hlong.2)
    have hoccurs : ¬ token <:+: text := fun hoccurs => hsplit (isInfix_of_decodeUtf8 hpoints hothers hoccurs).sublist
    have hvalid : isValidUtf8 text = true := by rw [isValidUtf8, hothers, Option.isSome_some]
    exact hsplit (h text hvalid 1000 (by decide) points others hpoints hothers
      (textScore_fuzzy hoccurs hlong.1 hsublist 1000))
  · intro text _ exact hexact points others hpoints hothers hscore
    rcases textScore_cases token text exact with hnone | hoccurs | ⟨-, hlength, hsublist⟩
    · have hnegative : ∀ score ∈ exactScores, (-1 : Int) ≠ score - 750 := by decide
      exact absurd (hnone.symm.trans hscore) (hnegative exact hexact)
    · exact (isInfix_of_decodeUtf8 hpoints hothers hoccurs).sublist
    · rcases h with hshort | hascii
      · omega
      · exact sublist_of_ascii hascii hpoints hothers hsublist

/-- "fce" consists of single bytes. -/
theorem standsInOrder_fce : StandsInOrder [102, 99, 101] [102, 97, 99, 101] :=
  (standsInOrder_iff [102, 99, 101] (by decide +kernel)).2.mpr (Or.inr (by decide +kernel)) [102, 97, 99, 101] (by decide +kernel)

/-- A euro sign is found in a subscript one and a negation sign. -/
theorem not_standsInOrder_euro :
    ∃ token text : Bytes, isValidUtf8 token = true ∧ isValidUtf8 text = true ∧
      ¬ (StandsTogether token text ∧ StandsInOrder token text) := by
  refine ⟨[226, 130, 172], [226, 130, 129, 194, 172], by decide +kernel, by decide +kernel, fun h => ?_⟩
  have hsub := h.2 1000 (by decide) [0x20AC] [0x2081, 0xAC] (by decide +kernel) (by decide +kernel) (by decide +kernel)
  exact absurd hsub (by decide)

end EmojiPalette
