import EmojiPalette.Core.Utf8
import Mathlib.Data.List.Forall2
import Mathlib.Tactic.SplitIfs

/-!
# Normal forms of search text

What `normalizeForSearch` leaves has nothing more to normalize: its code points are folded, and its spaces stand alone between others. So normalizing again, as the search does with its query, changes nothing.
-/

namespace EmojiPalette

/-- Folded code points with single spaces between them, after a space or not. -/
def Tidy : Bool → List Nat → Prop
  | _, [] => True
  | previousSpace, codepoint :: rest =>
      if isSpace codepoint then previousSpace = false ∧ codepoint = 0x20 ∧ Tidy true rest
      else foldCodepoint codepoint = codepoint ∧ Tidy false rest

/-- The code points folding changes. -/
def Foldable (value : Nat) : Prop :=
  (0x41 ≤ value ∧ value ≤ 0x5A) ∨ (0x0410 ≤ value ∧ value ≤ 0x042F) ∨
    value ∈ [0x00C4, 0x00D6, 0x00DC, 0x1E9E, 0x0401, 0x2D, 0x5F]

theorem foldCodepoint_of_not_foldable {value : Nat} (h : ¬ Foldable value) : foldCodepoint value = value := by
  simp only [Foldable, List.mem_cons, List.not_mem_nil, or_false, not_or] at h
  obtain ⟨hlatin, hcyrillic, hothers⟩ := h
  unfold foldCodepoint
  rw [if_neg (by simpa using hlatin), if_neg (by simpa using hcyrillic)]
  split <;> omega

theorem not_foldable_foldCodepoint (value : Nat) : ¬ Foldable (foldCodepoint value) := by
  simp only [Foldable, List.mem_cons, List.not_mem_nil, or_false]
  unfold foldCodepoint
  simp only [Bool.and_eq_true, decide_eq_true_eq]
  split_ifs with hlatin hcyrillic
  · omega
  · omega
  · split <;> grind

theorem foldCodepoint_foldCodepoint (value : Nat) : foldCodepoint (foldCodepoint value) = foldCodepoint value :=
  foldCodepoint_of_not_foldable (not_foldable_foldCodepoint value)

theorem isScalar_foldCodepoint {value : Nat} (h : isScalar value = true) : isScalar (foldCodepoint value) = true := by
  simp only [isScalar, Bool.and_eq_true, decide_eq_true_eq, Bool.not_eq_true', Bool.and_eq_false_iff,
    decide_eq_false_iff_not] at h ⊢
  unfold foldCodepoint
  simp only [Bool.and_eq_true, decide_eq_true_eq]
  split_ifs with hlatin hcyrillic
  · omega
  · omega
  · split <;> omega

theorem tidy_foldSpaces (previousSpace : Bool) (codepoints : List Nat) :
    Tidy previousSpace (foldSpaces previousSpace codepoints) := by
  induction codepoints generalizing previousSpace with
  | nil => trivial
  | cons original rest ih =>
      rw [foldSpaces]
      by_cases hspace : isSpace (foldCodepoint original) = true
      · cases previousSpace with
        | true => simpa only [hspace, if_true] using ih true
        | false =>
            simp only [hspace, if_true, Bool.false_eq_true, if_false]
            exact ⟨rfl, rfl, ih true⟩
      · simp only [hspace, Bool.false_eq_true, if_false]
        rw [Tidy, if_neg hspace]
        exact ⟨foldCodepoint_foldCodepoint original, ih false⟩

theorem foldSpaces_of_tidy {previousSpace : Bool} {codepoints : List Nat} (h : Tidy previousSpace codepoints) :
    foldSpaces previousSpace codepoints = codepoints := by
  induction codepoints generalizing previousSpace with
  | nil => rfl
  | cons codepoint rest ih =>
      rw [Tidy] at h
      rw [foldSpaces]
      by_cases hspace : isSpace codepoint = true
      · rw [if_pos hspace] at h
        obtain ⟨rfl, rfl, hrest⟩ := h
        have hfold : isSpace (foldCodepoint 0x20) = true := by decide
        simp only [hfold, if_true, Bool.false_eq_true, if_false]
        rw [ih hrest]
      · rw [if_neg hspace] at h
        simp only [h.1, hspace, Bool.false_eq_true, if_false]
        rw [ih h.2]

theorem isScalar_of_mem_foldSpaces (previousSpace : Bool) {codepoints : List Nat}
    (h : ∀ codepoint ∈ codepoints, isScalar codepoint = true) :
    ∀ codepoint ∈ foldSpaces previousSpace codepoints, isScalar codepoint = true := by
  induction codepoints generalizing previousSpace with
  | nil => simp [foldSpaces]
  | cons original rest ih =>
      obtain ⟨horiginal, hrest⟩ := List.forall_mem_cons.mp h
      rw [foldSpaces]
      by_cases hspace : isSpace (foldCodepoint original) = true
      · cases previousSpace with
        | true => simpa only [hspace, if_true] using ih _ hrest
        | false =>
            simp only [hspace, if_true, Bool.false_eq_true, if_false]
            exact List.forall_mem_cons.mpr ⟨by decide, ih _ hrest⟩
      · simp only [hspace, Bool.false_eq_true, if_false]
        exact List.forall_mem_cons.mpr ⟨isScalar_foldCodepoint horiginal, ih _ hrest⟩

theorem Tidy.dropLast {previousSpace : Bool} {codepoints : List Nat} (h : Tidy previousSpace codepoints) :
    Tidy previousSpace codepoints.dropLast := by
  induction codepoints generalizing previousSpace with
  | nil => trivial
  | cons codepoint rest ih =>
      cases rest with
      | nil => trivial
      | cons next rest =>
          rw [Tidy] at h
          rw [List.dropLast_cons_of_ne_nil (List.cons_ne_nil next rest), Tidy]
          by_cases hspace : isSpace codepoint = true
          · rw [if_pos hspace] at h ⊢
            exact ⟨h.1, h.2.1, ih h.2.2⟩
          · rw [if_neg hspace] at h ⊢
            exact ⟨h.1, ih h.2⟩

/-- No space stands before a last space. -/
theorem Tidy.getLast?_of_concat {previousSpace : Bool} {codepoints : List Nat}
    (h : Tidy previousSpace (codepoints ++ [0x20])) : codepoints.getLast? ≠ some 0x20 := by
  induction codepoints generalizing previousSpace with
  | nil => simp
  | cons codepoint rest ih =>
      rw [List.cons_append, Tidy] at h
      cases rest with
      | nil =>
          intro hlast
          obtain rfl : codepoint = 0x20 := by simpa using hlast
          rw [if_pos (by decide)] at h
          have hafter := h.2.2
          rw [List.nil_append, Tidy, if_pos (by decide)] at hafter
          cases hafter.1
      | cons next rest =>
          rw [List.getLast?_cons_cons]
          by_cases hspace : isSpace codepoint = true
          · rw [if_pos hspace] at h
            exact ih h.2.2
          · rw [if_neg hspace] at h
            exact ih h.2

/-- The code points of a normal form. -/
structure NormalForm (codepoints : List Nat) : Prop where
  scalars : ∀ codepoint ∈ codepoints, isScalar codepoint = true
  tidy : Tidy true codepoints
  last : codepoints.getLast? ≠ some 0x20

/-- The code points `normalizeForSearch` encodes. -/
def normalCodepoints (codepoints : List Nat) : List Nat :=
  let normalized := foldSpaces true codepoints
  if normalized.getLast? = some 0x20 then normalized.dropLast else normalized

theorem normalizeForSearch_of_decodeUtf8 {value : Bytes} {codepoints : List Nat}
    (h : decodeUtf8 value = some codepoints) : normalizeForSearch value = encodeUtf8 (normalCodepoints codepoints) := by
  rw [normalizeForSearch, h]
  rfl

theorem normalForm_of_decodeUtf8 {value : Bytes} {codepoints : List Nat} (h : decodeUtf8 value = some codepoints) :
    NormalForm (normalCodepoints codepoints) := by
  have hscalars := isScalar_of_mem_foldSpaces true (decodeUtf8_eq_some_iff.mp h).1
  have htidy := tidy_foldSpaces true codepoints
  rw [normalCodepoints]
  by_cases hlast : (foldSpaces true codepoints).getLast? = some 0x20
  · rw [if_pos hlast]
    refine ⟨fun codepoint hmem => hscalars codepoint (List.dropLast_subset _ hmem), htidy.dropLast, ?_⟩
    rw [← List.dropLast_append_getLast? _ hlast] at htidy
    exact htidy.getLast?_of_concat
  · rw [if_neg hlast]
    exact ⟨hscalars, htidy, hlast⟩

theorem exists_normalForm (value : Bytes) :
    ∃ codepoints, NormalForm codepoints ∧ normalizeForSearch value = encodeUtf8 codepoints := by
  cases hdecoded : decodeUtf8 value with
  | none =>
      refine ⟨[], ⟨by simp, trivial, by simp⟩, ?_⟩
      rw [normalizeForSearch, hdecoded]
      rfl
  | some decoded =>
      exact ⟨_, normalForm_of_decodeUtf8 hdecoded, normalizeForSearch_of_decodeUtf8 hdecoded⟩

theorem normalizeForSearch_encodeUtf8 {codepoints : List Nat} (h : NormalForm codepoints) :
    normalizeForSearch (encodeUtf8 codepoints) = encodeUtf8 codepoints := by
  rw [normalizeForSearch, decodeUtf8_encodeUtf8 h.scalars]
  simp only [foldSpaces_of_tidy h.tidy, h.last, if_false]

/-- Normalizing twice is normalizing once. -/
theorem normalizeForSearch_normalizeForSearch (value : Bytes) :
    normalizeForSearch (normalizeForSearch value) = normalizeForSearch value := by
  obtain ⟨codepoints, hnormal, hvalue⟩ := exists_normalForm value
  rw [hvalue, normalizeForSearch_encodeUtf8 hnormal]

/-! ### Texts that look the same to a search -/

/-- What normalization takes for a space. -/
def isSeparator (codepoint : Nat) : Bool := isSpace (foldCodepoint codepoint)

def FoldedAlike (one other : Nat) : Prop := foldCodepoint one = foldCodepoint other

/-- Texts that differ by code points folded alike, by runs of separators between others, or by separators at either end. -/
inductive SameText : List Nat → List Nat → Prop
  | folded {left right : List Nat} : List.Forall₂ FoldedAlike left right → SameText left right
  | separators {before after run other : List Nat} : run ≠ [] → other ≠ [] → (∀ codepoint ∈ run, isSeparator codepoint) →
      (∀ codepoint ∈ other, isSeparator codepoint) → SameText (before ++ (run ++ after)) (before ++ (other ++ after))
  | leading {run text : List Nat} : (∀ codepoint ∈ run, isSeparator codepoint) → SameText (run ++ text) text
  | trailing {run text : List Nat} : (∀ codepoint ∈ run, isSeparator codepoint) → SameText (text ++ run) text
  | symm {left right : List Nat} : SameText left right → SameText right left
  | trans {left middle right : List Nat} : SameText left middle → SameText middle right → SameText left right

/-- Whether the loop has just seen a separator. -/
def afterSpace : Bool → List Nat → Bool
  | previousSpace, [] => previousSpace
  | _, codepoint :: rest => afterSpace (isSeparator codepoint) rest

theorem foldSpaces_cons_separator {codepoint : Nat} (h : isSeparator codepoint = true) (previousSpace : Bool)
    (rest : List Nat) :
    foldSpaces previousSpace (codepoint :: rest) =
      (if previousSpace then [] else [0x20]) ++ foldSpaces true rest := by
  rw [isSeparator] at h
  rw [foldSpaces, if_pos h]
  cases previousSpace <;> rfl

theorem foldSpaces_cons_other {codepoint : Nat} (h : isSeparator codepoint = false) (previousSpace : Bool)
    (rest : List Nat) :
    foldSpaces previousSpace (codepoint :: rest) = foldCodepoint codepoint :: foldSpaces false rest := by
  rw [isSeparator] at h
  rw [foldSpaces, if_neg (Bool.eq_false_iff.mp h)]

theorem foldSpaces_append (previousSpace : Bool) (before after : List Nat) :
    foldSpaces previousSpace (before ++ after) =
      foldSpaces previousSpace before ++ foldSpaces (afterSpace previousSpace before) after := by
  induction before generalizing previousSpace with
  | nil => rfl
  | cons codepoint rest ih =>
      rw [List.cons_append, afterSpace]
      cases hseparator : isSeparator codepoint with
      | true =>
          rw [foldSpaces_cons_separator hseparator, foldSpaces_cons_separator hseparator, ih, List.append_assoc]
      | false => rw [foldSpaces_cons_other hseparator, foldSpaces_cons_other hseparator, ih, List.cons_append]

theorem afterSpace_append (previousSpace : Bool) (before after : List Nat) :
    afterSpace previousSpace (before ++ after) = afterSpace (afterSpace previousSpace before) after := by
  induction before generalizing previousSpace with
  | nil => rfl
  | cons codepoint rest ih => exact ih (isSeparator codepoint)

theorem foldSpaces_separators {run : List Nat} (h : ∀ codepoint ∈ run, isSeparator codepoint = true) :
    foldSpaces true run = [] ∧ afterSpace true run = true := by
  induction run with
  | nil => exact ⟨rfl, rfl⟩
  | cons codepoint rest ih =>
      obtain ⟨hfirst, hrest⟩ := List.forall_mem_cons.mp h
      rw [foldSpaces_cons_separator hfirst, afterSpace, hfirst]
      exact ih hrest

/-- A run of separators leaves one space, or none after another. -/
theorem foldSpaces_run {run : List Nat} (h : ∀ codepoint ∈ run, isSeparator codepoint = true) (hrun : run ≠ [])
    (previousSpace : Bool) :
    foldSpaces previousSpace run = (if previousSpace then [] else [0x20]) ∧ afterSpace previousSpace run = true := by
  cases run with
  | nil => exact absurd rfl hrun
  | cons codepoint rest =>
      obtain ⟨hfirst, hrest⟩ := List.forall_mem_cons.mp h
      obtain ⟨hnone, hafter⟩ := foldSpaces_separators hrest
      rw [foldSpaces_cons_separator hfirst, hnone, List.append_nil, afterSpace, hfirst]
      exact ⟨rfl, hafter⟩

/-- The text does not end in a space where the loop has not just seen one. -/
theorem getLast?_foldSpaces {text : List Nat} (h : afterSpace true text = false) :
    (foldSpaces true text).getLast? ≠ some 0x20 := by
  rcases List.eq_nil_or_concat text with rfl | ⟨front, last, rfl⟩
  · cases h
  · have hlast : isSeparator last = false := by
      rw [List.concat_eq_append, afterSpace_append] at h
      exact h
    rw [List.concat_eq_append, foldSpaces_append, foldSpaces_cons_other hlast, foldSpaces, List.getLast?_concat]
    intro heq
    rw [isSeparator, Option.some.inj heq] at hlast
    cases hlast

theorem foldSpaces_congr {left right : List Nat} (previousSpace : Bool) (h : List.Forall₂ FoldedAlike left right) :
    foldSpaces previousSpace left = foldSpaces previousSpace right := by
  induction h generalizing previousSpace with
  | nil => rfl
  | cons hsame _ ih =>
      rw [FoldedAlike] at hsame
      rw [foldSpaces, foldSpaces, hsame, ih, ih]

theorem normalCodepoints_trailing {run : List Nat} (h : ∀ codepoint ∈ run, isSeparator codepoint = true)
    (text : List Nat) : normalCodepoints (text ++ run) = normalCodepoints text := by
  by_cases hrun : run = []
  · rw [hrun, List.append_nil]
  rw [normalCodepoints, normalCodepoints, foldSpaces_append, (foldSpaces_run h hrun _).1]
  cases hafter : afterSpace true text with
  | true => rw [if_pos rfl, List.append_nil]
  | false =>
      simp only [Bool.false_eq_true, if_false, List.getLast?_concat, if_true, List.dropLast_concat,
        getLast?_foldSpaces hafter]

/-- Texts that look the same have one normal form. -/
theorem SameText.normalCodepoints_eq {left right : List Nat} (h : SameText left right) :
    normalCodepoints left = normalCodepoints right := by
  induction h with
  | folded hfolded => rw [normalCodepoints, normalCodepoints, foldSpaces_congr true hfolded]
  | @separators before after run other hrun hother hseparators hothers =>
      have hone := foldSpaces_run hseparators hrun (afterSpace true before)
      have htwo := foldSpaces_run hothers hother (afterSpace true before)
      simp only [normalCodepoints, foldSpaces_append, hone.1, hone.2, htwo.1, htwo.2]
  | @leading run text hseparators =>
      obtain ⟨hnone, hafter⟩ := foldSpaces_separators hseparators
      rw [normalCodepoints, normalCodepoints, foldSpaces_append, hnone, hafter, List.nil_append]
  | @trailing run text hseparators => exact normalCodepoints_trailing hseparators text
  | symm _ ih => exact ih.symm
  | trans _ _ ihleft ihright => exact ihleft.trans ihright

theorem foldedAlike_refl (text : List Nat) : List.Forall₂ FoldedAlike text text :=
  List.forall₂_same.mpr fun _ _ => rfl

theorem SameText.refl (text : List Nat) : SameText text text := .folded (foldedAlike_refl text)

/-- One code point folded in its place. -/
theorem sameText_fold (before after : List Nat) (codepoint : Nat) :
    SameText (before ++ codepoint :: after) (before ++ foldCodepoint codepoint :: after) := by
  have hone : FoldedAlike codepoint (foldCodepoint codepoint) := (foldCodepoint_foldCodepoint codepoint).symm
  exact .folded (List.rel_append (foldedAlike_refl before) (.cons hone (foldedAlike_refl after)))

/-- A separator after another one is not seen. -/
theorem sameText_after_separator {before : List Nat} (hbefore : afterSpace true before = true) {codepoint : Nat}
    (hcodepoint : isSeparator codepoint = true) (after : List Nat) :
    SameText (before ++ codepoint :: after) (before ++ after) := by
  rcases List.eq_nil_or_concat before with rfl | ⟨front, last, rfl⟩
  · have hleading : SameText ([codepoint] ++ after) after := .leading (by simpa using hcodepoint)
    exact hleading
  · rw [List.concat_eq_append, afterSpace_append] at hbefore
    have hlast : isSeparator last = true := hbefore
    have hboth : SameText (front ++ ([last, codepoint] ++ after)) (front ++ ([last] ++ after)) :=
      .separators (by simp) (by simp) (by simp [hlast, hcodepoint]) (by simp [hlast])
    rw [List.concat_eq_append, List.append_assoc, List.append_assoc]
    exact hboth

/-- The loop goes on from text to text that looks the same. -/
theorem sameText_foldSpaces (before text : List Nat) :
    SameText (before ++ text) (before ++ foldSpaces (afterSpace true before) text) := by
  induction text generalizing before with
  | nil => exact .refl _
  | cons codepoint rest ih =>
      have hgrown : ∀ next, SameText (before ++ next :: rest)
          (before ++ next :: foldSpaces (isSeparator next) rest) := by
        intro next
        have hnext := ih (before ++ [next])
        rw [afterSpace_append, List.append_assoc, List.append_assoc] at hnext
        exact hnext
      cases hseparator : isSeparator codepoint with
      | true =>
          rw [foldSpaces_cons_separator hseparator]
          cases hbefore : afterSpace true before with
          | true =>
              have hrest := ih before
              rw [hbefore] at hrest
              exact (sameText_after_separator hbefore hseparator rest).trans hrest
          | false =>
              have hone : SameText (before ++ ([codepoint] ++ rest)) (before ++ ([0x20] ++ rest)) :=
                .separators (by simp) (by simp) (by simpa using hseparator) (by decide)
              exact hone.trans (hgrown 0x20)
      | false =>
          rw [foldSpaces_cons_other hseparator]
          have hsame : isSeparator (foldCodepoint codepoint) = false := by
            rw [isSeparator, foldCodepoint_foldCodepoint]
            exact hseparator
          have hrest := hgrown (foldCodepoint codepoint)
          rw [hsame] at hrest
          exact (sameText_fold before rest codepoint).trans hrest

theorem sameText_normalCodepoints (text : List Nat) : SameText text (normalCodepoints text) := by
  have hfolded : SameText text (foldSpaces true text) := sameText_foldSpaces [] text
  rw [normalCodepoints]
  by_cases hlast : (foldSpaces true text).getLast? = some 0x20
  · rw [if_pos hlast]
    have htrailing : SameText ((foldSpaces true text).dropLast ++ [0x20]) (foldSpaces true text).dropLast :=
      .trailing (by decide)
    rw [List.dropLast_append_getLast? _ hlast] at htrailing
    exact hfolded.trans htrailing
  · rw [if_neg hlast]
    exact hfolded

/-- Two texts have one normal form exactly when they look the same. -/
theorem sameText_iff {left right : List Nat} :
    SameText left right ↔ normalCodepoints left = normalCodepoints right := by
  refine ⟨SameText.normalCodepoints_eq, fun h => ?_⟩
  exact (sameText_normalCodepoints left).trans (h ▸ (sameText_normalCodepoints right).symm)

/-! ### The length of a normal form -/

theorem length_encodeCodepoint (codepoint : Nat) :
    (encodeCodepoint codepoint).length =
      if codepoint ≤ 0x7F then 1 else if codepoint ≤ 0x7FF then 2 else if codepoint ≤ 0xFFFF then 3 else 4 := by
  rw [encodeCodepoint]
  split_ifs <;> rfl

/-- Folding stays within the range of a length. -/
theorem foldCodepoint_le {codepoint bound : Nat} (hbound : bound = 0x7F ∨ bound = 0x7FF ∨ bound = 0xFFFF)
    (h : codepoint ≤ bound) : foldCodepoint codepoint ≤ bound := by
  unfold foldCodepoint
  simp only [Bool.and_eq_true, decide_eq_true_eq]
  split_ifs
  · omega
  · omega
  · split <;> omega

theorem length_encodeCodepoint_foldCodepoint_le (codepoint : Nat) :
    (encodeCodepoint (foldCodepoint codepoint)).length ≤ (encodeCodepoint codepoint).length := by
  have hone : codepoint ≤ 0x7F → foldCodepoint codepoint ≤ 0x7F := foldCodepoint_le (by omega)
  have htwo : codepoint ≤ 0x7FF → foldCodepoint codepoint ≤ 0x7FF := foldCodepoint_le (by omega)
  have hthree : codepoint ≤ 0xFFFF → foldCodepoint codepoint ≤ 0xFFFF := foldCodepoint_le (by omega)
  rw [length_encodeCodepoint, length_encodeCodepoint]
  split_ifs <;> omega

theorem length_foldSpaces_le (previousSpace : Bool) (codepoints : List Nat) :
    ((foldSpaces previousSpace codepoints).flatMap encodeCodepoint).length ≤
      (codepoints.flatMap encodeCodepoint).length := by
  induction codepoints generalizing previousSpace with
  | nil => exact le_rfl
  | cons codepoint rest ih =>
      have hpositive := List.length_pos_of_ne_nil (encodeCodepoint_ne_nil codepoint)
      have hfolded := length_encodeCodepoint_foldCodepoint_le codepoint
      rw [List.flatMap_cons, List.length_append]
      cases hseparator : isSeparator codepoint with
      | true =>
          have hrest := ih true
          rw [foldSpaces_cons_separator hseparator, List.flatMap_append, List.length_append]
          have hspace : ((if previousSpace then [] else [0x20]).flatMap encodeCodepoint).length ≤ 1 := by
            cases previousSpace <;> decide
          omega
      | false =>
          have hrest := ih false
          rw [foldSpaces_cons_other hseparator, List.flatMap_cons, List.length_append]
          omega

theorem length_normalizeForSearch_le (value : Bytes) : (normalizeForSearch value).length ≤ value.length := by
  cases hdecoded : decodeUtf8 value with
  | none =>
      rw [normalizeForSearch, hdecoded]
      exact Nat.zero_le _
  | some codepoints =>
      have hfolded := length_foldSpaces_le true codepoints
      rw [← (decodeUtf8_eq_some_iff.mp hdecoded).2] at hfolded
      rw [normalizeForSearch_of_decodeUtf8 hdecoded, encodeUtf8_eq (normalForm_of_decodeUtf8 hdecoded).scalars]
      refine le_trans ?_ hfolded
      rw [normalCodepoints]
      by_cases hlast : (foldSpaces true codepoints).getLast? = some 0x20
      · rw [if_pos hlast]
        exact ((List.dropLast_sublist _).flatMap encodeCodepoint).length_le
      · rw [if_neg hlast]

/-! ### The bytes of a normal form -/

private theorem ofNat_ne_space {n : Nat} (h : n < 256) (hne : n ≠ 32) : UInt8.ofNat n ≠ 32 := by
  intro heq
  have hvalue : (UInt8.ofNat n).toNat = 32 := congrArg UInt8.toNat heq
  rw [UInt8.toNat_ofNat', Nat.mod_eq_of_lt h] at hvalue
  exact hne hvalue

/-- A code point that is no space does not begin with the byte of one. -/
theorem head_encodeCodepoint_ne {codepoint : Nat} (hscalar : isScalar codepoint = true)
    (hspace : isSpace codepoint = false) : ∃ byte ∈ encodeCodepoint codepoint, byte ≠ 32 := by
  have hbound := le_of_isScalar hscalar
  have hne : codepoint ≠ 32 := by
    rintro rfl
    cases hspace
  rw [encodeCodepoint_eq hbound]
  split_ifs with hone htwo hthree
  · exact ⟨_, List.mem_cons_self, ofNat_ne_space (by omega) hne⟩
  · exact ⟨_, List.mem_cons_self, ofNat_ne_space (by omega) (by omega)⟩
  · exact ⟨_, List.mem_cons_self, ofNat_ne_space (by omega) (by omega)⟩
  · exact ⟨_, List.mem_cons_self, ofNat_ne_space (by omega) (by omega)⟩

/-- A normal form that is not empty is more than spaces. -/
theorem exists_mem_normalizeForSearch_ne {value : Bytes} (h : normalizeForSearch value ≠ []) :
    ∃ byte ∈ normalizeForSearch value, byte ≠ 32 := by
  obtain ⟨codepoints, hnormal, hvalue⟩ := exists_normalForm value
  rw [hvalue] at h ⊢
  rw [encodeUtf8_eq hnormal.scalars] at h ⊢
  cases codepoints with
  | nil => exact absurd rfl h
  | cons codepoint rest =>
      have hspace : isSpace codepoint = false := by
        have htidy := hnormal.tidy
        rw [Tidy] at htidy
        by_cases hspace : isSpace codepoint = true
        · rw [if_pos hspace] at htidy
          cases htidy.1
        · simpa using hspace
      obtain ⟨byte, hmem, hne⟩ := head_encodeCodepoint_ne (hnormal.scalars _ List.mem_cons_self) hspace
      exact ⟨byte, List.mem_flatMap.mpr ⟨codepoint, List.mem_cons_self, hmem⟩, hne⟩

end EmojiPalette
