import EmojiPalette.Tools.UpdateUnicodeData
import EmojiPalette.Ui.PaletteWindow

/-!
# Families of variants

Every record belongs to the family of its root: the record it names as its base, or itself. That the roots are records without a base is what the generator sees to; that a family is then one list, the same for each of its members, is what the catalog makes of it.

The generator finds the base by taking the tones away and nothing else, so a toned emoji is linked only when what is left is spelled as another record is.
-/

namespace EmojiPalette

open UpdateUnicodeData
open Ui.PaletteWindow (variantBase)

namespace EmojiCatalog

/-- Sequences that tell the records apart, and bases that are records without a base. -/
structure Grouped (catalog : EmojiCatalog) : Prop where
  distinct : (catalog.records.map (·.sequence)).Nodup
  nonempty : ∀ record ∈ catalog.records, record.sequence ≠ []
  based : ∀ record ∈ catalog.records, record.baseSequence ≠ [] →
    ∃ base ∈ catalog.records, base.sequence = record.baseSequence ∧ base.baseSequence = []

section Families

variable {catalog : EmojiCatalog} {record other base : EmojiRecord}

theorem variantBase_of_nil (h : record.baseSequence = []) : variantBase record = record.sequence := by
  simp [variantBase, h]

theorem variantBase_of_ne_nil (h : record.baseSequence ≠ []) :
    variantBase record = record.baseSequence := by
  simp [variantBase, h]

theorem Grouped.eq_of_sequence_eq (h : catalog.Grouped) (hrecord : record ∈ catalog.records)
    (hother : other ∈ catalog.records) (heq : record.sequence = other.sequence) : record = other :=
  List.inj_on_of_nodup_map h.distinct hrecord hother heq

theorem Grouped.find_eq_some (h : catalog.Grouped) (hbase : base ∈ catalog.records) :
    catalog.find base.sequence = some base := by
  cases hfind : catalog.find base.sequence with
  | none =>
      have hnone := List.find?_eq_none.mp hfind base hbase
      simp at hnone
  | some found =>
      obtain ⟨hfound, hsequence⟩ := sequence_of_find hfind
      rw [h.eq_of_sequence_eq hfound hbase hsequence]

/-- The root of a record is the sequence of a record without a base. -/
theorem Grouped.exists_root (h : catalog.Grouped) (hrecord : record ∈ catalog.records) :
    ∃ base ∈ catalog.records, base.sequence = variantBase record ∧ base.baseSequence = [] := by
  by_cases hbase : record.baseSequence = []
  · exact ⟨record, hrecord, (variantBase_of_nil hbase).symm, hbase⟩
  · rw [variantBase_of_ne_nil hbase]
    exact h.based record hrecord hbase

/-- The variants of a record without a base, which comes first. -/
theorem Grouped.variantsFor_eq (h : catalog.Grouped) (hbase : base ∈ catalog.records) :
    catalog.variantsFor base.sequence =
      base :: catalog.records.filter fun other => other.baseSequence = base.sequence := by
  rw [variantsFor, h.find_eq_some hbase]
  rfl

theorem Grouped.mem_variantsFor_iff (h : catalog.Grouped) (hbase : base ∈ catalog.records)
    (hroot : base.baseSequence = []) :
    other ∈ catalog.variantsFor base.sequence ↔
      other ∈ catalog.records ∧ variantBase other = base.sequence := by
  rw [h.variantsFor_eq hbase, List.mem_cons, List.mem_filter, decide_eq_true_eq]
  constructor
  · intro hother
    rcases hother with rfl | ⟨hrecord, hsame⟩
    · exact ⟨hbase, variantBase_of_nil hroot⟩
    · exact ⟨hrecord, (variantBase_of_ne_nil (hsame ▸ h.nonempty base hbase)).trans hsame⟩
  · intro hother
    obtain ⟨hrecord, hsame⟩ := hother
    by_cases hnone : other.baseSequence = []
    · rw [variantBase_of_nil hnone] at hsame
      exact Or.inl (h.eq_of_sequence_eq hrecord hbase hsame)
    · rw [variantBase_of_ne_nil hnone] at hsame
      exact Or.inr ⟨hrecord, hsame⟩

theorem Grouped.nodup_variantsFor (h : catalog.Grouped) (hbase : base ∈ catalog.records)
    (hroot : base.baseSequence = []) : ((catalog.variantsFor base.sequence).map (·.sequence)).Nodup := by
  rw [h.variantsFor_eq hbase, List.map_cons, List.nodup_cons]
  refine ⟨fun hmem => ?_, h.distinct.sublist (List.filter_sublist.map _)⟩
  obtain ⟨other, hother, hsequence⟩ := List.mem_map.mp hmem
  obtain ⟨hrecord, hsame⟩ := List.mem_filter.mp hother
  rw [h.eq_of_sequence_eq hrecord hbase hsequence, hroot] at hsame
  exact h.nonempty base hbase (of_decide_eq_true hsame).symm

end Families

end EmojiCatalog

namespace UpdateUnicodeData

/-- The record the catalog makes of a record of the Unicode data. -/
def catalogRecord (records : List UnicodeRecord) (annotations : Annotations) (record : UnicodeRecord) : EmojiRecord :=
  .ofGenerated (generatedEmoji (records.map (·.emoji)) annotations record)

/-- The catalog built from the generator's output. -/
def generatedCatalog (records : List UnicodeRecord) (annotations : Annotations) : EmojiCatalog :=
  .ofGenerated (generate records annotations)

variable {records : List UnicodeRecord} {annotations : Annotations}

theorem records_generatedCatalog :
    (generatedCatalog records annotations).records = records.map (catalogRecord records annotations) := by
  simp [generatedCatalog, EmojiCatalog.ofGenerated, generate, catalogRecord]

theorem grouped_generatedCatalog (hdistinct : (records.map (·.emoji)).Nodup)
    (hnonempty : ∀ record ∈ records, record.emoji ≠ .empty) : (generatedCatalog records annotations).Grouped where
  distinct := by
    have hsequences : (generatedCatalog records annotations).records.map (·.sequence) =
        (records.map (·.emoji)).map cppString := by
      rw [records_generatedCatalog, List.map_map, List.map_map]
      rfl
    rw [hsequences]
    exact hdistinct.map fun _ _ => cppString_injective
  nonempty := by
    intro record hrecord
    rw [records_generatedCatalog] at hrecord
    obtain ⟨source, hsource, rfl⟩ := List.mem_map.mp hrecord
    exact fun hnil => hnonempty source hsource (cppString_eq_nil_iff.mp hnil)
  based := by
    intro record hrecord hbased
    rw [records_generatedCatalog] at hrecord ⊢
    obtain ⟨source, _, rfl⟩ := List.mem_map.mp hrecord
    rcases baseOf_eq_empty_or (records.map (·.emoji)) source.emoji with ⟨hempty, _⟩ | ⟨hbase, _, hmem⟩
    · exact absurd (cppString_eq_nil_iff.mpr hempty) hbased
    · obtain ⟨base, hrecord, hemoji⟩ := List.mem_map.mp hmem
      refine ⟨_, List.mem_map_of_mem hrecord, ?_, ?_⟩
      · change cppString base.emoji = cppString (baseOf _ source.emoji)
        rw [hbase, hemoji]
      · change cppString (baseOf _ base.emoji) = []
        rw [hemoji, baseOf_removeTones]
        rfl

/-- The families of a generated catalog: each has its root among its records and first among its variants, and its variants are its members, each once. -/
theorem generated_families (records : List UnicodeRecord) (annotations : Annotations)
    (hdistinct : (records.map (·.emoji)).Nodup) (hnonempty : ∀ record ∈ records, record.emoji ≠ .empty) :
    let catalog := generatedCatalog records annotations
    ∀ record ∈ catalog.records,
      (∃ base ∈ catalog.records, base.sequence = variantBase record ∧ base.baseSequence = [] ∧
        (catalog.variantsFor (variantBase record)).head? = some base) ∧
      ((catalog.variantsFor (variantBase record)).map (·.sequence)).Nodup ∧
      record ∈ catalog.variantsFor (variantBase record) ∧
      ∀ other, other ∈ catalog.variantsFor (variantBase record) ↔
        other ∈ catalog.records ∧ variantBase other = variantBase record := by
  intro catalog record hrecord
  have hgrouped : catalog.Grouped := grouped_generatedCatalog hdistinct hnonempty
  obtain ⟨base, hbase, hsequence, hroot⟩ := hgrouped.exists_root hrecord
  rw [← hsequence]
  refine ⟨⟨base, hbase, rfl, hroot, ?_⟩, hgrouped.nodup_variantsFor hbase hroot, ?_, fun other => ?_⟩
  · rw [hgrouped.variantsFor_eq hbase]
    rfl
  · exact (hgrouped.mem_variantsFor_iff hbase hroot).mpr ⟨hrecord, hsequence.symm⟩
  · exact hgrouped.mem_variantsFor_iff hbase hroot

/-- The generator's record of an emoji with nothing else said about it. -/
def unnamed (codepoints : List Nat) (h : ∀ codepoint ∈ codepoints, isScalar codepoint = true ∧ codepoint ≠ 0) :
    UnicodeRecord := ⟨⟨codepoints, h⟩, .peopleBody, .empty, .empty⟩

/-- "thumbs up" and its variant with a dark skin tone. -/
def thumbs : List UnicodeRecord := [unnamed [0x1F44D] (by decide), unnamed [0x1F44D, 0x1F3FF] (by decide)]

/-- The row of the variant, whose family has the other as its root. -/
def darkThumbs : EmojiRecord := catalogRecord thumbs (fun _ _ => none) (unnamed [0x1F44D, 0x1F3FF] (by decide))

theorem generated_families_thumbs :
    darkThumbs ∈ (generatedCatalog thumbs fun _ _ => none).variantsFor (variantBase darkThumbs) ∧
      (((generatedCatalog thumbs fun _ _ => none).variantsFor (variantBase darkThumbs)).map (·.sequence)).Nodup := by
  obtain ⟨_, hnodup, hmem, _⟩ := generated_families thumbs (fun _ _ => none) (by decide) (by decide) darkThumbs
    (List.mem_cons_of_mem _ List.mem_cons_self)
  exact ⟨hmem, hnodup⟩

/-! ### Skin tones and variation selectors -/

/-- The base has no tones, and is the emoji but for tones and variation selectors. -/
def PlainForm (base emoji : Text) : Prop :=
  (∀ codepoint ∈ base.codepoints, isTone codepoint = false) ∧
    withoutVariationSelectors (removeTones base) = withoutVariationSelectors (removeTones emoji)

/-- The record is linked to a plain form of it, and offered as a variant of that. -/
def Linked (records : List UnicodeRecord) (annotations : Annotations) (record : UnicodeRecord) : Prop :=
  let made := catalogRecord records annotations record
  made.baseSequence ≠ [] ∧
    (∃ base ∈ records, PlainForm base.emoji record.emoji ∧ made.baseSequence = cppString base.emoji) ∧
    made ∈ (generatedCatalog records annotations).variantsFor made.baseSequence

theorem linked_iff {record : UnicodeRecord} (hrecord : record ∈ records)
    (htoned : ∃ codepoint ∈ record.emoji.codepoints, isTone codepoint = true) :
    Linked records annotations record ↔
      removeTones record.emoji ≠ .empty ∧ removeTones record.emoji ∈ records.map (·.emoji) := by
  have hchanged : removeTones record.emoji ≠ record.emoji := by
    intro hsame
    obtain ⟨codepoint, hmem, htone⟩ := htoned
    rw [removeTones_eq_self_iff.mp hsame codepoint hmem] at htone
    cases htone
  have hmade : (catalogRecord records annotations record).baseSequence =
      cppString (baseOf (records.map (·.emoji)) record.emoji) := rfl
  unfold Linked
  simp only [hmade]
  rcases baseOf_eq_empty_or (records.map (·.emoji)) record.emoji with
    ⟨hempty, hreason⟩ | ⟨hbase, _, hmem⟩
  · rw [hempty]
    refine iff_of_false (fun h => h.1 rfl) fun h => ?_
    exact hreason.elim hchanged fun habsent => habsent h.2
  · rw [hbase]
    constructor
    · intro h
      exact ⟨fun hnil => h.1 (cppString_eq_nil_iff.mpr hnil), hmem⟩
    · intro h
      obtain ⟨base, hbaseMem, hemoji⟩ := List.mem_map.mp hmem
      refine ⟨fun hnil => h.1 (cppString_eq_nil_iff.mp hnil), ⟨base, hbaseMem, ⟨?_, ?_⟩, ?_⟩, ?_⟩
      · rw [hemoji]
        exact removeTones_eq_self_iff.mp (removeTones_removeTones _)
      · rw [hemoji, removeTones_removeTones]
      · rw [hemoji]
      · refine List.mem_append_right _ (List.mem_filter.mpr ⟨?_, ?_⟩)
        · rw [records_generatedCatalog]
          exact List.mem_map_of_mem hrecord
        · rw [hmade, hbase]
          exact decide_eq_true rfl

/-- A toned record is linked to its plain form exactly when taking the tones away leaves the sequence of a record. -/
theorem linked_of_plainForm_iff (records : List UnicodeRecord) (annotations : Annotations) (record : UnicodeRecord)
    (hrecord : record ∈ records) (htoned : ∃ codepoint ∈ record.emoji.codepoints, isTone codepoint = true) :
    ((∃ base ∈ records, PlainForm base.emoji record.emoji) → Linked records annotations record) ↔
      ((∃ base ∈ records, PlainForm base.emoji record.emoji) →
        removeTones record.emoji ≠ .empty ∧ removeTones record.emoji ∈ records.map (·.emoji)) :=
  imp_congr_right fun _ => linked_iff hrecord htoned

theorem linked_thumbs : Linked thumbs (fun _ _ => none) (unnamed [0x1F44D, 0x1F3FF] (by decide)) :=
  (linked_of_plainForm_iff thumbs (fun _ _ => none) (unnamed [0x1F44D, 0x1F3FF] (by decide))
    (List.mem_cons_of_mem _ List.mem_cons_self) (by decide)).mpr (fun _ => ⟨by decide, by decide⟩)
    ⟨unnamed [0x1F44D] (by decide), List.mem_cons_self, by decide, by decide⟩

/-- "victory hand" is spelled with a variation selector, and its variants without one. -/
theorem not_linked_victory :
    ∃ (records : List UnicodeRecord) (annotations : Annotations) (record : UnicodeRecord),
      record ∈ records ∧ (∃ codepoint ∈ record.emoji.codepoints, isTone codepoint = true) ∧
        (∃ base ∈ records, PlainForm base.emoji record.emoji) ∧ ¬ Linked records annotations record := by
  refine ⟨[unnamed [0x270C, 0xFE0F] (by decide), unnamed [0x270C, 0x1F3FB] (by decide)], fun _ _ => none,
    unnamed [0x270C, 0x1F3FB] (by decide), List.mem_cons_of_mem _ List.mem_cons_self, by decide,
    ⟨_, List.mem_cons_self, by decide, by decide⟩, fun h => h.1 (by decide +kernel)⟩

end UpdateUnicodeData

end EmojiPalette
