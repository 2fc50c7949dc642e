import EmojiPalette.Library.PythonText
import EmojiPalette.Library.Ranking
import EmojiPalette.Model.WholeCharacters
import EmojiPalette.Ui.VariantFamilies
import Mathlib.Data.List.Lex
import Mathlib.Data.Prod.Lex

/-!
# Names and keywords

The annotations of a language are collected from the elements of two files: the last spoken name of an emoji, and the keywords of all other elements for it, each once and in the order of their case-folded forms. The keywords stand in the table as one text with bars between them, and the catalog splits it at the bars. It gets back the keywords that were collected.
-/

namespace EmojiPalette

namespace UpdateUnicodeData

open Python

/-! ### Collecting -/

/-- An element of an annotation file, with no text read as the empty one. -/
structure AnnotationElement where
  cp : Text
  tts : Bool
  text : Text

def bar : Nat := 0x7C

/-- The codepoints of the items between the bars, stripped and not empty. -/
def itemCodepoints (text : Text) : List Str := ((text.codepoints.splitOn bar).map strip).filter fun item => !item.isEmpty

theorem mem_codepoints_of_item {text : Text} {item : Str} (h : item ∈ itemCodepoints text) :
    (∀ codepoint ∈ item, codepoint ∈ text.codepoints) ∧ bar ∉ item ∧ item ≠ [] := by
  obtain ⟨hmem, hne⟩ := List.mem_filter.mp h
  obtain ⟨part, hpart, rfl⟩ := List.mem_map.mp hmem
  rw [List.splitOn_eq_splitOnP] at hpart
  refine ⟨fun codepoint hcodepoint => ?_, fun hbar => ?_, by simpa using hne⟩
  · exact (mem_of_mem_splitOnP hpart codepoint (strip_subset part hcodepoint)).1
  · simpa using (mem_of_mem_splitOnP hpart bar (strip_subset part hbar)).2

def items (text : Text) : List Text :=
  (itemCodepoints text).attach.map fun item =>
    ⟨item.1, fun codepoint h => text.characters codepoint ((mem_codepoints_of_item item.2).1 codepoint h)⟩

/-- What an element adds to the annotations collected so far. -/
def addElement (result : Text → Option Annotation) (element : AnnotationElement) : Text → Option Annotation :=
  let emoji := withoutVariationSelectors element.cp
  let entry := (result emoji).getD ⟨.empty, []⟩
  Function.update result emoji <| some <|
    if element.tts then { entry with name := element.text }
    else { entry with keywords := entry.keywords ++ items element.text }

/-- What the keywords are sorted by: the case-folded keyword, then the keyword itself. -/
def sortKey (casefold : Str → Str) (keyword : Text) : Str ×ₗ Str := toLex (casefold keyword.codepoints, keyword.codepoints)

def sortedSet (casefold : Str → Str) (keywords : List Text) : List Text :=
  Ranking.sort (fun one other => sortKey casefold one < sortKey casefold other) keywords.dedup

/-- The annotations in the elements of the files, which are read one after the other. -/
def parseAnnotations (casefold : Str → Str) (files : List (List AnnotationElement)) (emoji : Text) : Option Annotation :=
  (files.foldl (fun result elements => elements.foldl addElement result) (fun _ => none) emoji).map fun entry =>
    { entry with keywords := sortedSet casefold entry.keywords }

/-! ### What is collected -/

/-- The elements for an emoji without variation selectors. -/
def elementsFor (files : List (List AnnotationElement)) (emoji : Text) : List AnnotationElement :=
  files.flatten.filter fun element => withoutVariationSelectors element.cp = emoji

/-- The text of the last element with a spoken name. -/
def spokenName (elements : List AnnotationElement) : Text :=
  ((elements.filter fun element => element.tts).getLast?.map (·.text)).getD .empty

def keywordItems (elements : List AnnotationElement) : List Text :=
  (elements.filter fun element => !element.tts).flatMap fun element => items element.text

/-- The entry that is collected from the elements for one emoji. -/
def collected (elements : List AnnotationElement) : Option Annotation :=
  if elements.isEmpty then none else some ⟨spokenName elements, keywordItems elements⟩

theorem collected_concat (elements : List AnnotationElement) (element : AnnotationElement) :
    collected (elements ++ [element]) =
      let entry := (collected elements).getD ⟨.empty, []⟩
      some (if element.tts then { entry with name := element.text }
        else { entry with keywords := entry.keywords ++ items element.text }) := by
  have hentry : (collected elements).getD ⟨.empty, []⟩ = ⟨spokenName elements, keywordItems elements⟩ := by
    cases elements <;> rfl
  have hsome : collected (elements ++ [element]) =
      some ⟨spokenName (elements ++ [element]), keywordItems (elements ++ [element])⟩ := by
    rw [collected, if_neg (by simp)]
  dsimp only
  rw [hentry, hsome]
  cases htts : element.tts with
  | true => simp [htts, spokenName, keywordItems, List.filter_append]
  | false => simp [htts, spokenName, keywordItems, List.filter_append]

theorem foldl_addElement (elements : List AnnotationElement) (emoji : Text) :
    elements.foldl addElement (fun _ => none) emoji =
      collected (elements.filter fun element => withoutVariationSelectors element.cp = emoji) := by
  induction elements using List.reverseRecOn with
  | nil => rfl
  | append_singleton elements element ih =>
      rw [List.foldl_append, List.foldl_cons, List.foldl_nil, addElement, List.filter_append]
      by_cases hsame : withoutVariationSelectors element.cp = emoji
      · subst hsame
        have hlast : [element].filter (fun other => withoutVariationSelectors other.cp = withoutVariationSelectors element.cp) =
            [element] := by simp
        rw [Function.update_self, ih, hlast, collected_concat]
      · have hlast : [element].filter (fun other => withoutVariationSelectors other.cp = emoji) = [] := by simp [hsame]
        rw [Function.update_of_ne (Ne.symm hsame), ih, hlast, List.append_nil]

theorem parseAnnotations_eq (casefold : Str → Str) (files : List (List AnnotationElement)) (emoji : Text) :
    parseAnnotations casefold files emoji = (collected (elementsFor files emoji)).map fun entry =>
      { entry with keywords := sortedSet casefold entry.keywords } := by
  rw [parseAnnotations, ← List.foldl_flatten, foldl_addElement]
  rfl

/-! ### The order of the keywords -/

theorem sortKey_injective (casefold : Str → Str) {one other : Text} (h : sortKey casefold one = sortKey casefold other) :
    one = other := by
  have hcodepoints : one.codepoints = other.codepoints := congrArg (fun key => (ofLex key).2) h
  obtain ⟨codepoints, _⟩ := one
  obtain ⟨otherCodepoints, _⟩ := other
  cases hcodepoints
  rfl

theorem ranks_sortKey (casefold : Str → Str) :
    Ranking.Ranks fun one other => decide (sortKey casefold one < sortKey casefold other) where
  asymm := by
    intro one other h
    exact decide_eq_false (lt_asymm (of_decide_eq_true h))
  trans := by
    intro one other third h hnext
    exact decide_eq_true (lt_trans (of_decide_eq_true h) (of_decide_eq_true hnext))
  total := by
    intro one other hne
    rcases lt_or_gt_of_ne fun hsame => hne (sortKey_injective casefold hsame) with hlt | hlt
    · exact Or.inl (decide_eq_true hlt)
    · exact Or.inr (decide_eq_true hlt)

theorem mem_sortedSet_iff {casefold : Str → Str} {keywords : List Text} {keyword : Text} :
    keyword ∈ sortedSet casefold keywords ↔ keyword ∈ keywords := by
  rw [sortedSet, (Ranking.sort_perm _ _).mem_iff, List.mem_dedup]

theorem pairwise_sortedSet (casefold : Str → Str) (keywords : List Text) :
    (sortedSet casefold keywords).Pairwise fun one other => sortKey casefold one < sortKey casefold other :=
  ((ranks_sortKey casefold).pairwise_sort (List.nodup_dedup keywords)).imp of_decide_eq_true

/-! ### From the table to the catalog -/

/-- Parts that are joined by a delimiter none of them has in it are got back. -/
theorem split_intercalate {delimiter : UInt8} {parts : List Bytes} (h : ∀ part ∈ parts, part ≠ [] ∧ delimiter ∉ part) :
    split ([delimiter].intercalate parts) delimiter = parts := by
  cases parts with
  | nil => rfl
  | cons first rest =>
      rw [split, List.splitOn_intercalate delimiter (fun part hpart => (h part hpart).2) (List.cons_ne_nil _ _)]
      refine List.filter_eq_self.mpr fun part hpart => ?_
      simpa using (h part hpart).1

/-- A byte below 0x80 is in the bytes of a string only if it is in the string. -/
theorem not_mem_encodeUtf8 {codepoints : List Nat} (hscalar : ∀ codepoint ∈ codepoints, isScalar codepoint = true)
    {byte : UInt8} (hbyte : byte < 0x80) (h : byte.toNat ∉ codepoints) : byte ∉ encodeUtf8 codepoints := by
  intro hmem
  rw [encodeUtf8_eq hscalar] at hmem
  have hcodepoint : byte.toNat ∈ codepoints.filter (· < 0x80) := by
    rw [← map_toNat_filter hscalar]
    exact List.mem_map_of_mem (List.mem_filter.mpr ⟨hmem, decide_eq_true hbyte⟩)
  exact h (List.mem_of_mem_filter hcodepoint)

theorem not_mem_cppString {value : Text} (h : bar ∉ value.codepoints) : 124 ∉ cppString value :=
  not_mem_encodeUtf8 (fun codepoint hmem => (value.characters codepoint hmem).1) (by decide) h

theorem codepoints_of_mem_items {text item : Text} (h : item ∈ items text) : item.codepoints ∈ itemCodepoints text := by
  obtain ⟨⟨codepoints, hmem⟩, _, rfl⟩ := List.mem_map.mp h
  exact hmem

/-- The keywords of a row are split into the keywords that were joined. -/
theorem split_localizedKeywords {annotations : Annotations} {record : UnicodeRecord} {locale : Locale}
    {entry : Annotation} (h : annotationFor (annotations locale) record.emoji = some entry)
    (hkeywords : ∀ keyword ∈ entry.keywords, keyword ≠ .empty ∧ bar ∉ keyword.codepoints) :
    split (localizedKeywords annotations record locale) 124 = entry.keywords.map cppString := by
  rw [localizedKeywords, h]
  refine split_intercalate fun part hpart => ?_
  obtain ⟨keyword, hkeyword, rfl⟩ := List.mem_map.mp hpart
  obtain ⟨hne, hbar⟩ := hkeywords keyword hkeyword
  exact ⟨fun hnil => hne (cppString_eq_nil_iff.mp hnil), not_mem_cppString hbar⟩

theorem mem_keywordItems_iff {elements : List AnnotationElement} {keyword : Text} :
    keyword ∈ keywordItems elements ↔ ∃ element ∈ elements, element.tts = false ∧ keyword ∈ items element.text := by
  simp [keywordItems, List.mem_flatMap, List.mem_filter, and_assoc]

/-- The name of a record, where the name of the Unicode data stands in for one in English. -/
def nameFrom (elements : List AnnotationElement) (record : UnicodeRecord) (locale : Locale) : Text :=
  if spokenName elements = .empty then if locale = .english then record.unicodeName else .empty
  else spokenName elements

/-- The annotations of a record of the catalog are the ones of the elements for its emoji. -/
theorem annotations_catalogRecord (casefold : Str → Str) (files : Locale → List (List AnnotationElement))
    (records : List UnicodeRecord) (record : UnicodeRecord) (locale : Locale) :
    let elements := elementsFor (files locale) (withoutVariationSelectors record.emoji)
    (catalogRecord records (fun locale => parseAnnotations casefold (files locale)) record).annotations locale =
      ⟨cppString (nameFrom elements record locale), (sortedSet casefold (keywordItems elements)).map cppString⟩ := by
  intro elements
  let annotations : Annotations := fun locale => parseAnnotations casefold (files locale)
  have hentry : annotationFor (annotations locale) record.emoji = (collected elements).map fun entry =>
      { entry with keywords := sortedSet casefold entry.keywords } := parseAnnotations_eq _ _ _
  change LocalizedAnnotation.mk (cppString (localizedName annotations record locale))
    (split (localizedKeywords annotations record locale) 124) = _
  cases helements : elements with
  | nil =>
      rw [helements] at hentry
      rw [localizedName, localizedKeywords, hentry]
      rfl
  | cons element others =>
      rw [helements] at hentry
      have hkeywords : ∀ keyword ∈ sortedSet casefold (keywordItems (element :: others)),
          keyword ≠ .empty ∧ bar ∉ keyword.codepoints := by
        intro keyword hkeyword
        obtain ⟨source, _, _, hitem⟩ := mem_keywordItems_iff.mp (mem_sortedSet_iff.mp hkeyword)
        obtain ⟨_, hbar, hne⟩ := mem_codepoints_of_item (codepoints_of_mem_items hitem)
        refine ⟨?_, hbar⟩
        rintro rfl
        exact hne rfl
      rw [split_localizedKeywords hentry hkeywords, localizedName, hentry]
      have hempty : ∀ name : Text, (name.codepoints.isEmpty = true) ↔ name = .empty := by
        rintro ⟨_ | ⟨codepoint, codepoints⟩, hcharacters⟩
        · exact ⟨fun _ => rfl, fun _ => rfl⟩
        · simp [Text.empty]
      simp [collected, hempty, nameFrom]

/-- The catalog has the annotations that were collected: the last spoken name for the emoji, or the one of the Unicode data in English, and the items of all other elements for it, each once and in their order. -/
theorem catalogRecord_annotations (casefold : Str → Str) (files : Locale → List (List AnnotationElement))
    (records : List UnicodeRecord) (record : UnicodeRecord) (locale : Locale) :
    let annotations : Annotations := fun locale => parseAnnotations casefold (files locale)
    let elements := elementsFor (files locale) (withoutVariationSelectors record.emoji)
    ∃ (name : Text) (keywords : List Text),
      (catalogRecord records annotations record).annotations locale = ⟨cppString name, keywords.map cppString⟩ ∧
      name = (if spokenName elements = .empty then if locale = .english then record.unicodeName else .empty
        else spokenName elements) ∧
      keywords.Pairwise (fun one other => sortKey casefold one < sortKey casefold other) ∧
      ∀ keyword, keyword ∈ keywords ↔ ∃ element ∈ elements, element.tts = false ∧ keyword ∈ items element.text := by
  intro annotations elements
  refine ⟨_, _, annotations_catalogRecord casefold files records record locale, rfl, pairwise_sortedSet casefold _,
    fun keyword => ?_⟩
  rw [mem_sortedSet_iff, mem_keywordItems_iff]

end UpdateUnicodeData

end EmojiPalette
