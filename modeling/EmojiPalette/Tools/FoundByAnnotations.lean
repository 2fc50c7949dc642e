import EmojiPalette.Tools.GeneratedTable

/-!
# From the Unicode data to the search

The way of an emoji from the file that lists it to the search that finds it: the generator reads the list and the annotations and writes the table, the compiler reads the table, the catalog is built from that and searched. Whatever the sources have as the name or a keyword of an emoji finds it, in the languages that the search looks at.
-/

namespace EmojiPalette

namespace UpdateUnicodeData

open Python

def listed (record : UnicodeRecord) : EmojiTestRecord :=
  ⟨record.emoji.codepoints, record.category, record.subgroup.codepoints, record.unicodeName.codepoints⟩

def written (casefold : Str → Str) (files : Locale → List (List AnnotationElement)) (records : List UnicodeRecord) : Str :=
  content records fun locale => parseAnnotations casefold (files locale)

/-- The text is the name of the record or one of its keywords, in a language that the search looks at. -/
def Annotates (files : Locale → List (List AnnotationElement)) (record : UnicodeRecord) (locale : Locale) (text : Text) :
    Prop :=
  ∃ language ∈ searchedLocales locale,
    let elements := elementsFor (files language) (withoutVariationSelectors record.emoji)
    text = nameFrom elements record language ∨ ∃ element ∈ elements, element.tts = false ∧ text ∈ items element.text

/-- Every search for the text, in the language, returns the record, unless the text is the sequence of a record or the limit cuts something off. -/
def FoundBy (catalog : EmojiCatalog) (record : EmojiRecord) (locale : Locale) (text : Text) : Prop :=
  ∀ limit, catalog.records.length ≤ limit → normalizeForSearch (cppString text) ≠ [] →
    catalog.contains (cppString text) = false →
    ∃ result ∈ catalog.search (cppString text) locale limit, result.emoji = record

/-! ### Tokens -/

theorem isInfix_intercalate (between : Bytes) {parts : List Bytes} {part : Bytes} (h : part ∈ parts) :
    part <:+: between.intercalate parts := by
  induction parts with
  | nil => cases h
  | cons first rest ih =>
      cases rest with
      | nil => rw [List.mem_singleton.mp h, List.intercalate_singleton]
      | cons second rest =>
          rw [List.intercalate_cons_cons, List.append_assoc]
          rcases List.mem_cons.mp h with rfl | h
          · exact (List.prefix_append _ _).isInfix
          · exact ((ih h).trans (List.suffix_append _ _).isInfix).trans (List.suffix_append _ _).isInfix

theorem isInfix_of_mem_split {value part : Bytes} {delimiter : UInt8} (h : part ∈ split value delimiter) : part <:+: value := by
  have hinfix := isInfix_intercalate [delimiter] (List.mem_of_mem_filter h)
  rwa [List.intercalate_splitOn] at hinfix

/-- A record matches the tokens of its own names and keywords. -/
theorem matchesFirmly_of_annotations {record : EmojiRecord} {locale language : Locale} {text : Bytes}
    (hlanguage : language ∈ searchedLocales locale) (hnormal : normalizeForSearch text ≠ [])
    (h : text = (record.annotations language).name ∨ text ∈ (record.annotations language).keywords) :
    record.MatchesFirmly locale (split (normalizeForSearch text) 32) := by
  intro token htoken
  have hinfix := isInfix_of_mem_split htoken
  rcases h with rfl | hkeyword
  · refine Or.inl ⟨_, List.mem_map_of_mem hlanguage, ?_⟩
    exact textMatches_iff.mpr ⟨hnormal, Or.inl hinfix⟩
  · refine Or.inr ⟨normalizeForSearch text, List.mem_flatMap.mpr ⟨language, hlanguage, ?_⟩, hnormal, hinfix⟩
    exact List.mem_map_of_mem hkeyword

/-! ### The catalog -/

theorem find_of_distinct {catalog : EmojiCatalog} {record : EmojiRecord}
    (hdistinct : (catalog.records.map (·.sequence)).Nodup) (hrecord : record ∈ catalog.records) :
    catalog.find record.sequence = some record := by
  cases hfind : catalog.find record.sequence with
  | none =>
      have hnone := List.find?_eq_none.mp hfind record hrecord
      simp at hnone
  | some found =>
      obtain ⟨hfound, hsequence⟩ := EmojiCatalog.sequence_of_find hfind
      rw [List.inj_on_of_nodup_map hdistinct hfound hrecord hsequence]

theorem foundBy_catalogRecord (casefold : Str → Str) (files : Locale → List (List AnnotationElement))
    {records : List UnicodeRecord} {record : UnicodeRecord} (hrecord : record ∈ records) {locale : Locale} {text : Text}
    (h : Annotates files record locale text) :
    let annotations : Annotations := fun locale => parseAnnotations casefold (files locale)
    FoundBy (generatedCatalog records annotations) (catalogRecord records annotations record) locale text := by
  intro annotations limit hlimit hnormal hcontains
  have hfind : (generatedCatalog records annotations).find (cppString text) = none := by
    simpa [EmojiCatalog.contains] using hcontains
  have hmem : catalogRecord records annotations record ∈ (generatedCatalog records annotations).records := by
    rw [records_generatedCatalog]
    exact List.mem_map_of_mem hrecord
  obtain ⟨language, hlanguage, htext⟩ := h
  refine (EmojiCatalog.mem_search_iff hnormal hfind hlimit hmem).mpr (matchesFirmly_of_annotations hlanguage hnormal ?_)
  rw [annotations_catalogRecord]
  rcases htext with hname | ⟨element, helement, htts, hitem⟩
  · exact Or.inl (congrArg cppString hname)
  · refine Or.inr (List.mem_map_of_mem (mem_sortedSet_iff.mpr ?_))
    exact mem_keywordItems_iff.mpr ⟨element, helement, htts, hitem⟩

/-- From the sources to the search: the compiled catalog has a record for each emoji that the file lists, in the order of the file, found under its sequence, with the category of its group; and each of the names and keywords that the sources have for it finds it. -/
theorem search_written (casefold : Str → Str) (files : Locale → List (List AnnotationElement)) (emojiTest : Str)
    (records : List UnicodeRecord) (hparse : parseEmojiTest emojiTest = .ok (records.map listed)) :
    Lists [] (splitlines emojiTest) (records.map listed) ∧
    ∃ catalog, (readTable (written casefold files records)).map EmojiCatalog.ofGenerated = some catalog ∧
      List.Forall₂ (fun record made => made.sequence = cppString record.emoji ∧ made.category = record.category ∧
        made.subgroup = cppString record.subgroup ∧ catalog.find made.sequence = some made ∧
        ∀ locale text, Annotates files record locale text → FoundBy catalog made locale text) records catalog.records := by
  obtain ⟨hlists, ⟨_, hdistinct⟩, _⟩ := lists_of_parseEmojiTest hparse
  let annotations : Annotations := fun locale => parseAnnotations casefold (files locale)
  refine ⟨hlists, generatedCatalog records annotations, ?_, ?_⟩
  · rw [written, readTable_content, Option.map_some, generatedCatalog]
  · have hemojis : (records.map (·.emoji)).Nodup := by
      refine List.Nodup.of_map (·.codepoints) ?_
      rwa [List.map_map] at hdistinct ⊢
    have hsequences : ((generatedCatalog records annotations).records.map (·.sequence)).Nodup := by
      rw [records_generatedCatalog, List.map_map]
      have hmapped := hemojis.map fun _ _ => cppString_injective
      rwa [List.map_map] at hmapped
    rw [records_generatedCatalog, List.forall₂_map_right_iff, List.forall₂_same]
    intro record hrecord
    have hmem : catalogRecord records annotations record ∈ (generatedCatalog records annotations).records := by
      rw [records_generatedCatalog]
      exact List.mem_map_of_mem hrecord
    exact ⟨rfl, rfl, rfl, find_of_distinct hsequences hmem,
      fun locale text h => foundBy_catalogRecord casefold files hrecord h⟩

def grinList : Str :=
  characters ['#', ' ', 'g', 'r', 'o', 'u', 'p', ':', ' ', 'F', 'l', 'a', 'g', 's', '\n'] ++
    characters ['1', 'F', '6', '0', '0', ' ', ';', ' '] ++ fullyQualified ++
    characters [' ', '#', ' ', '😀', ' ', 'E', '1', '.', '0', ' ', 'g', 'r', 'i', 'n', '\n'] ++
    characters ['1', 'F', '6', '3', 'A', ' ', ';', ' '] ++ fullyQualified ++
    characters [' ', '#', ' ', '😺', ' ', 'E', '1', '.', '0', ' ', 'c', 'a', 't', '\n']

def grin : UnicodeRecord :=
  ⟨⟨[0x1F600], by decide⟩, .flags, .empty, ⟨[0x67, 0x72, 0x69, 0x6E], by decide⟩⟩

def cat : UnicodeRecord :=
  ⟨⟨[0x1F63A], by decide⟩, .flags, .empty, ⟨[0x63, 0x61, 0x74], by decide⟩⟩

def lachen : Text := ⟨[0x4C, 0x61, 0x63, 0x68, 0x65, 0x6E], by decide⟩

def froh : Text := ⟨[0x66, 0x72, 0x6F, 0x68], by decide⟩

/-- "aha |froh", the keywords of the first. -/
def ahaFroh : Text := ⟨[0x61, 0x68, 0x61, 0x20, 0x7C, 0x66, 0x72, 0x6F, 0x68], by decide⟩

/-- The German annotations, with a second keyword for the first emoji. -/
def germanFiles : Locale → List (List AnnotationElement)
  | .german => [[⟨grin.emoji, true, lachen⟩, ⟨grin.emoji, false, ahaFroh⟩, ⟨cat.emoji, false, froh⟩]]
  | _ => []

/-- A keyword finds both, the German name the first and the English name the second, in a German search. -/
theorem search_written_grin :
    ∃ catalog, (readTable (written id germanFiles [grin, cat])).map EmojiCatalog.ofGenerated = some catalog ∧
      (∃ result ∈ catalog.search (cppString froh) .german 2, result.emoji.sequence = cppString grin.emoji) ∧
      (∃ result ∈ catalog.search (cppString froh) .german 2, result.emoji.sequence = cppString cat.emoji) ∧
      (∃ result ∈ catalog.search (cppString lachen) .german 2, result.emoji.sequence = cppString grin.emoji) ∧
      ∃ result ∈ catalog.search (cppString cat.unicodeName) .german 2, result.emoji.sequence = cppString cat.emoji := by
  obtain ⟨_, catalog, hcatalog, hrecords⟩ := search_written id germanFiles grinList [grin, cat] (by decide +kernel)
  obtain ⟨first, _, ⟨hfirst, _, _, _, hfindsFirst⟩, hrest, hall⟩ := List.forall₂_cons_left_iff.mp hrecords
  obtain ⟨second, _, ⟨hsecond, _, _, _, hfindsSecond⟩, hnone, rfl⟩ := List.forall₂_cons_left_iff.mp hrest
  obtain rfl := List.forall₂_nil_left_iff.mp hnone
  have hlimit : catalog.records.length ≤ 2 := by
    rw [hall]
    exact le_refl 2
  have hother : ∀ text, cppString grin.emoji ≠ text → cppString cat.emoji ≠ text → catalog.contains text = false := by
    intro text hgrin hcat
    simp [EmojiCatalog.contains, EmojiCatalog.find, hall, hfirst, hsecond, hgrin, hcat]
  have hfroh := hother (cppString froh) (by decide +kernel) (by decide +kernel)
  have hlachen := hother (cppString lachen) (by decide +kernel) (by decide +kernel)
  have hname := hother (cppString cat.unicodeName) (by decide +kernel) (by decide +kernel)
  have hkeyword : ∀ record ∈ [grin, cat], Annotates germanFiles record .german froh := by
    intro record hrecord
    refine ⟨.german, by decide, Or.inr ?_⟩
    rcases List.mem_pair.mp hrecord with rfl | rfl
    · exact ⟨⟨grin.emoji, false, ahaFroh⟩, List.mem_filter.mpr ⟨by simp [germanFiles], by decide +kernel⟩, rfl,
        by decide +kernel⟩
    · exact ⟨⟨cat.emoji, false, froh⟩, List.mem_filter.mpr ⟨by simp [germanFiles], by decide +kernel⟩, rfl,
        by decide +kernel⟩
  refine ⟨catalog, hcatalog, ?_, ?_, ?_, ?_⟩
  · obtain ⟨result, hresult, rfl⟩ := hfindsFirst .german froh (hkeyword grin (by simp)) 2 hlimit (by decide +kernel) hfroh
    exact ⟨result, hresult, hfirst⟩
  · obtain ⟨result, hresult, rfl⟩ := hfindsSecond .german froh (hkeyword cat (by simp)) 2 hlimit (by decide +kernel) hfroh
    exact ⟨result, hresult, hsecond⟩
  · obtain ⟨result, hresult, rfl⟩ := hfindsFirst .german lachen ⟨.german, by decide, Or.inl (by decide +kernel)⟩ 2 hlimit
      (by decide +kernel) hlachen
    exact ⟨result, hresult, hfirst⟩
  · obtain ⟨result, hresult, rfl⟩ := hfindsSecond .german cat.unicodeName ⟨.english, by decide, Or.inl (by decide +kernel)⟩ 2
      hlimit (by decide +kernel) hname
    exact ⟨result, hresult, hsecond⟩

end UpdateUnicodeData

end EmojiPalette
