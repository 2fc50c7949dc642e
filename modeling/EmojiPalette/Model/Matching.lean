import EmojiPalette.Model.QueryText
import Mathlib.Data.List.Infix

/-!
# Which records a search returns

The source says how well a text matches a token by a signed number, and that it does not match by a negative one. What is a match is stated here without numbers, by the four ways a text can contain a token; the numbers are then compared with it. A match that is only fuzzy keeps its record when it is in a name, but not when it is in a keyword: the score of a keyword is less than what the fuzzy match takes off it.
-/

namespace EmojiPalette

/-- The text is the token, begins with it, contains it, or has its bytes in their order somewhere. -/
def TextMatches (token text : Bytes) : Prop :=
  text ≠ [] ∧ (text = token ∨ token <+: text ∨ token <:+: text ∨ (3 ≤ token.length ∧ token.Sublist text))

instance (token text : Bytes) : Decidable (TextMatches token text) := inferInstanceAs (Decidable (_ ∧ _))

/-- The locales a search looks at: its own, and English behind it. -/
def searchedLocales (locale : Locale) : List Locale := if locale = .english then [.english] else [locale, .english]

namespace EmojiRecord

def searchedNames (record : EmojiRecord) (locale : Locale) : List Bytes :=
  (searchedLocales locale).map record.searchDocument.names

def searchedKeywords (record : EmojiRecord) (locale : Locale) : List Bytes :=
  (searchedLocales locale).flatMap record.searchDocument.keywords

/-- Every token matches a name or a keyword. -/
def Matches (record : EmojiRecord) (locale : Locale) (tokens : List Bytes) : Prop :=
  ∀ token ∈ tokens, ∃ text ∈ record.searchedNames locale ++ record.searchedKeywords locale, TextMatches token text

/-- Every token matches a name, or is contained in a keyword. -/
def MatchesFirmly (record : EmojiRecord) (locale : Locale) (tokens : List Bytes) : Prop :=
  ∀ token ∈ tokens, (∃ name ∈ record.searchedNames locale, TextMatches token name) ∨
    ∃ keyword ∈ record.searchedKeywords locale, keyword ≠ [] ∧ token <:+: keyword

instance (record : EmojiRecord) (locale : Locale) (tokens : List Bytes) : Decidable (record.Matches locale tokens) :=
  inferInstanceAs (Decidable (∀ token ∈ tokens, _))

instance (record : EmojiRecord) (locale : Locale) (tokens : List Bytes) :
    Decidable (record.MatchesFirmly locale tokens) := inferInstanceAs (Decidable (∀ token ∈ tokens, _))

end EmojiRecord

/-! ### The source's tests of texts -/

theorem isSubsequence_iff {needle haystack : Bytes} : isSubsequence needle haystack = true ↔ needle.Sublist haystack := by
  induction haystack generalizing needle with
  | nil => cases needle <;> simp [isSubsequence]
  | cons value haystack ih =>
      cases needle with
      | nil => simp [isSubsequence]
      | cons byte needle =>
          rw [isSubsequence]
          by_cases hsame : value = byte
          · rw [if_pos hsame, ih, hsame, List.cons_sublist_cons]
          · rw [if_neg hsame, ih, List.cons_sublist_cons']
            simp [Ne.symm hsame]

theorem occursIn_iff {needle haystack : Bytes} : occursIn needle haystack = true ↔ needle <:+: haystack := by
  rw [occursIn, List.any_eq_true, List.infix_iff_prefix_suffix]
  simp only [List.mem_tails, List.isPrefixOf_iff_prefix, and_comm]

/-- Where the token stands together in the text, the score is one of four. -/
theorem textScore_of_together {token text : Bytes} (htext : text ≠ []) (h : token <:+: text) (exact : Int) :
    textScore token text exact ∈ [exact, exact - 150, exact - 250, exact - 400] := by
  rw [textScore, if_neg (by simpa using htext), if_pos (occursIn_iff.mpr h)]
  split_ifs <;> simp

/-- Where it does not, only the fuzzy test can succeed. -/
theorem textScore_of_apart {token text : Bytes} (htext : text ≠ []) (h : ¬ token <:+: text) (exact : Int) :
    textScore token text exact = if 3 ≤ token.length ∧ token.Sublist text then exact - 750 else -1 := by
  have hequal : text ≠ token := fun heq => h (heq ▸ List.infix_refl text)
  have hprefix : ¬ token <+: text := fun hstart => h hstart.isInfix
  have hword : ¬ 32 :: token <:+: text := fun hoccurs => h ((List.suffix_cons 32 token).isInfix.trans hoccurs)
  rw [textScore, if_neg (by simpa using htext), if_neg hequal,
    if_neg fun hstart => hprefix (List.isPrefixOf_iff_prefix.mp hstart),
    if_neg fun hoccurs => hword (occursIn_iff.mp hoccurs), if_neg fun hoccurs => h (occursIn_iff.mp hoccurs)]
  exact if_congr (by simp [isSubsequence_iff]) rfl rfl

/-- A match counts unless it is fuzzy and the text is worth less than what that takes off. -/
theorem textScore_nonneg_iff {token text : Bytes} {exact : Int} (hexact : 400 ≤ exact) :
    0 ≤ textScore token text exact ↔ text ≠ [] ∧ (token <:+: text ∨
      (750 ≤ exact ∧ 3 ≤ token.length ∧ token.Sublist text)) := by
  by_cases hempty : text = []
  · simp [hempty, textScore]
  rw [and_iff_right hempty]
  by_cases hoccurs : token <:+: text
  · have hscore := textScore_of_together hempty hoccurs exact
    simp only [List.mem_cons, List.not_mem_nil, or_false] at hscore
    exact iff_of_true (by omega) (Or.inl hoccurs)
  rw [or_iff_right hoccurs, textScore_of_apart hempty hoccurs]
  by_cases hfuzzy : 3 ≤ token.length ∧ token.Sublist text
  · rw [if_pos hfuzzy, and_iff_left hfuzzy]
    omega
  · rw [if_neg hfuzzy]
    exact iff_of_false (by omega) fun h => hfuzzy h.2

theorem textMatches_iff {token text : Bytes} :
    TextMatches token text ↔ text ≠ [] ∧ (token <:+: text ∨ (3 ≤ token.length ∧ token.Sublist text)) := by
  refine and_congr_right fun _ => ⟨fun h => ?_, fun h => Or.inr (Or.inr h)⟩
  rcases h with heq | hprefix | hrest
  · exact Or.inl (heq ▸ List.infix_refl token)
  · exact Or.inl hprefix.isInfix
  · exact hrest

/-- The score of a name is high enough for every match. -/
theorem textScore_name_nonneg_iff {token text : Bytes} {exact : Int} (hexact : 750 ≤ exact) :
    0 ≤ textScore token text exact ↔ TextMatches token text := by
  rw [textScore_nonneg_iff (by omega), textMatches_iff]
  simp [hexact]

/-- The score of a keyword is not: it leaves out the fuzzy ones. -/
theorem textScore_keyword_nonneg_iff {token text : Bytes} {exact : Int} (hexact : 400 ≤ exact) (hlow : exact < 750) :
    0 ≤ textScore token text exact ↔ text ≠ [] ∧ token <:+: text := by
  rw [textScore_nonneg_iff hexact]
  simp [Int.not_le.mpr hlow]

theorem nonneg_foldl_max_iff {score : Bytes → Int} {texts : List Bytes} {first : Int} :
    0 ≤ texts.foldl (fun best text => max best (score text)) first ↔ 0 ≤ first ∨ ∃ text ∈ texts, 0 ≤ score text := by
  induction texts generalizing first with
  | nil => simp
  | cons text rest ih =>
      rw [List.foldl_cons, ih, le_max_iff]
      simp [or_assoc]

theorem localeScore_nonneg_iff (token : Bytes) (document : SearchDocument) (locale : Locale) {name keyword : Int}
    (hname : 750 ≤ name) (hkeyword : 400 ≤ keyword) (hlow : keyword < 750) :
    0 ≤ localeScore token document locale name keyword ↔ TextMatches token (document.names locale) ∨
      ∃ text ∈ document.keywords locale, text ≠ [] ∧ token <:+: text := by
  rw [localeScore, nonneg_foldl_max_iff, textScore_name_nonneg_iff hname]
  simp only [textScore_keyword_nonneg_iff hkeyword hlow]

theorem documentScore_nonneg_iff {token : Bytes} {record : EmojiRecord} {locale : Locale} :
    0 ≤ documentScore token record.searchDocument locale ↔ record.MatchesFirmly locale [token] := by
  have hown := localeScore_nonneg_iff token record.searchDocument locale (by omega : (750 : Int) ≤ 1000)
    (by omega : (400 : Int) ≤ 700) (by omega)
  have henglish := localeScore_nonneg_iff token record.searchDocument .english (by omega : (750 : Int) ≤ 900)
    (by omega : (400 : Int) ≤ 600) (by omega)
  rw [EmojiRecord.MatchesFirmly, List.forall_mem_singleton, EmojiRecord.searchedNames, EmojiRecord.searchedKeywords,
    searchedLocales, documentScore]
  by_cases hlocale : locale = .english
  · subst hlocale
    simpa using hown
  · simp only [hlocale, ne_eq, not_false_eq_true, if_true, if_false, le_max_iff, hown, henglish]
    grind

private theorem isSome_foldlM_guard_iff {α β : Type} {fails : α → Prop} [DecidablePred fails] {add : β → α → β}
    {entries : List α} {total : β} :
    (entries.foldlM (fun total entry => if fails entry then none else some (add total entry)) total).isSome ↔
      ∀ entry ∈ entries, ¬ fails entry := by
  induction entries generalizing total with
  | nil => simp
  | cons entry rest ih =>
      rw [List.foldlM_cons, List.forall_mem_cons]
      by_cases hfails : fails entry
      · simp [hfails]
      · simp [hfails, ih]

theorem isSome_totalScore_iff {tokens : List Bytes} {record : EmojiRecord} {locale : Locale} :
    (totalScore tokens record.searchDocument locale).isSome ↔ record.MatchesFirmly locale tokens := by
  rw [totalScore, isSome_foldlM_guard_iff, EmojiRecord.MatchesFirmly]
  refine forall₂_congr fun token _ => ?_
  rw [Int.not_lt, documentScore_nonneg_iff, EmojiRecord.MatchesFirmly, List.forall_mem_singleton]

/-! ### The search -/

private theorem exists_mem_splitOn {value : Bytes} {byte delimiter : UInt8} (hmem : byte ∈ value)
    (hne : byte ≠ delimiter) : ∃ part ∈ value.splitOn delimiter, byte ∈ part := by
  induction value with
  | nil => cases hmem
  | cons first rest ih =>
      by_cases hdelimiter : first = delimiter
      · have hrest : byte ∈ rest := (List.mem_cons.mp hmem).resolve_left fun heq => hne (heq.trans hdelimiter)
        obtain ⟨part, hpart, hbyte⟩ := ih hrest
        rw [hdelimiter, splitOn_cons_self]
        exact ⟨part, List.mem_cons_of_mem _ hpart, hbyte⟩
      · obtain ⟨head, tail, hparts, hgrown⟩ := splitOn_cons_of_ne hdelimiter rest
        rw [hparts] at ih
        rw [hgrown]
        rcases List.mem_cons.mp hmem with rfl | hrest
        · exact ⟨byte :: head, List.mem_cons_self, List.mem_cons_self⟩
        · obtain ⟨part, hpart, hbyte⟩ := ih hrest
          rcases List.mem_cons.mp hpart with rfl | htail
          · exact ⟨first :: part, List.mem_cons_self, List.mem_cons_of_mem first hbyte⟩
          · exact ⟨part, List.mem_cons_of_mem _ htail, hbyte⟩

theorem split_ne_nil {value : Bytes} {delimiter : UInt8} (h : ∃ byte ∈ value, byte ≠ delimiter) :
    split value delimiter ≠ [] := by
  obtain ⟨byte, hmem, hne⟩ := h
  obtain ⟨part, hpart, hbyte⟩ := exists_mem_splitOn hmem hne
  refine List.ne_nil_of_mem (a := part) (List.mem_filter.mpr ⟨hpart, ?_⟩)
  simp [List.ne_nil_of_mem hbyte]

theorem queryTokens_ne_nil {query : Bytes} (h : normalizeForSearch query ≠ []) : queryTokens query ≠ [] :=
  split_ne_nil (exists_mem_normalizeForSearch_ne h)

namespace EmojiCatalog

/-- What a search does past its two early returns. -/
theorem search_of_find_eq_none {catalog : EmojiCatalog} {query : Bytes} (hnormal : normalizeForSearch query ≠ [])
    (hfind : catalog.find query = none) (locale : Locale) (limit : Nat) :
    catalog.search query locale limit = (catalog.candidates (queryTokens query) locale).take limit := by
  have htokens : queryTokens (normalizeForSearch query) = queryTokens query := queryTokens_normalizeForSearch query
  have hsome : ¬ (queryTokens query).isEmpty = true := by simpa using queryTokens_ne_nil hnormal
  simp only [search, htokens, hfind, if_neg hsome]
  by_cases hlimit : limit = 0
  · rw [if_pos (by simp [hlimit]), hlimit, List.take_zero]
  · rw [if_neg (by simp [hnormal, hlimit])]

theorem search_of_find_eq_some {catalog : EmojiCatalog} {query : Bytes} {record : EmojiRecord}
    (hnormal : normalizeForSearch query ≠ []) (hfind : catalog.find query = some record) (locale : Locale) {limit : Nat}
    (hlimit : limit ≠ 0) : catalog.search query locale limit = [⟨record, 10000⟩] := by
  simp only [search, hfind]
  rw [if_neg (by simp [hnormal, hlimit])]

theorem search_eq_nil (catalog : EmojiCatalog) {query : Bytes} (locale : Locale) {limit : Nat}
    (h : normalizeForSearch query = [] ∨ limit = 0) : catalog.search query locale limit = [] := by
  simp only [search]
  rw [if_pos (by simpa using h)]

/-- A search for something that is no sequence returns the records that match firmly, when nothing is cut off. -/
theorem mem_search_iff {catalog : EmojiCatalog} {query : Bytes} {locale : Locale} {limit : Nat} {record : EmojiRecord}
    (hquery : normalizeForSearch query ≠ []) (hfind : catalog.find query = none)
    (hlimit : catalog.records.length ≤ limit) (hrecord : record ∈ catalog.records) :
    (∃ result ∈ catalog.search query locale limit, result.emoji = record) ↔
      record.MatchesFirmly locale (split (normalizeForSearch query) 32) := by
  have hsearch : catalog.search query locale limit =
      catalog.candidates (split (normalizeForSearch query) 32) locale := by
    have hlength : (catalog.candidates (queryTokens query) locale).length ≤ limit := by
      rw [candidates, List.length_insertionSort]
      exact le_trans (List.length_filterMap_le _ _) hlimit
    rw [search_of_find_eq_none hquery hfind, List.take_of_length_le hlength]
    rfl
  rw [hsearch, ← isSome_totalScore_iff]
  simp only [candidates, List.mem_insertionSort, List.mem_filterMap, Option.map_eq_some_iff]
  constructor
  · intro h
    obtain ⟨result, ⟨other, _, score, hscore, rfl⟩, rfl⟩ := h
    exact hscore ▸ rfl
  · intro h
    obtain ⟨score, hscore⟩ := Option.isSome_iff_exists.mp h
    exact ⟨⟨record, score⟩, ⟨record, hrecord, score, hscore, rfl⟩, rfl⟩

/-- The search returns exactly the records every token matches, as long as no token of such a record is matched only by the fuzzy test of keywords. -/
theorem search_complete_iff (catalog : EmojiCatalog) (query : Bytes) (locale : Locale) (limit : Nat)
    (record : EmojiRecord) (hquery : normalizeForSearch query ≠ []) (hsequence : catalog.contains query = false)
    (hlimit : catalog.records.length ≤ limit) (hrecord : record ∈ catalog.records) :
    let tokens := split (normalizeForSearch query) 32
    ((∃ result ∈ catalog.search query locale limit, result.emoji = record) ↔ record.Matches locale tokens) ↔
      (record.Matches locale tokens → record.MatchesFirmly locale tokens) := by
  have hfind : catalog.find query = none := by simpa [contains] using hsequence
  have hweaker : record.MatchesFirmly locale (split (normalizeForSearch query) 32) →
      record.Matches locale (split (normalizeForSearch query) 32) := by
    intro h token htoken
    rcases h token htoken with ⟨name, hname, hmatches⟩ | ⟨keyword, hkeyword, hne, hoccurs⟩
    · exact ⟨name, List.mem_append_left _ hname, hmatches⟩
    · exact ⟨keyword, List.mem_append_right _ hkeyword, textMatches_iff.mpr ⟨hne, Or.inl hoccurs⟩⟩
  dsimp only
  rw [mem_search_iff hquery hfind hlimit hrecord]
  exact ⟨fun h => h.mpr, fun h => ⟨hweaker, h⟩⟩

/-- One record with the name "face" and the keyword "grinning" in every language. -/
def grinning : EmojiRecord where
  sequence := [240, 159, 152, 128]
  category := .smileysEmotion
  subgroup := []
  annotations := fun _ => ⟨[102, 97, 99, 101], [[103, 114, 105, 110, 110, 105, 110, 103]]⟩
  baseSequence := []

/-- "fce" is matched by the name, and the record is returned. -/
theorem search_complete_name :
    ∃ result ∈ search ⟨[grinning]⟩ [102, 99, 101] .german 5, result.emoji = grinning :=
  ((search_complete_iff ⟨[grinning]⟩ [102, 99, 101] .german 5 grinning (by decide +kernel) (by decide +kernel)
    (by decide) List.mem_cons_self).mpr fun _ => by decide +kernel).mpr (by decide +kernel)

/-- "grn" is matched by the keyword, and the record is dropped. -/
theorem search_incomplete_keyword :
    ∃ (catalog : EmojiCatalog) (query : Bytes) (locale : Locale) (limit : Nat) (record : EmojiRecord),
      normalizeForSearch query ≠ [] ∧ catalog.contains query = false ∧ catalog.records.length ≤ limit ∧
        record ∈ catalog.records ∧ record.Matches locale (split (normalizeForSearch query) 32) ∧
        ¬ ∃ result ∈ catalog.search query locale limit, result.emoji = record := by
  refine ⟨⟨[grinning]⟩, [103, 114, 110], .english, 5, grinning, by decide +kernel, by decide +kernel, by decide,
    List.mem_cons_self, by decide +kernel, fun h => ?_⟩
  have hempty : (search ⟨[grinning]⟩ [103, 114, 110] .english 5).length = 0 := by decide +kernel
  obtain ⟨result, hresult, _⟩ := h
  rw [List.length_eq_zero_iff.mp hempty] at hresult
  cases hresult

end EmojiCatalog

end EmojiPalette
