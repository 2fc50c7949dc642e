import EmojiPalette.Core.Utf8
import EmojiPalette.Library.Cursor
import Mathlib.Data.List.Sort

/-!
# The emoji catalog

The records the palette offers, looked up by their sequence or searched by their names and keywords.
-/

namespace EmojiPalette

inductive Category
  | recentlyUsed
  | favorites
  | smileysEmotion
  | peopleBody
  | animalsNature
  | foodDrink
  | travelPlaces
  | activities
  | objects
  | symbols
  | flags
  | kaomoji
  deriving DecidableEq

inductive Locale
  | english
  | german
  | russian
  deriving DecidableEq

instance : Cursor.Enumeration Locale where
  all := [.english, .german, .russian]
  nodup := by decide
  complete := by
    intro value
    cases value <;> decide
  few := by decide

structure LocalizedAnnotation where
  name : Bytes
  keywords : List Bytes
  deriving DecidableEq

structure EmojiRecord where
  sequence : Bytes
  category : Category
  subgroup : Bytes
  annotations : Locale → LocalizedAnnotation
  baseSequence : Bytes

structure EmojiCatalog where
  records : List EmojiRecord

structure SearchResult where
  emoji : EmojiRecord
  score : Int

/-- The parts between the delimiters that are not empty. -/
def split (value : Bytes) (delimiter : UInt8) : List Bytes :=
  (value.splitOn delimiter).filter fun part => !part.isEmpty

/-! ### The generated table -/

/-- A row of the table compiled into the catalog. The keywords of a language stand in one text, with bars between them. -/
structure GeneratedEmoji where
  sequence : Bytes
  category : Category
  subgroup : Bytes
  names : Locale → Bytes
  keywords : Locale → Bytes
  baseSequence : Bytes

def EmojiRecord.ofGenerated (generated : GeneratedEmoji) : EmojiRecord where
  sequence := generated.sequence
  category := generated.category
  subgroup := generated.subgroup
  annotations locale := ⟨generated.names locale, split (generated.keywords locale) 124⟩
  baseSequence := generated.baseSequence

/-- The catalog as its constructor fills it. -/
def EmojiCatalog.ofGenerated (generatedEmojis : List GeneratedEmoji) : EmojiCatalog :=
  ⟨generatedEmojis.map EmojiRecord.ofGenerated⟩

/-! ### Matching -/

def queryTokens (query : Bytes) : List Bytes := split (normalizeForSearch query) 32

def isSubsequence : Bytes → Bytes → Bool
  | [], _ => true
  | _ :: _, [] => false
  | byte :: needle, value :: haystack =>
      if value = byte then isSubsequence needle haystack else isSubsequence (byte :: needle) haystack

/-- `find` finds the needle somewhere. -/
def occursIn (needle haystack : Bytes) : Bool := haystack.tails.any fun tail => needle.isPrefixOf tail

/-- How well a text matches a token: `exact` for the text itself, less for a weaker match, and `-1` for none. -/
def textScore (token text : Bytes) (exact : Int) : Int :=
  if text.isEmpty then -1
  else if text = token then exact
  else if token.isPrefixOf text then exact - 150
  else if occursIn (32 :: token) text then exact - 250
  else if occursIn token text then exact - 400
  else if token.length ≥ 3 && isSubsequence token text then exact - 750
  else -1

/-- The normalized name and keywords of a record, as the catalog keeps them beside it. -/
structure SearchDocument where
  names : Locale → Bytes
  keywords : Locale → List Bytes

def EmojiRecord.searchDocument (record : EmojiRecord) : SearchDocument where
  names locale := normalizeForSearch (record.annotations locale).name
  keywords locale := (record.annotations locale).keywords.map normalizeForSearch

/-- The best score of the name and the keywords in one locale. -/
def localeScore (token : Bytes) (document : SearchDocument) (locale : Locale) (name keyword : Int) : Int :=
  (document.keywords locale).foldl (fun best text => max best (textScore token text keyword))
    (textScore token (document.names locale) name)

def documentScore (token : Bytes) (document : SearchDocument) (locale : Locale) : Int :=
  let best := localeScore token document locale 1000 700
  if locale ≠ .english then max best (localeScore token document .english 900 600) else best

/-- The sum of the scores of all tokens, if each of them matches. -/
def totalScore (tokens : List Bytes) (document : SearchDocument) (locale : Locale) : Option Int :=
  tokens.foldlM (fun total token =>
    let score := documentScore token document locale
    if score < 0 then none else some (total + score)) 0

namespace EmojiCatalog

def find (catalog : EmojiCatalog) (sequence : Bytes) : Option EmojiRecord :=
  catalog.records.find? fun record => record.sequence = sequence

def contains (catalog : EmojiCatalog) (sequence : Bytes) : Bool := (catalog.find sequence).isSome

/-- The base itself, if it is a record, before the records that name it as their base. -/
def variantsFor (catalog : EmojiCatalog) (base : Bytes) : List EmojiRecord :=
  (catalog.find base).toList ++ catalog.records.filter fun record => record.baseSequence = base

/-- Every record that matches, best first and in the order of the catalog where the scores are equal. -/
def candidates (catalog : EmojiCatalog) (tokens : List Bytes) (locale : Locale) : List SearchResult :=
  (catalog.records.filterMap fun record =>
    (totalScore tokens record.searchDocument locale).map fun score => ⟨record, score⟩).insertionSort
      fun left right => left.score ≥ right.score

def search (catalog : EmojiCatalog) (query : Bytes) (locale : Locale) (limit : Nat) : List SearchResult :=
  let normalized := normalizeForSearch query
  if normalized.isEmpty || limit = 0 then []
  else match catalog.find query with
    | some exact => [⟨exact, 10000⟩]
    | none =>
        let tokens := queryTokens normalized
        if tokens.isEmpty then [] else (catalog.candidates tokens locale).take limit

theorem contains_iff {catalog : EmojiCatalog} {sequence : Bytes} :
    catalog.contains sequence = true ↔ ∃ record ∈ catalog.records, record.sequence = sequence := by
  simp [contains, find]

theorem sequence_of_find {catalog : EmojiCatalog} {sequence : Bytes} {record : EmojiRecord}
    (h : catalog.find sequence = some record) : record ∈ catalog.records ∧ record.sequence = sequence :=
  ⟨List.mem_of_find?_eq_some h, by simpa using List.find?_some h⟩

theorem mem_records_of_search {catalog : EmojiCatalog} {query : Bytes} {locale : Locale} {limit : Nat}
    {result : SearchResult} (h : result ∈ catalog.search query locale limit) : result.emoji ∈ catalog.records := by
  unfold search at h
  dsimp only at h
  split at h
  · cases h
  split at h
  · rename_i exact hfind
    obtain rfl := List.mem_singleton.mp h
    exact (sequence_of_find hfind).1
  split at h
  · cases h
  · have hcandidate := List.mem_of_mem_take h
    rw [candidates, List.mem_insertionSort, List.mem_filterMap] at hcandidate
    obtain ⟨record, hrecord, hscore⟩ := hcandidate
    obtain ⟨score, _, rfl⟩ := Option.map_eq_some_iff.mp hscore
    exact hrecord

theorem mem_records_of_variantsFor {catalog : EmojiCatalog} {base : Bytes} {record : EmojiRecord}
    (h : record ∈ catalog.variantsFor base) : record ∈ catalog.records := by
  rcases List.mem_append.mp h with hfind | hvariant
  · exact (sequence_of_find (Option.mem_toList.mp hfind)).1
  · exact List.mem_of_mem_filter hvariant

end EmojiCatalog

end EmojiPalette
