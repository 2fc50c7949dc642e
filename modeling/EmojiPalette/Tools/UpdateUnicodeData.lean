import EmojiPalette.Model.Catalog

/-!
# The generator of the table

The script that writes the table of the catalog from the Unicode data: a row for each fully-qualified emoji, with its names and keywords in three languages, and with the emoji it is a skin-tone variant of.
-/

namespace EmojiPalette

namespace UpdateUnicodeData

/-- A string that a literal of the table can carry: scalar values, and no terminator among them. -/
structure Text where
  codepoints : List Nat
  characters : ∀ codepoint ∈ codepoints, isScalar codepoint = true ∧ codepoint ≠ 0
  deriving DecidableEq

namespace Text

def empty : Text := ⟨[], by simp⟩

/-- The string without the characters that are not kept. -/
def filter (keep : Nat → Bool) (value : Text) : Text :=
  ⟨value.codepoints.filter keep, fun codepoint h => value.characters codepoint (List.mem_of_mem_filter h)⟩

end Text

structure UnicodeRecord where
  emoji : Text
  category : Category
  subgroup : Text
  unicodeName : Text

structure Annotation where
  name : Text
  keywords : List Text

/-- The annotations of the three languages, each found under an emoji without variation selectors. -/
abbrev Annotations := Locale → Text → Option Annotation

def isTone (character : Nat) : Bool := 0x1F3FB ≤ character && character < 0x1F400

def isVariationSelector (character : Nat) : Bool := character = 0xFE0F

def withoutVariationSelectors (value : Text) : Text := value.filter fun character => !isVariationSelector character

def annotationFor (annotations : Text → Option Annotation) (emoji : Text) : Option Annotation :=
  annotations (withoutVariationSelectors emoji)

def removeTones (emoji : Text) : Text := emoji.filter fun character => !isTone character

/-- What the compiler reads from the literal that `json.dumps` writes: its escapes mean the same characters in both languages. -/
def cppString (value : Text) : Bytes := encodeUtf8 value.codepoints

/-- The annotation's name, or the name in the Unicode data for English when there is none. -/
def localizedName (annotations : Annotations) (record : UnicodeRecord) (locale : Locale) : Text :=
  match annotationFor (annotations locale) record.emoji with
  | some annotation =>
      if annotation.name.codepoints.isEmpty then if locale = .english then record.unicodeName else .empty
      else annotation.name
  | none => if locale = .english then record.unicodeName else .empty

/-- The annotation's keywords joined by bars. -/
def localizedKeywords (annotations : Annotations) (record : UnicodeRecord) (locale : Locale) : Bytes :=
  match annotationFor (annotations locale) record.emoji with
  | some annotation => [124].intercalate <| annotation.keywords.map cppString
  | none => []

/-- The emoji without its tones, if that is another one of the set. -/
def baseOf (emojiSet : List Text) (emoji : Text) : Text :=
  let base := removeTones emoji
  if base = emoji || !emojiSet.contains base then .empty else base

/-- The row of a record. -/
def generatedEmoji (emojiSet : List Text) (annotations : Annotations) (record : UnicodeRecord) : GeneratedEmoji where
  sequence := cppString record.emoji
  category := record.category
  subgroup := cppString record.subgroup
  names locale := cppString (localizedName annotations record locale)
  keywords := localizedKeywords annotations record
  baseSequence := cppString (baseOf emojiSet record.emoji)

def generate (records : List UnicodeRecord) (annotations : Annotations) : List GeneratedEmoji :=
  records.map (generatedEmoji (records.map (·.emoji)) annotations)

/-! ### Strings and their bytes -/

theorem cppString_injective {left right : Text} (h : cppString left = cppString right) : left = right := by
  have hleft := decodeUtf8_encodeUtf8 fun codepoint hmem => (left.characters codepoint hmem).1
  have hright := decodeUtf8_encodeUtf8 fun codepoint hmem => (right.characters codepoint hmem).1
  rw [cppString, cppString] at h
  rw [h, hright, Option.some.injEq] at hleft
  obtain ⟨leftCodepoints, _⟩ := left
  obtain ⟨rightCodepoints, _⟩ := right
  exact Text.mk.injEq .. ▸ hleft.symm

theorem cppString_eq_nil_iff {value : Text} : cppString value = [] ↔ value = .empty :=
  ⟨fun h => cppString_injective (h.trans rfl), fun h => h ▸ rfl⟩

theorem filter_filter (keep : Nat → Bool) (value : Text) : (value.filter keep).filter keep = value.filter keep := by
  simp [Text.filter]

theorem removeTones_removeTones (emoji : Text) : removeTones (removeTones emoji) = removeTones emoji :=
  filter_filter _ emoji

theorem removeTones_eq_self_iff {emoji : Text} :
    removeTones emoji = emoji ↔ ∀ codepoint ∈ emoji.codepoints, isTone codepoint = false := by
  obtain ⟨codepoints, _⟩ := emoji
  simp [removeTones, Text.filter, List.filter_eq_self]

/-! ### Bases -/

theorem baseOf_eq_empty_or (emojiSet : List Text) (emoji : Text) :
    (baseOf emojiSet emoji = .empty ∧ (removeTones emoji = emoji ∨ removeTones emoji ∉ emojiSet)) ∨
      (baseOf emojiSet emoji = removeTones emoji ∧ removeTones emoji ≠ emoji ∧ removeTones emoji ∈ emojiSet) := by
  unfold baseOf
  by_cases hbase : removeTones emoji = emoji ∨ removeTones emoji ∉ emojiSet
  · exact Or.inl ⟨if_pos (by simpa using hbase), hbase⟩
  · have hboth := not_or.mp hbase
    exact Or.inr ⟨if_neg (by simpa using hbase), hboth.1, not_not.mp hboth.2⟩

/-- What an emoji has as its base has none itself. -/
theorem baseOf_removeTones (emojiSet : List Text) (emoji : Text) : baseOf emojiSet (removeTones emoji) = .empty := by
  rcases baseOf_eq_empty_or emojiSet (removeTones emoji) with ⟨hempty, _⟩ | ⟨_, hne, _⟩
  · exact hempty
  · exact absurd (removeTones_removeTones emoji) hne

end UpdateUnicodeData

end EmojiPalette
