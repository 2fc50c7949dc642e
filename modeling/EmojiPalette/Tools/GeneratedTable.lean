import EmojiPalette.Library.Decimal
import EmojiPalette.Tools.Annotations
import EmojiPalette.Tools.EmojiTest

/-!
# The written table

The generator writes the table as the text of an array in C++, with its strings as JSON writes them. Here the text is read back as a compiler reads such an array: line by line, as no string can go beyond its line, with the escapes of a string literal, and with each string ending at its first null character. Whatever the Unicode data have in them, the compiler gets the table.
-/

namespace EmojiPalette

namespace UpdateUnicodeData

open Python

/-! ### The text -/

def lowerDigit (value : Nat) : Nat := if value < 10 then 0x30 + value else 0x61 + (value - 10)

/-- What `json.dumps` makes of a character when it need not be ASCII. -/
def escaped (character : Nat) : Str :=
  if character = 0x22 then [0x5C, 0x22]
  else if character = 0x5C then [0x5C, 0x5C]
  else if character = 0x08 then [0x5C, 0x62]
  else if character = 0x0C then [0x5C, 0x66]
  else if character = 0x0A then [0x5C, 0x6E]
  else if character = 0x0D then [0x5C, 0x72]
  else if character = 0x09 then [0x5C, 0x74]
  else if character < 0x20 then [0x5C, 0x75, 0x30, 0x30, lowerDigit (character / 16), lowerDigit (character % 16)]
  else [character]

/-- The literal of a string. -/
def literal (value : Str) : Str := 0x22 :: (value.flatMap escaped ++ [0x22])

/-- The enumerator of a category. -/
def enumerator : Category → Str
  | .recentlyUsed => characters ['R', 'e', 'c', 'e', 'n', 't', 'l', 'y', 'U', 's', 'e', 'd']
  | .favorites => characters ['F', 'a', 'v', 'o', 'r', 'i', 't', 'e', 's']
  | .smileysEmotion => characters ['S', 'm', 'i', 'l', 'e', 'y', 's', 'E', 'm', 'o', 't', 'i', 'o', 'n']
  | .peopleBody => characters ['P', 'e', 'o', 'p', 'l', 'e', 'B', 'o', 'd', 'y']
  | .animalsNature => characters ['A', 'n', 'i', 'm', 'a', 'l', 's', 'N', 'a', 't', 'u', 'r', 'e']
  | .foodDrink => characters ['F', 'o', 'o', 'd', 'D', 'r', 'i', 'n', 'k']
  | .travelPlaces => characters ['T', 'r', 'a', 'v', 'e', 'l', 'P', 'l', 'a', 'c', 'e', 's']
  | .activities => characters ['A', 'c', 't', 'i', 'v', 'i', 't', 'i', 'e', 's']
  | .objects => characters ['O', 'b', 'j', 'e', 'c', 't', 's']
  | .symbols => characters ['S', 'y', 'm', 'b', 'o', 'l', 's']
  | .flags => characters ['F', 'l', 'a', 'g', 's']
  | .kaomoji => characters ['K', 'a', 'o', 'm', 'o', 'j', 'i']

/-- The keywords of a language, in one string. -/
def keywordText (annotations : Annotations) (record : UnicodeRecord) (locale : Locale) : Str :=
  match annotationFor (annotations locale) record.emoji with
  | some annotation => [bar].intercalate <| annotation.keywords.map (·.codepoints)
  | none => []

def rowStart : Str := [0x20, 0x20, 0x20, 0x20, 0x7B]
def separator : Str := [0x2C, 0x20]
def rowEnd : Str := [0x7D, 0x2C]

/-- The prefix of an enumerator. -/
def categoryScope : Str := characters ['C', 'a', 't', 'e', 'g', 'o', 'r', 'y', ':', ':']

/-- The strings behind the category. -/
def texts (emojiSet : List Text) (annotations : Annotations) (record : UnicodeRecord) : List Str :=
  record.subgroup.codepoints ::
    ([.english, .german, .russian] : List Locale).flatMap (fun locale =>
      [(localizedName annotations record locale).codepoints, keywordText annotations record locale]) ++
    [(baseOf emojiSet record.emoji).codepoints]

def row (emojiSet : List Text) (annotations : Annotations) (record : UnicodeRecord) : Str :=
  let fields := literal record.emoji.codepoints :: (categoryScope ++ enumerator record.category) ::
    (texts emojiSet annotations record).map literal
  rowStart ++ separator.intercalate fields ++ rowEnd

def tableStart : Str :=
  characters ['s', 't', 'a', 't', 'i', 'c', ' ', 'c', 'o', 'n', 's', 't', ' ', 'G', 'e', 'n', 'e', 'r', 'a', 't', 'e', 'd',
    'E', 'm', 'o', 'j', 'i', ' ', 'k', 'G', 'e', 'n', 'e', 'r', 'a', 't', 'e', 'd', 'E', 'm', 'o', 'j', 'i'] ++
    [0x5B, 0x5D, 0x20, 0x3D, 0x20, 0x7B]

def tableEnd : Str := [0x7D, 0x3B]

def countStart : Str :=
  characters ['s', 't', 'a', 't', 'i', 'c', ' ', 'c', 'o', 'n', 's', 't', 'e', 'x', 'p', 'r', ' ', 's', 't', 'd', ':', ':',
    's', 'i', 'z', 'e', '_', 't', ' ', 'k', 'G', 'e', 'n', 'e', 'r', 'a', 't', 'e', 'd', 'E', 'm', 'o', 'j', 'i', 'C', 'o',
    'u', 'n', 't', ' ', '=', ' ']

def countLine (count : Nat) : Str := countStart ++ (Decimal.print count).map UInt8.toNat ++ [0x3B]

def content (records : List UnicodeRecord) (annotations : Annotations) : Str :=
  [0x0A].intercalate <| [tableStart] ++ records.map (row (records.map (·.emoji)) annotations) ++
    [tableEnd, [], countLine records.length, []]

/-! ### Reading it as a compiler does -/

def expect (expected text : Str) : Option Str :=
  if expected.isPrefixOf text then some (text.drop expected.length) else none

def digitValue (character : Nat) : Option Nat :=
  if 0x30 ≤ character ∧ character ≤ 0x39 then some (character - 0x30)
  else if 0x41 ≤ character ∧ character ≤ 0x46 then some (character - 0x41 + 10)
  else if 0x61 ≤ character ∧ character ≤ 0x66 then some (character - 0x61 + 10)
  else none

/-- The escapes of one character behind the backslash. -/
def simpleEscape (character : Nat) : Option Nat :=
  ([(0x27, 0x27), (0x22, 0x22), (0x3F, 0x3F), (0x5C, 0x5C), (0x61, 0x07), (0x62, 0x08), (0x66, 0x0C), (0x6E, 0x0A),
    (0x72, 0x0D), (0x74, 0x09), (0x76, 0x0B)] : List (Nat × Nat)).lookup character

/-- The characters up to the quotation mark that ends the literal, and what follows it. The numeric escapes are none of the ones that are read. -/
def readCharacters : Str → Option (Str × Str)
  | [] => none
  | 0x22 :: text => some ([], text)
  | 0x5C :: 0x75 :: first :: second :: third :: fourth :: text => do
      let high := 16 * (← digitValue first) + (← digitValue second)
      let low := 16 * (← digitValue third) + (← digitValue fourth)
      let read ← readCharacters text
      return ((256 * high + low) :: read.1, read.2)
  | 0x5C :: escape :: text => do
      let character ← simpleEscape escape
      let read ← readCharacters text
      return (character :: read.1, read.2)
  | character :: text => do
      let read ← readCharacters text
      if character = 0x0A ∨ character = 0x5C then none else return (character :: read.1, read.2)

def readLiteral (text : Str) : Option (Str × Str) := (expect [0x22] text).bind readCharacters

/-- The text of a character array as far as its first null character. -/
def stringView (value : Str) : Bytes := (encodeUtf8 value).takeWhile (· ≠ 0)

/-- So many literals, with a separator before each. -/
def readLiterals : Nat → Str → Option (List Str × Str)
  | 0, text => some ([], text)
  | count + 1, text => do
      let first ← readLiteral (← expect separator text)
      let read ← readLiterals count first.2
      return (first.1 :: read.1, read.2)

def enumeratorNamed (name : Str) : Option Category :=
  ([.recentlyUsed, .favorites, .smileysEmotion, .peopleBody, .animalsNature, .foodDrink, .travelPlaces, .activities, .objects,
    .symbols, .flags, .kaomoji] : List Category).find? fun category => enumerator category = name

def isLetter (character : Nat) : Bool :=
  (0x41 ≤ character && character ≤ 0x5A) || (0x61 ≤ character && character ≤ 0x7A)

def readRow (line : Str) : Option GeneratedEmoji := do
  let sequence ← readLiteral (← expect rowStart line)
  let text ← expect categoryScope (← expect separator sequence.2)
  let category ← enumeratorNamed (text.takeWhile isLetter)
  let read ← readLiterals 8 (text.dropWhile isLetter)
  if read.2 ≠ rowEnd then none
  else match read.1.map stringView with
    | [subgroup, englishName, englishKeywords, germanName, germanKeywords, russianName, russianKeywords, baseSequence] =>
        let names : Locale → Bytes := fun
          | .english => englishName
          | .german => germanName
          | .russian => russianName
        let keywords : Locale → Bytes := fun
          | .english => englishKeywords
          | .german => germanKeywords
          | .russian => russianKeywords
        some ⟨stringView sequence.1, category, subgroup, names, keywords, baseSequence⟩
    | _ => none

def readCount (line : Str) : Option Nat := do
  let text ← expect countStart line
  let scanned ← Decimal.scan (text.dropLast.map UInt8.ofNat)
  if text.getLast? = some 0x3B ∧ scanned.2 = [] then return scanned.1 else none

/-- The rows of the array, as many as the count behind it says. -/
def readTable (text : Str) : Option (List GeneratedEmoji) :=
  match text.splitOn 0x0A with
  | [] => none
  | start :: lines => do
      let rows ← (lines.takeWhile (· ≠ tableEnd)).mapM readRow
      let count ← match lines.dropWhile (· ≠ tableEnd) with
        | [_, [], line, []] => readCount line
        | _ => none
      if start = tableStart ∧ count ≤ rows.length then return rows.take count else none

/-! ### Strings -/

theorem expect_append (expected text : Str) : expect expected (expected ++ text) = some text := by
  have hprefix : expected.isPrefixOf (expected ++ text) = true := List.isPrefixOf_iff_prefix.mpr (List.prefix_append _ _)
  rw [expect, if_pos hprefix, List.drop_left]

theorem digitValue_lowerDigit {value : Nat} (h : value < 16) : digitValue (lowerDigit value) = some value := by
  have hall : ∀ value < 16, digitValue (lowerDigit value) = some value := by decide
  exact hall value h

/-- What is written for a character is read as that character. -/
theorem readCharacters_escaped (character : Nat) (text : Str) :
    readCharacters (escaped character ++ text) =
      (readCharacters text).bind fun read => some (character :: read.1, read.2) := by
  have hescape : ∀ pair ∈ ([(0x22, 0x22), (0x5C, 0x5C), (0x62, 0x08), (0x66, 0x0C), (0x6E, 0x0A), (0x72, 0x0D),
      (0x74, 0x09)] : List (Nat × Nat)), simpleEscape pair.1 = some pair.2 := by decide
  simp only [List.forall_mem_cons] at hescape
  obtain ⟨hquote, hbackslash, hbackspace, hfeed, hnewline, hreturn, htab, -⟩ := hescape
  unfold escaped
  split_ifs with hone htwo hthree hfour hfive hsix hseven hcontrol
  · subst hone
    simp [readCharacters, hquote]
  · subst htwo
    simp [readCharacters, hbackslash]
  · subst hthree
    simp [readCharacters, hbackspace]
  · subst hfour
    simp [readCharacters, hfeed]
  · subst hfive
    simp [readCharacters, hnewline]
  · subst hsix
    simp [readCharacters, hreturn]
  · subst hseven
    simp [readCharacters, htab]
  · have hzero : digitValue 0x30 = some 0 := by decide
    have hhigh := digitValue_lowerDigit (show character / 16 < 16 by omega)
    have hlow := digitValue_lowerDigit (show character % 16 < 16 by omega)
    have hvalue : 16 * (character / 16) + character % 16 = character := Nat.div_add_mod character 16
    simp [readCharacters, hzero, hhigh, hlow, hvalue]
  · rw [List.singleton_append, readCharacters.eq_def]
    split
    · simp_all
    · simp_all
    · simp_all
    · simp_all
    · rename_i heq
      cases heq
      simp [hfive, htwo]

theorem readCharacters_literal (value text : Str) :
    readCharacters (value.flatMap escaped ++ 0x22 :: text) = some (value, text) := by
  induction value with
  | nil => rw [List.flatMap_nil, List.nil_append, readCharacters]
  | cons character value ih =>
      rw [List.flatMap_cons, List.append_assoc, readCharacters_escaped, ih]
      rfl

theorem readLiteral_literal (value text : Str) : readLiteral (literal value ++ text) = some (value, text) := by
  have hstart : literal value ++ text = [0x22] ++ (value.flatMap escaped ++ 0x22 :: text) := by simp [literal]
  rw [readLiteral, hstart, expect_append, Option.bind_some, readCharacters_literal]

theorem readLiterals_literal (values : List Str) (text : Str) :
    readLiterals values.length ((values.flatMap fun value => separator ++ literal value) ++ text) = some (values, text) := by
  induction values with
  | nil => rfl
  | cons value values ih =>
      rw [List.length_cons, List.flatMap_cons, List.append_assoc, List.append_assoc, readLiterals, expect_append]
      simp only [Option.pure_def, Option.bind_eq_bind, Option.bind_some, readLiteral_literal, ih]

/-! ### Rows -/

theorem intercalate_eq (between : Str) (first : Str) (rest : List Str) :
    between.intercalate (first :: rest) = first ++ rest.flatMap fun part => between ++ part := by
  induction rest generalizing first with
  | nil => simp
  | cons second rest ih => rw [List.intercalate_cons_cons, ih, List.flatMap_cons, List.append_assoc, List.append_assoc]

theorem mem_intercalate {between : Str} {parts : List Str} {codepoint : Nat} (h : codepoint ∈ between.intercalate parts) :
    codepoint ∈ between ∨ ∃ part ∈ parts, codepoint ∈ part := by
  cases parts with
  | nil => cases h
  | cons first rest =>
      rw [intercalate_eq, List.mem_append, List.mem_flatMap] at h
      rcases h with hfirst | ⟨part, hpart, hmem⟩
      · exact Or.inr ⟨first, List.mem_cons_self, hfirst⟩
      · rcases List.mem_append.mp hmem with hbetween | hmem
        · exact Or.inl hbetween
        · exact Or.inr ⟨part, List.mem_cons_of_mem first hpart, hmem⟩

theorem encodeUtf8_intercalate {between : Str} {parts : List Str} (hbetween : ∀ codepoint ∈ between, isScalar codepoint = true)
    (hparts : ∀ part ∈ parts, ∀ codepoint ∈ part, isScalar codepoint = true) :
    encodeUtf8 (between.intercalate parts) = (encodeUtf8 between).intercalate (parts.map encodeUtf8) := by
  have hscalar : ∀ codepoint ∈ between.intercalate parts, isScalar codepoint = true := by
    intro codepoint h
    rcases mem_intercalate h with hmem | ⟨part, hpart, hmem⟩
    · exact hbetween codepoint hmem
    · exact hparts part hpart codepoint hmem
  have hmap : parts.map encodeUtf8 = parts.map (·.flatMap encodeCodepoint) :=
    List.map_congr_left fun part hpart => encodeUtf8_eq (hparts part hpart)
  rw [encodeUtf8_eq hscalar, encodeUtf8_eq hbetween, hmap]
  clear hscalar hmap hparts
  induction parts with
  | nil => rfl
  | cons first rest ih =>
      cases rest with
      | nil => simp
      | cons second rest =>
          rw [List.intercalate_cons_cons, List.flatMap_append, List.flatMap_append, ih]
          simp [List.intercalate_cons_cons]

theorem stringView_eq {value : Str} (h : ∀ codepoint ∈ value, isScalar codepoint = true ∧ codepoint ≠ 0) :
    stringView value = encodeUtf8 value := by
  have hnull : (0 : UInt8) ∉ encodeUtf8 value :=
    not_mem_encodeUtf8 (fun codepoint hmem => (h codepoint hmem).1) (by decide) fun hmem => (h 0 hmem).2 rfl
  refine List.takeWhile_eq_self_iff.mpr fun byte hbyte => decide_eq_true ?_
  rintro rfl
  exact hnull hbyte

theorem stringView_codepoints (value : Text) : stringView value.codepoints = cppString value := stringView_eq value.characters

theorem stringView_keywordText (annotations : Annotations) (record : UnicodeRecord) (locale : Locale) :
    stringView (keywordText annotations record locale) = localizedKeywords annotations record locale := by
  unfold keywordText localizedKeywords
  cases annotationFor (annotations locale) record.emoji with
  | none => rfl
  | some entry =>
      have hbar : isScalar bar = true ∧ bar ≠ 0 := by decide
      have hpart : ∀ part ∈ entry.keywords.map (·.codepoints), ∀ codepoint ∈ part,
          isScalar codepoint = true ∧ codepoint ≠ 0 := by
        intro part hpart
        obtain ⟨keyword, _, rfl⟩ := List.mem_map.mp hpart
        exact keyword.characters
      have hall : ∀ codepoint ∈ [bar].intercalate (entry.keywords.map (·.codepoints)),
          isScalar codepoint = true ∧ codepoint ≠ 0 := by
        intro codepoint h
        rcases mem_intercalate h with hmem | ⟨part, hmem, hcodepoint⟩
        · rwa [List.mem_singleton.mp hmem]
        · exact hpart part hmem codepoint hcodepoint
      have hbytes : encodeUtf8 [bar] = [124] := by decide
      dsimp only
      rw [stringView_eq hall, encodeUtf8_intercalate (by simpa using hbar.1) (fun part h codepoint hmem =>
        (hpart part h codepoint hmem).1), hbytes, List.map_map]
      rfl

theorem row_eq (emojiSet : List Text) (annotations : Annotations) (record : UnicodeRecord) :
    row emojiSet annotations record = rowStart ++ (literal record.emoji.codepoints ++ (separator ++ (categoryScope ++
      (enumerator record.category ++
        (((texts emojiSet annotations record).flatMap fun value => separator ++ literal value) ++ rowEnd))))) := by
  rw [row, intercalate_eq, List.flatMap_cons, List.flatMap_map]
  simp only [List.append_assoc]

theorem readRow_row (emojiSet : List Text) (annotations : Annotations) (record : UnicodeRecord) :
    readRow (row emojiSet annotations record) = some (generatedEmoji emojiSet annotations record) := by
  have hletters : ∀ character ∈ enumerator record.category, isLetter character = true := by
    cases record.category <;> decide
  have hcategory : enumeratorNamed (enumerator record.category) = some record.category := by
    cases record.category <;> decide
  obtain ⟨rest, hrest⟩ : ∃ rest,
      ((texts emojiSet annotations record).flatMap fun value => separator ++ literal value) ++ rowEnd = 0x2C :: rest :=
    ⟨_, rfl⟩
  have hcomma : ¬ isLetter 0x2C = true := by decide
  have hliterals := readLiterals_literal (texts emojiSet annotations record) rowEnd
  have hlength : (texts emojiSet annotations record).length = 8 := rfl
  rw [hlength] at hliterals
  have hviews : (texts emojiSet annotations record).map stringView =
      cppString record.subgroup ::
        ([.english, .german, .russian] : List Locale).flatMap (fun locale =>
          [cppString (localizedName annotations record locale), localizedKeywords annotations record locale]) ++
        [cppString (baseOf emojiSet record.emoji)] := by
    simp [texts, stringView_codepoints, stringView_keywordText]
  rw [row_eq, readRow, expect_append]
  simp only [Option.bind_eq_bind, Option.bind_some, readLiteral_literal, expect_append]
  rw [hrest, List.takeWhile_append_of_pos hletters, List.takeWhile_cons_of_neg hcomma, List.append_nil, hcategory,
    List.dropWhile_append_of_pos hletters, List.dropWhile_cons_of_neg hcomma, ← hrest, Option.bind_some, hliterals,
    Option.bind_some, if_neg (by simp)]
  simp only [hviews, stringView_codepoints]
  refine congrArg some (GeneratedEmoji.mk.injEq .. ▸ ⟨rfl, rfl, rfl, ?_, ?_, rfl⟩)
  · funext locale
    cases locale <;> rfl
  · funext locale
    cases locale <;> rfl

/-! ### Lines -/

theorem not_mem_literal (value : Str) : 0x0A ∉ literal value := by
  have hdigit : ∀ digit < 16, 0x0A ≠ lowerDigit digit := by decide
  have hescaped : ∀ character, 0x0A ∉ escaped character := by
    intro character
    unfold escaped
    split_ifs with hone htwo hthree hfour hfive hsix hseven hcontrol
    · decide
    · decide
    · decide
    · decide
    · decide
    · decide
    · decide
    · have hhigh := hdigit (character / 16) (by omega)
      have hlow := hdigit (character % 16) (by omega)
      simpa using ⟨hhigh, hlow⟩
    · simpa using Ne.symm hfive
  intro hmem
  rcases List.mem_cons.mp hmem with hquote | hmem
  · cases hquote
  rcases List.mem_append.mp hmem with hmem | hquote
  · obtain ⟨character, _, hcharacter⟩ := List.mem_flatMap.mp hmem
    exact hescaped character hcharacter
  · cases List.mem_singleton.mp hquote

theorem not_mem_row (emojiSet : List Text) (annotations : Annotations) (record : UnicodeRecord) :
    0x0A ∉ row emojiSet annotations record := by
  have hconstant : 0x0A ∉ rowStart ∧ 0x0A ∉ separator ∧ 0x0A ∉ categoryScope ∧ 0x0A ∉ rowEnd := by decide
  have hcategory : 0x0A ∉ enumerator record.category := by
    cases record.category <;> decide
  rw [row_eq]
  simp only [List.mem_append, List.mem_flatMap, not_or, not_exists, not_and]
  exact ⟨hconstant.1, not_mem_literal _, hconstant.2.1, hconstant.2.2.1, hcategory,
    fun value _ => ⟨hconstant.2.1, not_mem_literal value⟩, hconstant.2.2.2⟩

theorem map_ofNat_toNat (bytes : Bytes) : (bytes.map UInt8.toNat).map UInt8.ofNat = bytes := by
  rw [List.map_map]
  exact List.map_id'' (fun byte => UInt8.ofNat_toNat) bytes

theorem readCount_countLine (count : Nat) : readCount (countLine count) = some count := by
  rw [countLine, List.append_assoc, readCount, expect_append]
  simp only [Option.bind_eq_bind, Option.bind_some, List.dropLast_concat, map_ofNat_toNat, Decimal.scan_print,
    List.getLast?_concat, true_and, if_true, Option.pure_def]

theorem not_mem_countLine (count : Nat) : 0x0A ∉ countLine count := by
  have hconstant : 0x0A ∉ countStart ∧ 0x0A ∉ [0x3B] := by decide
  simp only [countLine, List.mem_append, not_or]
  refine ⟨⟨hconstant.1, fun hmem => ?_⟩, hconstant.2⟩
  obtain ⟨byte, hbyte, hvalue⟩ := List.mem_map.mp hmem
  have hdigit := Decimal.isDigit_of_mem_print hbyte
  have hle : 48 ≤ byte := of_decide_eq_true (Bool.and_eq_true _ _ ▸ hdigit).1
  rw [UInt8.le_iff_toNat_le, hvalue] at hle
  exact absurd hle (by decide)

/-! ### The table -/

theorem splitOn_content (records : List UnicodeRecord) (annotations : Annotations) :
    (content records annotations).splitOn 0x0A = [tableStart] ++ records.map (row (records.map (·.emoji)) annotations) ++
      [tableEnd, [], countLine records.length, []] := by
  refine List.splitOn_intercalate _ (fun line hline => ?_) (by simp)
  have hconstant : 0x0A ∉ tableStart ∧ 0x0A ∉ tableEnd := by decide
  simp only [List.mem_append, List.mem_cons, List.mem_map, List.not_mem_nil, or_false] at hline
  rcases hline with (rfl | ⟨record, _, rfl⟩) | rfl | rfl | rfl | rfl
  · exact hconstant.1
  · exact not_mem_row _ annotations record
  · exact hconstant.2
  · exact List.not_mem_nil
  · exact not_mem_countLine _
  · exact List.not_mem_nil

theorem mapM_readRow (emojiSet : List Text) (annotations : Annotations) (records : List UnicodeRecord) :
    (records.map (row emojiSet annotations)).mapM readRow = some (records.map (generatedEmoji emojiSet annotations)) := by
  induction records with
  | nil => rfl
  | cons record records ih =>
      rw [List.map_cons, List.mapM_cons, readRow_row, ih]
      rfl

theorem readTable_content (records : List UnicodeRecord) (annotations : Annotations) :
    readTable (content records annotations) = some (generate records annotations) := by
  rw [readTable, splitOn_content, List.append_assoc, List.singleton_append]
  generalize hrows : records.map (row (records.map (·.emoji)) annotations) = rows
  have hrow : ∀ line ∈ rows, decide (line ≠ tableEnd) = true := by
    intro line hline
    obtain ⟨record, _, rfl⟩ := List.mem_map.mp (hrows ▸ hline)
    rw [row_eq]
    exact decide_eq_true fun hsame => by cases hsame
  have htake : ∀ others, (rows ++ tableEnd :: others).takeWhile (fun line => decide (line ≠ tableEnd)) = rows := by
    intro others
    rw [List.takeWhile_append_of_pos hrow]
    simp
  have hdrop : ∀ others, (rows ++ tableEnd :: others).dropWhile (fun line => decide (line ≠ tableEnd)) =
      tableEnd :: others := by
    intro others
    rw [List.dropWhile_append_of_pos hrow]
    simp
  have hread : rows.mapM readRow = some (generate records annotations) := by
    rw [← hrows, mapM_readRow]
    rfl
  have hlength : (generate records annotations).length = records.length := List.length_map _
  simp only [htake, hdrop, hread, Option.bind_eq_bind, Option.bind_some, readCount_countLine, hlength, le_refl, and_self,
    if_true, Option.pure_def, List.take_of_length_le hlength.le]

/-- The catalog that is compiled from the text is the one of the table. -/
theorem catalog_of_content (records : List UnicodeRecord) (annotations : Annotations) :
    (readTable (content records annotations)).map EmojiCatalog.ofGenerated = some (generatedCatalog records annotations) := by
  rw [readTable_content, Option.map_some, generatedCatalog]

end UpdateUnicodeData

end EmojiPalette
