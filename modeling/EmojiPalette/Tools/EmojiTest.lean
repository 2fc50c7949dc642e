import EmojiPalette.Library.GreedyMatch
import EmojiPalette.Library.PythonText
import EmojiPalette.Model.Catalog

/-!
# The list of emoji

The generator of the table takes the emoji from the test file of the Unicode data. It goes through the lines, keeps the group and the subgroup that were named last, and lists what the lines of the fully-qualified emoji say. Here what it lists is compared with what the file says, line by line: a line that names an emoji belongs to the last group and the last subgroup before it.
-/

namespace EmojiPalette

namespace UpdateUnicodeData

open Python Greedy

/-! ### The reading -/

def characters (text : List Char) : Str := text.map Char.toNat

def groupMark : Str := characters ['#', ' ', 'g', 'r', 'o', 'u', 'p', ':']
def subgroupMark : Str := characters ['#', ' ', 's', 'u', 'b', 'g', 'r', 'o', 'u', 'p', ':']

def fullyQualified : Str :=
  characters ['f', 'u', 'l', 'l', 'y', '-', 'q', 'u', 'a', 'l', 'i', 'f', 'i', 'e', 'd']

def categories : List (Str × Category) :=
  [(characters ['S', 'm', 'i', 'l', 'e', 'y', 's', ' ', '&', ' ', 'E', 'm', 'o', 't', 'i', 'o', 'n'], .smileysEmotion),
    (characters ['P', 'e', 'o', 'p', 'l', 'e', ' ', '&', ' ', 'B', 'o', 'd', 'y'], .peopleBody),
    (characters ['A', 'n', 'i', 'm', 'a', 'l', 's', ' ', '&', ' ', 'N', 'a', 't', 'u', 'r', 'e'], .animalsNature),
    (characters ['F', 'o', 'o', 'd', ' ', '&', ' ', 'D', 'r', 'i', 'n', 'k'], .foodDrink),
    (characters ['T', 'r', 'a', 'v', 'e', 'l', ' ', '&', ' ', 'P', 'l', 'a', 'c', 'e', 's'], .travelPlaces),
    (characters ['A', 'c', 't', 'i', 'v', 'i', 't', 'i', 'e', 's'], .activities),
    (characters ['O', 'b', 'j', 'e', 'c', 't', 's'], .objects),
    (characters ['S', 'y', 'm', 'b', 'o', 'l', 's'], .symbols),
    (characters ['F', 'l', 'a', 'g', 's'], .flags)]

def categoryOf (group : Str) : Option Category := (categories.find? fun entry => entry.1 = group).map Prod.snd

/-- A character of the field that holds the code points. -/
def isCode (character : Nat) : Bool :=
  (0x30 ≤ character && character ≤ 0x39) || (0x41 ≤ character && character ≤ 0x46) || character = 0x20

def isVersion (character : Nat) : Bool := (0x30 ≤ character && character ≤ 0x39) || character = 0x2E

/-- The pattern of a line. A line has no line feed in it, so the pattern's end is the end of the line. -/
def linePattern : List (Piece Nat) :=
  [⟨isCode, .some⟩, ⟨isBlank, .any⟩, .exactly 0x3B, ⟨isBlank, .any⟩] ++ (fullyQualified.map Piece.exactly ++
    [⟨isBlank, .any⟩, .exactly 0x23, ⟨isBlank, .any⟩, ⟨fun character => !isBlank character, .some⟩, ⟨isBlank, .some⟩,
      .exactly 0x45, ⟨isVersion, .some⟩, ⟨isBlank, .some⟩, ⟨fun character => character ≠ 0x0A, .some⟩])

def matchLine (line : Str) : Option (Str × Str) :=
  (fullMatch linePattern line).map fun division => (division.headD [], division.getLastD [])

def hexDigit (character : Nat) : Nat := if character ≤ 0x39 then character - 0x30 else character - 0x41 + 10

/-- What `int` with the base 16 makes of hexadecimal digits. -/
def hexNumber (digits : Str) : Nat := digits.foldl (fun value character => 16 * value + hexDigit character) 0

/-- A record, whose code points are its emoji. -/
structure EmojiTestRecord where
  emoji : Str
  category : Category
  subgroup : Str
  unicodeName : Str
  deriving DecidableEq

/-- What the generator can fail with: `chr` beyond the last code point, an emoji listed twice, and no record. -/
inductive EmojiTestError
  | chrRange
  | duplicate (emoji : Str)
  | noRecords
  deriving DecidableEq

structure EmojiTestState where
  category : Option Str
  subgroup : Option Str
  seen : List Str
  records : List EmojiTestRecord

def afterColon (line : Str) : Str := (line.dropWhile fun character => character ≠ 0x3A).tail

/-- What becomes of a record: its characters are made, and it must not have been seen. -/
def addRecord (state : EmojiTestState) (record : EmojiTestRecord) : Except EmojiTestError EmojiTestState :=
  if record.emoji.any fun codepoint => 0x10FFFF < codepoint then .error .chrRange
  else if state.seen.contains record.emoji then .error (.duplicate record.emoji)
  else .ok { state with seen := record.emoji :: state.seen, records := state.records ++ [record] }

def readLine (state : EmojiTestState) (rawLine : Str) : Except EmojiTestError EmojiTestState :=
  if groupMark.isPrefixOf rawLine then .ok { state with category := some (strip (afterColon rawLine)) }
  else if subgroupMark.isPrefixOf rawLine then .ok { state with subgroup := some (strip (afterColon rawLine)) }
  else match matchLine rawLine with
    | none => .ok state
    | some groups =>
        match state.category.bind categoryOf with
        | none => .ok state
        | some category =>
            addRecord state ⟨(words groups.1).map hexNumber, category, state.subgroup.getD [], strip groups.2⟩

def parseEmojiTest (text : Str) : Except EmojiTestError (List EmojiTestRecord) :=
  match (splitlines text).foldlM readLine ⟨none, none, [], []⟩ with
  | .error error => .error error
  | .ok state => if state.records.isEmpty then .error .noRecords else .ok state.records

/-! ### What a line says -/

/-- The parts of a line for a fully-qualified emoji: the code points, the status, and behind the number sign the emoji itself, its version and its name, with blanks between them. -/
structure DataLine where
  field : Str
  afterField : Str
  beforeStatus : Str
  afterStatus : Str
  beforeShown : Str
  shown : Str
  afterShown : Str
  version : Str
  afterVersion : Str
  name : Str

namespace DataLine

structure Allowed (data : DataLine) : Prop where
  field : (∀ character ∈ data.field, isCode character = true) ∧ data.field ≠ []
  afterField : Blank data.afterField
  beforeStatus : Blank data.beforeStatus
  afterStatus : Blank data.afterStatus
  beforeShown : Blank data.beforeShown
  shown : Solid data.shown ∧ data.shown ≠ []
  afterShown : Blank data.afterShown ∧ data.afterShown ≠ []
  version : (∀ character ∈ data.version, isVersion character = true) ∧ data.version ≠ []
  afterVersion : Blank data.afterVersion ∧ data.afterVersion ≠ []
  name : 0x0A ∉ data.name ∧ data.name ≠ []

/-- What stands behind the status. -/
def comment (data : DataLine) : Str :=
  data.afterStatus ++ 0x23 :: (data.beforeShown ++ (data.shown ++ (data.afterShown ++ 0x45 :: (data.version ++
    (data.afterVersion ++ data.name)))))

def line (data : DataLine) : Str :=
  data.field ++ data.afterField ++ 0x3B :: (data.beforeStatus ++ (fullyQualified ++ data.comment))

def division (data : DataLine) : List Str :=
  [data.field, data.afterField, [0x3B], data.beforeStatus] ++ (fullyQualified.map (fun character => [character]) ++
    [data.afterStatus, [0x23], data.beforeShown, data.shown, data.afterShown, [0x45], data.version, data.afterVersion,
      data.name])

end DataLine

/-- The line names the emoji of these code points, with this name. -/
def Names (line : Str) (codepoints : List Nat) (name : Str) : Prop :=
  ∃ data : DataLine, data.Allowed ∧ data.line = line ∧ (words data.field).map hexNumber = codepoints ∧
    strip data.name = name

/-! ### The pattern -/

/-- The pattern divides a line into the parts of a line for an emoji. -/
theorem divides_linePattern_iff {line : Str} {division : List Str} :
    Divides linePattern line division ↔ ∃ data : DataLine, data.Allowed ∧ data.line = line ∧ data.division = division := by
  constructor
  · rintro ⟨rfl, hall⟩
    obtain ⟨field, _, hfield, behindField, rfl⟩ := List.forall₂_cons_left_iff.mp hall
    obtain ⟨afterField, _, hafterField, behindAfterField, rfl⟩ := List.forall₂_cons_left_iff.mp behindField
    obtain ⟨semicolon, _, hsemicolon, behindSemicolon, rfl⟩ := List.forall₂_cons_left_iff.mp behindAfterField
    obtain ⟨beforeStatus, _, hbeforeStatus, behindBeforeStatus, rfl⟩ := List.forall₂_cons_left_iff.mp behindSemicolon
    obtain ⟨_, rfl, hcomment⟩ := forall₂_exactly_append_iff.mp behindBeforeStatus
    obtain ⟨afterStatus, _, hafterStatus, behindAfterStatus, rfl⟩ := List.forall₂_cons_left_iff.mp hcomment
    obtain ⟨numberSign, _, hnumberSign, behindNumberSign, rfl⟩ := List.forall₂_cons_left_iff.mp behindAfterStatus
    obtain ⟨beforeShown, _, hbeforeShown, behindBeforeShown, rfl⟩ := List.forall₂_cons_left_iff.mp behindNumberSign
    obtain ⟨shown, _, hshown, behindShown, rfl⟩ := List.forall₂_cons_left_iff.mp behindBeforeShown
    obtain ⟨afterShown, _, hafterShown, behindAfterShown, rfl⟩ := List.forall₂_cons_left_iff.mp behindShown
    obtain ⟨letter, _, hletter, behindLetter, rfl⟩ := List.forall₂_cons_left_iff.mp behindAfterShown
    obtain ⟨version, _, hversion, behindVersion, rfl⟩ := List.forall₂_cons_left_iff.mp behindLetter
    obtain ⟨afterVersion, _, hafterVersion, behindAfterVersion, rfl⟩ := List.forall₂_cons_left_iff.mp behindVersion
    obtain ⟨name, _, hname, behindName, rfl⟩ := List.forall₂_cons_left_iff.mp behindAfterVersion
    obtain rfl := List.forall₂_nil_left_iff.mp behindName
    obtain rfl := eq_of_takes_exactly hsemicolon
    obtain rfl := eq_of_takes_exactly hnumberSign
    obtain rfl := eq_of_takes_exactly hletter
    refine ⟨⟨field, afterField, beforeStatus, afterStatus, beforeShown, shown, afterShown, version, afterVersion, name⟩,
      ⟨hfield, hafterField.1, hbeforeStatus.1, hafterStatus.1, hbeforeShown.1, ⟨fun character h => ?_, hshown.2⟩, hafterShown,
        hversion, hafterVersion, ⟨fun h => ?_, hname.2⟩⟩, ?_, rfl⟩
    · simpa using hshown.1 character h
    · simpa using hname.1 _ h
    · simp [DataLine.line, DataLine.comment, flatten_map_singleton]
  · rintro ⟨data, h, rfl, rfl⟩
    have hsolid : ∀ character ∈ data.shown, (!isBlank character) = true := fun character hmem => by
      rw [h.shown.1 character hmem]
      rfl
    have hname : ∀ character ∈ data.name, decide (character ≠ 0x0A) = true := fun character hmem =>
      decide_eq_true fun hfeed => h.name.1 (hfeed ▸ hmem)
    refine ⟨?_, ?_⟩
    · simp [DataLine.division, DataLine.line, DataLine.comment, flatten_map_singleton]
    · refine .cons h.field (.cons ⟨h.afterField, trivial⟩ (.cons (takes_exactly _) (.cons ⟨h.beforeStatus, trivial⟩ ?_)))
      refine forall₂_exactly_append_iff.mpr ⟨_, rfl, .cons ⟨h.afterStatus, trivial⟩ (.cons (takes_exactly _) ?_)⟩
      refine .cons ⟨h.beforeShown, trivial⟩ (.cons ⟨hsolid, h.shown.2⟩ (.cons h.afterShown (.cons (takes_exactly _) ?_)))
      exact .cons h.version (.cons h.afterVersion (.cons ⟨hname, h.name.2⟩ .nil))

/-! ### One reading of a line -/

theorem isBlank_of_isVersion {character : Nat} (h : isVersion character = true) : isBlank character = false := by
  have hrange : character ∈ ([0x2E, 0x30, 0x31, 0x32, 0x33, 0x34, 0x35, 0x36, 0x37, 0x38, 0x39] : List Nat) := by
    simp only [isVersion, Bool.or_eq_true, Bool.and_eq_true, decide_eq_true_eq] at h
    simp only [List.mem_cons, List.not_mem_nil, or_false]
    omega
  have hsolid : ∀ digit ∈ ([0x2E, 0x30, 0x31, 0x32, 0x33, 0x34, 0x35, 0x36, 0x37, 0x38, 0x39] : List Nat),
      isBlank digit = false := by decide
  exact hsolid character hrange

theorem comment_unique {data other : DataLine} (h : data.Allowed) (hother : other.Allowed)
    (hsame : data.comment = other.comment) : strip data.name = strip other.name := by
  have hnumberSign : isBlank 0x23 = false := by decide
  have hletter : isBlank 0x45 = false := by decide
  obtain ⟨_, hbehind⟩ := run_unique hsame h.afterStatus hother.afterStatus (head_cons hnumberSign _) (head_cons hnumberSign _)
  obtain ⟨_, hshown⟩ := run_unique (List.cons.inj hbehind).2 h.beforeShown hother.beforeShown
    (head_append h.shown.2 h.shown.1 _) (head_append hother.shown.2 hother.shown.1 _)
  have hsolid : ∀ {data : DataLine}, data.Allowed → ∀ character ∈ data.shown, (!isBlank character) = true :=
    fun h character hmem => by rw [h.shown.1 character hmem]; rfl
  have hblank : ∀ {data : DataLine}, data.Allowed → ∀ character ∈ data.afterShown, (!isBlank character) = false :=
    fun h character hmem => by rw [h.afterShown.1 character hmem]; rfl
  obtain ⟨_, hafterShown⟩ := run_unique hshown (hsolid h) (hsolid hother) (head_append h.afterShown.2 (hblank h) _)
    (head_append hother.afterShown.2 (hblank hother) _)
  obtain ⟨_, hversion⟩ := run_unique hafterShown h.afterShown.1 hother.afterShown.1 (head_cons hletter _)
    (head_cons hletter _)
  have hplain : ∀ {data : DataLine}, data.Allowed → ∀ character ∈ data.afterVersion, isVersion character = false := by
    intro data h character hmem
    refine Bool.eq_false_iff.mpr fun hcharacter => ?_
    have hblank := h.afterVersion.1 character hmem
    rw [isBlank_of_isVersion hcharacter] at hblank
    cases hblank
  obtain ⟨_, hname⟩ := run_unique (List.cons.inj hversion).2 h.version.1 hother.version.1
    (head_append h.afterVersion.2 (hplain h) _) (head_append hother.afterVersion.2 (hplain hother) _)
  have hstripped := congrArg strip hname
  rwa [strip_blank_append h.afterVersion.1, strip_blank_append hother.afterVersion.1] at hstripped

/-- Two ways to read one line agree in the code points and in the name. -/
theorem reading_unique {data other : DataLine} (h : data.Allowed) (hother : other.Allowed)
    (hsame : data.line = other.line) : words data.field = words other.field ∧ strip data.name = strip other.name := by
  have hkind : ∀ {data : DataLine}, data.Allowed → ∀ character ∈ data.field ++ data.afterField,
      (isCode character || isBlank character) = true := by
    intro data h character hmem
    rcases List.mem_append.mp hmem with hmem | hmem
    · rw [h.field.1 character hmem, Bool.true_or]
    · rw [h.afterField character hmem, Bool.or_true]
  have hsemicolon : ∀ rest : Str, ∀ character ∈ (0x3B :: rest).head?, (isCode character || isBlank character) = false :=
    fun rest => head_cons (by decide) rest
  have hstatus : ∀ character ∈ fullyQualified, isBlank character = false := by decide
  have hne : fullyQualified ≠ [] := by decide
  obtain ⟨hfield, hbehind⟩ := run_unique hsame (hkind h) (hkind hother) (hsemicolon _) (hsemicolon _)
  obtain ⟨_, hcomment⟩ := run_unique (List.cons.inj hbehind).2 h.beforeStatus hother.beforeStatus
    (head_append hne hstatus _) (head_append hne hstatus _)
  have hwords := congrArg words hfield
  rw [words_append_blank _ h.afterField, words_append_blank _ hother.afterField] at hwords
  exact ⟨hwords, comment_unique h hother (List.append_cancel_left hcomment)⟩

/-- What is matched is what the line names. -/
theorem matchLine_iff {line name : Str} {codepoints : List Nat} :
    (∃ groups, matchLine line = some groups ∧ (words groups.1).map hexNumber = codepoints ∧ strip groups.2 = name) ↔
      Names line codepoints name := by
  constructor
  · rintro ⟨groups, hmatch, hcodepoints, hname⟩
    obtain ⟨division, hfound, rfl⟩ := Option.map_eq_some_iff.mp hmatch
    obtain ⟨data, hallowed, hline, rfl⟩ := divides_linePattern_iff.mp (divides_of_fullMatch hfound)
    exact ⟨data, hallowed, hline, hcodepoints, hname⟩
  · rintro ⟨data, hallowed, hline, rfl, rfl⟩
    obtain ⟨division, hfound⟩ := exists_fullMatch (divides_linePattern_iff.mpr ⟨data, hallowed, hline, rfl⟩)
    obtain ⟨other, hother, hsame, rfl⟩ := divides_linePattern_iff.mp (divides_of_fullMatch hfound)
    obtain ⟨hwords, hname⟩ := reading_unique hother hallowed (hsame.trans hline.symm)
    refine ⟨(other.field, other.name), by rw [matchLine, hfound]; rfl, ?_, hname⟩
    rw [hwords]

/-! ### What the file says -/

def groupOf (line : Str) : Option Str :=
  if groupMark.isPrefixOf line then some (strip (afterColon line)) else none

def subgroupOf (line : Str) : Option Str :=
  if subgroupMark.isPrefixOf line then some (strip (afterColon line)) else none

/-- The line that follows these lists the record: it names the emoji, the last group before it has the category, and the last subgroup before it, if there is one, is the record's. -/
structure Described (before : List Str) (line : Str) (record : EmojiTestRecord) : Prop where
  names : Names line record.emoji record.unicodeName
  category : (before.filterMap groupOf).getLast?.bind categoryOf = some record.category
  subgroup : record.subgroup = (before.filterMap subgroupOf).getLast?.getD []

/-- What a line adds to the list. -/
inductive Adds (before : List Str) (line : Str) : List EmojiTestRecord → Prop
  | record (record : EmojiTestRecord) (h : Described before line record) : Adds before line [record]
  | nothing (h : ∀ record, ¬ Described before line record) : Adds before line []

/-- What the lines that follow these add to the list. -/
inductive Lists : List Str → List Str → List EmojiTestRecord → Prop
  | nil (before : List Str) : Lists before [] []
  | cons {before lines : List Str} {line : Str} {added records : List EmojiTestRecord} (h : Adds before line added)
      (hrest : Lists (before ++ [line]) lines records) : Lists before (line :: lines) (added ++ records)

/-- The records can be listed: their characters exist, and no emoji is listed twice. -/
def Listable (records : List EmojiTestRecord) : Prop :=
  (∀ record ∈ records, ∀ codepoint ∈ record.emoji, codepoint ≤ 0x10FFFF) ∧ (records.map (·.emoji)).Nodup

theorem not_isPrefixOf_of_names {line name mark : Str} {codepoints : List Nat} (h : Names line codepoints name)
    (hmark : mark.head? = some 0x23) : mark.isPrefixOf line = false := by
  obtain ⟨data, hallowed, rfl, _⟩ := h
  obtain ⟨first, others, hfield⟩ := List.exists_cons_of_ne_nil hallowed.field.2
  obtain ⟨rest, rfl⟩ := List.head?_eq_some_iff.mp hmark
  have hcode : isCode first = true := hallowed.field.1 first (hfield ▸ List.mem_cons_self)
  refine Bool.eq_false_iff.mpr fun hprefix => ?_
  obtain ⟨more, hmore⟩ := List.isPrefixOf_iff_prefix.mp hprefix
  rw [DataLine.line, hfield, List.cons_append, List.cons_append, List.cons_append] at hmore
  rw [← (List.cons.inj hmore).1] at hcode
  cases hcode

/-! ### Line by line -/

/-- The state after these lines, which have listed these records. -/
structure Follows (before : List Str) (state : EmojiTestState) (records : List EmojiTestRecord) : Prop where
  category : state.category = (before.filterMap groupOf).getLast?
  subgroup : state.subgroup = (before.filterMap subgroupOf).getLast?
  seen : ∀ emoji, emoji ∈ state.seen ↔ emoji ∈ records.map (·.emoji)
  records : state.records = records

theorem follows_initial : Follows [] ⟨none, none, [], []⟩ [] := ⟨rfl, rfl, by simp, rfl⟩

theorem getLast?_filterMap_concat {α β : Type} (f : α → Option β) (items : List α) (item : α) :
    ((items ++ [item]).filterMap f).getLast? = (f item).or (items.filterMap f).getLast? := by
  rw [List.filterMap_append]
  cases hitem : f item with
  | none => simp [hitem]
  | some value => simp [hitem]

theorem not_subgroup_of_group {line : Str} (h : groupMark.isPrefixOf line = true) : subgroupMark.isPrefixOf line = false := by
  refine Bool.eq_false_iff.mpr fun hsubgroup => ?_
  rcases List.prefix_or_prefix_of_prefix (List.isPrefixOf_iff_prefix.mp h) (List.isPrefixOf_iff_prefix.mp hsubgroup) with
    hprefix | hprefix
  · exact absurd hprefix (by decide)
  · exact absurd hprefix (by decide)

/-- A header changes its part of the state, and any other line nothing. -/
theorem Follows.header {before : List Str} {state after : EmojiTestState} {records : List EmojiTestRecord}
    (h : Follows before state records) {line : Str} (hcategory : after.category = (groupOf line).or state.category)
    (hsubgroup : after.subgroup = (subgroupOf line).or state.subgroup) (hseen : after.seen = state.seen)
    (hrecords : after.records = state.records) : Follows (before ++ [line]) after records := by
  refine ⟨?_, ?_, fun emoji => hseen ▸ h.seen emoji, hrecords.trans h.records⟩
  · rw [getLast?_filterMap_concat, hcategory, h.category]
  · rw [getLast?_filterMap_concat, hsubgroup, h.subgroup]

/-- A line that lists nothing is read over, but for the header it may be. -/
theorem Follows.over {before : List Str} {state : EmojiTestState} {records : List EmojiTestRecord}
    (h : Follows before state records) {line : Str} (hnone : ∀ record, ¬ Described before line record) :
    ∃ after, readLine state line = .ok after ∧ Follows (before ++ [line]) after records := by
  unfold readLine
  split
  · rename_i hgroup
    refine ⟨_, rfl, h.header ?_ ?_ rfl rfl⟩
    · rw [groupOf, if_pos hgroup, Option.some_or]
    · rw [subgroupOf, not_subgroup_of_group hgroup, if_neg Bool.false_ne_true, Option.none_or]
  rename_i hgroup
  have hnoGroup : groupOf line = none := if_neg hgroup
  split
  · rename_i hsubgroup
    refine ⟨_, rfl, h.header ?_ ?_ rfl rfl⟩
    · rw [hnoGroup, Option.none_or]
    · rw [subgroupOf, if_pos hsubgroup, Option.some_or]
  rename_i hsubgroup
  have hnoSubgroup : subgroupOf line = none := if_neg hsubgroup
  have hkept : Follows (before ++ [line]) state records :=
    h.header (by rw [hnoGroup, Option.none_or]) (by rw [hnoSubgroup, Option.none_or]) rfl rfl
  cases hmatch : matchLine line with
  | none => exact ⟨state, rfl, hkept⟩
  | some groups =>
      dsimp only
      cases hcategory : state.category.bind categoryOf with
      | none => exact ⟨state, rfl, hkept⟩
      | some category =>
          rw [h.category] at hcategory
          exact absurd ⟨matchLine_iff.mp ⟨groups, hmatch, rfl, rfl⟩, hcategory, rfl⟩
            (hnone ⟨(words groups.1).map hexNumber, category, _, strip groups.2⟩)

/-- A line that lists a record has it added. -/
theorem Follows.readLine_eq {before : List Str} {state : EmojiTestState} {records : List EmojiTestRecord}
    (h : Follows before state records) {line : Str} {record : EmojiTestRecord} (hdescribed : Described before line record) :
    readLine state line = addRecord state record := by
  obtain ⟨groups, hmatch, hemoji, hname⟩ := matchLine_iff.mpr hdescribed.names
  have hgroup := not_isPrefixOf_of_names hdescribed.names (show groupMark.head? = some 0x23 from rfl)
  have hsubgroup := not_isPrefixOf_of_names hdescribed.names (show subgroupMark.head? = some 0x23 from rfl)
  rw [readLine, hgroup, hsubgroup, hmatch, h.category, hdescribed.category, h.subgroup]
  obtain ⟨emoji, category, subgroup, unicodeName⟩ := record
  cases hemoji
  cases hname
  cases hdescribed.subgroup
  rfl

theorem Listable.of_append {records more : List EmojiTestRecord} (h : Listable (records ++ more)) : Listable records := by
  refine ⟨fun record hrecord => h.1 record (List.mem_append_left _ hrecord), ?_⟩
  have hnodup := h.2
  rw [List.map_append] at hnodup
  exact hnodup.of_append_left

theorem Follows.addRecord {before : List Str} {state : EmojiTestState} {records : List EmojiTestRecord}
    (h : Follows before state records) (hlistable : Listable records) {line : Str} {record : EmojiTestRecord}
    (hnames : Names line record.emoji record.unicodeName) :
    (Listable (records ++ [record]) ∧
      ∃ after, addRecord state record = .ok after ∧ Follows (before ++ [line]) after (records ++ [record])) ∨
    (¬ Listable (records ++ [record]) ∧ ∃ error, addRecord state record = .error error) := by
  have hnoGroup : groupOf line = none := by
    rw [groupOf, not_isPrefixOf_of_names hnames (show groupMark.head? = some 0x23 from rfl), if_neg Bool.false_ne_true]
  have hnoSubgroup : subgroupOf line = none := by
    rw [subgroupOf, not_isPrefixOf_of_names hnames (show subgroupMark.head? = some 0x23 from rfl),
      if_neg Bool.false_ne_true]
  unfold UpdateUnicodeData.addRecord
  split
  · rename_i hrange
    obtain ⟨codepoint, hmem, hlarge⟩ := List.any_eq_true.mp hrange
    refine Or.inr ⟨fun hall => ?_, _, rfl⟩
    have hsmall := hall.1 record (List.mem_append_right _ List.mem_cons_self) codepoint hmem
    exact absurd hsmall (Nat.not_le.mpr (of_decide_eq_true hlarge))
  rename_i hrange
  split
  · rename_i hseen
    refine Or.inr ⟨fun hall => ?_, _, rfl⟩
    have hnodup := hall.2
    rw [List.map_append, List.map_singleton, List.nodup_append] at hnodup
    have hmem := (h.seen record.emoji).mp (List.contains_iff_mem.mp hseen)
    exact hnodup.2.2 _ hmem _ List.mem_cons_self rfl
  · rename_i hseen
    have hnew : record.emoji ∉ records.map (·.emoji) := fun hmem =>
      hseen (List.contains_iff_mem.mpr ((h.seen record.emoji).mpr hmem))
    refine Or.inl ⟨⟨?_, ?_⟩, _, rfl, ?_, ?_, ?_, ?_⟩
    · intro other hother codepoint hmem
      rcases List.mem_append.mp hother with hother | hother
      · exact hlistable.1 other hother codepoint hmem
      · rw [List.mem_singleton.mp hother] at hmem
        refine Nat.not_lt.mp fun hlarge => hrange ?_
        exact List.any_eq_true.mpr ⟨codepoint, hmem, decide_eq_true hlarge⟩
    · rw [List.map_append, List.map_singleton, List.nodup_append]
      refine ⟨hlistable.2, List.nodup_singleton _, fun emoji hmem other hother hsame => hnew ?_⟩
      rw [hsame, List.mem_singleton.mp hother] at hmem
      exact hmem
    · rw [getLast?_filterMap_concat, hnoGroup, Option.none_or]
      exact h.category
    · rw [getLast?_filterMap_concat, hnoSubgroup, Option.none_or]
      exact h.subgroup
    · intro emoji
      rw [List.mem_cons, h.seen, List.map_append, List.map_singleton, List.mem_append, List.mem_singleton, or_comm]
    · exact congrArg (· ++ [record]) h.records

/-- The lines are read to their end if what they list can be listed. -/
theorem Lists.fold {before lines : List Str} {more : List EmojiTestRecord} (hlists : Lists before lines more)
    {state : EmojiTestState} {records : List EmojiTestRecord} (h : Follows before state records)
    (hlistable : Listable records) :
    (Listable (records ++ more) ∧ ∃ after, lines.foldlM readLine state = .ok after ∧ after.records = records ++ more) ∨
      (¬ Listable (records ++ more) ∧ ∃ error, lines.foldlM readLine state = .error error) := by
  induction hlists generalizing state records with
  | nil before =>
      rw [List.append_nil]
      exact Or.inl ⟨hlistable, state, rfl, h.records⟩
  | cons hadds _ ih =>
      rw [List.foldlM_cons, ← List.append_assoc]
      cases hadds with
      | nothing hnone =>
          obtain ⟨after, hread, hfollows⟩ := h.over hnone
          rw [hread, List.append_nil]
          exact ih hfollows hlistable
      | record record hdescribed =>
          rw [h.readLine_eq hdescribed]
          rcases h.addRecord hlistable hdescribed.names with ⟨hadded, after, hread, hfollows⟩ | ⟨hnot, error, hread⟩
          · rw [hread]
            exact ih hfollows hadded
          · rw [hread]
            exact Or.inr ⟨fun hall => hnot hall.of_append, error, rfl⟩

/-- Whatever the lines are, they list something or nothing. -/
theorem exists_lists (before lines : List Str) : ∃ records, Lists before lines records := by
  induction lines generalizing before with
  | nil => exact ⟨[], .nil before⟩
  | cons line lines ih =>
      obtain ⟨records, hrest⟩ := ih (before ++ [line])
      by_cases hdescribed : ∃ record, Described before line record
      · obtain ⟨record, hdescribed⟩ := hdescribed
        exact ⟨[record] ++ records, .cons (.record record hdescribed) hrest⟩
      · exact ⟨[] ++ records, .cons (.nothing fun record h => hdescribed ⟨record, h⟩) hrest⟩

theorem lists_of_parseEmojiTest {text : Str} {records : List EmojiTestRecord} (h : parseEmojiTest text = .ok records) :
    Lists [] (splitlines text) records ∧ Listable records ∧ records ≠ [] := by
  obtain ⟨listed, hlists⟩ := exists_lists [] (splitlines text)
  rw [parseEmojiTest] at h
  rcases hlists.fold follows_initial ⟨by simp, List.nodup_nil⟩ with ⟨hlistable, after, hread, hrecords⟩ | ⟨_, error, hread⟩
  · rw [hread] at h
    dsimp only at h
    split at h
    · cases h
    · rename_i hne
      cases h
      rw [hrecords] at hne ⊢
      exact ⟨hlists, hlistable, by simpa using hne⟩
  · rw [hread] at h
    cases h

/-- The generator gets the records that the lines of the file list, in their order, if they can be listed and there are any. Otherwise it fails. -/
theorem parseEmojiTest_eq_ok_iff (text : Str) (records : List EmojiTestRecord) :
    parseEmojiTest text = .ok records ↔ Lists [] (splitlines text) records ∧ Listable records ∧ records ≠ [] := by
  refine ⟨lists_of_parseEmojiTest, ?_⟩
  rintro ⟨hlists, hlistable, hne⟩
  rw [parseEmojiTest]
  rcases hlists.fold follows_initial ⟨by simp, List.nodup_nil⟩ with ⟨_, after, hread, hrecords⟩ | ⟨hnot, _⟩
  · rw [hread]
    dsimp only
    rw [hrecords, List.nil_append, if_neg (by simpa using hne)]
  · exact absurd hlistable hnot

end UpdateUnicodeData

end EmojiPalette
