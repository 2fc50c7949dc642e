import EmojiPalette.Core.State

/-!
# The text form of the state

What can be written is exactly `Storable`: within the counts, every sequence valid, no duplicates, no use count of zero. The writer's own checks decide it, the reader accepts nothing else, and the size bound never adds to it. Together these make the text a faithful picture of the state in both directions.
-/

namespace EmojiPalette

namespace PersistentState

/-- What a state must satisfy to be written. -/
structure Storable (state : PersistentState) : Prop where
  favorites_length : state.favorites.length ≤ maximumFavorites
  favorites_valid : ∀ sequence ∈ state.favorites, validSequence sequence = true
  favorites_nodup : state.favorites.Nodup
  recents_length : state.recents.length ≤ maximumRecents
  recents_valid : ∀ recent ∈ state.recents, validSequence recent.sequence = true
  recents_used : ∀ recent ∈ state.recents, recent.useCount ≠ 0
  recents_nodup : (state.recents.map (·.sequence)).Nodup

theorem storable_empty : Storable empty where
  favorites_length := Nat.zero_le _
  favorites_valid := by simp [empty]
  favorites_nodup := List.nodup_nil
  recents_length := Nat.zero_le _
  recents_valid := by simp [empty]
  recents_used := by simp [empty]
  recents_nodup := List.nodup_nil

/-- The lines of the entries, each with its line break. -/
def entryLines (lines : List Bytes) : Bytes := lines.flatMap fun line => line ++ [newline]

/-- The text a state is written as. -/
def render (state : PersistentState) : Bytes :=
  entryLines (header :: (state.favorites.map favoriteLine ++ state.recents.map recentLine))

theorem entryLines_cons (line : Bytes) (rest : List Bytes) :
    entryLines (line :: rest) = line ++ newline :: entryLines rest := by
  simp [entryLines]

theorem render_eq (state : PersistentState) :
    render state = header ++ newline ::
      (entryLines (state.favorites.map favoriteLine) ++ entryLines (state.recents.map recentLine)) := by
  simp [render, entryLines]

/-! ### Writing -/

theorem writeEntries_eq_some_iff {Entry : Type} {valid : Entry → Bool} {key line : Entry → Bytes}
    {written : List Bytes} {entries : List Entry} {text : Bytes} :
    writeEntries valid key line written entries = some text ↔
      (∀ entry ∈ entries, valid entry = true) ∧ (entries.map key).Nodup ∧
        (∀ entry ∈ entries, key entry ∉ written) ∧ text = entryLines (entries.map line) := by
  induction entries generalizing written text with
  | nil =>
      constructor
      · intro h
        cases h
        exact ⟨by simp, List.nodup_nil, by simp, rfl⟩
      · intro h
        obtain ⟨_, _, _, rfl⟩ := h
        rfl
  | cons entry rest ih =>
      rw [writeEntries, List.map_cons, List.map_cons, entryLines_cons]
      split
      · rename_i hrefused
        constructor
        · intro h
          cases h
        · intro h
          obtain ⟨hvalid, _, hfresh, _⟩ := h
          simp [hvalid entry List.mem_cons_self, hfresh entry List.mem_cons_self] at hrefused
      · rename_i haccepted
        simp only [Bool.or_eq_true, Bool.not_eq_true', List.contains_eq_mem, decide_eq_true_eq, not_or,
          Bool.not_eq_false] at haccepted
        obtain ⟨hentry, hnew⟩ := haccepted
        simp only [Option.map_eq_some_iff, ih, List.nodup_cons, List.mem_map, not_exists, not_and]
        constructor
        · intro h
          obtain ⟨_, ⟨hvalid, hnodup, hfresh, rfl⟩, rfl⟩ := h
          refine ⟨List.forall_mem_cons.mpr ⟨hentry, hvalid⟩, ⟨fun other hother heq => ?_, hnodup⟩,
            List.forall_mem_cons.mpr ⟨hnew, fun other hother => ?_⟩, rfl⟩
          · exact hfresh other hother (heq ▸ List.mem_cons_self)
          · exact fun hmem => hfresh other hother (List.mem_cons_of_mem _ hmem)
        · intro h
          obtain ⟨hvalid, ⟨hdistinct, hnodup⟩, hfresh, rfl⟩ := h
          refine ⟨_, ⟨(List.forall_mem_cons.mp hvalid).2, hnodup, fun other hother hmem => ?_, rfl⟩, rfl⟩
          rcases List.mem_cons.mp hmem with heq | hmem
          · exact hdistinct other hother heq
          · exact hfresh other (List.mem_cons_of_mem entry hother) hmem

/-! ### The size bound -/

private theorem length_entryLines_le {lines : List Bytes} (bound : Nat)
    (h : ∀ line ∈ lines, line.length ≤ bound) : (entryLines lines).length ≤ lines.length * (bound + 1) := by
  induction lines with
  | nil => simp [entryLines]
  | cons line rest ih =>
      obtain ⟨hline, hrest⟩ := List.forall_mem_cons.mp h
      have htail := ih hrest
      simp only [entryLines_cons, List.length_append, List.length_cons, Nat.add_mul, Nat.one_mul]
      omega

theorem length_le_of_validSequence {sequence : Bytes} (h : validSequence sequence = true) :
    sequence.length ≤ maximumSequenceSize := by
  simp only [validSequence, Bool.and_eq_true, decide_eq_true_eq] at h
  exact h.1.2

theorem isValidUtf8_of_validSequence {sequence : Bytes} (h : validSequence sequence = true) :
    isValidUtf8 sequence = true := by
  simp only [validSequence, Bool.and_eq_true] at h
  exact h.2

private theorem length_favoriteLine_le {sequence : Bytes} (h : validSequence sequence = true) :
    (favoriteLine sequence).length ≤ 265 := by
  have hsize := length_le_of_validSequence h
  simp only [favoriteLine, favoriteKind, ascii, List.length_append, List.length_cons, length_hexEncode,
    List.map_cons, List.map_nil, List.length_nil, maximumSequenceSize] at hsize ⊢
  omega

/-- Twenty digits are enough for any use count, and a sign and nineteen for any timestamp. -/
private theorem length_recentLine_le {recent : RecentEntry} (h : validSequence recent.sequence = true) :
    (recentLine recent).length ≤ 305 := by
  have hsize := length_le_of_validSequence h
  have hcount : (Decimal.print recent.useCount.toNat).length ≤ 20 :=
    Decimal.length_print_le (by decide) (lt_trans recent.useCount.toNat_lt (by decide))
  have hlow := recent.lastUsed.le_toInt
  have hhigh := recent.lastUsed.toInt_lt
  have htime : (Decimal.printInt recent.lastUsed.toInt).length ≤ 19 + 1 :=
    Decimal.length_printInt_le (by decide) (by omega)
  simp only [recentLine, recentKind, ascii, List.length_append, List.length_cons, length_hexEncode,
    List.map_cons, List.map_nil, List.length_nil, maximumSequenceSize] at hsize ⊢
  omega

/-- The counts bound the text far below the limit. -/
theorem length_render_le {state : PersistentState} (h : Storable state) :
    (render state).length ≤ maximumStateSize := by
  have hfavorites : (entryLines (state.favorites.map favoriteLine)).length ≤ _ :=
    length_entryLines_le 265 fun line hline => by
      obtain ⟨sequence, hmem, rfl⟩ := List.mem_map.mp hline
      exact length_favoriteLine_le (h.favorites_valid sequence hmem)
  have hrecents : (entryLines (state.recents.map recentLine)).length ≤ _ :=
    length_entryLines_le 305 fun line hline => by
      obtain ⟨recent, hmem, rfl⟩ := List.mem_map.mp hline
      exact length_recentLine_le (h.recents_valid recent hmem)
  have hheader : header.length = 21 := rfl
  have hfew := h.favorites_length
  have hmany := h.recents_length
  simp only [List.length_map, maximumFavorites, maximumRecents] at hfavorites hrecents hfew hmany
  simp only [render_eq, List.length_append, List.length_cons, hheader, maximumStateSize]
  omega

private theorem writeFavorites_eq_some_iff {favorites : List Bytes} {text : Bytes} :
    writeFavorites favorites = some text ↔
      (∀ sequence ∈ favorites, validSequence sequence = true) ∧ favorites.Nodup ∧
        text = entryLines (favorites.map favoriteLine) := by
  simp [writeFavorites, writeEntries_eq_some_iff]

private theorem writeRecents_eq_some_iff {recents : List RecentEntry} {text : Bytes} :
    writeRecents recents = some text ↔
      (∀ recent ∈ recents, validSequence recent.sequence = true ∧ recent.useCount ≠ 0) ∧
        (recents.map (·.sequence)).Nodup ∧ text = entryLines (recents.map recentLine) := by
  simp [writeRecents, writeEntries_eq_some_iff]

/-- The writer's checks are exactly `Storable`, and it writes the rendered text. -/
theorem serialize_eq_some_iff {state : PersistentState} {text : Bytes} :
    serialize state = some text ↔ Storable state ∧ text = render state := by
  unfold serialize
  simp only [Bool.or_eq_true, decide_eq_true_eq, gt_iff_lt]
  constructor
  · intro h
    split at h
    · cases h
    rename_i hcounts
    obtain ⟨hfew, hmany⟩ := not_or.mp hcounts
    split at h
    · rename_i favorites recents hfavorites hrecents
      obtain ⟨hvalid, hnodup, rfl⟩ := writeFavorites_eq_some_iff.mp hfavorites
      obtain ⟨hused, hdistinct, rfl⟩ := writeRecents_eq_some_iff.mp hrecents
      split at h
      · cases h
      · cases h
        refine ⟨⟨Nat.not_lt.mp hfew, hvalid, hnodup, Nat.not_lt.mp hmany, ?_, ?_, hdistinct⟩,
          (render_eq state).symm⟩
        · exact fun recent hmem => (hused recent hmem).1
        · exact fun recent hmem => (hused recent hmem).2
    · cases h
  · intro h
    obtain ⟨hstorable, rfl⟩ := h
    have hfavorites := writeFavorites_eq_some_iff.mpr
      ⟨hstorable.favorites_valid, hstorable.favorites_nodup, rfl⟩
    have hrecents := writeRecents_eq_some_iff.mpr
      ⟨fun recent hmem => ⟨hstorable.recents_valid recent hmem, hstorable.recents_used recent hmem⟩,
        hstorable.recents_nodup, rfl⟩
    have hsize := length_render_le hstorable
    rw [if_neg (not_or.mpr ⟨Nat.not_lt.mpr hstorable.favorites_length, Nat.not_lt.mpr hstorable.recents_length⟩),
      hfavorites, hrecents]
    rw [render_eq] at hsize ⊢
    exact if_neg (Nat.not_lt.mpr hsize)

theorem isSome_serialize_iff {state : PersistentState} : (serialize state).isSome ↔ Storable state := by
  simp only [Option.isSome_iff_exists, serialize_eq_some_iff, exists_and_left, exists_eq, and_true]

/-! ### Splitting into lines and fields -/

/-- No field the writer writes holds a separator: its bytes are minus signs, digits and letters. -/
private def Plain (field : Bytes) : Prop := ∀ byte ∈ field, 45 ≤ byte

private theorem plain_of_all {field : Bytes} (h : field.all (fun byte => 45 ≤ byte) = true) : Plain field :=
  fun byte hbyte => of_decide_eq_true (List.all_eq_true.mp h byte hbyte)

private theorem Plain.tab_notMem {field : Bytes} (h : Plain field) : tab ∉ field :=
  fun hmem => absurd (h tab hmem) (by decide)

private theorem Plain.newline_notMem {field : Bytes} (h : Plain field) : newline ∉ field :=
  fun hmem => absurd (h newline hmem) (by decide)

private theorem plain_hexEncode (value : Bytes) : Plain (hexEncode value) :=
  fun _ hbyte => UInt8.le_trans (by decide : (45 : UInt8) ≤ 48) (le_of_mem_hexEncode hbyte)

private theorem plain_print (n : Nat) : Plain (Decimal.print n) := by
  intro byte hbyte
  have hdigit := Decimal.isDigit_of_mem_print hbyte
  simp only [Decimal.isDigit, Bool.and_eq_true, decide_eq_true_eq] at hdigit
  exact UInt8.le_trans (by decide : (45 : UInt8) ≤ 48) hdigit.1

private theorem plain_printInt (i : Int) : Plain (Decimal.printInt i) := by
  unfold Decimal.printInt
  split
  · exact List.forall_mem_cons.mpr ⟨by decide, plain_print _⟩
  · exact plain_print _

/-- A field before the next tab. -/
private theorem fields_cons {field rest : Bytes} (h : Plain field) :
    fields (field ++ tab :: rest) = field :: fields rest :=
  List.splitOn_append_cons_self_of_not_mem h.tab_notMem rest

private theorem fields_single {field : Bytes} (h : Plain field) : fields field = [field] :=
  List.splitOn_eq_singleton h.tab_notMem

theorem fields_favoriteLine (sequence : Bytes) :
    fields (favoriteLine sequence) = [favoriteKind, hexEncode sequence] := by
  rw [favoriteLine, fields_cons (plain_of_all (by decide)), fields_single (plain_hexEncode sequence)]

theorem fields_recentLine (recent : RecentEntry) :
    fields (recentLine recent) = [recentKind, Decimal.print recent.useCount.toNat,
      Decimal.printInt recent.lastUsed.toInt, hexEncode recent.sequence] := by
  rw [recentLine, fields_cons (plain_of_all (by decide)), fields_cons (plain_print _),
    fields_cons (plain_printInt _), fields_single (plain_hexEncode _)]

private theorem newline_notMem_favoriteLine (sequence : Bytes) : newline ∉ favoriteLine sequence := by
  have hkind : newline ∉ favoriteKind := by decide
  have hhex := (plain_hexEncode sequence).newline_notMem
  have hne : newline ≠ tab := by decide
  simp [favoriteLine, hkind, hhex, hne]

private theorem newline_notMem_recentLine (recent : RecentEntry) : newline ∉ recentLine recent := by
  have hkind : newline ∉ recentKind := by decide
  have hcount := (plain_print recent.useCount.toNat).newline_notMem
  have htime := (plain_printInt recent.lastUsed.toInt).newline_notMem
  have hhex := (plain_hexEncode recent.sequence).newline_notMem
  have hne : newline ≠ tab := by decide
  simp [recentLine, hkind, hcount, htime, hhex, hne]

private theorem splitOn_entryLines {written : List Bytes} (h : ∀ line ∈ written, newline ∉ line) :
    (entryLines written).splitOn newline = written ++ [[]] := by
  induction written with
  | nil => rfl
  | cons line rest ih =>
      obtain ⟨hline, hrest⟩ := List.forall_mem_cons.mp h
      rw [entryLines_cons, List.splitOn_append_cons_self_of_not_mem hline, ih hrest, List.cons_append]

/-- The reader's lines are the written ones: the last line break starts no further line. -/
theorem lines_entryLines {written : List Bytes} (h : ∀ line ∈ written, newline ∉ line) :
    lines (entryLines written) = written := by
  simp [lines, splitOn_entryLines h]

/-! ### Reading what was written -/

theorem parseCount_print (count : UInt64) : parseCount (Decimal.print count.toNat) = some count := by
  have hrange := count.toNat_lt
  rw [parseCount, Decimal.scan_print]
  simp [hrange]

theorem parseTimestamp_printInt (timestamp : Int64) :
    parseTimestamp (Decimal.printInt timestamp.toInt) = some timestamp := by
  have hlow := timestamp.le_toInt
  have hhigh := timestamp.toInt_lt
  rw [parseTimestamp, Decimal.scanInt_printInt]
  simp only [hlow, hhigh, and_self, if_true, Int64.ofInt_toInt]

private theorem parseLine_favoriteLine (state : PersistentState) (sequence : Bytes) :
    parseLine state (favoriteLine sequence) = parseFavorite state (hexEncode sequence) := by
  rw [parseLine, if_neg (by simp [favoriteLine]), fields_favoriteLine]
  simp

private theorem parseLine_recentLine (state : PersistentState) (recent : RecentEntry) :
    parseLine state (recentLine recent) = parseRecent state (Decimal.print recent.useCount.toNat)
      (Decimal.printInt recent.lastUsed.toInt) (hexEncode recent.sequence) := by
  rw [parseLine, if_neg (by simp [recentLine]), fields_recentLine]
  simp

/-- The favorites' lines are read one after another to the end of the favorites already read. -/
private theorem foldlM_favoriteLine {favorites : List Bytes} (state : PersistentState)
    (hvalid : ∀ sequence ∈ favorites, validSequence sequence = true)
    (hnodup : (state.favorites ++ favorites).Nodup)
    (hlength : (state.favorites ++ favorites).length ≤ maximumFavorites) :
    (favorites.map favoriteLine).foldlM parseLine state =
      some { state with favorites := state.favorites ++ favorites } := by
  induction favorites generalizing state with
  | nil => simp
  | cons sequence rest ih =>
      obtain ⟨hsequence, hrest⟩ := List.forall_mem_cons.mp hvalid
      rw [List.append_cons] at hnodup hlength
      have hnew : sequence ∉ state.favorites := fun hmem => by
        have hdisjoint := (List.nodup_append.mp (List.nodup_append.mp hnodup).1).2.2
        exact hdisjoint sequence hmem sequence List.mem_cons_self rfl
      have hroom : state.favorites.length < maximumFavorites := by
        simp only [List.length_append, List.length_cons, List.length_nil] at hlength
        omega
      have hone : parseLine state (favoriteLine sequence) =
          some { state with favorites := state.favorites ++ [sequence] } := by
        rw [parseLine_favoriteLine, parseFavorite, hexDecode_hexEncode (isValidUtf8_of_validSequence hsequence)]
        simp [hsequence, hnew, hroom]
      rw [List.map_cons, List.foldlM_cons, hone, List.append_cons state.favorites sequence rest]
      exact ih { state with favorites := state.favorites ++ [sequence] } hrest hnodup hlength

private theorem foldlM_recentLine {recents : List RecentEntry} (state : PersistentState)
    (hvalid : ∀ recent ∈ recents, validSequence recent.sequence = true)
    (hused : ∀ recent ∈ recents, recent.useCount ≠ 0)
    (hnodup : ((state.recents ++ recents).map (·.sequence)).Nodup)
    (hlength : (state.recents ++ recents).length ≤ maximumRecents) :
    (recents.map recentLine).foldlM parseLine state = some { state with recents := state.recents ++ recents } := by
  induction recents generalizing state with
  | nil => simp
  | cons recent rest ih =>
      obtain ⟨hrecent, hrest⟩ := List.forall_mem_cons.mp hvalid
      obtain ⟨hcount, husedRest⟩ := List.forall_mem_cons.mp hused
      rw [List.append_cons] at hnodup hlength
      have hnew : recent.sequence ∉ state.recents.map (·.sequence) := fun hmem => by
        rw [List.map_append, List.map_append] at hnodup
        have hdisjoint := (List.nodup_append.mp (List.nodup_append.mp hnodup).1).2.2
        exact hdisjoint recent.sequence hmem recent.sequence List.mem_cons_self rfl
      have hroom : state.recents.length < maximumRecents := by
        simp only [List.length_append, List.length_cons, List.length_nil] at hlength
        omega
      have hone : parseLine state (recentLine recent) =
          some { state with recents := state.recents ++ [recent] } := by
        rw [parseLine_recentLine, parseRecent, parseCount_print, parseTimestamp_printInt,
          hexDecode_hexEncode (isValidUtf8_of_validSequence hrecent)]
        simp only [bne_iff_ne, ne_eq, hcount, not_false_eq_true, Bool.and_eq_true, hrecent,
          List.contains_eq_mem, hnew, decide_false, Bool.not_false, hroom, decide_true, and_self, if_true]
      rw [List.map_cons, List.foldlM_cons, hone, List.append_cons state.recents recent rest]
      exact ih { state with recents := state.recents ++ [recent] } hrest husedRest hnodup hlength

theorem parseState_render {state : PersistentState} (h : Storable state) :
    parseState (render state) = some state := by
  have hlines : lines (render state) =
      header :: (state.favorites.map favoriteLine ++ state.recents.map recentLine) := by
    refine lines_entryLines (List.forall_mem_cons.mpr ⟨by decide, fun line hline => ?_⟩)
    rcases List.mem_append.mp hline with hline | hline
    · obtain ⟨sequence, _, rfl⟩ := List.mem_map.mp hline
      exact newline_notMem_favoriteLine sequence
    · obtain ⟨recent, _, rfl⟩ := List.mem_map.mp hline
      exact newline_notMem_recentLine recent
  have hfavorites : (state.favorites.map favoriteLine).foldlM parseLine empty = some ⟨state.favorites, []⟩ :=
    foldlM_favoriteLine empty h.favorites_valid h.favorites_nodup h.favorites_length
  have hrecents : (state.recents.map recentLine).foldlM parseLine ⟨state.favorites, []⟩ = some state :=
    foldlM_recentLine ⟨state.favorites, []⟩ h.recents_valid h.recents_used h.recents_nodup
      h.recents_length
  simp only [parseState, hlines, if_true, List.foldlM_append, hfavorites]
  exact hrecents

/-! ### What the reader accepts -/

private theorem storable_of_parseFavorite {state next : PersistentState} {hex : Bytes} (hstate : Storable state)
    (h : parseFavorite state hex = some next) : Storable next := by
  unfold parseFavorite at h
  split at h
  · split at h
    · rename_i sequence _ hchecks
      simp only [Bool.and_eq_true, Bool.not_eq_true', List.contains_eq_mem, decide_eq_false_iff_not,
        decide_eq_true_eq] at hchecks
      obtain ⟨⟨hvalid, hnew⟩, hroom⟩ := hchecks
      cases h
      refine { hstate with favorites_length := ?_, favorites_valid := ?_, favorites_nodup := ?_ }
      · simpa using hroom
      · exact List.forall_mem_append.mpr ⟨hstate.favorites_valid, by simpa using hvalid⟩
      · exact List.nodup_append.mpr ⟨hstate.favorites_nodup, List.nodup_singleton _, by
          rintro other hother x hx rfl
          obtain rfl : other = _ := List.mem_singleton.mp hx
          exact hnew hother⟩
    · cases h
  · cases h

private theorem storable_of_parseRecent {state next : PersistentState} {count timestamp hex : Bytes}
    (hstate : Storable state) (h : parseRecent state count timestamp hex = some next) : Storable next := by
  unfold parseRecent at h
  split at h
  · split at h
    · rename_i useCount lastUsed sequence _ _ _ hchecks
      simp only [Bool.and_eq_true, Bool.not_eq_true', List.contains_eq_mem, decide_eq_false_iff_not,
        decide_eq_true_eq, bne_iff_ne] at hchecks
      obtain ⟨⟨⟨hused, hvalid⟩, hnew⟩, hroom⟩ := hchecks
      cases h
      refine { hstate with recents_length := ?_, recents_valid := ?_, recents_used := ?_, recents_nodup := ?_ }
      · simpa using hroom
      · exact List.forall_mem_append.mpr ⟨hstate.recents_valid, by simpa using hvalid⟩
      · exact List.forall_mem_append.mpr ⟨hstate.recents_used, by simpa using hused⟩
      · rw [List.map_append]
        exact List.nodup_append.mpr ⟨hstate.recents_nodup, List.nodup_singleton _, by
          rintro other hother x hx rfl
          obtain rfl : other = sequence := List.mem_singleton.mp hx
          exact hnew hother⟩
    · cases h
  · cases h

private theorem storable_of_parseLine {state next : PersistentState} {line : Bytes} (hstate : Storable state)
    (h : parseLine state line = some next) : Storable next := by
  unfold parseLine at h
  split at h
  · cases h
    exact hstate
  · split at h
    · split at h
      · exact storable_of_parseFavorite hstate h
      · cases h
    · split at h
      · exact storable_of_parseRecent hstate h
      · cases h
    · cases h

private theorem storable_of_foldlM {rest : List Bytes} {state final : PersistentState} (hstate : Storable state)
    (h : rest.foldlM parseLine state = some final) : Storable final := by
  induction rest generalizing state with
  | nil =>
      cases h
      exact hstate
  | cons line rest ih =>
      rw [List.foldlM_cons] at h
      obtain ⟨next, hnext, hrest⟩ := Option.bind_eq_some_iff.mp h
      exact ih (storable_of_parseLine hstate hnext) hrest

theorem storable_of_parseState {content : Bytes} {state : PersistentState}
    (h : parseState content = some state) : Storable state := by
  unfold parseState at h
  split at h
  · split at h
    · exact storable_of_foldlM storable_empty h
    · cases h
  · cases h

/-- Whatever is written reads back as the same state, and whatever reads as a state can be written again within the size bound. -/
theorem parseState_serialize_roundTrip :
    (∀ (state : PersistentState) (text : Bytes), serialize state = some text → parseState text = some state) ∧
      (∀ (content : Bytes) (state : PersistentState), parseState content = some state →
        ∃ text, serialize state = some text ∧ text.length ≤ maximumStateSize ∧ parseState text = some state) := by
  constructor
  · intro state text h
    obtain ⟨hstorable, rfl⟩ := serialize_eq_some_iff.mp h
    exact parseState_render hstorable
  · intro content state h
    have hstorable := storable_of_parseState h
    exact ⟨render state, serialize_eq_some_iff.mpr ⟨hstorable, rfl⟩, length_render_le hstorable,
      parseState_render hstorable⟩

end PersistentState

end EmojiPalette
