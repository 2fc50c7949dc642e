import EmojiPalette.Core.GlyphCoverage
import EmojiPalette.Ui.EmojiListModel

/-!
# The list with its glyph coverage

The list model with the part of it that `EmojiListModel` leaves out: the probe, and the two tables of answers. A font remembers each code point it was asked about, and the list remembers the coverage of each record, by the record's address. An address is the record's place in the catalog here, so a row is a record with its place. `toListModel` ties the rows to those of `EmojiListModel`.

What a font draws is Qt's answer, and a parameter. The only reads that look at a glyph are those of the roles that report it.
-/

namespace EmojiPalette

namespace Ui

/-! ### Fonts and probes -/

/-- What the toolkit answers: whether a font and its fallbacks draw a code point, and the translated note with a name in it. -/
structure Toolkit (Font : Type) where
  inFontUcs4 : Font → Nat → Bool
  noGlyphNote : Bytes → Bytes

structure FontCoverage (Font : Type) where
  font : Font
  cache : Memo.Table Nat Bool

/-- The two functions a probe can be. The system's is one that shares a `FontCoverage`. -/
inductive HeldProbe (Font : Type)
  | explicit (accepts : Nat → Bool)
  | system (coverage : FontCoverage Font)

section Probes

variable {Font : Type} (toolkit : Toolkit Font)

def FontCoverage.covers (codepoint : Nat) : StateM (FontCoverage Font) Bool := fun coverage =>
  match coverage.cache.lookup codepoint with
  | some cached => (cached, coverage)
  | none =>
      let supported := toolkit.inFontUcs4 coverage.font codepoint
      (supported, { coverage with cache := (codepoint, supported) :: coverage.cache })

def systemGlyphProbe (font : Font) : HeldProbe Font := .system ⟨font, []⟩

/-- A call of the probe. -/
def HeldProbe.ask : GlyphProbe (StateM (HeldProbe Font)) := fun codepoint held =>
  match held with
  | .explicit accepts => (accepts codepoint, .explicit accepts)
  | .system coverage =>
      let (supported, coverage) := coverage.covers toolkit codepoint
      (supported, .system coverage)

end Probes

/-! ### Rows -/

/-- A record where it stands in the catalog. -/
abbrev Row := EmojiRecord × Nat

def rows (catalog : EmojiCatalog) : List Row := catalog.records.zipIdx

namespace Row

def find (catalog : EmojiCatalog) (sequence : Bytes) : Option Row :=
  (rows catalog).find? fun row => row.1.sequence = sequence

def candidates (catalog : EmojiCatalog) (tokens : List Bytes) (locale : Locale) : List (Row × Int) :=
  ((rows catalog).filterMap fun row =>
    (totalScore tokens row.1.searchDocument locale).map fun score => (row, score)).insertionSort
    fun left right => left.2 ≥ right.2

def search (catalog : EmojiCatalog) (query : Bytes) (locale : Locale) (limit : Nat) : List Row :=
  let normalized := normalizeForSearch query
  if normalized.isEmpty || limit = 0 then []
  else match find catalog query with
    | some exact => [exact]
    | none =>
        let tokens := queryTokens normalized
        if tokens.isEmpty then [] else ((candidates catalog tokens locale).take limit).map (·.1)

def listed (catalog : EmojiCatalog) (state : PersistentState) (category : Category) (locale : Locale) (query : Bytes) :
    List Row :=
  if !query.isEmpty then search catalog query locale EmojiListModel.maximumResults
  else match category with
    | .recentlyUsed => state.recents.filterMap fun recent => find catalog recent.sequence
    | .favorites => state.favorites.filterMap (find catalog)
    | category => (rows catalog).filter fun row => row.1.category = category

/-! ### The rows are those of the plain list -/

variable {catalog : EmojiCatalog}

theorem map_fst_rows (catalog : EmojiCatalog) : (rows catalog).map Prod.fst = catalog.records :=
  List.zipIdx_map_fst 0 catalog.records

theorem find_map_fst (sequence : Bytes) : (find catalog sequence).map Prod.fst = catalog.find sequence := by
  rw [EmojiCatalog.find, ← map_fst_rows catalog, List.find?_map]
  rfl

theorem filterMap_find_map_fst {α : Type} (key : α → Bytes) (keys : List α) :
    (keys.filterMap fun value => find catalog (key value)).map Prod.fst
      = keys.filterMap fun value => catalog.find (key value) := by
  rw [List.map_filterMap]
  exact List.filterMap_congr fun value _ => find_map_fst (key value)

theorem candidates_map (tokens : List Bytes) (locale : Locale) :
    (candidates catalog tokens locale).map (fun candidate => (⟨candidate.1.1, candidate.2⟩ : SearchResult))
      = catalog.candidates tokens locale := by
  have hsort := List.map_insertionSort (fun left right : Row × Int => left.2 ≥ right.2)
    (fun left right : SearchResult => left.score ≥ right.score) (fun candidate => ⟨candidate.1.1, candidate.2⟩)
    ((rows catalog).filterMap fun row => (totalScore tokens row.1.searchDocument locale).map fun score => (row, score))
    fun _ _ _ _ => Iff.rfl
  rw [candidates, EmojiCatalog.candidates, hsort, ← map_fst_rows catalog, List.map_filterMap, List.filterMap_map]
  congr 1
  refine List.filterMap_congr fun row _ => ?_
  rw [Option.map_map]
  rfl

theorem search_map_fst (query : Bytes) (locale : Locale) (limit : Nat) :
    (search catalog query locale limit).map Prod.fst = (catalog.search query locale limit).map (·.emoji) := by
  have hexact : (find catalog query).map Prod.fst = catalog.find query := find_map_fst query
  unfold search EmojiCatalog.search
  dsimp only
  split
  · rfl
  · rw [← hexact]
    cases find catalog query with
    | some exact => rfl
    | none =>
        dsimp only [Option.map_none]
        split
        · rfl
        · rw [← candidates_map, ← List.map_take, List.map_map, List.map_map]
          rfl

theorem listed_map_fst (state : PersistentState) (category : Category) (locale : Locale) (query : Bytes) :
    (listed catalog state category locale query).map Prod.fst =
      EmojiListModel.listed catalog state category locale query := by
  unfold listed EmojiListModel.listed
  split
  · exact search_map_fst query locale _
  · have hfilter : ∀ category : Category, ((rows catalog).filter fun row => row.1.category = category).map Prod.fst
        = catalog.records.filter fun record => record.category = category := by
      intro category
      rw [← map_fst_rows catalog, List.filter_map]
      rfl
    cases category with
    | recentlyUsed => exact filterMap_find_map_fst _ _
    | favorites => exact filterMap_find_map_fst id _
    | _ => exact hfilter _

theorem mem_rows_of_find {sequence : Bytes} {row : Row} (h : find catalog sequence = some row) : row ∈ rows catalog :=
  List.mem_of_find?_eq_some h

theorem mem_rows_of_listed {state : PersistentState} {category : Category} {locale : Locale} {query : Bytes} {row : Row}
    (h : row ∈ listed catalog state category locale query) : row ∈ rows catalog := by
  unfold listed search at h
  dsimp only at h
  split at h
  · split at h
    · cases h
    split at h
    · rename_i exact hexact
      obtain rfl := List.mem_singleton.mp h
      exact mem_rows_of_find hexact
    split at h
    · cases h
    · obtain ⟨candidate, hcandidate, rfl⟩ := List.mem_map.mp h
      have hcandidate := List.mem_of_mem_take hcandidate
      rw [candidates, List.mem_insertionSort, List.mem_filterMap] at hcandidate
      obtain ⟨row, hrow, hscore⟩ := hcandidate
      obtain ⟨score, _, rfl⟩ := Option.map_eq_some_iff.mp hscore
      exact hrow
  split at h
  · obtain ⟨_, _, hfind⟩ := List.mem_filterMap.mp h
    exact mem_rows_of_find hfind
  · obtain ⟨_, _, hfind⟩ := List.mem_filterMap.mp h
    exact mem_rows_of_find hfind
  · exact List.mem_of_mem_filter h

end Row

/-! ### The model -/

structure GlyphListModel (Font : Type) where
  category : Category
  locale : Locale
  query : Bytes
  records : List Row
  glyphProbe : HeldProbe Font
  usesSystemProbe : Bool
  coverage : Memo.Table Nat GlyphCoverage

inductive Role
  | display
  | sequence
  | toolTip
  | accessibleText
  | accessibleDescription
  | favorite
  | renderable
  | missingGlyphLabel
  | other
  deriving DecidableEq

/-- What `data` returns: nothing, a text or a flag. -/
inductive DataValue
  | invalid
  | text (value : Bytes)
  | flag (value : Bool)
  deriving DecidableEq

namespace GlyphListModel

section Operations

variable {Font : Type} (toolkit : Toolkit Font) (catalog : EmojiCatalog) (state : PersistentState)

def rebuild (model : GlyphListModel Font) : GlyphListModel Font :=
  { model with records := Row.listed catalog state model.category model.locale model.query }

def initial (applicationFont : Font) : GlyphListModel Font :=
  rebuild catalog state ⟨.smileysEmotion, .english, [], [], systemGlyphProbe applicationFont, true, []⟩

def setCategory (category : Category) (model : GlyphListModel Font) : GlyphListModel Font :=
  if model.category = category && model.query.isEmpty then model
  else rebuild catalog state { model with category := category }

def setSearch (query : Bytes) (locale : Locale) (model : GlyphListModel Font) : GlyphListModel Font :=
  if model.query = query && model.locale = locale then model
  else rebuild catalog state { model with query := query, locale := locale }

/-- No probe stands for the empty function. -/
def setGlyphProbe (applicationFont : Font) (probe : Option (Nat → Bool)) (model : GlyphListModel Font) :
    GlyphListModel Font :=
  { model with
    usesSystemProbe := probe.isNone
    glyphProbe := match probe with
      | some accepts => .explicit accepts
      | none => systemGlyphProbe applicationFont
    coverage := [] }

def refreshSystemGlyphProbe (applicationFont : Font) (model : GlyphListModel Font) : GlyphListModel Font :=
  if !model.usesSystemProbe then model else model.setGlyphProbe applicationFont none

def record (row : Int) (model : GlyphListModel Font) : Option Row :=
  if row < 0 then none else model.records[row.toNat]?

def isFavorite (row : Int) (model : GlyphListModel Font) : Bool :=
  match model.record row with
  | none => false
  | some listed => state.favorites.contains listed.1.sequence

/-- The inspection by the probe the model holds. -/
def coverageFor (sequence : Bytes) : StateM (GlyphListModel Font) GlyphCoverage := fun model =>
  let (coverage, glyphProbe) := inspectGlyphCoverage sequence (some (HeldProbe.ask toolkit)) model.glyphProbe
  (coverage, { model with glyphProbe := glyphProbe })

def coverageOf (row : Row) : StateM (GlyphListModel Font) GlyphCoverage := fun model =>
  match model.coverage.lookup row.2 with
  | some cached => (cached, model)
  | none =>
      let (coverage, model) := coverageFor toolkit row.1.sequence model
      (coverage, { model with coverage := (row.2, coverage) :: model.coverage })

def missingGlyphText (coverage : GlyphCoverage) : Bytes :=
  if coverage.renderable then []
  else
    let label := missingGlyphLabel coverage
    if label.isEmpty then ascii ['?'] else label

def annotatedName (name : Bytes) (coverage : GlyphCoverage) : Bytes :=
  if coverage.renderable then name else toolkit.noGlyphNote name

def data (row : Int) (role : Role) : StateM (GlyphListModel Font) DataValue := fun model =>
  match model.record row with
  | none => (.invalid, model)
  | some listed =>
      let emoji := listed.1
      match role with
      | .display | .sequence => (.text emoji.sequence, model)
      | .toolTip | .accessibleText =>
          let (coverage, next) := coverageOf toolkit listed model
          (.text (annotatedName toolkit (emoji.annotations model.locale).name coverage), next)
      | .accessibleDescription =>
          (.text ((ascii [',', ' ']).intercalate (emoji.annotations model.locale).keywords), model)
      | .favorite => (.flag (isFavorite state row model), model)
      | .renderable =>
          let (coverage, next) := coverageOf toolkit listed model
          (.flag coverage.renderable, next)
      | .missingGlyphLabel =>
          let (coverage, next) := coverageOf toolkit listed model
          (.text (missingGlyphText coverage), next)
      | .other => (.invalid, model)

end Operations

end GlyphListModel

/-! ### The plain list under it -/

namespace GlyphListModel

variable {Font : Type} (catalog : EmojiCatalog) (state : PersistentState) (model : GlyphListModel Font)

/-- The list without the glyphs and the addresses. -/
def toListModel : EmojiListModel := ⟨model.category, model.locale, model.query, model.records.map Prod.fst⟩

theorem toListModel_rebuild :
    (model.rebuild catalog state).toListModel = model.toListModel.rebuild catalog state := by
  rw [toListModel, rebuild, Row.listed_map_fst, EmojiListModel.rebuild]
  rfl

theorem toListModel_initial (font : Font) :
    (initial catalog state font).toListModel = EmojiListModel.initial catalog state :=
  toListModel_rebuild catalog state _

/-- Where the plain list is rebuilt this one is, and where it stays this one stays. -/
theorem toListModel_setCategory (category : Category) :
    (model.setCategory catalog state category).toListModel
      = (model.toListModel.setCategory catalog state category).getD model.toListModel := by
  unfold setCategory EmojiListModel.setCategory
  rw [apply_ite toListModel, apply_ite (Option.getD · model.toListModel), toListModel_rebuild]
  rfl

theorem toListModel_setSearch (query : Bytes) (locale : Locale) :
    (model.setSearch catalog state query locale).toListModel
      = (model.toListModel.setSearch catalog state query locale).getD model.toListModel := by
  unfold setSearch EmojiListModel.setSearch
  rw [apply_ite toListModel, apply_ite (Option.getD · model.toListModel), toListModel_rebuild]
  rfl

end GlyphListModel

/-! ### Runs -/

/-- The model with what it reads from outside: the application's font and the favorites and recents. -/
structure GlyphSession (Font : Type) where
  model : GlyphListModel Font
  applicationFont : Font
  state : PersistentState

inductive GlyphOperation (Font : Type)
  | setGlyphProbe (probe : Option (Nat → Bool))
  | refreshSystemGlyphProbe
  | applicationFontChanged (font : Font)
  | stateChanged (state : PersistentState)
  | setCategory (category : Category)
  | setSearch (query : Bytes) (locale : Locale)
  | refresh
  | data (row : Int) (role : Role)
  | coverageFor (sequence : Bytes)

namespace GlyphSession

variable {Font : Type} (toolkit : Toolkit Font) (catalog : EmojiCatalog)

def start (applicationFont : Font) (state : PersistentState) : GlyphSession Font :=
  ⟨.initial catalog state applicationFont, applicationFont, state⟩

def step (session : GlyphSession Font) : GlyphOperation Font → GlyphSession Font
  | .setGlyphProbe probe => { session with model := session.model.setGlyphProbe session.applicationFont probe }
  | .refreshSystemGlyphProbe => { session with model := session.model.refreshSystemGlyphProbe session.applicationFont }
  | .applicationFontChanged font => { session with applicationFont := font }
  | .stateChanged state => { session with state := state }
  | .setCategory category => { session with model := session.model.setCategory catalog session.state category }
  | .setSearch query locale => { session with model := session.model.setSearch catalog session.state query locale }
  | .refresh => { session with model := session.model.rebuild catalog session.state }
  | .data row role => { session with model := (GlyphListModel.data toolkit session.state row role session.model).2 }
  | .coverageFor sequence => { session with model := (GlyphListModel.coverageFor toolkit sequence session.model).2 }

def run (operations : List (GlyphOperation Font)) (session : GlyphSession Font) : GlyphSession Font :=
  operations.foldl (step toolkit catalog) session

end GlyphSession

/-! ### The probe in force -/

/-- What decides the probe: the last explicit one, if the latest call gave one; the font of the last reset to the system's, else of the construction; and the font the application has now. -/
structure ProbeHistory (Font : Type) where
  explicit : Option (Nat → Bool)
  systemFont : Font
  applicationFont : Font

namespace ProbeHistory

variable {Font : Type}

def start (applicationFont : Font) : ProbeHistory Font := ⟨none, applicationFont, applicationFont⟩

def step (history : ProbeHistory Font) : GlyphOperation Font → ProbeHistory Font
  | .setGlyphProbe (some accepts) => { history with explicit := some accepts }
  | .setGlyphProbe none => { history with explicit := none, systemFont := history.applicationFont }
  | .refreshSystemGlyphProbe =>
      if history.explicit.isSome then history else { history with systemFont := history.applicationFont }
  | .applicationFontChanged font => { history with applicationFont := font }
  | _ => history

def run (operations : List (GlyphOperation Font)) (history : ProbeHistory Font) : ProbeHistory Font :=
  operations.foldl step history

def inForce (toolkit : Toolkit Font) (history : ProbeHistory Font) : Nat → Bool :=
  match history.explicit with
  | some accepts => accepts
  | none => toolkit.inFontUcs4 history.systemFont

end ProbeHistory

/-- The coverage of a sequence without any table. -/
def plainCoverage (accepts : Nat → Bool) (sequence : Bytes) : GlyphCoverage :=
  inspectGlyphCoverage (m := Id) sequence (some accepts)

/-! ### The invariant -/

/-- The probe answers as the given function does, whatever it remembers. -/
def HeldProbe.Answers {Font : Type} (toolkit : Toolkit Font) (accepts : Nat → Bool) : HeldProbe Font → Prop
  | .explicit held => held = accepts
  | .system coverage => toolkit.inFontUcs4 coverage.font = accepts ∧
      coverage.cache.Right fun codepoint supported => supported = accepts codepoint

/-- The list under a probe, the system's or another: its rows stand in the catalog, the probe it holds is that one, and every coverage it remembers is that of the record at the address. -/
structure GlyphListModel.Coherent {Font : Type} (toolkit : Toolkit Font) (catalog : EmojiCatalog) (system : Bool)
    (accepts : Nat → Bool) (model : GlyphListModel Font) : Prop where
  rows : ∀ row ∈ model.records, row ∈ Ui.rows catalog
  probe : model.glyphProbe.Answers toolkit accepts
  coverage : model.coverage.Right fun place coverage =>
    ∀ row ∈ Ui.rows catalog, row.2 = place → coverage = plainCoverage accepts row.1.sequence
  usesSystemProbe : model.usesSystemProbe = system

section Coherence

variable {Font : Type} {toolkit : Toolkit Font} {catalog : EmojiCatalog} {system : Bool} {accepts : Nat → Bool}

/-- A font remembers what it answered, and answers it again. -/
theorem yields_ask (codepoint : Nat) :
    Memo.Yields (HeldProbe.Answers toolkit accepts) (HeldProbe.ask toolkit codepoint) (accepts codepoint) := by
  intro held hheld
  cases held with
  | explicit explicitProbe => exact ⟨congrFun hheld codepoint, hheld⟩
  | system coverage =>
      obtain ⟨hfont, hcache⟩ := hheld
      rw [HeldProbe.ask, FontCoverage.covers]
      cases hfound : coverage.cache.lookup codepoint with
      | some cached => exact ⟨hcache.of_lookup hfound, hfont, hcache⟩
      | none => exact ⟨congrFun hfont codepoint, hfont, hcache.cons (congrFun hfont codepoint)⟩

/-- The rows of a catalog are told apart by their places. -/
theorem eq_of_place {row other : Row} (h : row ∈ rows catalog) (h' : other ∈ rows catalog)
    (hplace : row.2 = other.2) : row = other := by
  have hrow := List.mem_zipIdx_iff_getElem?.mp h
  have hother := List.mem_zipIdx_iff_getElem?.mp h'
  rw [hplace, hother] at hrow
  exact Prod.ext (Option.some.inj hrow).symm hplace

namespace GlyphListModel

theorem yields_coverageFor (sequence : Bytes) :
    Memo.Yields (Coherent toolkit catalog system accepts) (coverageFor toolkit sequence)
      (plainCoverage accepts sequence) := by
  intro model hmodel
  obtain ⟨hvalue, hprobe⟩ :=
    yields_inspectGlyphCoverage (fun codepoint _ => yields_ask codepoint) sequence model.glyphProbe hmodel.probe
  exact ⟨hvalue, hmodel.rows, hprobe, hmodel.coverage, hmodel.usesSystemProbe⟩

theorem yields_coverageOf {row : Row} (hrow : row ∈ Ui.rows catalog) :
    Memo.Yields (Coherent toolkit catalog system accepts) (coverageOf toolkit row)
      (plainCoverage accepts row.1.sequence) := by
  intro model hmodel
  rw [coverageOf]
  cases hfound : model.coverage.lookup row.2 with
  | some cached => exact ⟨hmodel.coverage.of_lookup hfound row hrow rfl, hmodel⟩
  | none =>
      obtain ⟨hvalue, hnext⟩ := yields_coverageFor row.1.sequence model hmodel
      refine ⟨hvalue, hnext.rows, hnext.probe, hnext.coverage.cons fun other hother hplace => ?_, hnext.usesSystemProbe⟩
      rw [eq_of_place hother hrow hplace]
      exact hvalue

/-! ### The operations keep the invariant -/

variable {model : GlyphListModel Font}

/-- Only the rows are new after a rebuild, and they are rows of the catalog. -/
theorem Coherent.rebuild (h : Coherent toolkit catalog system accepts model) (state : PersistentState) :
    Coherent toolkit catalog system accepts (model.rebuild catalog state) :=
  ⟨fun _ hrow => Row.mem_rows_of_listed hrow, h.probe, h.coverage, h.usesSystemProbe⟩

theorem coherent_initial (state : PersistentState) (font : Font) :
    Coherent toolkit catalog true (toolkit.inFontUcs4 font) (initial catalog state font) := by
  refine Coherent.rebuild ?_ state
  exact ⟨by simp, ⟨rfl, Memo.Table.right_nil⟩, Memo.Table.right_nil, rfl⟩

theorem Coherent.setCategory (h : Coherent toolkit catalog system accepts model) (state : PersistentState)
    (category : Category) : Coherent toolkit catalog system accepts (model.setCategory catalog state category) := by
  unfold GlyphListModel.setCategory
  split
  · exact h
  · exact ⟨fun _ hrow => Row.mem_rows_of_listed hrow, h.probe, h.coverage, h.usesSystemProbe⟩

theorem Coherent.setSearch (h : Coherent toolkit catalog system accepts model) (state : PersistentState) (query : Bytes)
    (locale : Locale) : Coherent toolkit catalog system accepts (model.setSearch catalog state query locale) := by
  unfold GlyphListModel.setSearch
  split
  · exact h
  · exact ⟨fun _ hrow => Row.mem_rows_of_listed hrow, h.probe, h.coverage, h.usesSystemProbe⟩

/-- Whatever was remembered, an explicit probe starts with nothing. -/
theorem Coherent.setGlyphProbe_some (h : Coherent toolkit catalog system accepts model) (font : Font)
    (other : Nat → Bool) : Coherent toolkit catalog false other (model.setGlyphProbe font (some other)) :=
  ⟨h.rows, rfl, Memo.Table.right_nil, rfl⟩

/-- The same of the system's probe, which is the one of the font given now. -/
theorem Coherent.setGlyphProbe_none (h : Coherent toolkit catalog system accepts model) (font : Font) :
    Coherent toolkit catalog true (toolkit.inFontUcs4 font) (model.setGlyphProbe font none) :=
  ⟨h.rows, ⟨rfl, Memo.Table.right_nil⟩, Memo.Table.right_nil, rfl⟩

theorem mem_records_of_record {row : Int} {listed : Row} (h : model.record row = some listed) :
    listed ∈ model.records := by
  unfold record at h
  split at h
  · cases h
  · exact List.mem_of_getElem? h

/-! ### Reading a row -/

/-- What a role shows of a record with this coverage. -/
def shown (toolkit : Toolkit Font) (locale : Locale) (favorite : Bool) (emoji : EmojiRecord) (coverage : GlyphCoverage) :
    Role → DataValue
  | .display | .sequence => .text emoji.sequence
  | .toolTip | .accessibleText => .text (annotatedName toolkit (emoji.annotations locale).name coverage)
  | .accessibleDescription => .text ((ascii [',', ' ']).intercalate (emoji.annotations locale).keywords)
  | .favorite => .flag favorite
  | .renderable => .flag coverage.renderable
  | .missingGlyphLabel => .text (missingGlyphText coverage)
  | .other => .invalid

/-- A read shows the coverage as it is without the tables, and leaves them right. -/
theorem Coherent.data (h : Coherent toolkit catalog system accepts model) (state : PersistentState) (row : Int)
    (role : Role) :
    (GlyphListModel.data toolkit state row role model).1 =
        (match model.record row with
        | none => .invalid
        | some listed => shown toolkit model.locale (isFavorite state row model) listed.1
            (plainCoverage accepts listed.1.sequence) role) ∧
      Coherent toolkit catalog system accepts (GlyphListModel.data toolkit state row role model).2 := by
  unfold GlyphListModel.data
  cases hlisted : model.record row with
  | none => exact ⟨rfl, h⟩
  | some listed =>
      obtain ⟨hvalue, hnext⟩ := yields_coverageOf (h.rows listed (mem_records_of_record hlisted)) model h
      have hshown := congrArg (shown toolkit model.locale (isFavorite state row model) listed.1) hvalue
      cases role with
      | toolTip | accessibleText => exact ⟨congrFun hshown .toolTip, hnext⟩
      | renderable => exact ⟨congrFun hshown .renderable, hnext⟩
      | missingGlyphLabel => exact ⟨congrFun hshown .missingGlyphLabel, hnext⟩
      | display | sequence | accessibleDescription | favorite | other => exact ⟨rfl, h⟩

end GlyphListModel

/-! ### Whole runs -/

/-- The session holds the probe that its history puts in force. -/
structure GlyphSession.InForce (toolkit : Toolkit Font) (catalog : EmojiCatalog) (history : ProbeHistory Font)
    (session : GlyphSession Font) : Prop where
  model : session.model.Coherent toolkit catalog history.explicit.isNone (history.inForce toolkit)
  font : session.applicationFont = history.applicationFont

theorem GlyphSession.inForce_start (font : Font) (state : PersistentState) :
    (GlyphSession.start catalog font state).InForce toolkit catalog (.start font) :=
  ⟨GlyphListModel.coherent_initial state font, rfl⟩

theorem GlyphSession.InForce.step {history : ProbeHistory Font} {session : GlyphSession Font}
    (h : session.InForce toolkit catalog history) (operation : GlyphOperation Font) :
    (session.step toolkit catalog operation).InForce toolkit catalog (history.step operation) := by
  have hreset := h.model.setGlyphProbe_none session.applicationFont
  cases operation with
  | setGlyphProbe probe =>
      cases probe with
      | some accepts => exact ⟨h.model.setGlyphProbe_some session.applicationFont accepts, h.font⟩
      | none =>
          refine ⟨?_, h.font⟩
          change GlyphListModel.Coherent toolkit catalog true (toolkit.inFontUcs4 history.applicationFont) _
          rw [← h.font]
          exact hreset
  | refreshSystemGlyphProbe =>
      -- An explicit probe stays; the system's is set anew for the font of now.
      have hsystem := h.model.usesSystemProbe
      refine ⟨?_, by rw [ProbeHistory.step]; split <;> exact h.font⟩
      rw [GlyphSession.step, GlyphListModel.refreshSystemGlyphProbe, hsystem, ProbeHistory.step]
      cases hexplicit : history.explicit with
      | some accepts => exact h.model
      | none =>
          change GlyphListModel.Coherent toolkit catalog true (toolkit.inFontUcs4 history.applicationFont) _
          rw [← h.font]
          exact hreset
  | applicationFontChanged font => exact ⟨h.model, rfl⟩
  | stateChanged state => exact ⟨h.model, h.font⟩
  | setCategory category => exact ⟨h.model.setCategory _ _, h.font⟩
  | setSearch query locale => exact ⟨h.model.setSearch _ _ _, h.font⟩
  | refresh => exact ⟨h.model.rebuild _, h.font⟩
  | data row role => exact ⟨(h.model.data _ _ _).2, h.font⟩
  | coverageFor sequence => exact ⟨(GlyphListModel.yields_coverageFor sequence _ h.model).2, h.font⟩

theorem GlyphSession.InForce.run {history : ProbeHistory Font} {session : GlyphSession Font}
    (h : session.InForce toolkit catalog history) (operations : List (GlyphOperation Font)) :
    (session.run toolkit catalog operations).InForce toolkit catalog (history.run operations) := by
  induction operations generalizing history session with
  | nil => exact h
  | cons operation rest ih => exact ih (h.step operation)

/-- After any run, every coverage that is reported, and every one that is remembered, is the one inspected anew with the probe in force. -/
theorem coverage_in_force (toolkit : Toolkit Font) (catalog : EmojiCatalog) (font : Font) (state : PersistentState)
    (operations : List (GlyphOperation Font)) :
    let session := (GlyphSession.start catalog font state).run toolkit catalog operations
    let accepts := ((ProbeHistory.start font).run operations).inForce toolkit
    (∀ row listed, session.model.record row = some listed →
        (GlyphListModel.coverageOf toolkit listed session.model).1 = plainCoverage accepts listed.1.sequence) ∧
      (∀ row role, (GlyphListModel.data toolkit session.state row role session.model).1 =
        match session.model.record row with
        | none => .invalid
        | some listed => GlyphListModel.shown toolkit session.model.locale
            (session.model.isFavorite session.state row) listed.1 (plainCoverage accepts listed.1.sequence) role) ∧
      (∀ sequence, (GlyphListModel.coverageFor toolkit sequence session.model).1 = plainCoverage accepts sequence) ∧
      ∀ row ∈ rows catalog, ∀ cached, session.model.coverage.lookup row.2 = some cached →
        cached = plainCoverage accepts row.1.sequence := by
  intro session accepts
  have hsession : session.InForce toolkit catalog ((ProbeHistory.start font).run operations) :=
    (GlyphSession.inForce_start font state).run operations
  have hmodel := hsession.model
  refine ⟨fun row listed hlisted => ?_, fun row role => (hmodel.data session.state row role).1, fun sequence => ?_,
    fun row hrow cached hcached => ?_⟩
  · have hrow := hmodel.rows listed (GlyphListModel.mem_records_of_record hlisted)
    exact (GlyphListModel.yields_coverageOf hrow session.model hmodel).1
  · exact (GlyphListModel.yields_coverageFor sequence session.model hmodel).1
  · exact hmodel.coverage.of_lookup hcached row hrow rfl

end Coherence

end Ui

end EmojiPalette
