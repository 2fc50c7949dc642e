import EmojiPalette.Core.Keyboard
import EmojiPalette.Ui.EmojiListModel
import EmojiPalette.Ui.PaletteSession

/-!
# The palette window

What the window knows and does, without what it paints. Commands of the session and signals of the widgets come to the same few functions, and end in the same two signals. A reset of the list clears the grid's current row, and setting the current index sets it.
-/

namespace EmojiPalette

open Ipc

namespace Ui

/-- The code points that Unicode sets aside. -/
def isNoncharacter (codepoint : Nat) : Bool :=
  (0xFDD0 ≤ codepoint && codepoint ≤ 0xFDEF) || codepoint % 0x10000 ≥ 0xFFFE

/-- UTF-8 with no byte order mark at its start and no noncharacters. -/
def isPlainText (text : Bytes) : Bool :=
  match decodeUtf8 text with
  | none => false
  | some codepoints => codepoints.head? ≠ some 0xFEFF && codepoints.all fun codepoint => !isNoncharacter codepoint

/-- Text through a `QString`. It drops a byte order mark at the start and may replace noncharacters, and plain text comes out as it went in. -/
structure QtText where
  fromUtf8 : Bytes → Bytes
  fromUtf8_plain : ∀ text, isPlainText text = true → fromUtf8 text = text

/-- Valid text without its byte order mark. -/
def QtText.dropMark : QtText where
  fromUtf8 text :=
    match decodeUtf8 text with
    | some (0xFEFF :: rest) => encodeUtf8 rest
    | _ => text
  fromUtf8_plain text h := by
    split
    · rename_i rest hdecoded
      rw [isPlainText, hdecoded] at h
      simp at h
    · rfl

/-- What stays the same while the helper runs. -/
structure HelperInstallation where
  catalog : EmojiCatalog
  qt : QtText

/-- What the window finds when something happens to it: the time, and the size of the grid's viewport with its spacing. -/
structure Desktop where
  now : Int64
  viewportWidth : Int
  viewportHeight : Int
  spacing : Int

structure PaletteWindow where
  state : PersistentState
  model : EmojiListModel
  request : Show
  keyboard : KeyboardState
  categoryIndex : UInt64
  currentRow : Option Nat
  visible : Bool
  settingsPanelShown : Bool
  variantsPanelShown : Bool
  variantButtons : List Bytes
  favoriteButtonEnabled : Bool
  variantsButtonEnabled : Bool
  cellSize : Int

/-- The categories in the order of their buttons. -/
def categories : List Category :=
  [.recentlyUsed, .favorites, .smileysEmotion, .peopleBody, .animalsNature, .foodDrink, .travelPlaces, .activities,
    .objects, .symbols, .flags, .kaomoji]

namespace PaletteWindow

abbrev WindowAction := PaletteWindow → WindowProgram PaletteWindow

/-! ### The grid -/

/-- The record in the current row. -/
def currentRecord (window : PaletteWindow) : Option EmojiRecord := window.currentRow.bind window.model.record

/-- The sequence all variants of a record name as their base. -/
def variantBase (record : EmojiRecord) : Bytes :=
  if record.baseSequence.isEmpty then record.sequence else record.baseSequence

/-- The list built anew, and no row current, if anything was built. -/
def withModel (model : Option EmojiListModel) (window : PaletteWindow) : PaletteWindow :=
  match model with
  | none => window
  | some model => { window with model := model, currentRow := none }

def refreshModel (installation : HelperInstallation) (window : PaletteWindow) : PaletteWindow :=
  window.withModel (some (window.model.rebuild installation.catalog window.state))

/-- An index of the list, or none if there is no such row. -/
def setCurrentIndex (row : Nat) (window : PaletteWindow) : PaletteWindow :=
  { window with currentRow := if row < window.model.rowCount then some row else none }

def updateSelection (installation : HelperInstallation) (window : PaletteWindow) : PaletteWindow :=
  if window.model.rowCount = 0 then
    { window with currentRow := none, favoriteButtonEnabled := false, variantsButtonEnabled := false }
  else
    let row := window.keyboard.selectedIndex.toNat
    { window.setCurrentIndex row with
      favoriteButtonEnabled := true
      variantsButtonEnabled := (window.model.record row).any fun record =>
        (installation.catalog.variantsFor (variantBase record)).length > 1 }

/-- How many cells of the given size fit into a length, at least one. -/
def cells (desktop : Desktop) (window : PaletteWindow) (length : Int) : UInt64 :=
  UInt64.ofNat (max 1 (length.tdiv (max 1 (window.cellSize + desktop.spacing)))).toNat

def refreshGrid (installation : HelperInstallation) (desktop : Desktop) (resetSelection : Bool)
    (window : PaletteWindow) : PaletteWindow :=
  let keyboard := if resetSelection then .initial else window.keyboard
  updateSelection installation
    { window with
      keyboard := (keyboard.setGrid (UInt64.ofNat window.model.rowCount) (window.cells desktop desktop.viewportWidth)
        (window.cells desktop desktop.viewportHeight)).setCategory window.categoryIndex
          (UInt64.ofNat categories.length) }

def setCategory (installation : HelperInstallation) (desktop : Desktop) (index : UInt64) (window : PaletteWindow) :
    PaletteWindow :=
  match categories[index.toNat]? with
  | none => window
  | some category =>
      refreshGrid installation desktop true
        (withModel (window.model.setCategory installation.catalog window.state category)
          { window with categoryIndex := index })

def updateSearch (installation : HelperInstallation) (desktop : Desktop) (query : Bytes) (window : PaletteWindow) :
    PaletteWindow :=
  refreshGrid installation desktop true
    (window.withModel (window.model.setSearch installation.catalog window.state query window.request.locale))

/-! ### Showing and hiding -/

/-- The search is kept while the window is open. -/
def showPalette (installation : HelperInstallation) (desktop : Desktop) (request : Show) (window : PaletteWindow) :
    PaletteWindow :=
  let requested := { window with request := request }
  let searched := if window.visible then requested else updateSearch installation desktop [] requested
  { searched with visible := true }

def setSettingsPanelVisible (visible : Bool) (window : PaletteWindow) : PaletteWindow :=
  { window with settingsPanelShown := visible }

/-- A panel is visible as long as its window is. -/
def settingsPanelVisible (window : PaletteWindow) : Bool := window.visible && window.settingsPanelShown

def hidePalette (window : PaletteWindow) : PaletteWindow :=
  { window.setSettingsPanelVisible false with visible := false, variantsPanelShown := false }

/-! ### Choosing -/

def recordChoice (installation : HelperInstallation) (desktop : Desktop) (sequence : Bytes) (window : PaletteWindow) :
    PaletteWindow :=
  refreshGrid installation desktop false
    (refreshModel installation
      { window with
        state := window.state.recordUse sequence desktop.now PersistentState.defaultMaximumEntries })

/-- The window closes only after the slot of the signal has run. -/
def chooseSequence (installation : HelperInstallation) (desktop : Desktop) (sequence : Bytes) : WindowAction :=
  fun window =>
    .emit (recordChoice installation desktop sequence window)
      (.selectionRequested (installation.qt.fromUtf8 sequence)) fun window =>
        .done (if window.request.closeAfterSelection then window.hidePalette else window)

def activateCurrent (installation : HelperInstallation) (desktop : Desktop) : WindowAction := fun window =>
  match window.currentRecord with
  | none => .done window
  | some record => chooseSequence installation desktop record.sequence window

def toggleCurrentFavorite (installation : HelperInstallation) (desktop : Desktop) (window : PaletteWindow) :
    PaletteWindow :=
  match window.currentRecord with
  | none => window
  | some record =>
      refreshGrid installation desktop false
        (refreshModel installation { window with state := window.state.toggleFavorite record.sequence })

def showCurrentVariants (installation : HelperInstallation) (window : PaletteWindow) : PaletteWindow :=
  match window.currentRecord with
  | none => window
  | some record =>
      let variants := installation.catalog.variantsFor (variantBase record)
      if variants.length ≤ 1 then { window with variantsPanelShown := false }
      else { window with variantsPanelShown := true, variantButtons := variants.map (·.sequence) }

/-! ### Commands -/

/-- The navigation a command stands for, if it stands for one. -/
def navigation : CommandKind → Option NavigationCommand
  | .left => some .left
  | .right => some .right
  | .up => some .up
  | .down => some .down
  | .home => some .home
  | .end => some .end
  | .pageUp => some .pageUp
  | .pageDown => some .pageDown
  | .previousCategory => some .previousCategory
  | .nextCategory => some .nextCategory
  | .select => some .select
  | _ => none

def navigate (installation : HelperInstallation) (desktop : Desktop) (command : NavigationCommand) : WindowAction :=
  fun window =>
    let dispatched := window.keyboard.dispatch command
    let moved := { window with keyboard := dispatched.1 }
    match dispatched.2 with
    | .categoryChanged => .done (setCategory installation desktop moved.keyboard.categoryIndex moved)
    | .selected => activateCurrent installation desktop moved
    | .changed => .done (updateSelection installation moved)
    | _ => .done moved

/-- Escape closes the settings first. -/
def cancel : WindowAction := fun window =>
  if window.settingsPanelVisible then .done (window.setSettingsPanelVisible false)
  else .emit window (.cancellationRequested .user) .done

def handleCommand (installation : HelperInstallation) (desktop : Desktop) (command : Command) : WindowAction :=
  fun window =>
    match command.kind with
    | .searchText => .done (updateSearch installation desktop (installation.qt.fromUtf8 command.text) window)
    | .toggleFavorite => .done (toggleCurrentFavorite installation desktop window)
    | .showVariants => .done (showCurrentVariants installation window)
    | .cancel => cancel window
    | kind =>
        match navigation kind with
        | none => .done window
        | some command => navigate installation desktop command window

/-- The window as the session calls it. -/
def calls (installation : HelperInstallation) (desktop : Desktop) : WindowCalls PaletteWindow where
  showPalette := showPalette installation desktop
  hidePalette := hidePalette
  handleCommand := handleCommand installation desktop

/-! ### The pointer -/

/-- The signals of the widgets, and a press outside the settings. -/
inductive PointerEvent
  | cellClicked (row : Nat)
  | contextMenuRequested (row : Nat)
  | categoryClicked (index : UInt64)
  | settingsClicked (checked : Bool)
  | pressedOutside
  | sizeClicked (size : Int)
  | favoriteClicked
  | variantsClicked
  | variantClicked (index : Nat)

def applyCellSize (installation : HelperInstallation) (desktop : Desktop) (size : Int) (window : PaletteWindow) :
    PaletteWindow :=
  refreshGrid installation desktop false { window with cellSize := max 40 (min size 72) }

def pointer (installation : HelperInstallation) (desktop : Desktop) : PointerEvent → WindowAction
  | .cellClicked row => fun window =>
      match window.model.record row with
      | none => .done (window.setCurrentIndex row)
      | some record => chooseSequence installation desktop record.sequence (window.setCurrentIndex row)
  | .contextMenuRequested row => fun window =>
      .done (if row < window.model.rowCount then showCurrentVariants installation (window.setCurrentIndex row) else window)
  | .categoryClicked index => fun window => .done (setCategory installation desktop index window)
  | .settingsClicked checked => fun window => .done (window.setSettingsPanelVisible checked)
  | .pressedOutside => fun window =>
      .done (if window.settingsPanelVisible then window.setSettingsPanelVisible false else window)
  | .sizeClicked size => fun window => .done (applyCellSize installation desktop size window)
  | .favoriteClicked => fun window =>
      .done (if window.favoriteButtonEnabled then toggleCurrentFavorite installation desktop window else window)
  | .variantsClicked => fun window =>
      .done (if window.variantsButtonEnabled then showCurrentVariants installation window else window)
  | .variantClicked index => fun window =>
      match window.variantButtons[index]? with
      | none => .done window
      | some sequence =>
          if window.variantsPanelShown then chooseSequence installation desktop sequence window else .done window

/-- The window as its constructor leaves it, with the state and the cell size it has loaded. -/
def initial (installation : HelperInstallation) (desktop : Desktop) (state : PersistentState) (cellSize : Int) :
    PaletteWindow :=
  setCategory installation desktop 2
    { state := state
      model := .initial installation.catalog state
      request := ⟨.zero, ⟨0, 0, 0, 0⟩, ⟨0, 0, 0, 0⟩, .english, 0, false⟩
      keyboard := .initial
      categoryIndex := 2
      currentRow := none
      visible := false
      settingsPanelShown := false
      variantsPanelShown := false
      variantButtons := []
      favoriteButtonEnabled := true
      variantsButtonEnabled := true
      cellSize := max 40 (min cellSize 72) }

/-! ### What every function keeps -/

/-- The variants of a cell are shown beside the grid. -/
theorem showCurrentVariants_grid (installation : HelperInstallation) (window : PaletteWindow) :
    (window.showCurrentVariants installation).model = window.model ∧
      (window.showCurrentVariants installation).keyboard = window.keyboard ∧
      (window.showCurrentVariants installation).currentRow = window.currentRow := by
  unfold showCurrentVariants
  split
  · exact ⟨rfl, rfl, rfl⟩
  · dsimp only
    split <;> exact ⟨rfl, rfl, rfl⟩

/-- What the window lists and offers is in the catalog. -/
structure WithinCatalog (catalog : EmojiCatalog) (window : PaletteWindow) : Prop where
  listed : ∀ record ∈ window.model.records, record ∈ catalog.records
  offered : ∀ sequence ∈ window.variantButtons, ∃ record ∈ catalog.records, record.sequence = sequence

/-- The window is as visible as before, its request is the same, and it is still within the catalog. -/
structure Keeps (catalog : EmojiCatalog) (before after : PaletteWindow) : Prop where
  visible : after.visible = before.visible
  request : after.request = before.request
  withinCatalog : before.WithinCatalog catalog → after.WithinCatalog catalog

theorem Keeps.refl (catalog : EmojiCatalog) (window : PaletteWindow) : Keeps catalog window window :=
  ⟨rfl, rfl, fun h => h⟩

theorem Keeps.trans {catalog : EmojiCatalog} {first second third : PaletteWindow} (h : Keeps catalog first second)
    (h' : Keeps catalog second third) : Keeps catalog first third :=
  ⟨h'.visible.trans h.visible, h'.request.trans h.request, fun hfirst => h'.withinCatalog (h.withinCatalog hfirst)⟩

/-- A change that concerns none of the fields in question. -/
theorem keeps_of_eq {catalog : EmojiCatalog} {before after : PaletteWindow} (hvisible : after.visible = before.visible)
    (hrequest : after.request = before.request) (hmodel : after.model = before.model)
    (hbuttons : after.variantButtons = before.variantButtons) : Keeps catalog before after := by
  refine ⟨hvisible, hrequest, fun h => ⟨?_, ?_⟩⟩
  · rw [hmodel]
    exact h.listed
  · rw [hbuttons]
    exact h.offered

section

variable {installation : HelperInstallation} {before window : PaletteWindow}

theorem Keeps.updateSelection (h : Keeps installation.catalog before window) :
    Keeps installation.catalog before (window.updateSelection installation) := by
  refine h.trans ?_
  unfold PaletteWindow.updateSelection
  split
  · exact keeps_of_eq rfl rfl rfl rfl
  · exact keeps_of_eq rfl rfl rfl rfl

theorem Keeps.refreshGrid (h : Keeps installation.catalog before window) (desktop : Desktop) (resetSelection : Bool) :
    Keeps installation.catalog before (window.refreshGrid installation desktop resetSelection) := by
  apply Keeps.updateSelection
  exact h.trans (keeps_of_eq rfl rfl rfl rfl)

theorem Keeps.withModel (h : Keeps installation.catalog before window) {model : Option EmojiListModel}
    (hmodel : ∀ listed, model = some listed → ∀ record ∈ listed.records, record ∈ installation.catalog.records) :
    Keeps installation.catalog before (window.withModel model) := by
  refine h.trans ?_
  cases model with
  | none => exact Keeps.refl _ window
  | some listed => exact ⟨rfl, rfl, fun hbefore => ⟨hmodel listed rfl, hbefore.offered⟩⟩

theorem Keeps.refreshModel (h : Keeps installation.catalog before window) :
    Keeps installation.catalog before (window.refreshModel installation) := by
  apply h.withModel
  intro listed hlisted record hrecord
  cases hlisted
  exact EmojiListModel.mem_records_of_listed hrecord

theorem keeps_setCategory (desktop : Desktop) (index : UInt64) (window : PaletteWindow) :
    Keeps installation.catalog window (window.setCategory installation desktop index) := by
  unfold setCategory
  split
  · exact Keeps.refl _ window
  apply Keeps.refreshGrid
  apply Keeps.withModel
  · exact keeps_of_eq rfl rfl rfl rfl
  intro listed hlisted record hrecord
  unfold EmojiListModel.setCategory at hlisted
  split at hlisted
  · cases hlisted
  · cases hlisted
    exact EmojiListModel.mem_records_of_listed hrecord

theorem keeps_updateSearch (desktop : Desktop) (query : Bytes) (window : PaletteWindow) :
    Keeps installation.catalog window (window.updateSearch installation desktop query) := by
  unfold updateSearch
  apply Keeps.refreshGrid
  apply (Keeps.refl _ window).withModel
  intro listed hlisted record hrecord
  unfold EmojiListModel.setSearch at hlisted
  split at hlisted
  · cases hlisted
  · cases hlisted
    exact EmojiListModel.mem_records_of_listed hrecord

theorem Keeps.recordChoice (h : Keeps installation.catalog before window) (desktop : Desktop) (sequence : Bytes) :
    Keeps installation.catalog before (window.recordChoice installation desktop sequence) := by
  unfold PaletteWindow.recordChoice
  apply Keeps.refreshGrid
  apply Keeps.refreshModel
  exact h.trans (keeps_of_eq rfl rfl rfl rfl)

theorem keeps_toggleCurrentFavorite (desktop : Desktop) (window : PaletteWindow) :
    Keeps installation.catalog window (window.toggleCurrentFavorite installation desktop) := by
  unfold toggleCurrentFavorite
  split
  · exact Keeps.refl _ window
  · apply Keeps.refreshGrid
    apply Keeps.refreshModel
    exact keeps_of_eq rfl rfl rfl rfl

theorem Keeps.showCurrentVariants (h : Keeps installation.catalog before window) :
    Keeps installation.catalog before (window.showCurrentVariants installation) := by
  refine h.trans ?_
  unfold PaletteWindow.showCurrentVariants
  split
  · exact Keeps.refl _ window
  dsimp only
  split
  · exact keeps_of_eq rfl rfl rfl rfl
  · refine ⟨rfl, rfl, fun h => ⟨h.listed, fun sequence hsequence => ?_⟩⟩
    obtain ⟨record, hrecord, rfl⟩ := List.mem_map.mp hsequence
    exact ⟨record, EmojiCatalog.mem_records_of_variantsFor hrecord, rfl⟩

/-- A window that is shown has taken over the request. -/
theorem showPalette_request (desktop : Desktop) (request : Show) (window : PaletteWindow) :
    (window.showPalette installation desktop request).request = request := by
  unfold showPalette
  dsimp only
  split
  · rfl
  · exact (keeps_updateSearch desktop [] _).request

theorem withinCatalog_showPalette (desktop : Desktop) (request : Show) {window : PaletteWindow}
    (h : window.WithinCatalog installation.catalog) :
    (window.showPalette installation desktop request).WithinCatalog installation.catalog := by
  have hrequested : ({ window with request := request } : PaletteWindow).WithinCatalog installation.catalog :=
    ⟨h.listed, h.offered⟩
  unfold showPalette
  dsimp only
  split
  · exact ⟨h.listed, h.offered⟩
  · have hsearched := (keeps_updateSearch desktop [] _).withinCatalog hrequested
    exact ⟨hsearched.listed, hsearched.offered⟩

theorem keeps_applyCellSize (desktop : Desktop) (size : Int) (window : PaletteWindow) :
    Keeps installation.catalog window (window.applyCellSize installation desktop size) := by
  unfold applyCellSize
  apply Keeps.refreshGrid
  exact keeps_of_eq rfl rfl rfl rfl

end

theorem withinCatalog_initial (installation : HelperInstallation) (desktop : Desktop) (state : PersistentState)
    (cellSize : Int) : (initial installation desktop state cellSize).WithinCatalog installation.catalog := by
  have hlisted : ∀ record ∈ (EmojiListModel.initial installation.catalog state).records,
      record ∈ installation.catalog.records := by
    intro record hrecord
    simp only [EmojiListModel.initial, EmojiListModel.rebuild] at hrecord
    exact EmojiListModel.mem_records_of_listed hrecord
  apply (keeps_setCategory desktop 2 _).withinCatalog
  refine ⟨hlisted, fun sequence hsequence => ?_⟩
  cases hsequence

/-! ### What the window does -/

/-- All a command or the pointer can make the window do: nothing the session sees, a choice from the catalog, or a cancel. -/
inductive Does (installation : HelperInstallation) (desktop : Desktop) (window : PaletteWindow) :
    WindowProgram PaletteWindow → Prop
  | nothing {after : PaletteWindow} (h : Keeps installation.catalog window after) :
      Does installation desktop window (.done after)
  | chooses {after : PaletteWindow} {sequence : Bytes} (h : Keeps installation.catalog window after)
      (hcatalog : window.WithinCatalog installation.catalog →
        ∃ record ∈ installation.catalog.records, record.sequence = sequence) :
      Does installation desktop window (chooseSequence installation desktop sequence after)
  | cancels : Does installation desktop window (.emit window (.cancellationRequested .user) .done)

section

variable {installation : HelperInstallation} {window : PaletteWindow}

theorem mem_records_of_record {row : Nat} {record : EmojiRecord}
    (hwindow : window.WithinCatalog installation.catalog) (h : window.model.record row = some record) :
    record ∈ installation.catalog.records :=
  hwindow.listed record (List.mem_of_getElem? h)

theorem does_activateCurrent (desktop : Desktop) {after : PaletteWindow} (h : Keeps installation.catalog window after) :
    Does installation desktop window (after.activateCurrent installation desktop) := by
  unfold activateCurrent
  split
  · exact .nothing h
  · rename_i record hrecord
    refine .chooses h fun hwindow => ⟨record, ?_, rfl⟩
    obtain ⟨row, _, hrow⟩ := Option.bind_eq_some_iff.mp hrecord
    exact mem_records_of_record (h.withinCatalog hwindow) hrow

theorem does_handleCommand (desktop : Desktop) (command : Command) (window : PaletteWindow) :
    Does installation desktop window (window.handleCommand installation desktop command) := by
  unfold handleCommand
  split
  · exact .nothing (keeps_updateSearch _ _ _)
  · exact .nothing (keeps_toggleCurrentFavorite _ _)
  · exact .nothing (Keeps.refl _ window).showCurrentVariants
  · unfold cancel
    split
    · exact .nothing (keeps_of_eq rfl rfl rfl rfl)
    · exact .cancels
  split
  · exact .nothing (Keeps.refl _ window)
  unfold navigate
  dsimp only
  split
  · refine .nothing (Keeps.trans ?_ (keeps_setCategory _ _ _))
    exact keeps_of_eq rfl rfl rfl rfl
  · exact does_activateCurrent desktop (keeps_of_eq rfl rfl rfl rfl)
  · apply Does.nothing
    apply Keeps.updateSelection
    exact keeps_of_eq rfl rfl rfl rfl
  · exact .nothing (keeps_of_eq rfl rfl rfl rfl)

theorem does_pointer (desktop : Desktop) (event : PointerEvent) (window : PaletteWindow) :
    Does installation desktop window (pointer installation desktop event window) := by
  have hcurrent : ∀ row, Keeps installation.catalog window (window.setCurrentIndex row) :=
    fun row => keeps_of_eq rfl rfl rfl rfl
  cases event with
  | cellClicked row =>
      simp only [pointer]
      split
      · exact .nothing (hcurrent row)
      · rename_i record hrecord
        exact .chooses (hcurrent row) fun hwindow => ⟨record, mem_records_of_record hwindow hrecord, rfl⟩
  | contextMenuRequested row =>
      refine .nothing ?_
      split
      · exact (hcurrent row).showCurrentVariants
      · exact Keeps.refl _ window
  | categoryClicked index => exact .nothing (keeps_setCategory _ _ _)
  | settingsClicked checked => exact .nothing (keeps_of_eq rfl rfl rfl rfl)
  | pressedOutside =>
      refine .nothing ?_
      split
      · exact keeps_of_eq rfl rfl rfl rfl
      · exact Keeps.refl _ window
  | sizeClicked size => exact .nothing (keeps_applyCellSize _ _ _)
  | favoriteClicked =>
      refine .nothing ?_
      split
      · exact keeps_toggleCurrentFavorite _ _
      · exact Keeps.refl _ window
  | variantsClicked =>
      refine .nothing ?_
      split
      · exact (Keeps.refl _ window).showCurrentVariants
      · exact Keeps.refl _ window
  | variantClicked index =>
      simp only [pointer]
      split
      · exact .nothing (Keeps.refl _ window)
      · rename_i sequence hsequence
        split
        · exact .chooses (Keeps.refl _ window) fun hwindow => hwindow.offered sequence (List.mem_of_getElem? hsequence)
        · exact .nothing (Keeps.refl _ window)

end

end PaletteWindow

end Ui

end EmojiPalette
