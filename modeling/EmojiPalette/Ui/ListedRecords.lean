import EmojiPalette.Core.RecentOrder
import EmojiPalette.Ui.HighlightedCell
import EmojiPalette.Ui.WindowQuery

/-!
# What the window lists

The rows of the grid are computed from the state, the category and the search, and kept until something rebuilds them. The category stands in three places: in the window, in the list behind the grid and in the navigation. All this agrees after every operation of the window, and the search is the one that the requests and the commands have last asked for, so nothing stale is ever shown or chosen from.

The state itself changes only by uses and favorites of sequences the catalog has, and each choice the window announces is one recorded use.
-/

namespace EmojiPalette

open Ipc Trace

/-! ### Lists without repetition -/

namespace EmojiCatalog

variable {catalog : EmojiCatalog}

/-- The records found for some sequences are as different as the sequences. -/
theorem map_sequence_filterMap_find (catalog : EmojiCatalog) (sequences : List Bytes) :
    (sequences.filterMap catalog.find).map (·.sequence) = sequences.filter catalog.contains := by
  induction sequences with
  | nil => rfl
  | cons sequence rest ih =>
      rw [List.filterMap_cons, List.filter_cons, contains]
      cases hfind : catalog.find sequence with
      | none => simpa using ih
      | some record => simpa [(sequence_of_find hfind).2] using ih

theorem candidates_perm (catalog : EmojiCatalog) (tokens : List Bytes) (locale : Locale) :
    ((catalog.candidates tokens locale).map (·.emoji)).Perm
      (catalog.records.filter fun record => (totalScore tokens record.searchDocument locale).isSome) := by
  refine ((List.perm_insertionSort _ _).map _).trans (List.Perm.of_eq ?_)
  induction catalog.records with
  | nil => rfl
  | cons record rest ih =>
      rw [List.filterMap_cons, List.filter_cons]
      cases totalScore tokens record.searchDocument locale with
      | none => simpa using ih
      | some score => simpa using ih

theorem nodup_search (hcatalog : (catalog.records.map (·.sequence)).Nodup) (query : Bytes) (locale : Locale)
    (limit : Nat) : (((catalog.search query locale limit).map (·.emoji)).map (·.sequence)).Nodup := by
  unfold search
  dsimp only
  split
  · exact List.nodup_nil
  split
  · exact List.nodup_singleton _
  split
  · exact List.nodup_nil
  · have hall : (((catalog.candidates (queryTokens (normalizeForSearch query)) locale).map (·.emoji)).map
        (·.sequence)).Nodup :=
      ((catalog.candidates_perm _ locale).map _).nodup_iff.mpr (hcatalog.sublist (List.filter_sublist.map _))
    exact hall.sublist (((List.take_sublist _ _).map _).map _)

end EmojiCatalog

namespace Ui

/-- No sequence is listed twice if the catalog and the state have none twice. -/
theorem EmojiListModel.nodup_listed {catalog : EmojiCatalog} {state : PersistentState}
    (hcatalog : (catalog.records.map (·.sequence)).Nodup) (hfavorites : state.favorites.Nodup)
    (hrecents : (state.recents.map (·.sequence)).Nodup) (category : Category) (locale : Locale) (query : Bytes) :
    ((listed catalog state category locale query).map (·.sequence)).Nodup := by
  unfold listed
  split
  · exact EmojiCatalog.nodup_search hcatalog query locale maximumResults
  split
  · have hmap : (state.recents.filterMap fun recent => catalog.find recent.sequence) =
        (state.recents.map (·.sequence)).filterMap catalog.find := by rw [List.filterMap_map]; rfl
    rw [hmap, EmojiCatalog.map_sequence_filterMap_find]
    exact hrecents.filter _
  · rw [EmojiCatalog.map_sequence_filterMap_find]
    exact hfavorites.filter _
  · exact hcatalog.sublist (List.filter_sublist.map _)

namespace PaletteWindow

/-! ### The rows and the category -/

/-- The rows are the ones the state, the category and the search ask for now, and the category is the same everywhere. -/
structure Fresh (catalog : EmojiCatalog) (window : PaletteWindow) : Prop where
  records : window.model.records = EmojiListModel.listed catalog window.state window.model.category
    window.model.locale window.model.query
  category : categories[window.categoryIndex.toNat]? = some window.model.category
  keyboard : window.keyboard.categoryIndex = window.categoryIndex
  categoryCount : window.keyboard.categoryCount = UInt64.ofNat categories.length

variable {installation : HelperInstallation} {window : PaletteWindow}

/-- A change that concerns none of these. -/
theorem Fresh.congr {catalog : EmojiCatalog} {after : PaletteWindow} (h : window.Fresh catalog)
    (hstate : after.state = window.state) (hmodel : after.model = window.model)
    (hindex : after.categoryIndex = window.categoryIndex)
    (hkeyboard : after.keyboard.categoryIndex = window.keyboard.categoryIndex)
    (hcount : after.keyboard.categoryCount = window.keyboard.categoryCount) : after.Fresh catalog := by
  refine ⟨?_, ?_, ?_, hcount.trans h.categoryCount⟩
  · rw [hmodel, hstate]
    exact h.records
  · rw [hmodel, hindex]
    exact h.category
  · rw [hkeyboard, hindex]
    exact h.keyboard

theorem updateSelection_fields (installation : HelperInstallation) (window : PaletteWindow) :
    (window.updateSelection installation).state = window.state ∧
      (window.updateSelection installation).model = window.model ∧
      (window.updateSelection installation).categoryIndex = window.categoryIndex ∧
      (window.updateSelection installation).keyboard = window.keyboard := by
  unfold updateSelection
  split <;> exact ⟨rfl, rfl, rfl, rfl⟩

theorem Fresh.updateSelection (h : window.Fresh installation.catalog) :
    (window.updateSelection installation).Fresh installation.catalog := by
  obtain ⟨hstate, hmodel, hindex, hkeyboard⟩ := updateSelection_fields installation window
  exact h.congr hstate hmodel hindex (congrArg _ hkeyboard) (congrArg _ hkeyboard)

/-- Refreshing the grid tells the navigation the category. -/
theorem fresh_refreshGrid (desktop : Desktop) (resetSelection : Bool)
    (hrecords : window.model.records = EmojiListModel.listed installation.catalog window.state window.model.category
      window.model.locale window.model.query)
    (hcategory : categories[window.categoryIndex.toNat]? = some window.model.category) :
    (window.refreshGrid installation desktop resetSelection).Fresh installation.catalog := by
  have hindex : min window.categoryIndex (max 1 (UInt64.ofNat categories.length) - 1) = window.categoryIndex := by
    have hlt : window.categoryIndex.toNat < categories.length := (List.getElem?_eq_some_iff.mp hcategory).1
    have hle : window.categoryIndex ≤ 11 := UInt64.le_iff_toNat_le.mpr (Nat.le_of_lt_succ hlt)
    exact if_pos hle
  unfold refreshGrid
  dsimp only
  apply Fresh.updateSelection
  exact ⟨hrecords, hcategory, hindex, rfl⟩

theorem Fresh.setCategory (h : window.Fresh installation.catalog) (desktop : Desktop) (index : UInt64) :
    (window.setCategory installation desktop index).Fresh installation.catalog := by
  unfold PaletteWindow.setCategory
  cases hcategory : categories[index.toNat]? with
  | none => exact h
  | some category =>
      dsimp only
      unfold EmojiListModel.setCategory
      split
      · rename_i hsame
        have hmodel : window.model.category = category := of_decide_eq_true (Bool.and_eq_true_iff.mp hsame).1
        apply fresh_refreshGrid
        · exact h.records
        · exact hcategory.trans (congrArg some hmodel.symm)
      · apply fresh_refreshGrid
        · rfl
        · exact hcategory

theorem Fresh.updateSearch (h : window.Fresh installation.catalog) (desktop : Desktop) (query : Bytes) :
    (window.updateSearch installation desktop query).Fresh installation.catalog := by
  unfold PaletteWindow.updateSearch EmojiListModel.setSearch
  split
  · exact fresh_refreshGrid desktop true h.records h.category
  · apply fresh_refreshGrid
    · rfl
    · exact h.category

theorem Fresh.showPalette (h : window.Fresh installation.catalog) (desktop : Desktop) (request : Show) :
    (window.showPalette installation desktop request).Fresh installation.catalog := by
  have hrequested : Fresh installation.catalog { window with request := request } := h.congr rfl rfl rfl rfl rfl
  unfold PaletteWindow.showPalette
  dsimp only
  split
  · exact h.congr rfl rfl rfl rfl rfl
  · exact (hrequested.updateSearch desktop []).congr rfl rfl rfl rfl rfl

theorem Fresh.hidePalette (h : window.Fresh installation.catalog) : window.hidePalette.Fresh installation.catalog :=
  h.congr rfl rfl rfl rfl rfl

/-- A changed state is listed anew. -/
theorem Fresh.refreshModel (h : window.Fresh installation.catalog) (desktop : Desktop) (state : PersistentState) :
    (refreshGrid installation desktop false
      (refreshModel installation { window with state := state })).Fresh installation.catalog := by
  apply fresh_refreshGrid
  · rfl
  · exact h.category

theorem Fresh.toggleCurrentFavorite (h : window.Fresh installation.catalog) (desktop : Desktop) :
    (window.toggleCurrentFavorite installation desktop).Fresh installation.catalog := by
  unfold PaletteWindow.toggleCurrentFavorite
  split
  · exact h
  · exact h.refreshModel desktop _

theorem Fresh.showCurrentVariants (h : window.Fresh installation.catalog) :
    (window.showCurrentVariants installation).Fresh installation.catalog := by
  unfold PaletteWindow.showCurrentVariants
  split
  · exact h
  · dsimp only
    split <;> exact h.congr rfl rfl rfl rfl rfl

theorem Fresh.chooseSequence (h : window.Fresh installation.catalog) (desktop : Desktop) (sequence : Bytes) :
    (afterSlots (window.chooseSequence installation desktop sequence)).Fresh installation.catalog := by
  have hrecorded : (window.recordChoice installation desktop sequence).Fresh installation.catalog :=
    h.refreshModel desktop _
  rw [PaletteWindow.chooseSequence, afterSlots, afterSlots]
  split
  · exact hrecorded.hidePalette
  · exact hrecorded

theorem Fresh.activateCurrent (h : window.Fresh installation.catalog) (desktop : Desktop) :
    (afterSlots (window.activateCurrent installation desktop)).Fresh installation.catalog := by
  unfold PaletteWindow.activateCurrent
  split
  · exact h
  · exact h.chooseSequence desktop _

/-- A key that turns to another category has it set, and any other key leaves the category alone. -/
theorem Fresh.navigate (h : window.Fresh installation.catalog) (desktop : Desktop) (command : NavigationCommand) :
    (afterSlots (window.navigate installation desktop command)).Fresh installation.catalog := by
  have hstays : ∀ {keyboard : KeyboardState}, keyboard.categoryIndex = window.keyboard.categoryIndex →
      keyboard.categoryCount = window.keyboard.categoryCount → Fresh installation.catalog { window with keyboard := keyboard } :=
    fun hindex hcount => h.congr rfl rfl rfl hindex hcount
  unfold PaletteWindow.navigate
  obtain ⟨outcome, heq, hmoved, hturned, -⟩ | ⟨-, -, -, heq⟩ | ⟨-, hmany, index, heq⟩ :=
    window.keyboard.dispatch_cases command
  · rw [heq]
    cases outcome with
    | selected => exact h.activateCurrent desktop
    | changed => exact absurd rfl hmoved
    | categoryChanged => exact absurd rfl hturned
    | unchanged => exact h
    | cancelled => exact h
  · rw [heq]
    have hkept : Fresh installation.catalog
        { window with keyboard := { window.keyboard with selectedIndex := window.keyboard.moved command } } :=
      hstays rfl rfl
    exact hkept.updateSelection
  · rw [heq]
    have hlt : (index % window.keyboard.categoryCount).toNat < categories.length := by
      rw [h.categoryCount, UInt64.toNat_mod]
      exact Nat.mod_lt _ (by decide)
    -- The old category index is overwritten, so the window need not be fresh in between.
    unfold afterSlots PaletteWindow.setCategory
    rw [List.getElem?_eq_getElem hlt]
    dsimp only
    unfold EmojiListModel.setCategory
    split
    · rename_i hsame
      have hmodel : window.model.category = categories[(index % window.keyboard.categoryCount).toNat] :=
        of_decide_eq_true (Bool.and_eq_true_iff.mp hsame).1
      apply fresh_refreshGrid
      · exact h.records
      · exact (List.getElem?_eq_getElem hlt).trans (congrArg some hmodel.symm)
    · apply fresh_refreshGrid
      · rfl
      · exact List.getElem?_eq_getElem hlt

theorem Fresh.handleCommand (h : window.Fresh installation.catalog) (desktop : Desktop) (command : Command) :
    (afterSlots (window.handleCommand installation desktop command)).Fresh installation.catalog := by
  unfold PaletteWindow.handleCommand
  split
  · exact h.updateSearch desktop _
  · exact h.toggleCurrentFavorite desktop
  · exact h.showCurrentVariants
  · unfold cancel
    split
    · exact h.congr rfl rfl rfl rfl rfl
    · exact h.hidePalette
  split
  · exact h
  · exact h.navigate desktop _

theorem Fresh.pointer (h : window.Fresh installation.catalog) (desktop : Desktop) (event : PointerEvent) :
    (afterSlots (pointer installation desktop event window)).Fresh installation.catalog := by
  have hcurrent : ∀ row, Fresh installation.catalog (window.setCurrentIndex row) := fun _ => h.congr rfl rfl rfl rfl rfl
  cases event with
  | cellClicked row =>
      simp only [PaletteWindow.pointer]
      split
      · exact hcurrent row
      · exact (hcurrent row).chooseSequence desktop _
  | contextMenuRequested row =>
      simp only [PaletteWindow.pointer, afterSlots]
      split
      · exact (hcurrent row).showCurrentVariants
      · exact h
  | categoryClicked index => exact h.setCategory desktop index
  | settingsClicked checked => exact h.congr rfl rfl rfl rfl rfl
  | pressedOutside =>
      simp only [PaletteWindow.pointer, afterSlots]
      split
      · exact h.congr rfl rfl rfl rfl rfl
      · exact h
  | sizeClicked size => exact fresh_refreshGrid desktop false h.records h.category
  | favoriteClicked =>
      simp only [PaletteWindow.pointer, afterSlots]
      split
      · exact h.toggleCurrentFavorite desktop
      · exact h
  | variantsClicked =>
      simp only [PaletteWindow.pointer, afterSlots]
      split
      · exact h.showCurrentVariants
      · exact h
  | variantClicked index =>
      simp only [PaletteWindow.pointer]
      split
      · exact h
      · split
        · exact h.chooseSequence desktop _
        · exact h

theorem Fresh.operate (h : window.Fresh installation.catalog) (operation : WindowOperation) :
    (operate installation operation window).Fresh installation.catalog := by
  cases operation with
  | showPalette desktop request => exact h.showPalette desktop request
  | hidePalette => exact h.hidePalette
  | handleCommand desktop command => exact h.handleCommand desktop command
  | pointer desktop event =>
      simp only [PaletteWindow.operate]
      split
      · exact h.pointer desktop event
      · exact h

/-! ### The search -/

/-- What the inputs have asked for: the text and the language of a search, and the language of the last request. -/
structure Asked where
  text : Bytes
  locale : Locale
  requested : Locale
  deriving DecidableEq

/-- Before any input. -/
def Asked.nothing : Asked := ⟨[], .english, .english⟩

/-- A text asks for a search in the language of the last request. A request that finds the window hidden asks for all there is. -/
def Asked.next (installation : HelperInstallation) (window : PaletteWindow) (asked : Asked) : WindowOperation → Asked
  | .showPalette _ request =>
      if window.visible then { asked with requested := request.locale } else ⟨[], request.locale, request.locale⟩
  | .handleCommand _ command =>
      if command.kind = .searchText then ⟨installation.qt.fromUtf8 command.text, asked.requested, asked.requested⟩
      else asked
  | _ => asked

/-- What a run has asked for in the end. -/
def askedAll (installation : HelperInstallation) : List WindowOperation → PaletteWindow → Asked → Asked
  | [], _, asked => asked
  | operation :: rest, window, asked =>
      askedAll installation rest (operate installation operation window) (asked.next installation window operation)

/-- The window searches for what was asked. -/
structure Answers (asked : Asked) (window : PaletteWindow) : Prop where
  search : window.search = (asked.text, asked.locale)
  request : window.request.locale = asked.requested

theorem search_afterSlots {search : Bytes × Locale} {program : WindowProgram PaletteWindow}
    (h : KeepsSearch search program) : (afterSlots program).search = search := by
  induction program with
  | done window => exact h
  | emit window signal next ih =>
      obtain ⟨hsearch, hnext⟩ := h
      cases signal with
      | selectionRequested sequence => exact ih window (hnext window hsearch)
      | cancellationRequested reason => exact ih window.hidePalette (hnext window.hidePalette hsearch)

theorem request_afterSlots {desktop : Desktop} {program : WindowProgram PaletteWindow}
    (h : Does installation desktop window program) : (afterSlots program).request = window.request := by
  cases h with
  | nothing hkeeps => exact hkeeps.request
  | chooses hkeeps hcatalog =>
      rw [chooseSequence, afterSlots, afterSlots]
      split
      · exact (hkeeps.recordChoice desktop _).request
      · exact (hkeeps.recordChoice desktop _).request
  | cancels => rfl

/-- What neither searches nor is a request leaves the answer. -/
theorem Answers.afterSlots {asked : Asked} (h : window.Answers asked) {desktop : Desktop}
    {program : WindowProgram PaletteWindow} (hkeeps : KeepsSearch window.search program)
    (hdoes : Does installation desktop window program) : (afterSlots program).Answers asked := by
  refine ⟨(search_afterSlots hkeeps).trans h.search, ?_⟩
  rw [request_afterSlots hdoes]
  exact h.request

theorem Answers.operate {asked : Asked} (h : window.Answers asked) (operation : WindowOperation) :
    (operate installation operation window).Answers (asked.next installation window operation) := by
  cases operation with
  | showPalette desktop request =>
      refine ⟨?_, ?_⟩
      · rw [PaletteWindow.operate, search_showPalette, Asked.next]
        split
        · exact h.search
        · rfl
      · rw [PaletteWindow.operate, showPalette_request, Asked.next]
        split <;> rfl
  | hidePalette => exact ⟨h.search, h.request⟩
  | handleCommand desktop command =>
      rw [PaletteWindow.operate, Asked.next]
      dsimp only
      by_cases hkind : command.kind = .searchText
      · have hprogram : window.handleCommand installation desktop command =
            .done (window.updateSearch installation desktop (installation.qt.fromUtf8 command.text)) := by
          rw [PaletteWindow.handleCommand, hkind]
        rw [if_pos hkind, hprogram, PaletteWindow.afterSlots]
        refine ⟨?_, (congrArg Show.locale (keeps_updateSearch desktop _ window).request).trans h.request⟩
        rw [search_updateSearch, h.request]
      · rw [if_neg hkind]
        exact h.afterSlots (keepsSearch_handleCommand desktop hkind window) (does_handleCommand desktop command window)
  | pointer desktop event =>
      simp only [PaletteWindow.operate, Asked.next]
      split
      · exact h.afterSlots (keepsSearch_pointer desktop event window) (does_pointer desktop event window)
      · exact h

/-! ### The state -/

/-- The choices a program announces, in its order. -/
def choices : WindowProgram PaletteWindow → List Bytes
  | .done _ => []
  | .emit window (.selectionRequested sequence) next => sequence :: choices (next window)
  | .emit window (.cancellationRequested _) next => choices (next window.hidePalette)

/-- The choices the window announces on what happens to it. -/
def announced (installation : HelperInstallation) : WindowOperation → PaletteWindow → List Bytes
  | .handleCommand desktop command, window => choices (PaletteWindow.handleCommand installation desktop command window)
  | .pointer desktop event, window =>
      if event.raised window then choices (PaletteWindow.pointer installation desktop event window) else []
  | _, _ => []

/-- The choices of a run. -/
def announcedAll (installation : HelperInstallation) : List WindowOperation → PaletteWindow → List Bytes
  | [], _ => []
  | operation :: rest, window =>
      announced installation operation window ++ announcedAll installation rest (operate installation operation window)

/-- One state comes from another by uses and favorites of what the catalog has, and the uses are what was announced. -/
def Changes (installation : HelperInstallation) (before after : PersistentState) (announced : List Bytes) : Prop :=
  ∃ changes : List PersistentState.Operation, after = PersistentState.run changes before ∧
    (∀ change ∈ changes, ∃ record ∈ installation.catalog.records, record.sequence = change.sequence) ∧
    announced = (PersistentState.uses changes).map fun use => installation.qt.fromUtf8 use.1

theorem Changes.refl (installation : HelperInstallation) (state : PersistentState) : Changes installation state state [] :=
  ⟨[], rfl, fun _ h => absurd h List.not_mem_nil, rfl⟩

theorem Changes.trans {first second third : PersistentState} {earlier later : List Bytes}
    (h : Changes installation first second earlier) (h' : Changes installation second third later) :
    Changes installation first third (earlier ++ later) := by
  obtain ⟨changes, rfl, hcatalog, rfl⟩ := h
  obtain ⟨more, rfl, hmore, rfl⟩ := h'
  refine ⟨changes ++ more, (PersistentState.run_append changes more first).symm,
    List.forall_mem_append.mpr ⟨hcatalog, hmore⟩, ?_⟩
  rw [PersistentState.uses_append, List.map_append]

theorem changes_recordUse {state : PersistentState} {sequence : Bytes} (timestamp : Int64)
    (h : ∃ record ∈ installation.catalog.records, record.sequence = sequence) :
    Changes installation state (state.recordUse sequence timestamp PersistentState.defaultMaximumEntries)
      [installation.qt.fromUtf8 sequence] :=
  ⟨[.recordUse sequence timestamp], rfl, fun _ hchange => List.mem_singleton.mp hchange ▸ h, rfl⟩

theorem changes_toggleFavorite {state : PersistentState} {sequence : Bytes}
    (h : ∃ record ∈ installation.catalog.records, record.sequence = sequence) :
    Changes installation state (state.toggleFavorite sequence) [] :=
  ⟨[.toggleFavorite sequence], rfl, fun _ hchange => List.mem_singleton.mp hchange ▸ h, rfl⟩

/-- What an operation changes of the state and what it announces, and that it stays within the catalog. -/
structure Moves (installation : HelperInstallation) (before after : PaletteWindow) (announced : List Bytes) : Prop where
  changes : Changes installation before.state after.state announced
  withinCatalog : after.WithinCatalog installation.catalog

theorem refreshGrid_state (desktop : Desktop) (resetSelection : Bool) (window : PaletteWindow) :
    (window.refreshGrid installation desktop resetSelection).state = window.state :=
  (updateSelection_fields installation _).1

theorem withModel_state (model : Option EmojiListModel) (window : PaletteWindow) :
    (window.withModel model).state = window.state := by
  cases model <;> rfl

theorem setCategory_state (desktop : Desktop) (index : UInt64) (window : PaletteWindow) :
    (window.setCategory installation desktop index).state = window.state := by
  unfold setCategory
  split
  · rfl
  · rw [refreshGrid_state, withModel_state]

theorem updateSearch_state (desktop : Desktop) (query : Bytes) (window : PaletteWindow) :
    (window.updateSearch installation desktop query).state = window.state := by
  rw [updateSearch, refreshGrid_state, withModel_state]

theorem showCurrentVariants_state (window : PaletteWindow) :
    (window.showCurrentVariants installation).state = window.state := by
  unfold showCurrentVariants
  split
  · rfl
  · dsimp only
    split <;> rfl

/-- What neither changes the state nor announces anything. -/
theorem moves_of_keeps {after : PaletteWindow} (hwindow : window.WithinCatalog installation.catalog)
    (h : Keeps installation.catalog window after) (hstate : after.state = window.state) :
    Moves installation window after [] :=
  ⟨hstate ▸ Changes.refl installation _, h.withinCatalog hwindow⟩

theorem moves_chooseSequence {before : PaletteWindow} (hwindow : before.WithinCatalog installation.catalog)
    (hkeeps : Keeps installation.catalog before window) (hstate : window.state = before.state) (desktop : Desktop)
    {sequence : Bytes} (h : ∃ record ∈ installation.catalog.records, record.sequence = sequence) :
    Moves installation before (afterSlots (window.chooseSequence installation desktop sequence))
      (choices (window.chooseSequence installation desktop sequence)) := by
  have hkept := hkeeps.recordChoice desktop sequence
  have hchanged : Changes installation before.state (window.recordChoice installation desktop sequence).state
      [installation.qt.fromUtf8 sequence] := by
    have hrecorded : (window.recordChoice installation desktop sequence).state =
        before.state.recordUse sequence desktop.now PersistentState.defaultMaximumEntries := by
      rw [recordChoice, refreshGrid_state, refreshModel, withModel_state, hstate]
    rw [hrecorded]
    exact changes_recordUse desktop.now h
  have hwithin := hkept.withinCatalog hwindow
  rw [chooseSequence, afterSlots, afterSlots, choices, choices]
  split
  · exact ⟨hchanged, hwithin.listed, hwithin.offered⟩
  · exact ⟨hchanged, hwithin⟩

theorem currentRecord_mem (hwindow : window.WithinCatalog installation.catalog) {record : EmojiRecord}
    (h : window.currentRecord = some record) : record ∈ installation.catalog.records := by
  obtain ⟨row, _, hrow⟩ := Option.bind_eq_some_iff.mp h
  exact mem_records_of_record hwindow hrow

theorem moves_toggleCurrentFavorite (hwindow : window.WithinCatalog installation.catalog) (desktop : Desktop) :
    Moves installation window (window.toggleCurrentFavorite installation desktop) [] := by
  refine ⟨?_, (keeps_toggleCurrentFavorite desktop window).withinCatalog hwindow⟩
  unfold toggleCurrentFavorite
  split
  · exact Changes.refl installation _
  · rename_i record hrecord
    rw [refreshGrid_state, refreshModel, withModel_state]
    exact changes_toggleFavorite ⟨record, currentRecord_mem hwindow hrecord, rfl⟩

theorem moves_activateCurrent {before : PaletteWindow} (hwindow : before.WithinCatalog installation.catalog)
    (hkeeps : Keeps installation.catalog before window) (hstate : window.state = before.state) (desktop : Desktop) :
    Moves installation before (afterSlots (window.activateCurrent installation desktop))
      (choices (window.activateCurrent installation desktop)) := by
  unfold activateCurrent
  split
  · exact moves_of_keeps hwindow hkeeps hstate
  · rename_i record hrecord
    have hmem := currentRecord_mem (hkeeps.withinCatalog hwindow) hrecord
    exact moves_chooseSequence hwindow hkeeps hstate desktop ⟨record, hmem, rfl⟩

theorem moves_handleCommand (hwindow : window.WithinCatalog installation.catalog) (desktop : Desktop)
    (command : Command) :
    Moves installation window (afterSlots (window.handleCommand installation desktop command))
      (choices (window.handleCommand installation desktop command)) := by
  unfold handleCommand
  split
  · exact moves_of_keeps hwindow (keeps_updateSearch desktop _ window) (updateSearch_state desktop _ window)
  · exact moves_toggleCurrentFavorite hwindow desktop
  · exact moves_of_keeps hwindow (Keeps.refl _ window).showCurrentVariants (showCurrentVariants_state window)
  · unfold cancel
    split
    · exact moves_of_keeps hwindow (keeps_of_eq rfl rfl rfl rfl) rfl
    · exact ⟨Changes.refl installation _, hwindow.listed, hwindow.offered⟩
  split
  · exact moves_of_keeps hwindow (Keeps.refl _ window) rfl
  rename_i command _
  have hmoved : Keeps installation.catalog window { window with keyboard := (window.keyboard.dispatch command).1 } :=
    keeps_of_eq rfl rfl rfl rfl
  unfold navigate
  dsimp only
  split
  · exact moves_of_keeps hwindow (hmoved.trans (keeps_setCategory desktop _ _)) (setCategory_state desktop _ _)
  · exact moves_activateCurrent hwindow hmoved rfl desktop
  · exact moves_of_keeps hwindow hmoved.updateSelection (updateSelection_fields installation _).1
  · exact moves_of_keeps hwindow hmoved rfl

theorem moves_pointer (hwindow : window.WithinCatalog installation.catalog) (desktop : Desktop) (event : PointerEvent) :
    Moves installation window (afterSlots (pointer installation desktop event window))
      (choices (pointer installation desktop event window)) := by
  have hcurrent : ∀ row, Keeps installation.catalog window (window.setCurrentIndex row) :=
    fun row => keeps_of_eq rfl rfl rfl rfl
  cases event with
  | cellClicked row =>
      simp only [pointer]
      split
      · exact moves_of_keeps hwindow (hcurrent row) rfl
      · rename_i record hrecord
        exact moves_chooseSequence hwindow (hcurrent row) rfl desktop ⟨record, mem_records_of_record hwindow hrecord, rfl⟩
  | contextMenuRequested row =>
      simp only [pointer, afterSlots, choices]
      split
      · exact moves_of_keeps hwindow (hcurrent row).showCurrentVariants (showCurrentVariants_state _)
      · exact moves_of_keeps hwindow (Keeps.refl _ window) rfl
  | categoryClicked index =>
      exact moves_of_keeps hwindow (keeps_setCategory desktop index window) (setCategory_state desktop index window)
  | settingsClicked checked => exact moves_of_keeps hwindow (keeps_of_eq rfl rfl rfl rfl) rfl
  | pressedOutside =>
      simp only [pointer, afterSlots, choices]
      split
      · exact moves_of_keeps hwindow (keeps_of_eq rfl rfl rfl rfl) rfl
      · exact moves_of_keeps hwindow (Keeps.refl _ window) rfl
  | sizeClicked size => exact moves_of_keeps hwindow (keeps_applyCellSize desktop size window) (refreshGrid_state desktop _ _)
  | favoriteClicked =>
      simp only [pointer, afterSlots, choices]
      split
      · exact moves_toggleCurrentFavorite hwindow desktop
      · exact moves_of_keeps hwindow (Keeps.refl _ window) rfl
  | variantsClicked =>
      simp only [pointer, afterSlots, choices]
      split
      · exact moves_of_keeps hwindow (Keeps.refl _ window).showCurrentVariants (showCurrentVariants_state window)
      · exact moves_of_keeps hwindow (Keeps.refl _ window) rfl
  | variantClicked index =>
      simp only [pointer]
      split
      · exact moves_of_keeps hwindow (Keeps.refl _ window) rfl
      · rename_i sequence hsequence
        split
        · exact moves_chooseSequence hwindow (Keeps.refl _ window) rfl desktop
            (hwindow.offered sequence (List.mem_of_getElem? hsequence))
        · exact moves_of_keeps hwindow (Keeps.refl _ window) rfl

theorem moves_operate (hwindow : window.WithinCatalog installation.catalog) (operation : WindowOperation) :
    Moves installation window (operate installation operation window) (announced installation operation window) := by
  cases operation with
  | showPalette desktop request =>
      refine ⟨?_, withinCatalog_showPalette desktop request hwindow⟩
      have hstate : (window.showPalette installation desktop request).state = window.state := by
        unfold showPalette
        dsimp only
        split
        · rfl
        · exact updateSearch_state desktop [] _
      exact hstate ▸ Changes.refl installation _
  | hidePalette => exact ⟨Changes.refl installation _, hwindow.listed, hwindow.offered⟩
  | handleCommand desktop command => exact moves_handleCommand hwindow desktop command
  | pointer desktop event =>
      simp only [operate, announced]
      split
      · exact moves_pointer hwindow desktop event
      · exact moves_of_keeps hwindow (Keeps.refl _ window) rfl

/-! ### Runs -/

theorem fresh_initial (installation : HelperInstallation) (desktop : Desktop) (state : PersistentState)
    (cellSize : Int) : (initial installation desktop state cellSize).Fresh installation.catalog := by
  apply fresh_refreshGrid
  · rfl
  · rfl

/-- The window after everything that has happened to it. -/
def afterAll (installation : HelperInstallation) (operations : List WindowOperation) (window : PaletteWindow) :
    PaletteWindow :=
  operations.foldl (fun window operation => operate installation operation window) window

theorem Fresh.afterAll (h : window.Fresh installation.catalog) (operations : List WindowOperation) :
    (afterAll installation operations window).Fresh installation.catalog := by
  induction operations generalizing window with
  | nil => exact h
  | cons operation rest ih => exact ih (h.operate operation)

theorem answers_afterAll {asked : Asked} (h : window.Answers asked) (operations : List WindowOperation) :
    (afterAll installation operations window).Answers (askedAll installation operations window asked) := by
  induction operations generalizing window asked with
  | nil => exact h
  | cons operation rest ih => exact ih (h.operate operation)

theorem answers_initial (installation : HelperInstallation) (desktop : Desktop) (state : PersistentState)
    (cellSize : Int) : (initial installation desktop state cellSize).Answers .nothing :=
  ⟨search_setCategory desktop 2 _, congrArg Show.locale (keeps_setCategory desktop 2 _).request⟩

theorem moves_afterAll (hwindow : window.WithinCatalog installation.catalog) (operations : List WindowOperation) :
    Moves installation window (afterAll installation operations window) (announcedAll installation operations window) := by
  induction operations generalizing window with
  | nil => exact ⟨Changes.refl installation _, hwindow⟩
  | cons operation rest ih =>
      have hone := moves_operate hwindow operation
      have hrest := ih hone.withinCatalog
      exact ⟨hone.changes.trans hrest.changes, hrest.withinCatalog⟩

theorem Changes.nodup {before after : PersistentState} {announced : List Bytes}
    (h : Changes installation before after announced) :
    (before.favorites.Nodup → after.favorites.Nodup) ∧
      ((before.recents.map (·.sequence)).Nodup → (after.recents.map (·.sequence)).Nodup) := by
  obtain ⟨changes, rfl, -, -⟩ := h
  induction changes generalizing before with
  | nil => exact ⟨fun h => h, fun h => h⟩
  | cons change rest ih =>
      obtain ⟨hfavorites, hrecents⟩ := @ih (change.apply before)
      cases change with
      | toggleFavorite sequence =>
          refine ⟨fun h => hfavorites (PersistentState.nodup_toggleFavorite sequence h), fun h => hrecents ?_⟩
          rw [PersistentState.Operation.apply, PersistentState.recents_toggleFavorite]
          exact h
      | recordUse sequence timestamp =>
          exact ⟨hfavorites, fun h => hrecents (PersistentState.nodup_recordUse before sequence timestamp _ h)⟩

/-- After every run the grid lists what the state, the category and the search last asked for call for, the window, the list and the navigation agree on the category, and with nothing twice in the catalog and in the loaded state no row is listed twice. -/
theorem listed_afterAll (installation : HelperInstallation) (desktop : Desktop) (state : PersistentState)
    (cellSize : Int) (operations : List WindowOperation) :
    let start := initial installation desktop state cellSize
    let window := afterAll installation operations start
    let asked := askedAll installation operations start .nothing
    ∃ category, categories[window.categoryIndex.toNat]? = some category ∧ window.model.category = category ∧
      window.keyboard.categoryIndex = window.categoryIndex ∧
      window.model.records =
        EmojiListModel.listed installation.catalog window.state category asked.locale asked.text ∧
      ((installation.catalog.records.map (·.sequence)).Nodup → state.favorites.Nodup →
        (state.recents.map (·.sequence)).Nodup → (window.model.records.map (·.sequence)).Nodup) := by
  intro start window asked
  have hfresh : window.Fresh installation.catalog :=
    (fresh_initial installation desktop state cellSize).afterAll operations
  have hsearch : window.search = (asked.text, asked.locale) :=
    (answers_afterAll (answers_initial installation desktop state cellSize) operations).search
  have hrecords := hfresh.records
  rw [show window.model.query = asked.text from congrArg Prod.fst hsearch,
    show window.model.locale = asked.locale from congrArg Prod.snd hsearch] at hrecords
  have hmoves := moves_afterAll (withinCatalog_initial installation desktop state cellSize) operations
  have hstart : (initial installation desktop state cellSize).state = state := setCategory_state desktop 2 _
  refine ⟨window.model.category, hfresh.category, rfl, hfresh.keyboard, hrecords,
    fun hcatalog hfavorites hrecents => ?_⟩
  obtain ⟨hkeepsFavorites, hkeepsRecents⟩ := hmoves.changes.nodup
  rw [hstart] at hkeepsFavorites hkeepsRecents
  rw [hrecords]
  exact EmojiListModel.nodup_listed hcatalog (hkeepsFavorites hfavorites) (hkeepsRecents hrecents) _ _ _

/-- Two faces, `joy` and `grin`, with their German names. -/
def namedFaces : HelperInstallation :=
  ⟨⟨[⟨[0xF0, 0x9F, 0x98, 0x82], .smileysEmotion, [], fun
      | .german => ⟨[0x66, 0x72, 0x65, 0x75, 0x64, 0x65], []⟩
      | _ => ⟨[0x6A, 0x6F, 0x79], []⟩, []⟩,
    ⟨[0xF0, 0x9F, 0x98, 0x80], .smileysEmotion, [], fun
      | .german => ⟨[0x67, 0x72, 0x69, 0x6E, 0x73, 0x65, 0x6E], []⟩
      | _ => ⟨[0x67, 0x72, 0x69, 0x6E], []⟩, []⟩]⟩, .dropMark⟩

/-- A German palette, a text, and a request in English that finds the window open. -/
def germanSearch : List WindowOperation :=
  [.showPalette ⟨0, 400, 300, 2⟩ ⟨.zero, ⟨0, 0, 0, 0⟩, ⟨0, 0, 0, 0⟩, .german, 100, true⟩,
    .handleCommand ⟨0, 400, 300, 2⟩ ⟨.zero, 1, .searchText, [0x66, 0x72]⟩,
    .showPalette ⟨0, 400, 300, 2⟩ ⟨.zero, ⟨0, 0, 0, 0⟩, ⟨0, 0, 0, 0⟩, .english, 100, true⟩]

/-- The search goes on in German, and finds the one face. -/
theorem listed_afterAll_german :
    let window := afterAll namedFaces germanSearch (initial namedFaces ⟨0, 400, 300, 2⟩ ⟨[], []⟩ 48)
    window.model.records =
        EmojiListModel.listed namedFaces.catalog window.state .smileysEmotion .german [0x66, 0x72] ∧
      window.model.records.map (·.sequence) = [[0xF0, 0x9F, 0x98, 0x82]] ∧
      (window.model.records.map (·.sequence)).Nodup := by
  intro window
  obtain ⟨category, hcategory, -, -, hrecords, hnodup⟩ :=
    listed_afterAll namedFaces ⟨0, 400, 300, 2⟩ ⟨[], []⟩ 48 germanSearch
  have hindex : categories[window.categoryIndex.toNat]? = some .smileysEmotion := by decide +kernel
  obtain rfl := Option.some.inj (hcategory.symm.trans hindex)
  have hasked : askedAll namedFaces germanSearch (initial namedFaces ⟨0, 400, 300, 2⟩ ⟨[], []⟩ 48) .nothing =
      ⟨[0x66, 0x72], .german, .english⟩ := by decide +kernel
  rw [hasked] at hrecords
  exact ⟨hrecords, by decide +kernel, hnodup (by decide +kernel) List.nodup_nil List.nodup_nil⟩

/-- Whatever happens to the window, its state comes from the loaded one by uses and favorites of sequences the catalog has, and the uses are exactly the choices it has announced, in their order. -/
theorem state_afterAll (installation : HelperInstallation) (desktop : Desktop) (state : PersistentState)
    (cellSize : Int) (operations : List WindowOperation) :
    ∃ changes : List PersistentState.Operation,
      (afterAll installation operations (initial installation desktop state cellSize)).state =
        PersistentState.run changes state ∧
      (∀ change ∈ changes, ∃ record ∈ installation.catalog.records, record.sequence = change.sequence) ∧
      announcedAll installation operations (initial installation desktop state cellSize) =
        (PersistentState.uses changes).map fun use => installation.qt.fromUtf8 use.1 := by
  have hmoves := moves_afterAll (withinCatalog_initial installation desktop state cellSize) operations
  have hstart : (initial installation desktop state cellSize).state = state := setCategory_state desktop 2 _
  obtain ⟨changes, hafter, hcatalog, hannounced⟩ := hmoves.changes
  rw [hstart] at hafter
  exact ⟨changes, hafter, hcatalog, hannounced⟩

/-- Two choices of the first of three faces and one of the third in turn, the last one from what was used before. -/
example :
    let desktop : Desktop := ⟨0, 400, 300, 2⟩
    let operations : List WindowOperation := [.pointer desktop (.cellClicked 0), .pointer desktop (.cellClicked 2),
      .pointer desktop (.categoryClicked 0), .pointer desktop (.cellClicked 0)]
    let window := afterAll threeFaces operations (initial threeFaces desktop ⟨[], []⟩ 48)
    window.model.records.map (·.sequence) = window.state.recents.map (·.sequence) ∧
      (announcedAll threeFaces operations (initial threeFaces desktop ⟨[], []⟩ 48)).length = 3 := by
  decide +kernel

end PaletteWindow

end Ui

end EmojiPalette
