import EmojiPalette.Ui.PaletteWindow

/-!
# What the window searches for

The text and the language of the window's search change in two places only: with a command that carries a text, and with a `Show` that finds the window hidden. The language is that of the last `Show` at that time.
-/

namespace EmojiPalette

open Ipc Trace

namespace Ui

namespace PaletteWindow

/-- The text and the language of the search. -/
def search (window : PaletteWindow) : Bytes × Locale := (window.model.query, window.model.locale)

/-- The text alone. -/
def query (window : PaletteWindow) : Bytes := window.model.query

variable {installation : HelperInstallation} {desktop : Desktop}

/-! ### Where the search stays -/

@[simp] theorem search_updateSelection (installation : HelperInstallation) (window : PaletteWindow) :
    (window.updateSelection installation).search = window.search := by
  unfold updateSelection
  split <;> rfl

@[simp] theorem search_refreshGrid (installation : HelperInstallation) (desktop : Desktop) (resetSelection : Bool)
    (window : PaletteWindow) : (window.refreshGrid installation desktop resetSelection).search = window.search :=
  search_updateSelection installation _

theorem search_setCategory (desktop : Desktop) (index : UInt64) (window : PaletteWindow) :
    (window.setCategory installation desktop index).search = window.search := by
  unfold setCategory
  split
  · rfl
  rw [search_refreshGrid]
  unfold EmojiListModel.setCategory
  split <;> rfl

theorem search_recordChoice (desktop : Desktop) (sequence : Bytes) (window : PaletteWindow) :
    (window.recordChoice installation desktop sequence).search = window.search := by
  rw [recordChoice, search_refreshGrid]
  rfl

theorem search_toggleCurrentFavorite (desktop : Desktop) (window : PaletteWindow) :
    (window.toggleCurrentFavorite installation desktop).search = window.search := by
  unfold toggleCurrentFavorite
  split
  · rfl
  · rw [search_refreshGrid]
    rfl

theorem search_showCurrentVariants (window : PaletteWindow) :
    (window.showCurrentVariants installation).search = window.search :=
  congrArg (fun model => (model.query, model.locale)) (showCurrentVariants_grid installation window).1

theorem search_applyCellSize (desktop : Desktop) (size : Int) (window : PaletteWindow) :
    (window.applyCellSize installation desktop size).search = window.search := by
  rw [applyCellSize, search_refreshGrid]
  rfl

/-! ### Where it changes -/

theorem search_updateSearch (desktop : Desktop) (query : Bytes) (window : PaletteWindow) :
    (window.updateSearch installation desktop query).search = (query, window.request.locale) := by
  rw [updateSearch, search_refreshGrid]
  unfold EmojiListModel.setSearch
  split
  · rename_i hsame
    simp only [Bool.and_eq_true, decide_eq_true_eq] at hsame
    exact Prod.ext hsame.1 hsame.2
  · rfl

/-- What a window that gets a `Show` searches for. -/
theorem search_showPalette (desktop : Desktop) (request : Show) (window : PaletteWindow) :
    (window.showPalette installation desktop request).search =
      if window.visible then window.search else ([], request.locale) := by
  have hshown : (window.showPalette installation desktop request).search =
      (if window.visible then { window with request := request }
        else updateSearch installation desktop [] { window with request := request }).search := rfl
  rw [hshown]
  by_cases hvisible : window.visible = true
  · rw [if_pos hvisible, if_pos hvisible]
    rfl
  · rw [if_neg hvisible, if_neg hvisible]
    exact search_updateSearch desktop [] _

/-! ### Programs -/

/-- The window searches for the same from signal to signal, if the slots leave it. -/
def KeepsSearch (search : Bytes × Locale) : WindowProgram PaletteWindow → Prop
  | .done window => window.search = search
  | .emit window _ next => window.search = search ∧ ∀ other, other.search = search → KeepsSearch search (next other)

/-- The slots of the session leave the search. -/
theorem search_slot (installation : HelperInstallation) (desktop : Desktop) (signal : WindowSignal)
    (helper : Helper PaletteWindow) :
    (Helper.slot (calls installation desktop) signal helper).1.window.search = helper.window.search := by
  cases signal with
  | selectionRequested sequence =>
      simp only [Helper.slot, Helper.selectionRequested]
      split <;> rfl
  | cancellationRequested reason => rfl

theorem search_runWindow {search : Bytes × Locale} {program : WindowProgram PaletteWindow} (h : KeepsSearch search program)
    (helper : Helper PaletteWindow) :
    (Helper.runWindow (calls installation desktop) program helper).1.window.search = search := by
  induction program generalizing helper with
  | done window => exact h
  | emit window signal next ih =>
      obtain ⟨hsearch, hnext⟩ := h
      have hslot : (Helper.slot (calls installation desktop) signal { helper with window := window }).1.window.search =
          search := (search_slot installation desktop signal _).trans hsearch
      exact ih _ (hnext _ hslot) _

theorem keepsSearch_chooseSequence (desktop : Desktop) (sequence : Bytes) {window : PaletteWindow}
    {search : Bytes × Locale} (h : window.search = search) :
    KeepsSearch search (window.chooseSequence installation desktop sequence) := by
  refine ⟨(search_recordChoice desktop sequence window).trans h, fun other hother => ?_⟩
  rw [KeepsSearch]
  split
  · exact hother
  · exact hother

theorem keepsSearch_activateCurrent (desktop : Desktop) {window : PaletteWindow} {search : Bytes × Locale}
    (h : window.search = search) : KeepsSearch search (window.activateCurrent installation desktop) := by
  unfold activateCurrent
  split
  · exact h
  · exact keepsSearch_chooseSequence desktop _ h

/-- A command without a text leaves the search. -/
theorem keepsSearch_handleCommand (desktop : Desktop) {command : Command} (hkind : command.kind ≠ .searchText)
    (window : PaletteWindow) : KeepsSearch window.search (window.handleCommand installation desktop command) := by
  unfold handleCommand
  split
  · rename_i hsearch
    exact absurd hsearch hkind
  · exact search_toggleCurrentFavorite desktop window
  · exact search_showCurrentVariants window
  · unfold cancel
    split
    · rfl
    · exact ⟨rfl, fun _ hother => hother⟩
  split
  · rfl
  unfold navigate
  dsimp only
  split
  · exact search_setCategory desktop _ _
  · exact keepsSearch_activateCurrent desktop rfl
  · exact search_updateSelection installation _
  · rfl

theorem keepsSearch_pointer (desktop : Desktop) (event : PointerEvent) (window : PaletteWindow) :
    KeepsSearch window.search (pointer installation desktop event window) := by
  cases event with
  | cellClicked row =>
      simp only [pointer]
      split
      · rfl
      · exact keepsSearch_chooseSequence desktop _ rfl
  | contextMenuRequested row =>
      simp only [pointer, KeepsSearch]
      split
      · exact search_showCurrentVariants _
      · rfl
  | categoryClicked index => exact search_setCategory desktop index window
  | settingsClicked checked => rfl
  | pressedOutside =>
      simp only [pointer, KeepsSearch]
      split <;> rfl
  | sizeClicked size => exact search_applyCellSize desktop size window
  | favoriteClicked =>
      simp only [pointer, KeepsSearch]
      split
      · exact search_toggleCurrentFavorite desktop window
      · rfl
  | variantsClicked =>
      simp only [pointer, KeepsSearch]
      split
      · exact search_showCurrentVariants window
      · rfl
  | variantClicked index =>
      simp only [pointer]
      split
      · rfl
      · split
        · exact keepsSearch_chooseSequence desktop _ rfl
        · rfl

/-! ### The text alone -/

theorem query_updateSearch (desktop : Desktop) (query : Bytes) (window : PaletteWindow) :
    (window.updateSearch installation desktop query).query = query :=
  congrArg Prod.fst (search_updateSearch desktop query window)

theorem query_showPalette (desktop : Desktop) (request : Show) (window : PaletteWindow) :
    (window.showPalette installation desktop request).query = if window.visible then window.query else [] := by
  have hsearch : (window.showPalette installation desktop request).search =
      if window.visible then window.search else ([], request.locale) := search_showPalette desktop request window
  have htext := congrArg Prod.fst hsearch
  rwa [apply_ite Prod.fst] at htext

theorem query_runWindow {search : Bytes × Locale} {program : WindowProgram PaletteWindow}
    (h : KeepsSearch search program) (helper : Helper PaletteWindow) :
    (Helper.runWindow (calls installation desktop) program helper).1.window.query = search.1 :=
  congrArg Prod.fst (search_runWindow h helper)

/-- The pointer cancels nothing. -/
theorem pointer_ne_cancel (desktop : Desktop) (event : PointerEvent) (window other : PaletteWindow)
    (reason : CancelReason) (next : PaletteWindow → WindowProgram PaletteWindow) :
    pointer installation desktop event window ≠ .emit other (.cancellationRequested reason) next := by
  intro h
  cases event with
  | cellClicked row =>
      simp only [pointer] at h
      split at h <;> cases h
  | variantClicked index =>
      simp only [pointer] at h
      split at h
      · cases h
      · split at h <;> cases h
  | _ => cases h

end PaletteWindow

end Ui

end EmojiPalette
