import EmojiPalette.Core.KeyboardRuns
import EmojiPalette.Ui.PaletteWindow

/-!
# One highlighted cell

The selection is kept twice. The grid has a current row, from which a choice, a favorite and the variants are taken, and the navigation has a selected index, from which the next key moves. Whatever refreshes the grid or moves in it writes the second copy over the first, so the two can part only where the grid's copy is written alone. A click does that too, but the choice it makes refreshes the grid, and a context menu makes none.

A run is any sequence of what can happen to the window, each with the desktop it finds. The slots of the session run inside an operation, and all they do to the window is to hide it.
-/

namespace EmojiPalette

open Ipc Trace

/-! ### The selected index -/

namespace KeyboardState

variable {keyboard : KeyboardState}

/-- The selected cell is in the grid, or the grid is empty and the first cell is selected. -/
def SelectsCell (keyboard : KeyboardState) : Prop :=
  keyboard.selectedIndex.toNat < keyboard.itemCount.toNat ∨
    keyboard.itemCount.toNat = 0 ∧ keyboard.selectedIndex.toNat = 0

theorem selectsCell_setGrid (itemCount columns visibleRows : UInt64) (keyboard : KeyboardState) :
    SelectsCell (keyboard.setGrid itemCount columns visibleRows) := by
  unfold SelectsCell setGrid
  by_cases hempty : itemCount = 0
  · simp only [if_pos hempty]
    exact Or.inr ⟨congrArg UInt64.toNat hempty, rfl⟩
  · simp only [if_neg hempty]
    exact Or.inl (min_last_lt hempty)

theorem SelectsCell.dispatch (h : SelectsCell keyboard) (command : NavigationCommand) :
    SelectsCell (keyboard.dispatch command).1 := by
  obtain ⟨outcome, heq, -⟩ | ⟨-, hitems, -, heq⟩ | ⟨-, -, index, heq⟩ := keyboard.dispatch_cases command
  · rw [heq]
    exact h
  · rw [heq]
    exact Or.inl (moved_lt (h.resolve_right fun hempty => hitems (UInt64.toNat_inj.mp hempty.1)) command)
  · rw [heq]
    exact (Nat.eq_zero_or_pos keyboard.itemCount.toNat).elim (fun hzero => Or.inr ⟨hzero, rfl⟩) Or.inl

theorem dispatch_counts (keyboard : KeyboardState) (command : NavigationCommand) :
    (keyboard.dispatch command).1.itemCount = keyboard.itemCount ∧
      (keyboard.dispatch command).1.categoryCount = keyboard.categoryCount := by
  obtain ⟨outcome, heq, -⟩ | ⟨-, -, -, heq⟩ | ⟨-, -, index, heq⟩ := keyboard.dispatch_cases command
  all_goals
    rw [heq]
    exact ⟨rfl, rfl⟩

/-- Where the caller hears of no change there is none. -/
theorem dispatch_eq_self {command : NavigationCommand} (hmoved : (keyboard.dispatch command).2 ≠ .changed)
    (hturned : (keyboard.dispatch command).2 ≠ .categoryChanged) : (keyboard.dispatch command).1 = keyboard := by
  obtain ⟨outcome, heq, -⟩ | ⟨-, -, -, heq⟩ | ⟨-, -, index, heq⟩ := keyboard.dispatch_cases command
  · rw [heq]
  · exact absurd (congrArg Prod.snd heq) hmoved
  · exact absurd (congrArg Prod.snd heq) hturned

/-- A change of the category ends at one of the categories there are. -/
theorem dispatch_categoryIndex_lt {command : NavigationCommand}
    (h : (keyboard.dispatch command).2 = .categoryChanged) :
    (keyboard.dispatch command).1.categoryIndex.toNat < keyboard.categoryCount.toNat := by
  obtain ⟨outcome, heq, -, hturned, -⟩ | ⟨-, -, -, heq⟩ | ⟨-, hmany, index, heq⟩ := keyboard.dispatch_cases command
  · rw [heq] at h
    exact absurd h hturned
  · rw [heq] at h
    cases h
  · have hlt := UInt64.lt_iff_toNat_lt.mp (UInt64.not_le.mp hmany)
    rw [heq]
    change (index % keyboard.categoryCount).toNat < _
    rw [UInt64.toNat_mod]
    exact Nat.mod_lt _ (Nat.zero_lt_of_lt hlt)

end KeyboardState

namespace Ui

namespace PaletteWindow

/-! ### The two copies in step -/

/-- With anything listed, the grid's current row is the cell the navigation has selected. -/
def Aligned (window : PaletteWindow) : Prop :=
  window.model.rowCount ≠ 0 → window.currentRow = some window.keyboard.selectedIndex.toNat

/-- The copies agree, and the navigation counts the cells and the categories there are. -/
structure InStep (window : PaletteWindow) : Prop where
  aligned : window.Aligned
  selects : window.keyboard.SelectsCell
  itemCount : window.keyboard.itemCount = UInt64.ofNat window.model.rowCount
  categoryCount : window.keyboard.categoryCount = UInt64.ofNat categories.length

variable {installation : HelperInstallation} {window : PaletteWindow}

/-- The cell that a choice, a favorite and the variants are taken from is the one the next key moves from. -/
structure OneCell (window : PaletteWindow) : Prop where
  aligned : window.Aligned
  record : window.currentRecord = window.model.record window.keyboard.selectedIndex.toNat

theorem Aligned.oneCell (h : window.Aligned) : window.OneCell := by
  refine ⟨h, ?_⟩
  unfold currentRecord
  by_cases hempty : window.model.rowCount = 0
  · have hrecord : ∀ row, window.model.record row = none := fun row =>
      List.getElem?_eq_none (le_of_eq_of_le hempty (Nat.zero_le row))
    rw [hrecord]
    exact Option.bind_eq_none_iff.mpr fun row _ => hrecord row
  · rw [h hempty, Option.bind_some]

/-- A change that concerns neither copy. -/
theorem InStep.congr {after : PaletteWindow} (h : window.InStep) (hmodel : after.model = window.model)
    (hkeyboard : after.keyboard = window.keyboard) (hrow : after.currentRow = window.currentRow) : after.InStep := by
  refine ⟨?_, hkeyboard ▸ h.selects, ?_, hkeyboard ▸ h.categoryCount⟩
  · unfold Aligned
    rw [hmodel, hkeyboard, hrow]
    exact h.aligned
  · rw [hmodel, hkeyboard]
    exact h.itemCount

theorem selected_lt (hselects : window.keyboard.SelectsCell)
    (hcount : window.keyboard.itemCount = UInt64.ofNat window.model.rowCount) (hlisted : window.model.rowCount ≠ 0) :
    window.keyboard.selectedIndex.toNat < window.model.rowCount := by
  have hle : window.keyboard.itemCount.toNat ≤ window.model.rowCount := by
    rw [hcount, UInt64.toNat_ofNat']
    exact Nat.mod_le _ _
  obtain hinside | ⟨_, hzero⟩ := hselects
  · exact lt_of_lt_of_le hinside hle
  · rw [hzero]
    exact Nat.pos_of_ne_zero hlisted

/-- The selection written over the current row brings the copies in step. -/
theorem inStep_updateSelection (hselects : window.keyboard.SelectsCell)
    (hcount : window.keyboard.itemCount = UInt64.ofNat window.model.rowCount)
    (hcategories : window.keyboard.categoryCount = UInt64.ofNat categories.length) :
    (window.updateSelection installation).InStep := by
  unfold updateSelection
  by_cases hempty : window.model.rowCount = 0
  · rw [if_pos hempty]
    exact ⟨fun hlisted => absurd hempty hlisted, hselects, hcount, hcategories⟩
  · rw [if_neg hempty]
    refine ⟨fun _ => ?_, hselects, hcount, hcategories⟩
    exact if_pos (selected_lt hselects hcount hempty)

/-! ### Operations of the window -/

/-- Whatever the copies were before. -/
theorem inStep_refreshGrid (desktop : Desktop) (resetSelection : Bool) (window : PaletteWindow) :
    (window.refreshGrid installation desktop resetSelection).InStep := by
  apply inStep_updateSelection
  · exact KeyboardState.selectsCell_setGrid (UInt64.ofNat window.model.rowCount)
      (window.cells desktop desktop.viewportWidth) (window.cells desktop desktop.viewportHeight) _
  · rfl
  · rfl

theorem inStep_setCategory_of_lt (desktop : Desktop) {index : UInt64} (hindex : index.toNat < categories.length)
    (window : PaletteWindow) : (window.setCategory installation desktop index).InStep := by
  unfold setCategory
  rw [List.getElem?_eq_getElem hindex]
  exact inStep_refreshGrid desktop true _

theorem InStep.setCategory (h : window.InStep) (desktop : Desktop) (index : UInt64) :
    (window.setCategory installation desktop index).InStep := by
  by_cases hindex : index.toNat < categories.length
  · exact inStep_setCategory_of_lt desktop hindex window
  · unfold PaletteWindow.setCategory
    rw [List.getElem?_eq_none (Nat.le_of_not_lt hindex)]
    exact h

theorem inStep_updateSearch (desktop : Desktop) (query : Bytes) (window : PaletteWindow) :
    (window.updateSearch installation desktop query).InStep :=
  inStep_refreshGrid desktop true _

theorem InStep.showPalette (h : window.InStep) (desktop : Desktop) (request : Show) :
    (window.showPalette installation desktop request).InStep := by
  unfold PaletteWindow.showPalette
  dsimp only
  split
  · exact h.congr rfl rfl rfl
  · exact (inStep_updateSearch desktop [] { window with request := request }).congr rfl rfl rfl

theorem InStep.hidePalette (h : window.InStep) : window.hidePalette.InStep := h.congr rfl rfl rfl

theorem InStep.toggleCurrentFavorite (h : window.InStep) (desktop : Desktop) :
    (window.toggleCurrentFavorite installation desktop).InStep := by
  unfold PaletteWindow.toggleCurrentFavorite
  split
  · exact h
  · exact inStep_refreshGrid desktop false _

theorem InStep.showCurrentVariants (h : window.InStep) : (window.showCurrentVariants installation).InStep := by
  obtain ⟨hmodel, hkeyboard, hrow⟩ := showCurrentVariants_grid installation window
  exact h.congr hmodel hkeyboard hrow

/-! ### Programs -/

/-- The window a program ends in, with the slots of the session run where it raises a signal. -/
def afterSlots : WindowProgram PaletteWindow → PaletteWindow
  | .done window => window
  | .emit window (.selectionRequested _) next => afterSlots (next window)
  | .emit window (.cancellationRequested _) next => afterSlots (next window.hidePalette)

/-- Whatever the session is in the middle of. -/
theorem runWindow_window (desktop : Desktop) (program : WindowProgram PaletteWindow)
    (helper : Helper PaletteWindow) :
    (Helper.runWindow (calls installation desktop) program helper).1.window = afterSlots program := by
  induction program generalizing helper with
  | done window => rfl
  | emit window signal next ih =>
      rw [Helper.runWindow, Action.andThen_fst, Action.andThen_fst, ih]
      cases signal with
      | selectionRequested sequence =>
          simp only [Helper.slot, Helper.selectionRequested, Action.update_apply]
          split <;> rfl
      | cancellationRequested reason => rfl

theorem inStep_chooseSequence (desktop : Desktop) (sequence : Bytes) (window : PaletteWindow) :
    (afterSlots (window.chooseSequence installation desktop sequence)).InStep := by
  have hrecorded : (window.recordChoice installation desktop sequence).InStep := inStep_refreshGrid desktop false _
  rw [chooseSequence, afterSlots, afterSlots]
  split
  · exact hrecorded.hidePalette
  · exact hrecorded

theorem InStep.activateCurrent (h : window.InStep) (desktop : Desktop) :
    (afterSlots (window.activateCurrent installation desktop)).InStep := by
  unfold PaletteWindow.activateCurrent
  split
  · exact h
  · exact inStep_chooseSequence desktop _ window

/-- A key writes one copy or none, and each outcome makes the window write the other or leave it. -/
theorem InStep.navigate (h : window.InStep) (desktop : Desktop) (command : NavigationCommand) :
    (afterSlots (window.navigate installation desktop command)).InStep := by
  have hcounts := window.keyboard.dispatch_counts command
  have hstays : (window.keyboard.dispatch command).2 ≠ .changed →
      (window.keyboard.dispatch command).2 ≠ .categoryChanged →
      InStep { window with keyboard := (window.keyboard.dispatch command).1 } :=
    fun hmoved hturned => h.congr rfl (KeyboardState.dispatch_eq_self hmoved hturned) rfl
  unfold PaletteWindow.navigate
  dsimp only
  split
  · rename_i hturned
    apply inStep_setCategory_of_lt
    have hindex := KeyboardState.dispatch_categoryIndex_lt hturned
    rw [h.categoryCount] at hindex
    exact hindex
  · rename_i hselected
    apply InStep.activateCurrent
    apply hstays <;> simp [hselected]
  · apply inStep_updateSelection
    · exact h.selects.dispatch command
    · exact hcounts.1.trans h.itemCount
    · exact hcounts.2.trans h.categoryCount
  · rename_i hturned _ hmoved
    exact hstays hmoved hturned

theorem InStep.handleCommand (h : window.InStep) (desktop : Desktop) (command : Command) :
    (afterSlots (window.handleCommand installation desktop command)).InStep := by
  unfold PaletteWindow.handleCommand
  split
  · exact inStep_updateSearch desktop _ window
  · exact h.toggleCurrentFavorite desktop
  · exact h.showCurrentVariants
  · unfold cancel
    split
    · exact h.congr rfl rfl rfl
    · exact h.hidePalette
  split
  · exact h
  · exact h.navigate desktop _

/-! ### The pointer -/

/-- A context menu is asked for on no cell or on the selected one. -/
def PointerEvent.OnSelected (window : PaletteWindow) : PointerEvent → Prop
  | .contextMenuRequested row => row < window.model.rowCount → row = window.keyboard.selectedIndex.toNat
  | _ => True

/-- The grid raises no signal for a click on no cell. -/
def PointerEvent.raised (window : PaletteWindow) : PointerEvent → Bool
  | .cellClicked row => row < window.model.rowCount
  | _ => true

/-- The menu writes the current row alone. -/
theorem contextMenu_grid (installation : HelperInstallation) (desktop : Desktop) {row : Nat}
    (hrow : row < window.model.rowCount) :
    let menu := afterSlots (pointer installation desktop (.contextMenuRequested row) window)
    menu.model = window.model ∧ menu.keyboard = window.keyboard ∧ menu.currentRow = some row := by
  obtain ⟨hmodel, hkeyboard, hcurrent⟩ := showCurrentVariants_grid installation (window.setCurrentIndex row)
  simp only [pointer, afterSlots, if_pos hrow]
  exact ⟨hmodel, hkeyboard, hcurrent.trans (if_pos hrow)⟩

theorem InStep.pointer (h : window.InStep) (desktop : Desktop) {event : PointerEvent}
    (hraised : event.raised window = true) (hselected : event.OnSelected window) :
    (afterSlots (pointer installation desktop event window)).InStep := by
  cases event with
  | cellClicked row =>
      have hrow : row < window.model.rowCount := of_decide_eq_true hraised
      have hrecord : window.model.record row = some window.model.records[row] := List.getElem?_eq_getElem hrow
      simp only [PaletteWindow.pointer, hrecord]
      exact inStep_chooseSequence desktop _ _
  | contextMenuRequested row =>
      by_cases hrow : row < window.model.rowCount
      · obtain ⟨hmodel, hkeyboard, hcurrent⟩ := contextMenu_grid installation desktop hrow
        refine h.congr hmodel hkeyboard ?_
        rw [hcurrent, hselected hrow]
        exact (h.aligned (Nat.ne_of_gt (Nat.zero_lt_of_lt hrow))).symm
      · simp only [PaletteWindow.pointer, afterSlots, if_neg hrow]
        exact h
  | categoryClicked index => exact h.setCategory desktop index
  | settingsClicked checked => exact h.congr rfl rfl rfl
  | pressedOutside =>
      simp only [PaletteWindow.pointer, afterSlots]
      split
      · exact h.congr rfl rfl rfl
      · exact h
  | sizeClicked size => exact inStep_refreshGrid desktop false _
  | favoriteClicked =>
      simp only [PaletteWindow.pointer, afterSlots]
      split
      · exact h.toggleCurrentFavorite desktop
      · exact h
  | variantsClicked =>
      simp only [PaletteWindow.pointer, afterSlots]
      split
      · exact h.showCurrentVariants
      · exact h
  | variantClicked index =>
      simp only [PaletteWindow.pointer]
      split
      · exact h
      · split
        · exact inStep_chooseSequence desktop _ window
        · exact h

/-- A menu on another cell than the selected one leaves the copies apart. -/
theorem onSelected_of_aligned (desktop : Desktop) {event : PointerEvent}
    (h : (afterSlots (pointer installation desktop event window)).Aligned) : event.OnSelected window := by
  cases event with
  | contextMenuRequested row =>
      intro hrow
      obtain ⟨hmodel, hkeyboard, hcurrent⟩ := contextMenu_grid installation desktop hrow
      unfold Aligned at h
      rw [hmodel, hkeyboard, hcurrent] at h
      exact Option.some.inj (h (Nat.ne_of_gt (Nat.zero_lt_of_lt hrow)))
  | _ => trivial

/-! ### Runs -/

/-- What can happen to the window. -/
inductive WindowOperation
  | showPalette (desktop : Desktop) (request : Show)
  | hidePalette
  | handleCommand (desktop : Desktop) (command : Command)
  | pointer (desktop : Desktop) (event : PointerEvent)

def operate (installation : HelperInstallation) : WindowOperation → PaletteWindow → PaletteWindow
  | .showPalette desktop request => PaletteWindow.showPalette installation desktop request
  | .hidePalette => PaletteWindow.hidePalette
  | .handleCommand desktop command => fun window =>
      afterSlots (PaletteWindow.handleCommand installation desktop command window)
  | .pointer desktop event => fun window =>
      if event.raised window then afterSlots (PaletteWindow.pointer installation desktop event window) else window

def WindowOperation.OnSelected (window : PaletteWindow) : WindowOperation → Prop
  | .pointer _ event => event.OnSelected window
  | _ => True

theorem InStep.operate (h : window.InStep) {operation : WindowOperation} (hselected : operation.OnSelected window) :
    (operate installation operation window).InStep := by
  cases operation with
  | showPalette desktop request => exact h.showPalette desktop request
  | hidePalette => exact h.hidePalette
  | handleCommand desktop command => exact h.handleCommand desktop command
  | pointer desktop event =>
      simp only [PaletteWindow.operate]
      split
      · rename_i hraised
        exact h.pointer desktop hraised hselected
      · exact h

theorem aligned_operate_iff (h : window.InStep) (operation : WindowOperation) :
    (operate installation operation window).Aligned ↔ operation.OnSelected window := by
  refine ⟨fun haligned => ?_, fun hselected => (h.operate hselected).aligned⟩
  cases operation with
  | pointer desktop event =>
      simp only [PaletteWindow.operate] at haligned
      split at haligned
      · exact onSelected_of_aligned desktop haligned
      · rename_i hraised
        cases event with
        | cellClicked row => trivial
        | _ => exact absurd rfl hraised
  | _ => trivial

theorem inStep_initial (installation : HelperInstallation) (desktop : Desktop) (state : PersistentState)
    (cellSize : Int) : (initial installation desktop state cellSize).InStep :=
  inStep_setCategory_of_lt desktop (by decide) _

/-- The grid highlights the selected cell after every operation of a run exactly if no context menu of the run is asked for on another cell. -/
theorem one_highlighted_cell_iff (installation : HelperInstallation) (desktop : Desktop) (state : PersistentState)
    (cellSize : Int) (operations : List WindowOperation) :
    Along (fun window operation => (operate installation operation window).OneCell) (operate installation) operations
        (initial installation desktop state cellSize) ↔
      Along (fun window operation => operation.OnSelected window) (operate installation) operations
        (initial installation desktop state cellSize) := by
  refine along_iff (fun window operation (h : InStep window) => ?_) (fun window operation h hcell => ?_) operations
    (inStep_initial installation desktop state cellSize)
  · rw [← aligned_operate_iff h]
    exact ⟨OneCell.aligned, Aligned.oneCell⟩
  · exact h.operate ((aligned_operate_iff h operation).mp hcell.aligned)

/-- A face without a name, by the last byte of its sequence. -/
def face (last : UInt8) : EmojiRecord := ⟨[0xF0, 0x9F, 0x98, last], .smileysEmotion, [], fun _ => ⟨[], []⟩, []⟩

def threeFaces : HelperInstallation := ⟨⟨[face 0x80, face 0x81, face 0x82]⟩, .dropMark⟩

/-- After a context menu on the last of three cells, the key to the right goes from the first one to the second. -/
theorem context_menu_parts :
    (¬ ∀ installation desktop state cellSize operations,
      Along (fun window operation => (operate installation operation window).OneCell) (operate installation) operations
        (initial installation desktop state cellSize)) ∧
    let desktop : Desktop := ⟨0, 400, 300, 2⟩
    let menu := operate threeFaces (.pointer desktop (.contextMenuRequested 2))
      (initial threeFaces desktop ⟨[], []⟩ 48)
    let moved := operate threeFaces (.handleCommand desktop ⟨.zero, 1, .right, []⟩) menu
    menu.model.rowCount = 3 ∧ menu.currentRow = some 2 ∧ menu.keyboard.selectedIndex = 0 ∧
      moved.currentRow = some 1 := by
  refine ⟨fun h => ?_, by decide +kernel⟩
  have hmenu := (h threeFaces ⟨0, 400, 300, 2⟩ ⟨[], []⟩ 48
    [.pointer ⟨0, 400, 300, 2⟩ (.contextMenuRequested 2)]).1.aligned
  exact absurd (hmenu (by decide +kernel)) (by decide +kernel)

end PaletteWindow

end Ui

end EmojiPalette
