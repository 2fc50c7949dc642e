import EmojiPalette.Core.Keyboard
import EmojiPalette.Library.MachineInt
import EmojiPalette.Library.Trace

/-!
# Navigation in every run

The window gives the grid a new shape whenever it likes, so the shape may shrink under the selection. The selection stays inside the grid all the same, and with the sizes a window can have no operation of the navigation leaves the 64 bits. What a key does can then be said in natural numbers.
-/

namespace EmojiPalette

open MachineInt Trace

/-- The keys that go back in the grid. -/
def backwardCommands : List NavigationCommand := [.left, .up, .pageUp, .home]

def forwardCommands : List NavigationCommand := [.right, .down, .pageDown, .end]

/-- A call from the window. -/
inductive KeyboardCall
  | setGrid (itemCount columns visibleRows : UInt64)
  | setCategory (index count : UInt64)
  | dispatch (command : NavigationCommand)

namespace KeyboardCall

/-- The numbers are not negative as an `int`. -/
def Small : KeyboardCall → Prop
  | .setGrid itemCount columns visibleRows =>
      itemCount.toNat ≤ 2147483647 ∧ columns.toNat ≤ 2147483647 ∧ visibleRows.toNat ≤ 2147483647
  | .setCategory index count => index.toNat ≤ 2147483647 ∧ count.toNat ≤ 2147483647
  | .dispatch _ => True

def apply (call : KeyboardCall) (keyboard : KeyboardState) : KeyboardState :=
  match call with
  | .setGrid itemCount columns visibleRows => keyboard.setGrid itemCount columns visibleRows
  | .setCategory index count => keyboard.setCategory index count
  | .dispatch command => (keyboard.dispatch command).1

end KeyboardCall

/-! ### Checked calls -/

namespace KeyboardState

def setGridChecked (itemCount columns visibleRows : UInt64) (keyboard : KeyboardState) : Option KeyboardState := do
  let selectedIndex ←
    if itemCount = 0 then some 0
    else do
      let last ← uint64.sub itemCount 1
      some (min keyboard.selectedIndex last)
  some { keyboard with
    itemCount := itemCount
    columns := max 1 columns
    visibleRows := max 1 visibleRows
    selectedIndex := selectedIndex }

def setCategoryChecked (index count : UInt64) (keyboard : KeyboardState) : Option KeyboardState := do
  let last ← uint64.sub (max 1 count) 1
  some { keyboard with categoryCount := max 1 count, categoryIndex := min index last }

def movedChecked (keyboard : KeyboardState) : NavigationCommand → Option UInt64
  | .left => if keyboard.selectedIndex > 0 then uint64.sub keyboard.selectedIndex 1 else some keyboard.selectedIndex
  | .right => do
      let next ← uint64.add keyboard.selectedIndex 1
      let last ← uint64.sub keyboard.itemCount 1
      some (min next last)
  | .up =>
      if keyboard.selectedIndex ≥ keyboard.columns then uint64.sub keyboard.selectedIndex keyboard.columns
      else some keyboard.selectedIndex
  | .down => do
      let next ← uint64.add keyboard.selectedIndex keyboard.columns
      let last ← uint64.sub keyboard.itemCount 1
      some (min next last)
  | .home => some 0
  | .end => uint64.sub keyboard.itemCount 1
  | .pageUp => do
      let step ← uint64.mul keyboard.columns keyboard.visibleRows
      if keyboard.selectedIndex > step then uint64.sub keyboard.selectedIndex step else some 0
  | .pageDown => do
      let step ← uint64.mul keyboard.columns keyboard.visibleRows
      let next ← uint64.add keyboard.selectedIndex step
      let last ← uint64.sub keyboard.itemCount 1
      some (min next last)
  | _ => some keyboard.selectedIndex

def dispatchChecked (command : NavigationCommand) (keyboard : KeyboardState) :
    Option (KeyboardState × NavigationOutcome) :=
  match command with
  | .select => some (keyboard, if keyboard.itemCount = 0 then .unchanged else .selected)
  | .cancel => some (keyboard, .cancelled)
  | .previousCategory =>
      if keyboard.categoryCount ≤ 1 then some (keyboard, .unchanged)
      else do
        let sum ← uint64.add keyboard.categoryIndex keyboard.categoryCount
        let previous ← uint64.sub sum 1
        some (keyboard.changeCategory previous)
  | .nextCategory =>
      if keyboard.categoryCount ≤ 1 then some (keyboard, .unchanged)
      else do
        let next ← uint64.add keyboard.categoryIndex 1
        some (keyboard.changeCategory next)
  | command =>
      if keyboard.itemCount = 0 then some (keyboard, .unchanged)
      else do
        let selectedIndex ← keyboard.movedChecked command
        some ({ keyboard with selectedIndex := selectedIndex },
          if selectedIndex = keyboard.selectedIndex then .unchanged else .changed)

end KeyboardState

/-- The call with every sum, difference and product checked: nothing where one leaves the 64 bits. -/
def KeyboardCall.checked (call : KeyboardCall) (keyboard : KeyboardState) : Option KeyboardState :=
  match call with
  | .setGrid itemCount columns visibleRows => keyboard.setGridChecked itemCount columns visibleRows
  | .setCategory index count => keyboard.setCategoryChecked index count
  | .dispatch command => (keyboard.dispatchChecked command).map Prod.fst

/-! ### Within the grid -/

namespace KeyboardState

/-- The selection and the category exist, and the sizes are those of a window. -/
structure WithinGrid (keyboard : KeyboardState) : Prop where
  selected : keyboard.selectedIndex.toNat < keyboard.itemCount.toNat ∨
    keyboard.itemCount.toNat = 0 ∧ keyboard.selectedIndex.toNat = 0
  category : keyboard.categoryIndex.toNat < keyboard.categoryCount.toNat
  itemCount : keyboard.itemCount.toNat ≤ 2147483647
  columns : keyboard.columns.toNat ≤ 2147483647
  visibleRows : keyboard.visibleRows.toNat ≤ 2147483647
  categoryCount : keyboard.categoryCount.toNat ≤ 2147483647

theorem withinGrid_initial : WithinGrid initial := by
  refine ⟨Or.inr ⟨rfl, rfl⟩, ?_, ?_, ?_, ?_, ?_⟩ <;> decide

variable {keyboard : KeyboardState} {command : NavigationCommand}

/-- A page of the grid is far below 64 bits. -/
theorem WithinGrid.page_lt (h : WithinGrid keyboard) :
    keyboard.columns.toNat * keyboard.visibleRows.toNat < 4611686018427387904 := by
  have hcolumns := h.columns
  have hrows := h.visibleRows
  have hle := Nat.mul_le_mul hcolumns hrows
  omega

theorem one_le_of_ne_zero {count : UInt64} (h : count ≠ 0) : 1 ≤ count := by
  have hne := mt UInt64.toNat_inj.mp h
  rw [UInt64.le_iff_toNat_le]
  change 1 ≤ count.toNat
  change ¬ count.toNat = 0 at hne
  omega

theorem toNat_sub_one_lt {count : UInt64} (h : count ≠ 0) : (count - 1).toNat < count.toNat := by
  have hone := one_le_of_ne_zero h
  have hpositive : 1 ≤ count.toNat := UInt64.le_iff_toNat_le.mp hone
  rw [UInt64.toNat_sub_of_le _ _ hone]
  change count.toNat - 1 < count.toNat
  omega

/-- Clamped to the last cell, an index is in the grid. -/
theorem min_last_lt {index count : UInt64} (h : count ≠ 0) : (min index (count - 1)).toNat < count.toNat := by
  rw [UInt64.toNat_min]
  exact lt_of_le_of_lt (min_le_right _ _) (toNat_sub_one_lt h)

theorem WithinGrid.selected_lt (h : WithinGrid keyboard) (hitems : keyboard.itemCount ≠ 0) :
    keyboard.selectedIndex.toNat < keyboard.itemCount.toNat :=
  h.selected.resolve_right fun hempty => hitems (UInt64.toNat_inj.mp hempty.1)

/-! ### Where a key moves the selection -/

/-- A key moves within the grid also where the arithmetic of the move wraps around. -/
theorem moved_lt (h : keyboard.selectedIndex.toNat < keyboard.itemCount.toNat) (command : NavigationCommand) :
    (keyboard.moved command).toNat < keyboard.itemCount.toNat := by
  have hitems : keyboard.itemCount ≠ 0 := by
    intro hzero
    rw [hzero] at h
    exact Nat.not_lt_zero _ h
  have hback : ∀ amount, amount ≤ keyboard.selectedIndex →
      (keyboard.selectedIndex - amount).toNat < keyboard.itemCount.toNat := by
    intro amount hle
    rw [UInt64.toNat_sub_of_le _ _ hle]
    exact lt_of_le_of_lt (Nat.sub_le _ _) h
  cases command with
  | left =>
      rw [moved]
      split
      · rename_i hpositive
        exact hback 1 (one_le_of_ne_zero (UInt64.ne_of_lt hpositive).symm)
      · exact h
  | right => exact min_last_lt hitems
  | up =>
      rw [moved]
      split
      · rename_i hrow
        exact hback _ hrow
      · exact h
  | down => exact min_last_lt hitems
  | home => exact lt_of_le_of_lt (Nat.zero_le _) h
  | «end» => exact toNat_sub_one_lt hitems
  | pageUp =>
      simp only [moved]
      split
      · rename_i hpage
        exact hback _ (UInt64.le_of_lt hpage)
      · exact lt_of_le_of_lt (Nat.zero_le _) h
  | pageDown => exact min_last_lt hitems
  | _ => exact h

/-- Where a key moves the selection in natural numbers. -/
def target (selected items columns rows : ℕ) : NavigationCommand → ℕ
  | .left => selected - 1
  | .right => min (selected + 1) (items - 1)
  | .up => if columns ≤ selected then selected - columns else selected
  | .down => min (selected + columns) (items - 1)
  | .home => 0
  | .end => items - 1
  | .pageUp => selected - columns * rows
  | .pageDown => min (selected + columns * rows) (items - 1)
  | _ => selected

/-- A move forward ends at the last cell. -/
theorem stepForward_spec {selected count amount : UInt64} (hcount : count ≠ 0)
    (hsum : selected.toNat + amount.toNat < 18446744073709551616) :
    (do let next ← uint64.add selected amount
        let last ← uint64.sub count 1
        some (min next last)) = some (min (selected + amount) (count - 1)) ∧
      (min (selected + amount) (count - 1)).toNat = min (selected.toNat + amount.toNat) (count.toNat - 1) := by
  have hone := one_le_of_ne_zero hcount
  rw [uint64_add hsum, uint64_sub hone]
  refine ⟨rfl, ?_⟩
  rw [UInt64.toNat_min, toNat_add_of_lt hsum, UInt64.toNat_sub_of_le _ _ hone]
  rfl

/-- The movement is the one in natural numbers, and none of its operations leaves the 64 bits. -/
theorem WithinGrid.moved_spec (h : WithinGrid keyboard) (hitems : keyboard.itemCount ≠ 0)
    (command : NavigationCommand) :
    keyboard.movedChecked command = some (keyboard.moved command) ∧
      (keyboard.moved command).toNat = target keyboard.selectedIndex.toNat keyboard.itemCount.toNat
        keyboard.columns.toNat keyboard.visibleRows.toNat command := by
  have hpage := h.page_lt
  have hproduct : keyboard.columns.toNat * keyboard.visibleRows.toNat < 18446744073709551616 := by omega
  obtain ⟨hselected, -, hcount, hcolumns, -, -⟩ := h
  have hlast := one_le_of_ne_zero hitems
  cases command with
  | left =>
      rw [movedChecked, moved, target]
      by_cases hpositive : keyboard.selectedIndex > 0
      · have hone : 1 ≤ keyboard.selectedIndex := one_le_of_ne_zero (UInt64.ne_of_lt hpositive).symm
        rw [if_pos hpositive, if_pos hpositive]
        exact ⟨uint64_sub hone, UInt64.toNat_sub_of_le _ _ hone⟩
      · have hzero : keyboard.selectedIndex.toNat = 0 := by
          have hle := UInt64.le_iff_toNat_le.mp (UInt64.not_lt.mp hpositive)
          exact Nat.le_zero.mp hle
        rw [if_neg hpositive, if_neg hpositive, hzero]
        exact ⟨rfl, rfl⟩
  | right => exact stepForward_spec hitems (by change _ + 1 < _; omega)
  | up =>
      rw [movedChecked, moved, target]
      by_cases hrow : keyboard.selectedIndex ≥ keyboard.columns
      · rw [if_pos hrow, if_pos hrow, if_pos (UInt64.le_iff_toNat_le.mp hrow)]
        exact ⟨uint64_sub hrow, UInt64.toNat_sub_of_le _ _ hrow⟩
      · rw [if_neg hrow, if_neg hrow, if_neg (mt UInt64.le_iff_toNat_le.mpr hrow)]
        exact ⟨rfl, rfl⟩
  | down => exact stepForward_spec hitems (by omega)
  | home => exact ⟨rfl, rfl⟩
  | «end» => exact ⟨uint64_sub hlast, UInt64.toNat_sub_of_le _ _ hlast⟩
  | pageUp =>
      simp only [movedChecked, moved, target, uint64_mul hproduct, Option.bind_eq_bind, Option.bind_some]
      rw [← toNat_mul_of_lt hproduct]
      by_cases hrow : keyboard.selectedIndex > keyboard.columns * keyboard.visibleRows
      · have hle := UInt64.le_of_lt hrow
        rw [if_pos hrow, if_pos hrow]
        exact ⟨uint64_sub hle, UInt64.toNat_sub_of_le _ _ hle⟩
      · have hle := UInt64.le_iff_toNat_le.mp (UInt64.not_lt.mp hrow)
        rw [if_neg hrow, if_neg hrow]
        exact ⟨rfl, (Nat.sub_eq_zero_of_le hle).symm⟩
  | pageDown =>
      simp only [movedChecked, moved, target, uint64_mul hproduct, Option.bind_eq_bind, Option.bind_some]
      rw [← toNat_mul_of_lt hproduct]
      exact stepForward_spec hitems (by rw [toNat_mul_of_lt hproduct]; omega)
  | previousCategory => exact ⟨rfl, rfl⟩
  | nextCategory => exact ⟨rfl, rfl⟩
  | select => exact ⟨rfl, rfl⟩
  | cancel => exact ⟨rfl, rfl⟩

/-! ### The category -/

theorem next_mod {index count : ℕ} (h : index < count) :
    (index + 1) % count = if index + 1 = count then 0 else index + 1 := by
  by_cases hend : index + 1 = count
  · rw [if_pos hend, hend, Nat.mod_self]
  · rw [if_neg hend]
    exact Nat.mod_eq_of_lt (by omega)

theorem previous_mod {index count : ℕ} (h : index < count) :
    (index + count - 1) % count = if index = 0 then count - 1 else index - 1 := by
  by_cases hstart : index = 0
  · rw [if_pos hstart]
    exact (congrArg (· % count) (by omega)).trans (Nat.mod_eq_of_lt (show count - 1 < count by omega))
  · have hsum : index + count - 1 = index - 1 + count := by omega
    rw [if_neg hstart, hsum, Nat.add_mod_right]
    exact Nat.mod_eq_of_lt (by omega)

theorem WithinGrid.nextCategory_lt (h : WithinGrid keyboard) :
    keyboard.categoryIndex.toNat + (1 : UInt64).toNat < 18446744073709551616 := by
  have hcategory := h.category
  have hcount := h.categoryCount
  change _ + 1 < _
  omega

theorem WithinGrid.categorySum_lt (h : WithinGrid keyboard) :
    keyboard.categoryIndex.toNat + keyboard.categoryCount.toNat < 18446744073709551616 := by
  have hcategory := h.category
  have hcount := h.categoryCount
  omega

theorem WithinGrid.one_le_categorySum (h : WithinGrid keyboard) :
    1 ≤ keyboard.categoryIndex + keyboard.categoryCount := by
  have hcategory := h.category
  rw [UInt64.le_iff_toNat_le, toNat_add_of_lt h.categorySum_lt]
  change 1 ≤ _
  omega

theorem WithinGrid.toNat_next (h : WithinGrid keyboard) :
    ((keyboard.categoryIndex + 1) % keyboard.categoryCount).toNat =
      (keyboard.categoryIndex.toNat + 1) % keyboard.categoryCount.toNat := by
  rw [UInt64.toNat_mod, toNat_add_of_lt h.nextCategory_lt]
  rfl

theorem WithinGrid.toNat_previous (h : WithinGrid keyboard) :
    ((keyboard.categoryIndex + keyboard.categoryCount - 1) % keyboard.categoryCount).toNat =
      (keyboard.categoryIndex.toNat + keyboard.categoryCount.toNat - 1) % keyboard.categoryCount.toNat := by
  rw [UInt64.toNat_mod, UInt64.toNat_sub_of_le _ _ h.one_le_categorySum, toNat_add_of_lt h.categorySum_lt]
  rfl

/-- The next category of the one before is the category itself, and the other way round. -/
theorem next_previous_mod {index count : ℕ} (h : index < count) :
    ((index + count - 1) % count + 1) % count = index ∧ ((index + 1) % count + count - 1) % count = index := by
  have hprevious := Nat.mod_lt (index + count - 1) (show count > 0 by omega)
  have hnext := Nat.mod_lt (index + 1) (show count > 0 by omega)
  rw [next_mod hprevious, previous_mod hnext, previous_mod h, next_mod h]
  grind

/-! ### One call -/

theorem toNat_max_one (count : UInt64) : (max 1 count).toNat = max 1 count.toNat := UInt64.toNat_max 1 count

/-- The selection follows the grid when it shrinks. -/
theorem WithinGrid.setGrid {itemCount columns visibleRows : UInt64} (h : WithinGrid keyboard)
    (hsmall : (KeyboardCall.setGrid itemCount columns visibleRows).Small) :
    keyboard.setGridChecked itemCount columns visibleRows = some (keyboard.setGrid itemCount columns visibleRows) ∧
      WithinGrid (keyboard.setGrid itemCount columns visibleRows) := by
  obtain ⟨hitems, hcolumns, hrows⟩ := hsmall
  have hcolumns' : (max 1 columns).toNat ≤ 2147483647 := by
    rw [toNat_max_one]
    omega
  have hrows' : (max 1 visibleRows).toNat ≤ 2147483647 := by
    rw [toNat_max_one]
    omega
  rw [setGridChecked, KeyboardState.setGrid]
  by_cases hempty : itemCount = 0
  · subst hempty
    exact ⟨rfl, Or.inr ⟨rfl, rfl⟩, h.category, hitems, hcolumns', hrows', h.categoryCount⟩
  · rw [if_neg hempty, if_neg hempty, uint64_sub (one_le_of_ne_zero hempty)]
    exact ⟨rfl, Or.inl (min_last_lt hempty), h.category, hitems, hcolumns', hrows', h.categoryCount⟩

theorem WithinGrid.setCategory {index count : UInt64} (h : WithinGrid keyboard)
    (hsmall : (KeyboardCall.setCategory index count).Small) :
    keyboard.setCategoryChecked index count = some (keyboard.setCategory index count) ∧
      WithinGrid (keyboard.setCategory index count) := by
  have hmax := toNat_max_one count
  have hone : 1 ≤ max 1 count := by
    rw [UInt64.le_iff_toNat_le, hmax]
    exact Nat.le_max_left 1 _
  have hne : max 1 count ≠ 0 := by
    intro hzero
    rw [hzero] at hone
    exact absurd hone (by decide)
  have hcount : (max 1 count).toNat ≤ 2147483647 := by
    have hle := hsmall.2
    omega
  rw [setCategoryChecked, uint64_sub hone]
  exact ⟨rfl, h.selected, min_last_lt hne, h.itemCount, h.columns, h.visibleRows, hcount⟩

/-- Another category starts at its first cell. -/
theorem WithinGrid.changeCategory (h : WithinGrid keyboard) (index : UInt64) :
    WithinGrid (keyboard.changeCategory index).1 := by
  rw [KeyboardState.changeCategory]
  by_cases hone : keyboard.categoryCount ≤ 1
  · rw [if_pos hone]
    exact h
  · rw [if_neg hone]
    refine ⟨?_, ?_, h.itemCount, h.columns, h.visibleRows, h.categoryCount⟩
    · exact (Nat.eq_zero_or_pos keyboard.itemCount.toNat).elim (fun hzero => Or.inr ⟨hzero, rfl⟩) Or.inl
    · have hcategory := h.category
      change (index % keyboard.categoryCount).toNat < keyboard.categoryCount.toNat
      rw [UInt64.toNat_mod]
      exact Nat.mod_lt _ (by omega)

/-- The commands that move in the grid do nothing in an empty one, and change no more than the selection. -/
theorem dispatch_of_mem (hcommand : command ∈ backwardCommands ++ forwardCommands) :
    keyboard.dispatch command =
      if keyboard.itemCount = 0 then (keyboard, .unchanged)
      else ({ keyboard with selectedIndex := keyboard.moved command },
        if keyboard.moved command = keyboard.selectedIndex then .unchanged else .changed) := by
  cases command <;> first | rfl | simp [backwardCommands, forwardCommands] at hcommand

theorem dispatchChecked_of_mem (hcommand : command ∈ backwardCommands ++ forwardCommands) :
    keyboard.dispatchChecked command =
      if keyboard.itemCount = 0 then some (keyboard, .unchanged)
      else (keyboard.movedChecked command).bind fun selectedIndex =>
        some ({ keyboard with selectedIndex := selectedIndex },
          if selectedIndex = keyboard.selectedIndex then .unchanged else .changed) := by
  cases command <;> first | rfl | simp [backwardCommands, forwardCommands] at hcommand

/-- Backward is never ahead and forward never behind. -/
theorem target_bounds {selected items columns rows : ℕ} (h : selected < items) :
    (command ∈ backwardCommands → target selected items columns rows command ≤ selected) ∧
      (command ∈ forwardCommands → selected ≤ target selected items columns rows command) := by
  cases command <;> simp [target, backwardCommands, forwardCommands] <;> grind

/-- The key moves the selection where the checked movement says, and it stays in the grid. -/
theorem WithinGrid.dispatch_of_mem (h : WithinGrid keyboard)
    (hcommand : command ∈ backwardCommands ++ forwardCommands) :
    keyboard.dispatchChecked command = some (keyboard.dispatch command) ∧ WithinGrid (keyboard.dispatch command).1 := by
  rw [dispatchChecked_of_mem hcommand, KeyboardState.dispatch_of_mem hcommand]
  by_cases hempty : keyboard.itemCount = 0
  · rw [if_pos hempty, if_pos hempty]
    exact ⟨rfl, h⟩
  · rw [if_neg hempty, if_neg hempty, (h.moved_spec hempty command).1]
    exact ⟨rfl, Or.inl (moved_lt (h.selected_lt hempty) command), h.category, h.itemCount, h.columns, h.visibleRows,
      h.categoryCount⟩

theorem WithinGrid.dispatch (h : WithinGrid keyboard) (command : NavigationCommand) :
    keyboard.dispatchChecked command = some (keyboard.dispatch command) ∧ WithinGrid (keyboard.dispatch command).1 := by
  cases command with
  | select => exact ⟨rfl, h⟩
  | cancel => exact ⟨rfl, h⟩
  | previousCategory =>
      refine ⟨?_, h.changeCategory _⟩
      rw [dispatchChecked, KeyboardState.dispatch]
      by_cases hone : keyboard.categoryCount ≤ 1
      · rw [if_pos hone, KeyboardState.changeCategory, if_pos hone]
      · rw [if_neg hone, uint64_add h.categorySum_lt]
        change (uint64.sub _ 1).bind _ = _
        rw [uint64_sub h.one_le_categorySum]
        rfl
  | nextCategory =>
      refine ⟨?_, h.changeCategory _⟩
      rw [dispatchChecked, KeyboardState.dispatch]
      by_cases hone : keyboard.categoryCount ≤ 1
      · rw [if_pos hone, KeyboardState.changeCategory, if_pos hone]
      · rw [if_neg hone, uint64_add h.nextCategory_lt]
        rfl
  | _ => exact h.dispatch_of_mem (by decide)

theorem WithinGrid.apply {call : KeyboardCall} (h : WithinGrid keyboard) (hsmall : call.Small) :
    call.checked keyboard = some (call.apply keyboard) ∧ WithinGrid (call.apply keyboard) := by
  cases call with
  | setGrid itemCount columns visibleRows => exact h.setGrid hsmall
  | setCategory index count => exact h.setCategory hsmall
  | dispatch command =>
      obtain ⟨hchecked, hkeep⟩ := h.dispatch command
      exact ⟨congrArg (Option.map Prod.fst) hchecked, hkeep⟩

/-- The states a window can bring the navigation to. -/
abbrev Reached : KeyboardState → Prop := Reachable (· = initial) (fun _ call => call.Small) KeyboardCall.apply

theorem reached_initial : Reached initial := .start rfl

theorem Reached.apply (h : Reached keyboard) (call : KeyboardCall) (hsmall : call.Small) :
    Reached (call.apply keyboard) :=
  .step h hsmall

theorem Reached.withinGrid (h : Reached keyboard) : WithinGrid keyboard :=
  h.invariant (fun _ hstart => hstart ▸ withinGrid_initial) fun _ _ hinv hsmall => (hinv.apply hsmall).2

/-! ### What the commands do -/

theorem dispatch_categoryIndex (hcommand : command ∈ backwardCommands ++ forwardCommands) :
    (keyboard.dispatch command).1.categoryIndex = keyboard.categoryIndex ∧
      (keyboard.dispatch command).1.categoryCount = keyboard.categoryCount := by
  rw [KeyboardState.dispatch_of_mem hcommand]
  split <;> exact ⟨rfl, rfl⟩

theorem command_cases (command : NavigationCommand) :
    command ∈ backwardCommands ++ forwardCommands ∨ command = .select ∨ command = .cancel ∨
      command = .previousCategory ∨ command = .nextCategory := by
  cases command <;> decide

/-- All a command can do: leave the navigation as it is, move the selection, or turn to a category. -/
theorem dispatch_cases (keyboard : KeyboardState) (command : NavigationCommand) :
    (∃ outcome, keyboard.dispatch command = (keyboard, outcome) ∧ outcome ≠ .changed ∧ outcome ≠ .categoryChanged ∧
      (outcome = .selected → keyboard.itemCount ≠ 0)) ∨
    (command ∈ backwardCommands ++ forwardCommands ∧ keyboard.itemCount ≠ 0 ∧
      keyboard.moved command ≠ keyboard.selectedIndex ∧
      keyboard.dispatch command = ({ keyboard with selectedIndex := keyboard.moved command }, .changed)) ∨
    command ∉ backwardCommands ++ forwardCommands ∧ ¬ keyboard.categoryCount ≤ 1 ∧
      ∃ index, keyboard.dispatch command =
        ({ keyboard with categoryIndex := index % keyboard.categoryCount, selectedIndex := 0 }, .categoryChanged) := by
  have hstays : keyboard.dispatch command = (keyboard, .unchanged) →
      ∃ outcome, keyboard.dispatch command = (keyboard, outcome) ∧ outcome ≠ .changed ∧ outcome ≠ .categoryChanged ∧
        (outcome = .selected → keyboard.itemCount ≠ 0) :=
    fun heq => ⟨.unchanged, heq, by decide, by decide, fun hselected => nomatch hselected⟩
  have hcategory : ∀ index, keyboard.changeCategory index = (keyboard, .unchanged) ∨
      ¬ keyboard.categoryCount ≤ 1 ∧ keyboard.changeCategory index =
        ({ keyboard with categoryIndex := index % keyboard.categoryCount, selectedIndex := 0 }, .categoryChanged) := by
    intro index
    unfold changeCategory
    split
    · exact Or.inl rfl
    · rename_i hmany
      exact Or.inr ⟨hmany, rfl⟩
  obtain hmoves | rfl | rfl | rfl | rfl := command_cases command
  · have heq : keyboard.dispatch command = _ := dispatch_of_mem hmoves
    by_cases hitems : keyboard.itemCount = 0
    · rw [if_pos hitems] at heq
      exact Or.inl (hstays heq)
    rw [if_neg hitems] at heq
    by_cases hsame : keyboard.moved command = keyboard.selectedIndex
    · rw [if_pos hsame, hsame] at heq
      exact Or.inl (hstays heq)
    · rw [if_neg hsame] at heq
      exact Or.inr (Or.inl ⟨hmoves, hitems, hsame, heq⟩)
  · by_cases hitems : keyboard.itemCount = 0
    · exact Or.inl (hstays (congrArg (Prod.mk keyboard) (if_pos hitems)))
    · exact Or.inl ⟨.selected, congrArg (Prod.mk keyboard) (if_neg hitems), by decide, by decide, fun _ => hitems⟩
  · exact Or.inl ⟨.cancelled, rfl, by decide, by decide, fun hselected => nomatch hselected⟩
  · obtain heq | ⟨hmany, heq⟩ := hcategory (keyboard.categoryIndex + keyboard.categoryCount - 1)
    · exact Or.inl (hstays heq)
    · exact Or.inr (Or.inr ⟨by decide, hmany, _, heq⟩)
  · obtain heq | ⟨hmany, heq⟩ := hcategory (keyboard.categoryIndex + 1)
    · exact Or.inl (hstays heq)
    · exact Or.inr (Or.inr ⟨by decide, hmany, _, heq⟩)

/-- A moved selection is what the caller hears of as a change. -/
theorem dispatch_changed_iff :
    (keyboard.dispatch command).2 = .changed ↔
      command ∈ backwardCommands ++ forwardCommands ∧
        (keyboard.dispatch command).1.selectedIndex ≠ keyboard.selectedIndex := by
  obtain ⟨outcome, heq, hmoved, -⟩ | ⟨hmem, -, hne, heq⟩ | ⟨hmem, -, index, heq⟩ := keyboard.dispatch_cases command
  · rw [heq]
    exact iff_of_false hmoved fun h => h.2 rfl
  · rw [heq]
    exact iff_of_true rfl ⟨hmem, hne⟩
  · rw [heq]
    exact iff_of_false (fun h => nomatch h) fun h => hmem h.1

theorem WithinGrid.toNat_dispatch (h : WithinGrid keyboard) (hcommand : command ∈ backwardCommands ++ forwardCommands)
    (hitems : keyboard.itemCount ≠ 0) :
    (keyboard.dispatch command).1.selectedIndex.toNat = target keyboard.selectedIndex.toNat
      keyboard.itemCount.toNat keyboard.columns.toNat keyboard.visibleRows.toNat command := by
  rw [KeyboardState.dispatch_of_mem hcommand, if_neg hitems]
  exact (h.moved_spec hitems command).2

theorem WithinGrid.dispatch_backward (h : WithinGrid keyboard) (hcommand : command ∈ backwardCommands) :
    (keyboard.dispatch command).1.selectedIndex ≤ keyboard.selectedIndex := by
  have hmem : command ∈ backwardCommands ++ forwardCommands := List.mem_append_left _ hcommand
  by_cases hempty : keyboard.itemCount = 0
  · rw [KeyboardState.dispatch_of_mem hmem, if_pos hempty]
    exact UInt64.le_refl _
  · rw [UInt64.le_iff_toNat_le, h.toNat_dispatch hmem hempty]
    exact (target_bounds (h.selected_lt hempty)).1 hcommand

theorem WithinGrid.dispatch_forward (h : WithinGrid keyboard) (hcommand : command ∈ forwardCommands) :
    keyboard.selectedIndex ≤ (keyboard.dispatch command).1.selectedIndex := by
  have hmem : command ∈ backwardCommands ++ forwardCommands := List.mem_append_right _ hcommand
  by_cases hempty : keyboard.itemCount = 0
  · rw [KeyboardState.dispatch_of_mem hmem, if_pos hempty]
    exact UInt64.le_refl _
  · rw [UInt64.le_iff_toNat_le, h.toNat_dispatch hmem hempty]
    exact (target_bounds (h.selected_lt hempty)).2 hcommand

theorem dispatch_categoryChanged
    (h : (keyboard.dispatch command).2 = .categoryChanged ∨
      (keyboard.dispatch command).1.categoryIndex ≠ keyboard.categoryIndex) :
    (keyboard.dispatch command).1.selectedIndex = 0 := by
  obtain ⟨outcome, heq, -, hturned, -⟩ | ⟨-, -, -, heq⟩ | ⟨-, -, index, heq⟩ := keyboard.dispatch_cases command
  · rw [heq] at h
    exact h.elim (fun h => absurd h hturned) fun h => absurd rfl h
  · rw [heq] at h
    exact h.elim (fun h => nomatch h) fun h => absurd rfl h
  · rw [heq]

theorem dispatch_selected (h : (keyboard.dispatch command).2 = .selected) : keyboard.itemCount ≠ 0 := by
  obtain ⟨outcome, heq, -, -, hitems⟩ | ⟨-, hitems, -, -⟩ | ⟨-, -, index, heq⟩ := keyboard.dispatch_cases command
  · rw [heq] at h
    exact hitems h
  · exact hitems
  · rw [heq] at h
    exact nomatch h

/-- One category forward and one back, in either order. -/
theorem WithinGrid.dispatch_category (h : WithinGrid keyboard) :
    ((keyboard.dispatch .nextCategory).1.dispatch .previousCategory).1.categoryIndex = keyboard.categoryIndex ∧
      ((keyboard.dispatch .previousCategory).1.dispatch .nextCategory).1.categoryIndex = keyboard.categoryIndex := by
  by_cases hone : keyboard.categoryCount ≤ 1
  · simp only [KeyboardState.dispatch, KeyboardState.changeCategory, if_pos hone, and_self]
  · obtain ⟨hprevious, hnext⟩ := next_previous_mod h.category
    have hforward := (h.dispatch .nextCategory).2.toNat_previous
    have hback := (h.dispatch .previousCategory).2.toNat_next
    simp only [KeyboardState.dispatch, KeyboardState.changeCategory, if_neg hone] at hforward hback ⊢
    rw [h.toNat_next, hnext] at hforward
    rw [h.toNat_previous, hprevious] at hback
    exact ⟨UInt64.toNat_inj.mp hforward, UInt64.toNat_inj.mp hback⟩

/-- Navigation in every run of a window: the indices exist, no operation leaves the 64 bits, and the keys do what they are named for. -/
theorem navigation_run (h : Reached keyboard) :
    (keyboard.selectedIndex < keyboard.itemCount ∨ keyboard.itemCount = 0 ∧ keyboard.selectedIndex = 0) ∧
    keyboard.categoryIndex < keyboard.categoryCount ∧
    (∀ call : KeyboardCall, call.Small → call.checked keyboard = some (call.apply keyboard)) ∧
    (∀ command ∈ backwardCommands, (keyboard.dispatch command).1.selectedIndex ≤ keyboard.selectedIndex) ∧
    (∀ command ∈ forwardCommands, keyboard.selectedIndex ≤ (keyboard.dispatch command).1.selectedIndex) ∧
    (∀ command, (keyboard.dispatch command).2 = .changed ↔
      command ∈ backwardCommands ++ forwardCommands ∧
        (keyboard.dispatch command).1.selectedIndex ≠ keyboard.selectedIndex) ∧
    (∀ command ∈ backwardCommands ++ forwardCommands,
      (keyboard.dispatch command).1.categoryIndex = keyboard.categoryIndex ∧
        (keyboard.dispatch command).1.categoryCount = keyboard.categoryCount) ∧
    (∀ command, ((keyboard.dispatch command).2 = .categoryChanged ∨
        (keyboard.dispatch command).1.categoryIndex ≠ keyboard.categoryIndex) →
      (keyboard.dispatch command).1.selectedIndex = 0) ∧
    ((keyboard.dispatch .nextCategory).1.dispatch .previousCategory).1.categoryIndex = keyboard.categoryIndex ∧
    ((keyboard.dispatch .previousCategory).1.dispatch .nextCategory).1.categoryIndex = keyboard.categoryIndex ∧
    (∀ command, (keyboard.dispatch command).2 = .selected → keyboard.itemCount ≠ 0) := by
  have hinv := h.withinGrid
  have hselected : keyboard.selectedIndex < keyboard.itemCount ∨
      keyboard.itemCount = 0 ∧ keyboard.selectedIndex = 0 := by
    refine hinv.selected.imp UInt64.lt_iff_toNat_lt.mpr fun hempty => ?_
    exact ⟨UInt64.toNat_inj.mp hempty.1, UInt64.toNat_inj.mp hempty.2⟩
  exact ⟨hselected, UInt64.lt_iff_toNat_lt.mpr hinv.category, fun _ hsmall => (hinv.apply hsmall).1,
    fun _ => hinv.dispatch_backward, fun _ => hinv.dispatch_forward, fun _ => dispatch_changed_iff,
    fun _ => dispatch_categoryIndex, fun _ => dispatch_categoryChanged, hinv.dispatch_category.1,
    hinv.dispatch_category.2, fun _ => dispatch_selected⟩

/-- The last of 23 cells is selected, and then there are four. -/
theorem navigation_run_shrunk :
    let keyboard := (((KeyboardState.initial.setGrid 23 5 3).dispatch .end).1).setGrid 4 5 3
    keyboard.selectedIndex = 3 ∧ keyboard.selectedIndex < keyboard.itemCount := by
  have hgrid := reached_initial.apply (.setGrid 23 5 3) ⟨by decide, by decide, by decide⟩
  have hend := hgrid.apply (.dispatch .end) trivial
  have hshrunk := hend.apply (.setGrid 4 5 3) ⟨by decide, by decide, by decide⟩
  exact ⟨by decide, (navigation_run hshrunk).1.resolve_right fun hempty => absurd hempty.1 (by decide)⟩

end KeyboardState

end EmojiPalette
