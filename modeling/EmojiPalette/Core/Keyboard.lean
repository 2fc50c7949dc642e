import Mathlib.Data.UInt
import Mathlib.Order.Lattice

/-!
# Navigation in the grid

The selected cell and the category, moved by logical keys. Sizes and indices are the 64-bit `size_t` of the source.
-/

namespace EmojiPalette

inductive NavigationCommand
  | left
  | right
  | up
  | down
  | home
  | end
  | pageUp
  | pageDown
  | previousCategory
  | nextCategory
  | select
  | cancel
  deriving DecidableEq

inductive NavigationOutcome
  | unchanged
  | changed
  | categoryChanged
  | selected
  | cancelled
  deriving DecidableEq

structure KeyboardState where
  itemCount : UInt64
  columns : UInt64
  visibleRows : UInt64
  selectedIndex : UInt64
  categoryIndex : UInt64
  categoryCount : UInt64
  deriving DecidableEq

namespace KeyboardState

def initial : KeyboardState := ⟨0, 1, 1, 0, 0, 1⟩

def setGrid (itemCount columns visibleRows : UInt64) (keyboard : KeyboardState) : KeyboardState :=
  { keyboard with
    itemCount := itemCount
    columns := max 1 columns
    visibleRows := max 1 visibleRows
    selectedIndex := if itemCount = 0 then 0 else min keyboard.selectedIndex (itemCount - 1) }

def setCategory (index count : UInt64) (keyboard : KeyboardState) : KeyboardState :=
  { keyboard with
    categoryCount := max 1 count
    categoryIndex := min index (max 1 count - 1) }

/-- Where a key that moves in the grid moves the selection. -/
def moved (keyboard : KeyboardState) : NavigationCommand → UInt64
  | .left => if keyboard.selectedIndex > 0 then keyboard.selectedIndex - 1 else keyboard.selectedIndex
  | .right => min (keyboard.selectedIndex + 1) (keyboard.itemCount - 1)
  | .up =>
      if keyboard.selectedIndex ≥ keyboard.columns then keyboard.selectedIndex - keyboard.columns
      else keyboard.selectedIndex
  | .down => min (keyboard.selectedIndex + keyboard.columns) (keyboard.itemCount - 1)
  | .home => 0
  | .end => keyboard.itemCount - 1
  | .pageUp =>
      let step := keyboard.columns * keyboard.visibleRows
      if keyboard.selectedIndex > step then keyboard.selectedIndex - step else 0
  | .pageDown => min (keyboard.selectedIndex + keyboard.columns * keyboard.visibleRows) (keyboard.itemCount - 1)
  | _ => keyboard.selectedIndex

def changeCategory (categoryIndex : UInt64) (keyboard : KeyboardState) : KeyboardState × NavigationOutcome :=
  if keyboard.categoryCount ≤ 1 then (keyboard, .unchanged)
  else ({ keyboard with categoryIndex := categoryIndex % keyboard.categoryCount, selectedIndex := 0 }, .categoryChanged)

def dispatch (command : NavigationCommand) (keyboard : KeyboardState) : KeyboardState × NavigationOutcome :=
  match command with
  | .select => (keyboard, if keyboard.itemCount = 0 then .unchanged else .selected)
  | .cancel => (keyboard, .cancelled)
  | .previousCategory => keyboard.changeCategory (keyboard.categoryIndex + keyboard.categoryCount - 1)
  | .nextCategory => keyboard.changeCategory (keyboard.categoryIndex + 1)
  | command =>
      if keyboard.itemCount = 0 then (keyboard, .unchanged)
      else
        let selectedIndex := keyboard.moved command
        ({ keyboard with selectedIndex := selectedIndex },
          if selectedIndex = keyboard.selectedIndex then .unchanged else .changed)

end KeyboardState

end EmojiPalette
