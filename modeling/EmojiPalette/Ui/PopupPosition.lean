import EmojiPalette.Core.Geometry
import EmojiPalette.Ipc.Layout
import Mathlib.Algebra.Order.Group.Abs
import Mathlib.Algebra.Order.Group.Int

/-!
# Where the popup stands

The rectangle of the caret comes from another process and need not lie on the screen the popup is shown on. The side of the caret is chosen before the popup is pushed onto the screen, and pushing it there never brings it over the caret it was put beside.
-/

namespace EmojiPalette

open Ipc MachineInt

structure Inside (position : Point) (popup : Size) (area : Rect) : Prop where
  left : area.x.toInt ≤ position.x.toInt
  right : position.x.toInt + popup.width.toInt ≤ area.x.toInt + area.width.toInt
  top : area.y.toInt ≤ position.y.toInt
  bottom : position.y.toInt + popup.height.toInt ≤ area.y.toInt + area.height.toInt

def FitsBelow (caret : Rect) (popup : Size) (area : Rect) : Prop :=
  ∃ top : ℤ, area.y.toInt ≤ top ∧ top + popup.height.toInt ≤ area.y.toInt + area.height.toInt ∧
    caret.y.toInt + caret.height.toInt ≤ top

def FitsAbove (caret : Rect) (popup : Size) (area : Rect) : Prop :=
  ∃ top : ℤ, area.y.toInt ≤ top ∧ top + popup.height.toInt ≤ area.y.toInt + area.height.toInt ∧
    top + popup.height.toInt ≤ caret.y.toInt

variable {caret available : Rect} {popup : Size}

theorem moderate_of_inBounds {rect : Rect} (h : InBounds rect) : rect.Moderate := by
  obtain ⟨hx, hy, hwidth, hheight⟩ := h
  exact ⟨⟨by omega, by omega⟩, ⟨by omega, by omega⟩, ⟨by omega, by omega⟩, ⟨by omega, by omega⟩⟩

/-- There is a place below exactly when there is one directly under the caret or the caret is above the area. -/
theorem fitsBelow_iff (hpopup : popup.Within available) :
    FitsBelow caret popup available ↔
      caret.y.toInt + caret.height.toInt + popup.height.toInt ≤ available.y.toInt + available.height.toInt := by
  have hheight := hpopup.height
  constructor
  · rintro ⟨top, -, hbottom, hbelow⟩
    omega
  · intro h
    exact ⟨max available.y.toInt (caret.y.toInt + caret.height.toInt), by omega, by omega, by omega⟩

theorem fitsAbove_iff (hpopup : popup.Within available) :
    FitsAbove caret popup available ↔ available.y.toInt ≤ caret.y.toInt - popup.height.toInt := by
  have hheight := hpopup.height
  constructor
  · rintro ⟨top, htop, -, habove⟩
    omega
  · intro h
    exact ⟨min (available.y.toInt + available.height.toInt - popup.height.toInt)
      (caret.y.toInt - popup.height.toInt), by omega, by omega, by omega⟩

/-- The popup comes to stand inside the area, as near to the caret from left to right as it can, and below the caret or else above it if there is a place. -/
theorem placePopup_inside (hcaret : InBounds caret) (havailable : InBounds available)
    (hpopup : popup.Within available) :
    ∃ placement, placePopup caret popup available = some placement ∧
      Inside placement.position popup available ∧
      (∀ x : ℤ, available.x.toInt ≤ x → x + popup.width.toInt ≤ available.x.toInt + available.width.toInt →
        x ≠ placement.position.x.toInt →
        |placement.position.x.toInt - caret.x.toInt| < |x - caret.x.toInt|) ∧
      (FitsBelow caret popup available →
        placement.belowCaret = true ∧ caret.y.toInt + caret.height.toInt ≤ placement.position.y.toInt) ∧
      (¬ FitsBelow caret popup available → FitsAbove caret popup available →
        placement.belowCaret = false ∧ placement.position.y.toInt + popup.height.toInt ≤ caret.y.toInt) := by
  obtain ⟨placement, hplaced, hx, hside, hy⟩ :=
    exists_placePopup (moderate_of_inBounds hcaret) (moderate_of_inBounds havailable) hpopup
  have hwidth := hpopup.width
  have hheight := hpopup.height
  have hcaretHeight := hcaret.height
  rw [fitsBelow_iff hpopup, fitsAbove_iff hpopup]
  refine ⟨placement, hplaced, ⟨by omega, by omega, by omega, by omega⟩, ?_, ?_, ?_⟩
  · intro x hleft hright hne
    -- The position is the caret's where that is possible, else the end of the interval on the caret's side.
    obtain ⟨hnear, hnearSide⟩ | ⟨hnear, hnearSide⟩ := abs_cases (placement.position.x.toInt - caret.x.toInt) <;>
      obtain ⟨hfar, hfarSide⟩ | ⟨hfar, hfarSide⟩ := abs_cases (x - caret.x.toInt) <;> omega
  · intro hbelow
    have htrue := hside.mpr (by omega)
    rw [if_pos htrue] at hy
    exact ⟨htrue, by omega⟩
  · intro hbelow habove
    have hfalse : placement.belowCaret = false := by
      rw [Bool.eq_false_iff, Ne, hside]
      omega
    rw [if_neg (Bool.eq_false_iff.mp hfalse)] at hy
    exact ⟨hfalse, by omega⟩

/-- On a monitor left of the first one, a caret near its lower right corner: the popup goes above and to the left of its place. -/
theorem placePopup_inside_corner :
    ∃ placement, placePopup ⟨-100, 1000, 2, 20⟩ ⟨500, 400⟩ ⟨-1920, 0, 1920, 1080⟩ = some placement ∧
      placement = ⟨⟨-500, 600⟩, false⟩ ∧
      Inside placement.position ⟨500, 400⟩ ⟨-1920, 0, 1920, 1080⟩ := by
  have hcaret : InBounds ⟨-100, 1000, 2, 20⟩ := ⟨by decide, by decide, by decide, by decide⟩
  have havailable : InBounds ⟨-1920, 0, 1920, 1080⟩ := ⟨by decide, by decide, by decide, by decide⟩
  have hpopup : Size.Within ⟨500, 400⟩ ⟨-1920, 0, 1920, 1080⟩ := ⟨by decide, by decide⟩
  obtain ⟨placement, hplaced, hinside, -⟩ := placePopup_inside hcaret havailable hpopup
  exact ⟨placement, hplaced, Option.some.inj (hplaced.symm.trans (by decide)), hinside⟩

/-! ### The place of a request -/

/-- Whether the message says where the caret is. -/
def hasCaret (caret : Rect) : Bool := caret.x != 0 || caret.y != 0 || caret.width > 0 || caret.height > 0

/-- The size the popup is given on a screen, and its place: without a caret, at the top and in the middle. -/
def positionFor (requested : Rect) (window : Size) (available : Rect) : Option (Size × PopupPlacement) := do
  let popup : Size := ⟨min window.width available.width, min window.height available.height⟩
  let caret ←
    if hasCaret requested then some requested
    else do
      let free ← int32.sub available.width popup.width
      let x ← int32.add available.x (free / 2)
      let y ← int32.add available.y 24
      some ⟨x, y, 0, 0⟩
  let placement ← placePopup caret popup available
  some (popup, placement)

theorem exists_inside (hcaret : caret.Moderate) (havailable : available.Moderate) (hpopup : popup.Within available) :
    ∃ placement, placePopup caret popup available = some placement ∧ Inside placement.position popup available := by
  obtain ⟨placement, hplaced, hx, -, hy⟩ := exists_placePopup hcaret havailable hpopup
  have hwidth := hpopup.width
  have hheight := hpopup.height
  exact ⟨placement, hplaced, by omega, by omega, by omega, by omega⟩

theorem half_bounds {free : Int32} (h : 0 ≤ free.toInt) :
    0 ≤ (free / 2).toInt ∧ (free / 2).toInt ≤ free.toInt := by
  rw [Int32.toInt_div_of_ne_right free 2 (by decide)]
  exact ⟨Int.tdiv_nonneg h (by decide), Int.tdiv_le_self _ h⟩

/-- Whatever caret a message names, the popup lies on the screen. -/
theorem exists_positionFor {requested : Rect} {window : Size} (hrequested : InBounds requested)
    (havailable : InBounds available) (hwidth : 0 ≤ window.width.toInt) (hheight : 0 ≤ window.height.toInt) :
    ∃ popup placement, positionFor requested window available = some (popup, placement) ∧
      popup.Within available ∧ Inside placement.position popup available := by
  have hareaWidth := havailable.width
  have hareaHeight := havailable.height
  have hareaX := havailable.x
  have hareaY := havailable.y
  have hminWidth := toInt_min window.width available.width
  have hminHeight := toInt_min window.height available.height
  have hpopup : Size.Within ⟨min window.width available.width, min window.height available.height⟩ available :=
    ⟨⟨by dsimp only; omega, by dsimp only; omega⟩, ⟨by dsimp only; omega, by dsimp only; omega⟩⟩
  by_cases hcaret : hasCaret requested = true
  · obtain ⟨placement, hplaced, hinside⟩ :=
      exists_inside (moderate_of_inBounds hrequested) (moderate_of_inBounds havailable) hpopup
    refine ⟨_, placement, ?_, hpopup, hinside⟩
    simp only [positionFor, if_pos hcaret, Option.bind_eq_bind, Option.bind_some, hplaced]
  · obtain ⟨free, hfree, hfreeInt⟩ := int32_sub
      (show -2147483648 ≤ available.width.toInt - (min window.width available.width).toInt by omega) (by omega)
    have hhalf := half_bounds (show 0 ≤ free.toInt by omega)
    obtain ⟨x, hx, hxInt⟩ := int32_add (show -2147483648 ≤ available.x.toInt + (free / 2).toInt by omega) (by omega)
    have hgap : (24 : Int32).toInt = 24 := by decide
    obtain ⟨y, hy, hyInt⟩ := int32_add (show -2147483648 ≤ available.y.toInt + (24 : Int32).toInt by omega) (by omega)
    have hzero : Moderate 0 := ⟨by decide, by decide⟩
    have hmoderate : Rect.Moderate ⟨x, y, 0, 0⟩ :=
      ⟨⟨by dsimp only; omega, by dsimp only; omega⟩, ⟨by dsimp only; omega, by dsimp only; omega⟩, hzero, hzero⟩
    obtain ⟨placement, hplaced, hinside⟩ := exists_inside hmoderate (moderate_of_inBounds havailable) hpopup
    refine ⟨_, placement, ?_, hpopup, hinside⟩
    simp only [positionFor, if_neg hcaret, Option.bind_eq_bind, Option.bind_some, hfree, hx, hy, hplaced]

end EmojiPalette
