import EmojiPalette.Library.MachineInt

/-!
# Rectangles and the place of the popup

Positions and sizes are the 32-bit `int` of the source. A sum of such numbers that leaves the 32 bits has no meaning there, and neither has `std::clamp` with its bounds the wrong way round, so the placement is computed with checked operations: where it has a result, none of that has happened.
-/

namespace EmojiPalette

open MachineInt

@[ext]
structure Rect where
  x : Int32
  y : Int32
  width : Int32
  height : Int32
  deriving DecidableEq

structure Point where
  x : Int32
  y : Int32
  deriving DecidableEq

structure Size where
  width : Int32
  height : Int32
  deriving DecidableEq

structure PopupPlacement where
  position : Point
  belowCaret : Bool
  deriving DecidableEq

/-- `std::clamp`. -/
def clamp (value low high : Int32) : Option Int32 :=
  if high < low then none
  else some (if value < low then low else if high < value then high else value)

def placePopup (caret : Rect) (popup : Size) (available : Rect) : Option PopupPlacement := do
  let maximumX ← int32.add available.x (max 0 (← int32.sub available.width popup.width))
  let maximumY ← int32.add available.y (max 0 (← int32.sub available.height popup.height))
  let x ← clamp caret.x available.x maximumX
  let below ← int32.add caret.y (max 0 caret.height)
  let above ← int32.sub caret.y popup.height
  let fitsBelow := decide ((← int32.add below popup.height) ≤ (← int32.add available.y available.height))
  let fitsAbove := decide (above ≥ available.y)
  let belowCaret := fitsBelow || !fitsAbove
  let y ← clamp (if belowCaret then below else above) available.y maximumY
  some ⟨⟨x, y⟩, belowCaret⟩

/-! ### Results that fit -/

variable {caret available : Rect} {popup : Size} {low high : Int32}

theorem exists_clamp (value : Int32) (h : low.toInt ≤ high.toInt) :
    ∃ result, clamp value low high = some result ∧ result.toInt = max low.toInt (min value.toInt high.toInt) := by
  have hordered : ¬ high < low := by
    rw [Int32.lt_iff_toInt_lt]
    omega
  refine ⟨_, if_neg hordered, ?_⟩
  by_cases hlow : value < low
  · rw [if_pos hlow]
    rw [Int32.lt_iff_toInt_lt] at hlow
    omega
  · rw [if_neg hlow]
    rw [Int32.lt_iff_toInt_lt] at hlow
    by_cases hhigh : high < value
    · rw [if_pos hhigh]
      rw [Int32.lt_iff_toInt_lt] at hhigh
      omega
    · rw [if_neg hhigh]
      rw [Int32.lt_iff_toInt_lt] at hhigh
      omega

/-- A number so small that a sum of four of them is in 32 bits. -/
def Moderate (value : Int32) : Prop := -536870912 ≤ value.toInt ∧ value.toInt ≤ 536870911

structure Rect.Moderate (rect : Rect) : Prop where
  x : EmojiPalette.Moderate rect.x
  y : EmojiPalette.Moderate rect.y
  width : EmojiPalette.Moderate rect.width
  height : EmojiPalette.Moderate rect.height

/-- A size not below zero and no larger than the rectangle's. -/
structure Size.Within (size : Size) (rect : Rect) : Prop where
  width : 0 ≤ size.width.toInt ∧ size.width.toInt ≤ rect.width.toInt
  height : 0 ≤ size.height.toInt ∧ size.height.toInt ≤ rect.height.toInt

/-- Along one axis the largest coordinate is where the popup still ends in the rectangle. -/
theorem exists_maximum {origin extent length : Int32} (horigin : Moderate origin) (hextent : Moderate extent)
    (hlength : 0 ≤ length.toInt ∧ length.toInt ≤ extent.toInt) :
    ∃ rest maximum, int32.sub extent length = some rest ∧ int32.add origin (max 0 rest) = some maximum ∧
      maximum.toInt = origin.toInt + (extent.toInt - length.toInt) := by
  obtain ⟨horiginLow, horiginHigh⟩ := horigin
  obtain ⟨-, hextentHigh⟩ := hextent
  obtain ⟨rest, hrest, hrestInt⟩ := int32_sub (show -2147483648 ≤ extent.toInt - length.toInt by omega) (by omega)
  have hmax : (max 0 rest).toInt = extent.toInt - length.toInt := by
    rw [toInt_max]
    change max 0 _ = _
    omega
  obtain ⟨maximum, hmaximum, hmaximumInt⟩ := int32_add
    (show -2147483648 ≤ origin.toInt + (max 0 rest).toInt by omega) (by omega)
  exact ⟨rest, maximum, hrest, hmaximum, by omega⟩

/-- With moderate numbers the placement is the one over the integers. -/
theorem exists_placePopup (hcaret : caret.Moderate) (havailable : available.Moderate) (hpopup : popup.Within available) :
    ∃ placement, placePopup caret popup available = some placement ∧
      placement.position.x.toInt = max available.x.toInt
        (min caret.x.toInt (available.x.toInt + (available.width.toInt - popup.width.toInt))) ∧
      (placement.belowCaret = true ↔
        caret.y.toInt + max 0 caret.height.toInt + popup.height.toInt ≤
            available.y.toInt + available.height.toInt ∨
          caret.y.toInt - popup.height.toInt < available.y.toInt) ∧
      placement.position.y.toInt = max available.y.toInt
        (min (if placement.belowCaret then caret.y.toInt + max 0 caret.height.toInt
            else caret.y.toInt - popup.height.toInt)
          (available.y.toInt + (available.height.toInt - popup.height.toInt))) := by
  obtain ⟨restX, maximumX, hrestX, hmaximumX, hmaximumXInt⟩ :=
    exists_maximum havailable.x havailable.width hpopup.width
  obtain ⟨restY, maximumY, hrestY, hmaximumY, hmaximumYInt⟩ :=
    exists_maximum havailable.y havailable.height hpopup.height
  have hheight := hpopup.height
  have hwidth := hpopup.width
  obtain ⟨hyLow, hyHigh⟩ := hcaret.y
  obtain ⟨hheightLow, hheightHigh⟩ := hcaret.height
  obtain ⟨hareaLow, hareaHigh⟩ := havailable.y
  obtain ⟨-, hareaHeight⟩ := havailable.height
  have hcaretHeight : (max 0 caret.height).toInt = max 0 caret.height.toInt := toInt_max 0 caret.height
  obtain ⟨x, hx, hxInt⟩ := exists_clamp caret.x
    (show available.x.toInt ≤ maximumX.toInt by omega)
  obtain ⟨below, hbelow, hbelowInt⟩ := int32_add
    (show -2147483648 ≤ caret.y.toInt + (max 0 caret.height).toInt by omega) (by omega)
  obtain ⟨above, habove, haboveInt⟩ := int32_sub
    (show -2147483648 ≤ caret.y.toInt - popup.height.toInt by omega) (by omega)
  obtain ⟨foot, hfoot, hfootInt⟩ := int32_add
    (show -2147483648 ≤ below.toInt + popup.height.toInt by omega) (by omega)
  obtain ⟨bottom, hbottom, hbottomInt⟩ := int32_add
    (show -2147483648 ≤ available.y.toInt + available.height.toInt by omega) (by omega)
  obtain ⟨y, hy, hyInt⟩ := exists_clamp
    (if decide (foot ≤ bottom) || !decide (above ≥ available.y) then below else above)
    (show available.y.toInt ≤ maximumY.toInt by omega)
  refine ⟨⟨⟨x, y⟩, decide (foot ≤ bottom) || !decide (above ≥ available.y)⟩, ?_, ?_, ?_, ?_⟩
  · simp only [placePopup, hrestX, hmaximumX, hrestY, hmaximumY, hx, hbelow, habove, hfoot, hbottom, hy,
      Option.bind_eq_bind, Option.bind_some]
  · rw [hxInt, hmaximumXInt]
  · simp only [Bool.or_eq_true, Bool.not_eq_true', decide_eq_true_eq, decide_eq_false_iff_not, ge_iff_le,
      Int32.le_iff_toInt_le]
    omega
  · dsimp only
    rw [hyInt, hmaximumYInt, apply_ite Int32.toInt, hbelowInt, haboveInt, hcaretHeight]

end EmojiPalette
