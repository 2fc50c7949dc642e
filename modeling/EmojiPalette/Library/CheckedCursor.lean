import EmojiPalette.Library.Cursor

/-!
# Reading with every access checked

The reads of a cursor once more, byte by byte through their index. An access outside the bytes is a fault here, and so is the count of what remains from a place past the end. `Safe` says that a checked reading meets no fault from a place inside the bytes, that it does what the plain one does, and that the place it stops at is inside again and no earlier. The rules put such readings together, whatever their steps yield.
-/

namespace Cursor

variable {ε α β : Type}

inductive Fault
  | underflow
  | outside
  deriving DecidableEq

/-- Steps of a reading that a fault stops. -/
abbrev Checked (ε : Type) := StateT (Cursor ε) (Except Fault)

namespace Checked

/-- How much is left, which has no answer past the end. -/
def remaining : Checked ε Nat := fun cursor =>
  if cursor.position ≤ cursor.bytes.length then .ok (cursor.bytes.length - cursor.position, cursor)
  else .error .underflow

def byteAt (index : Nat) : Checked ε UInt8 := fun cursor =>
  match cursor.bytes[index]? with
  | some byte => .ok (byte, cursor)
  | none => .error .outside

/-- The bytes from an index on. -/
def copy (first n : Nat) : Checked ε (List UInt8) :=
  match n with
  | 0 => return []
  | n + 1 => do
      let byte ← byteAt first
      let rest ← copy (first + 1) n
      return byte :: rest

def take (n : Nat) : Checked ε (Option (List UInt8)) := do
  if (← remaining) < n then return none
  else
    let cursor ← get
    let bytes ← copy cursor.position n
    set (cursor.advance n)
    return some bytes

/-- The bytes from an index on, shifted one after another into a number of the given width. -/
def shiftIn (width result first n : Nat) : Checked ε Nat :=
  match n with
  | 0 => return result
  | n + 1 => do
      let byte ← byteAt first
      shiftIn width ((result <<< 8 ||| byte.toNat) % 256 ^ width) (first + 1) n

def integer (α : Type) [Integer α] : Checked ε (Option α) := do
  if (← remaining) < Integer.size α then return none
  else
    let cursor ← get
    let result ← shiftIn (Integer.size α) 0 cursor.position (Integer.size α)
    set (cursor.advance (Integer.size α))
    return some (Integer.ofUnsigned result)

def fail (error : ε) : Checked ε (Option α) := fun cursor => .ok (none, { cursor with error := error })

end Checked

/-! ### Going on inside the bytes -/

/-- The same bytes, and a place inside them that is no earlier. -/
structure Onward (start next : Cursor ε) : Prop where
  bytes : next.bytes = start.bytes
  forward : start.position ≤ next.position
  inside : next.position ≤ start.bytes.length

theorem Onward.refl {cursor : Cursor ε} (h : cursor.position ≤ cursor.bytes.length) : Onward cursor cursor :=
  ⟨rfl, le_rfl, h⟩

theorem Onward.inside_next {start next : Cursor ε} (h : Onward start next) : next.position ≤ next.bytes.length := by
  rw [h.bytes]
  exact h.inside

theorem Onward.trans {start middle next : Cursor ε} (h : Onward start middle) (h' : Onward middle next) :
    Onward start next :=
  ⟨h'.bytes.trans h.bytes, h.forward.trans h'.forward, h.bytes ▸ h'.inside⟩

/-- From a place inside the bytes, the checked reading does what the plain one does, and that one goes on inside them. -/
def Safe (checked : Checked ε α) (read : Reader ε α) : Prop :=
  ∀ start : Cursor ε, start.position ≤ start.bytes.length →
    checked start = .ok (read start) ∧ Onward start (read start).2

theorem safe_pure (value : α) : Safe (pure value : Checked ε α) (pure value) := fun _ h => ⟨rfl, .refl h⟩

theorem safe_fail (error : ε) : Safe (Checked.fail error : Checked ε (Option α)) (fail error) :=
  fun _ h => ⟨rfl, rfl, le_rfl, h⟩

/-- After a step without a fault the reading goes on with what the step yields. -/
theorem Checked.bind_of_ok {first : Checked ε α} {next : α → Checked ε β} {start : Cursor ε} {step : α × Cursor ε}
    (h : first start = .ok step) : (first >>= next) start = next step.1 step.2 := by
  change (first start >>= fun step => next step.1 step.2) = _
  rw [h]
  rfl

theorem Checked.get_bind (next : Cursor ε → Checked ε β) (start : Cursor ε) :
    (get >>= next) start = next start start := rfl

theorem Safe.bind {checked : Checked ε α} {read : Reader ε α} {checkedNext : α → Checked ε β} {next : α → Reader ε β}
    (hfirst : Safe checked read) (hnext : ∀ value, Safe (checkedNext value) (next value)) :
    Safe (checked >>= checkedNext) (read >>= next) := by
  intro start hstart
  obtain ⟨hrun, honward⟩ := hfirst start hstart
  obtain ⟨hrest, honwardRest⟩ := hnext (read start).1 (read start).2 honward.inside_next
  rw [Checked.bind_of_ok hrun, Cursor.bind_apply]
  exact ⟨hrest, honward.trans honwardRest⟩

/-! ### The reads -/

theorem Checked.remaining_apply {cursor : Cursor ε} (h : cursor.position ≤ cursor.bytes.length) :
    Checked.remaining cursor = .ok (cursor.remaining, cursor) :=
  if_pos h

theorem Checked.byteAt_apply {cursor : Cursor ε} {index : Nat} {byte : UInt8} {rest : List UInt8}
    (h : cursor.bytes.drop index = byte :: rest) :
    Checked.byteAt index cursor = .ok (byte, cursor) ∧ cursor.bytes.drop (index + 1) = rest := by
  have hbyte : cursor.bytes[index]? = some byte := by rw [← List.head?_drop, h, List.head?_cons]
  rw [Checked.byteAt, hbyte, ← List.drop_drop, h]
  exact ⟨rfl, rfl⟩

theorem Checked.copy_apply (cursor : Cursor ε) (first n : Nat) (h : n ≤ (cursor.bytes.drop first).length) :
    Checked.copy first n cursor = .ok ((cursor.bytes.drop first).take n, cursor) := by
  induction n generalizing first with
  | zero => rfl
  | succ n ih =>
      cases hdrop : cursor.bytes.drop first with
      | nil =>
          rw [hdrop] at h
          cases h
      | cons byte rest =>
          obtain ⟨hbyte, hrest⟩ := Checked.byteAt_apply hdrop
          rw [hdrop, List.length_cons] at h
          rw [Checked.copy, Checked.bind_of_ok hbyte, Checked.bind_of_ok (ih (first + 1) (by rw [hrest]; omega)), hrest]
          rfl

/-- Shifting bytes into a number that is cut to a width is decoding them onto it, cut once. -/
theorem Checked.shiftIn_apply (cursor : Cursor ε) (width result first n : Nat)
    (h : n ≤ (cursor.bytes.drop first).length) :
    Checked.shiftIn width (result % 256 ^ width) first n cursor
      = .ok ((result * 256 ^ n + BigEndian.decode ((cursor.bytes.drop first).take n)) % 256 ^ width, cursor) := by
  induction n generalizing first result with
  | zero => rw [List.take_zero, pow_zero, Nat.mul_one]; rfl
  | succ n ih =>
      cases hdrop : cursor.bytes.drop first with
      | nil =>
          rw [hdrop] at h
          cases h
      | cons byte rest =>
          obtain ⟨hbyte, hrest⟩ := Checked.byteAt_apply hdrop
          rw [hdrop, List.length_cons] at h
          have htaken : (rest.take n).length = n := List.length_take_of_le (by omega)
          have hcut : (result % 256 ^ width * 256 + byte.toNat) % 256 ^ width
              = (result * 256 + byte.toNat) % 256 ^ width := by
            rw [Nat.add_mod, Nat.mod_mul_mod, ← Nat.add_mod]
          rw [Checked.shiftIn, Checked.bind_of_ok hbyte, BigEndian.push_byte, hcut,
            ih _ (first + 1) (by rw [hrest]; omega), hrest, List.take_succ_cons, BigEndian.decode_cons, htaken]
          congr 3
          ring

/-- A read of a fixed width takes its bytes, or it fails and leaves the cursor where it is. -/
theorem take_cases (n : Nat) (cursor : Cursor ε) :
    (cursor.remaining < n ∧ take n cursor = (none, cursor)) ∨
      (n ≤ cursor.remaining ∧ take n cursor = (some (cursor.unread.take n), cursor.advance n)) := by
  rw [take]
  split
  · exact .inl ⟨‹_›, rfl⟩
  · exact .inr ⟨by omega, rfl⟩

theorem integer_cases (α : Type) [Integer α] (cursor : Cursor ε) :
    (cursor.remaining < Integer.size α ∧ integer α cursor = (none, cursor)) ∨
      (Integer.size α ≤ cursor.remaining ∧
        integer α cursor = (some (Integer.ofUnsigned (BigEndian.decode (cursor.unread.take (Integer.size α)))),
          cursor.advance (Integer.size α))) := by
  rw [integer, bind_apply]
  obtain ⟨hshort, htake⟩ | ⟨henough, htake⟩ := take_cases (Integer.size α) cursor
  · exact .inl ⟨hshort, by rw [htake]; rfl⟩
  · exact .inr ⟨henough, by rw [htake]; rfl⟩

theorem onward_advance {cursor : Cursor ε} {n : Nat} (hinside : cursor.position ≤ cursor.bytes.length)
    (h : n ≤ cursor.remaining) : Onward cursor (cursor.advance n) := by
  rw [Cursor.remaining] at h
  exact ⟨rfl, Nat.le_add_right _ _, by rw [advance]; dsimp only; omega⟩

theorem safe_take (n : Nat) : Safe (Checked.take n : Checked ε (Option (List UInt8))) (take n) := by
  intro start hstart
  rw [Checked.take, Checked.bind_of_ok (Checked.remaining_apply hstart)]
  obtain ⟨hshort, htake⟩ | ⟨henough, htake⟩ := take_cases n start
  · rw [htake, if_pos hshort]
    exact ⟨rfl, .refl hstart⟩
  · have hcopy := Checked.copy_apply start start.position n
      (by rw [← Cursor.unread, length_unread]; exact henough)
    rw [htake, if_neg (by dsimp only; omega), Checked.get_bind, Checked.bind_of_ok hcopy]
    exact ⟨rfl, onward_advance hstart henough⟩

theorem safe_integer (α : Type) [Integer α] : Safe (Checked.integer α : Checked ε (Option α)) (integer α) := by
  intro start hstart
  rw [Checked.integer, Checked.bind_of_ok (Checked.remaining_apply hstart)]
  obtain ⟨hshort, hread⟩ | ⟨henough, hread⟩ := integer_cases α start
  · rw [hread, if_pos hshort]
    exact ⟨rfl, .refl hstart⟩
  · have hlength : (start.unread.take (Integer.size α)).length = Integer.size α :=
      List.length_take_of_le (by rw [length_unread]; exact henough)
    have hrange := BigEndian.decode_lt (start.unread.take (Integer.size α))
    rw [hlength] at hrange
    have hshift := Checked.shiftIn_apply start (Integer.size α) 0 start.position (Integer.size α)
      (by rw [← Cursor.unread, length_unread]; exact henough)
    rw [Nat.zero_mod, Nat.zero_mul, Nat.zero_add, ← Cursor.unread, Nat.mod_eq_of_lt hrange] at hshift
    rw [hread, if_neg (by dsimp only; omega), Checked.get_bind, Checked.bind_of_ok hshift]
    exact ⟨rfl, onward_advance hstart henough⟩

end Cursor
