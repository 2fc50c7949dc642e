import Mathlib.Algebra.Order.Ring.Nat
import Mathlib.Tactic.Ring

/-!
# Fixed-width big-endian integers

The bytes of a natural number, most significant first, at a given width, and the number a list of bytes denotes. Each undoes the other within the width.
-/

namespace BigEndian

/-- The low `width` bytes of the value, most significant first. -/
def encode : Nat → Nat → List UInt8
  | 0, _ => []
  | width + 1, value => UInt8.ofNat (value >>> (8 * width)) :: encode width value

/-- The number the bytes denote. -/
def decode (bytes : List UInt8) : Nat := bytes.foldl (fun result byte => result <<< 8 ||| byte.toNat) 0

@[simp] theorem length_encode (width value : Nat) : (encode width value).length = width := by
  induction width with
  | zero => rfl
  | succ width ih => simp [encode, ih]

theorem push_byte (result : Nat) (byte : UInt8) :
    result <<< 8 ||| byte.toNat = result * 256 + byte.toNat := by
  have hbyte : byte.toNat < 2 ^ 8 := byte.toNat_lt
  rw [← Nat.shiftLeft_add_eq_or_of_lt hbyte, Nat.shiftLeft_eq]

/-- Folding the bytes onto a number already read shifts it up by their width. -/
private theorem foldl_eq (bytes : List UInt8) (start : Nat) :
    bytes.foldl (fun result byte => result <<< 8 ||| byte.toNat) start
      = start * 256 ^ bytes.length + decode bytes := by
  induction bytes generalizing start with
  | nil => simp [decode]
  | cons byte rest ih =>
      have hrest := ih (0 <<< 8 ||| byte.toNat)
      simp only [decode, List.foldl_cons, List.length_cons]
      rw [ih, hrest, push_byte, push_byte]
      ring

theorem decode_cons (byte : UInt8) (rest : List UInt8) :
    decode (byte :: rest) = byte.toNat * 256 ^ rest.length + decode rest := by
  rw [decode, List.foldl_cons, foldl_eq, push_byte]
  simp

theorem decode_lt (bytes : List UInt8) : decode bytes < 256 ^ bytes.length := by
  induction bytes with
  | nil => simp [decode]
  | cons byte rest ih =>
      have hbyte : byte.toNat < 256 := byte.toNat_lt
      have hscaled : (byte.toNat + 1) * 256 ^ rest.length ≤ 256 * 256 ^ rest.length :=
        Nat.mul_le_mul_right _ hbyte
      rw [decode_cons, List.length_cons, pow_succ, Nat.mul_comm (256 ^ rest.length)]
      rw [Nat.add_mul, Nat.one_mul] at hscaled
      omega

private theorem decode_encode_mod (width value : Nat) : decode (encode width value) = value % 256 ^ width := by
  induction width with
  | zero => simp [encode, decode, Nat.mod_one]
  | succ width ih =>
      have htop : (UInt8.ofNat (value >>> (8 * width))).toNat = value / 256 ^ width % 256 := by
        rw [UInt8.toNat_ofNat', Nat.shiftRight_eq_div_pow, Nat.pow_mul]
      rw [encode, decode_cons, length_encode, ih, htop, pow_succ, Nat.mod_mul, Nat.mul_comm, Nat.add_comm]

theorem decode_encode {width value : Nat} (h : value < 256 ^ width) : decode (encode width value) = value := by
  rw [decode_encode_mod, Nat.mod_eq_of_lt h]

/-- What lies above the width leaves no trace in the bytes. -/
private theorem encode_mul_add (width high low : Nat) :
    encode width (high * 256 ^ width + low) = encode width low := by
  induction width generalizing high with
  | zero => rfl
  | succ width ih =>
      have hsplit : high * 256 ^ (width + 1) + low = high * 256 * 256 ^ width + low := by ring
      have htop : (high * 256 * 256 ^ width + low) / 256 ^ width = high * 256 + low / 256 ^ width := by
        rw [Nat.mul_comm (high * 256), Nat.mul_add_div (Nat.pow_pos (by decide))]
      have hbyte : UInt8.ofNat (high * 256 + low / 256 ^ width) = UInt8.ofNat (low / 256 ^ width) := by
        apply UInt8.toNat_inj.mp
        simp
      simp only [encode, Nat.shiftRight_eq_div_pow, Nat.pow_mul]
      rw [hsplit]
      refine congrArg₂ List.cons ?_ (ih (high * 256))
      exact (congrArg UInt8.ofNat htop).trans hbyte

theorem encode_decode (bytes : List UInt8) : encode bytes.length (decode bytes) = bytes := by
  induction bytes with
  | nil => rfl
  | cons byte rest ih =>
      have htop : (byte.toNat * 256 ^ rest.length + decode rest) / 256 ^ rest.length = byte.toNat := by
        rw [Nat.mul_comm, Nat.mul_add_div (Nat.pow_pos (by decide)), Nat.div_eq_of_lt (decode_lt rest),
          Nat.add_zero]
      rw [List.length_cons, encode, decode_cons, encode_mul_add, ih, Nat.shiftRight_eq_div_pow, Nat.pow_mul]
      exact congrArg (· :: rest) ((congrArg UInt8.ofNat htop).trans UInt8.ofNat_toNat)

end BigEndian
