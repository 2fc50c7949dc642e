import Mathlib.Data.UInt
import Mathlib.Tactic.Common

/-!
# Checked machine arithmetic

A type of machine integers holds an interval of the integers. `MachineInt` is what arithmetic on it rests on, and a checked operation has a result exactly where the result over the integers is in the interval. So a computation that is written with checked operations and has a result has met no overflow on its way.
-/

/-- Machine integers: the interval from `lowest` to `highest`. -/
structure MachineInt (α : Type) where
  toInt : α → ℤ
  ofInt : ℤ → α
  lowest : ℤ
  highest : ℤ
  lowest_le : ∀ a, lowest ≤ toInt a
  le_highest : ∀ a, toInt a ≤ highest
  ofInt_toInt : ∀ a, ofInt (toInt a) = a
  toInt_ofInt : ∀ n, lowest ≤ n → n ≤ highest → toInt (ofInt n) = n

namespace MachineInt

variable {α : Type} (machine : MachineInt α) {a b c : α} {n : ℤ}

/-- The machine integer that stands for the number, if there is one. -/
def checked (n : ℤ) : Option α :=
  if machine.lowest ≤ n ∧ n ≤ machine.highest then some (machine.ofInt n) else none

def add (a b : α) : Option α := machine.checked (machine.toInt a + machine.toInt b)

def sub (a b : α) : Option α := machine.checked (machine.toInt a - machine.toInt b)

def mul (a b : α) : Option α := machine.checked (machine.toInt a * machine.toInt b)

theorem checked_eq_some_iff : machine.checked n = some a ↔ machine.toInt a = n := by
  rw [checked]
  by_cases h : machine.lowest ≤ n ∧ n ≤ machine.highest
  · rw [if_pos h, Option.some.injEq]
    refine ⟨fun heq => heq ▸ machine.toInt_ofInt n h.1 h.2, fun heq => ?_⟩
    rw [← heq, machine.ofInt_toInt]
  · rw [if_neg h]
    refine ⟨(fun heq => nomatch heq), fun heq => absurd ?_ h⟩
    exact heq ▸ ⟨machine.lowest_le a, machine.le_highest a⟩

theorem add_eq_some_iff : machine.add a b = some c ↔ machine.toInt c = machine.toInt a + machine.toInt b :=
  machine.checked_eq_some_iff

theorem sub_eq_some_iff : machine.sub a b = some c ↔ machine.toInt c = machine.toInt a - machine.toInt b :=
  machine.checked_eq_some_iff

theorem mul_eq_some_iff : machine.mul a b = some c ↔ machine.toInt c = machine.toInt a * machine.toInt b :=
  machine.checked_eq_some_iff

/-- A number in the interval has its machine integer. -/
theorem exists_checked (hlow : machine.lowest ≤ n) (hhigh : n ≤ machine.highest) :
    ∃ a, machine.checked n = some a ∧ machine.toInt a = n :=
  ⟨machine.ofInt n, machine.checked_eq_some_iff.mpr (machine.toInt_ofInt n hlow hhigh),
    machine.toInt_ofInt n hlow hhigh⟩

/-! ### Two widths -/

def uint64 : MachineInt UInt64 where
  toInt a := a.toNat
  ofInt n := UInt64.ofNat n.toNat
  lowest := 0
  highest := 18446744073709551615
  lowest_le a := Int.natCast_nonneg a.toNat
  le_highest a := by
    have h := a.toNat_lt
    omega
  ofInt_toInt a := by simp
  toInt_ofInt n hlow hhigh := by
    rw [UInt64.toNat_ofNat_of_lt' (by rw [UInt64.size]; omega)]
    exact Int.toNat_of_nonneg hlow

def int32 : MachineInt Int32 where
  toInt := Int32.toInt
  ofInt := Int32.ofInt
  lowest := -2147483648
  highest := 2147483647
  lowest_le a := a.le_toInt
  le_highest a := by
    have h := a.toInt_lt
    omega
  ofInt_toInt a := a.ofInt_toInt
  toInt_ofInt n hlow hhigh := Int32.toInt_ofInt_of_le hlow (by omega)

/-! ### Results that fit -/

section

variable {a b : Int32}

theorem toInt_max (a b : Int32) : (max a b).toInt = max a.toInt b.toInt := by
  change (if a ≤ b then b else a).toInt = _
  by_cases h : a ≤ b
  · rw [if_pos h, Int.max_eq_right (Int32.le_iff_toInt_le.mp h)]
  · rw [if_neg h]
    rw [Int32.le_iff_toInt_le] at h
    omega

theorem toInt_min (a b : Int32) : (min a b).toInt = min a.toInt b.toInt := by
  change (if a ≤ b then a else b).toInt = _
  by_cases h : a ≤ b
  · rw [if_pos h, Int.min_eq_left (Int32.le_iff_toInt_le.mp h)]
  · rw [if_neg h]
    rw [Int32.le_iff_toInt_le] at h
    omega

theorem int32_add (hlow : -2147483648 ≤ a.toInt + b.toInt) (hhigh : a.toInt + b.toInt ≤ 2147483647) :
    ∃ c, int32.add a b = some c ∧ c.toInt = a.toInt + b.toInt :=
  int32.exists_checked hlow hhigh

theorem int32_sub (hlow : -2147483648 ≤ a.toInt - b.toInt) (hhigh : a.toInt - b.toInt ≤ 2147483647) :
    ∃ c, int32.sub a b = some c ∧ c.toInt = a.toInt - b.toInt :=
  int32.exists_checked hlow hhigh

end

variable {x y : UInt64}

theorem toNat_add_of_lt (h : x.toNat + y.toNat < 18446744073709551616) : (x + y).toNat = x.toNat + y.toNat := by
  rw [UInt64.toNat_add]
  exact Nat.mod_eq_of_lt h

theorem toNat_mul_of_lt (h : x.toNat * y.toNat < 18446744073709551616) : (x * y).toNat = x.toNat * y.toNat := by
  rw [UInt64.toNat_mul]
  exact Nat.mod_eq_of_lt h

theorem uint64_add (h : x.toNat + y.toNat < 18446744073709551616) : uint64.add x y = some (x + y) := by
  refine uint64.add_eq_some_iff.mpr ?_
  exact congrArg Nat.cast (toNat_add_of_lt h)

theorem uint64_sub (h : y ≤ x) : uint64.sub x y = some (x - y) := by
  refine uint64.sub_eq_some_iff.mpr ?_
  have hdifference := UInt64.toNat_sub_of_le x y h
  have hle := UInt64.le_iff_toNat_le.mp h
  change ((x - y).toNat : ℤ) = (x.toNat : ℤ) - y.toNat
  omega

theorem uint64_mul (h : x.toNat * y.toNat < 18446744073709551616) : uint64.mul x y = some (x * y) := by
  refine uint64.mul_eq_some_iff.mpr ?_
  change ((x * y).toNat : ℤ) = (x.toNat : ℤ) * y.toNat
  rw [toNat_mul_of_lt h, Nat.cast_mul]

end MachineInt
