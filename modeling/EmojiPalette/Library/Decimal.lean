import Mathlib.Data.Nat.Digits.Lemmas
import Mathlib.Data.List.TakeWhile

/-!
# Decimal numerals as bytes

Printing a natural number or an integer as ASCII digits and reading the longest numeral at the head of a text. Reading undoes printing, and a printed numeral is no longer than the number's bound says.
-/

namespace Decimal

def isDigit (byte : UInt8) : Bool := 48 ≤ byte && byte ≤ 57

def digit (d : Nat) : UInt8 := UInt8.ofNat (48 + d)

/-- The digits of the number without leading zeros. -/
def print (n : Nat) : List UInt8 :=
  if n = 0 then [digit 0] else ((Nat.digits 10 n).map digit).reverse

/-- A minus sign before the digits of a negative number. -/
def printInt (i : Int) : List UInt8 :=
  if i < 0 then 45 :: print i.natAbs else print i.natAbs

/-- The number a run of digits denotes. -/
def value (digits : List UInt8) : Nat :=
  digits.foldl (fun total byte => total * 10 + (byte.toNat - 48)) 0

/-- The number the longest run of digits at the head denotes, and the text after it; none without a digit. -/
def scan (text : List UInt8) : Option (Nat × List UInt8) :=
  if (text.takeWhile isDigit).isEmpty then none
  else some (value (text.takeWhile isDigit), text.dropWhile isDigit)

/-- The same with a minus sign allowed before the digits. -/
def scanInt : List UInt8 → Option (Int × List UInt8)
  | 45 :: text => (scan text).map fun result => (-(result.1 : Int), result.2)
  | text => (scan text).map fun result => ((result.1 : Int), result.2)

private theorem toNat_digit {d : Nat} (h : d < 10) : (digit d).toNat = 48 + d := by
  rw [digit, UInt8.toNat_ofNat', Nat.mod_eq_of_lt (by omega)]

private theorem isDigit_digit {d : Nat} (h : d < 10) : isDigit (digit d) = true := by
  simp only [isDigit, Bool.and_eq_true, decide_eq_true_eq, UInt8.le_iff_toNat_le, toNat_digit h,
    UInt8.reduceToNat]
  omega

theorem isDigit_of_mem_print {n : Nat} {byte : UInt8} (h : byte ∈ print n) : isDigit byte = true := by
  unfold print at h
  split at h
  · obtain rfl : byte = digit 0 := by simpa using h
    exact isDigit_digit (by decide)
  · simp only [List.mem_reverse, List.mem_map] at h
    obtain ⟨d, hd, rfl⟩ := h
    exact isDigit_digit (Nat.digits_lt_base (by decide) hd)

theorem print_ne_nil (n : Nat) : print n ≠ [] := by
  unfold print
  split
  · simp
  · simpa using Nat.digits_ne_nil_iff_ne_zero.mpr ‹n ≠ 0›

private theorem value_reverse_map (digits : List Nat) (h : ∀ d ∈ digits, d < 10) :
    value (digits.map digit).reverse = Nat.ofDigits 10 digits := by
  induction digits with
  | nil => rfl
  | cons d rest ih =>
      have hrest := ih fun x hx => h x (List.mem_cons_of_mem d hx)
      rw [List.map_cons, List.reverse_cons, value, List.foldl_append, ← value, hrest,
        Nat.ofDigits_cons]
      simp only [List.foldl_cons, List.foldl_nil, toNat_digit (h d List.mem_cons_self)]
      omega

theorem value_print (n : Nat) : value (print n) = n := by
  unfold print
  split
  · subst n
    rfl
  · rw [value_reverse_map _ fun d hd => Nat.digits_lt_base (by decide) hd, Nat.ofDigits_digits]

theorem scan_print (n : Nat) : scan (print n) = some (n, []) := by
  have htake : (print n).takeWhile isDigit = print n :=
    List.takeWhile_eq_self_iff.mpr fun _ hbyte => isDigit_of_mem_print hbyte
  have hdrop : (print n).dropWhile isDigit = [] :=
    List.dropWhile_eq_nil_iff.mpr fun _ hbyte => isDigit_of_mem_print hbyte
  rw [scan, htake, hdrop, value_print, if_neg]
  simpa using print_ne_nil n

/-- A printed natural number has no sign, so reading it as an integer gives it back. -/
private theorem scanInt_print (n : Nat) : scanInt (print n) = some ((n : Int), []) := by
  unfold scanInt
  split
  · rename_i text heq
    have hsign := isDigit_of_mem_print (heq ▸ List.mem_cons_self : (45 : UInt8) ∈ print n)
    exact absurd hsign (by decide)
  · simp [scan_print]

theorem scanInt_printInt (i : Int) : scanInt (printInt i) = some (i, []) := by
  unfold printInt
  split
  · rename_i hneg
    simp only [scanInt, scan_print, Option.map_some, Option.some.injEq, Prod.mk.injEq, and_true]
    omega
  · rw [scanInt_print]
    simp only [Option.some.injEq, Prod.mk.injEq, and_true]
    omega

theorem length_print_le {n k : Nat} (hk : 0 < k) (h : n < 10 ^ k) : (print n).length ≤ k := by
  unfold print
  split
  · simpa using Nat.succ_le_of_lt hk
  · simpa using (Nat.digits_length_le_iff (by decide) n).mpr h

theorem length_printInt_le {i : Int} {k : Nat} (hk : 0 < k) (h : i.natAbs < 10 ^ k) :
    (printInt i).length ≤ k + 1 := by
  have hdigits := length_print_le hk h
  unfold printInt
  split
  · simpa using hdigits
  · omega

end Decimal
