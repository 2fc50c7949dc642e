import EmojiPalette.Library.BigEndian
import Mathlib.Data.List.Nodup

/-!
# Reading fields from a byte cursor

A cursor is the bytes not read yet, together with the error a failed read leaves behind. A read that fails yields no value and need not stop the reads after it, so a grammar is only known to be met once every field of it has yielded a value. `Reads` says that a read yields exactly the values of a predicate, each from exactly its layout, and `Reads.bind` composes this through a sequence of fields.

Integers of a fixed width and enumerations are given by classes, so that one read serves each type.
-/

namespace Cursor

/-! ### Fixed-width integers -/

/-- An integer type as the unsigned numbers of its width. -/
class Integer (α : Type) where
  size : Nat
  toUnsigned : α → Nat
  ofUnsigned : Nat → α
  toUnsigned_lt : ∀ value, toUnsigned value < 256 ^ size
  ofUnsigned_toUnsigned : ∀ value, ofUnsigned (toUnsigned value) = value
  toUnsigned_ofUnsigned : ∀ n, n < 256 ^ size → toUnsigned (ofUnsigned n) = n

instance : Integer UInt8 where
  size := 1
  toUnsigned := UInt8.toNat
  ofUnsigned := UInt8.ofNat
  toUnsigned_lt := UInt8.toNat_lt
  ofUnsigned_toUnsigned := fun _ => UInt8.ofNat_toNat
  toUnsigned_ofUnsigned := fun _ h => UInt8.toNat_ofNat_of_lt' h

instance : Integer UInt16 where
  size := 2
  toUnsigned := UInt16.toNat
  ofUnsigned := UInt16.ofNat
  toUnsigned_lt := UInt16.toNat_lt
  ofUnsigned_toUnsigned := fun _ => UInt16.ofNat_toNat
  toUnsigned_ofUnsigned := fun _ h => UInt16.toNat_ofNat_of_lt' h

instance : Integer UInt32 where
  size := 4
  toUnsigned := UInt32.toNat
  ofUnsigned := UInt32.ofNat
  toUnsigned_lt := UInt32.toNat_lt
  ofUnsigned_toUnsigned := fun _ => UInt32.ofNat_toNat
  toUnsigned_ofUnsigned := fun _ h => UInt32.toNat_ofNat_of_lt' h

instance : Integer UInt64 where
  size := 8
  toUnsigned := UInt64.toNat
  ofUnsigned := UInt64.ofNat
  toUnsigned_lt := UInt64.toNat_lt
  ofUnsigned_toUnsigned := fun _ => UInt64.ofNat_toNat
  toUnsigned_ofUnsigned := fun _ h => UInt64.toNat_ofNat_of_lt' h

/-- A signed integer is written as its two's complement. -/
instance : Integer Int32 where
  size := 4
  toUnsigned := fun value => value.toUInt32.toNat
  ofUnsigned := fun n => (UInt32.ofNat n).toInt32
  toUnsigned_lt := fun value => value.toUInt32.toNat_lt
  ofUnsigned_toUnsigned := fun value => by rw [UInt32.ofNat_toNat, Int32.toInt32_toUInt32]
  toUnsigned_ofUnsigned := fun n h => by rw [UInt32.toUInt32_toInt32, UInt32.toNat_ofNat_of_lt' h]

section Integer

variable {α : Type} [Integer α]

/-- The bytes of an integer, most significant first. -/
def integerBytes (value : α) : List UInt8 := BigEndian.encode (Integer.size α) (Integer.toUnsigned value)

@[simp] theorem length_integerBytes (value : α) : (integerBytes value).length = Integer.size α :=
  BigEndian.length_encode _ _

theorem integerBytes_ofUnsigned {n : Nat} (h : n < 256 ^ Integer.size α) :
    integerBytes (Integer.ofUnsigned n : α) = BigEndian.encode (Integer.size α) n := by
  rw [integerBytes, Integer.toUnsigned_ofUnsigned n h]

/-- Bytes of the right number are the bytes of exactly one integer. -/
theorem ofUnsigned_decode_eq_iff {bytes : List UInt8} (hsize : bytes.length = Integer.size α) {value : α} :
    Integer.ofUnsigned (BigEndian.decode bytes) = value ↔ bytes = integerBytes value := by
  constructor
  · rintro rfl
    have hrange := BigEndian.decode_lt bytes
    rw [hsize] at hrange
    rw [integerBytes, Integer.toUnsigned_ofUnsigned _ hrange, ← hsize, BigEndian.encode_decode]
  · rintro rfl
    rw [integerBytes, BigEndian.decode_encode (Integer.toUnsigned_lt value), Integer.ofUnsigned_toUnsigned]

end Integer

/-! ### Enumerations -/

/-- An enumeration as the list of its values, in the order their codes count up. -/
class Enumeration (α : Type) [DecidableEq α] where
  all : List α
  nodup : all.Nodup
  complete : ∀ value, value ∈ all
  few : all.length ≤ 256

section Enumeration

variable {α : Type} [DecidableEq α] [Enumeration α]

/-- The code of a value is its place in the list. -/
def code (value : α) : UInt8 := UInt8.ofNat ((Enumeration.all : List α).idxOf value)

/-- The value a code names, if it names one. -/
def ofCode (byte : UInt8) : Option α := (Enumeration.all : List α)[byte.toNat]?

theorem ofCode_eq_some_iff {byte : UInt8} {value : α} : ofCode byte = some value ↔ byte = code value := by
  have hplace := List.idxOf_lt_length_of_mem (Enumeration.complete value)
  have hrange : (Enumeration.all : List α).idxOf value < UInt8.size := lt_of_lt_of_le hplace Enumeration.few
  constructor
  · intro h
    obtain ⟨hbyte, hvalue⟩ := List.getElem?_eq_some_iff.mp h
    have hindex := Enumeration.nodup.idxOf_getElem byte.toNat hbyte
    rw [hvalue] at hindex
    rw [code, hindex, UInt8.ofNat_toNat]
  · rintro rfl
    rw [ofCode, code, UInt8.toNat_ofNat_of_lt' hrange, List.getElem?_eq_getElem hplace, List.getElem_idxOf]

theorem code_inj {value other : α} : code value = code other ↔ value = other := by
  rw [← ofCode_eq_some_iff, ofCode_eq_some_iff.mpr rfl, Option.some.injEq]

/-- The codes count up without a gap. -/
theorem exists_code {byte : UInt8} (h : byte.toNat < (Enumeration.all : List α).length) : ∃ value : α, code value = byte :=
  ⟨(Enumeration.all : List α)[byte.toNat], (ofCode_eq_some_iff.mp (List.getElem?_eq_getElem h)).symm⟩

theorem code_lt (value : α) : (code value).toNat < (Enumeration.all : List α).length :=
  (List.getElem?_eq_some_iff.mp (ofCode_eq_some_iff.mpr (rfl : code value = code value))).1

/-- A byte without a name is no code. -/
theorem code_ne_of_ofCode_eq_none {byte : UInt8} (h : ofCode byte = (none : Option α)) (value : α) :
    code value ≠ byte := by
  intro hcode
  rw [ofCode_eq_some_iff.mpr hcode.symm] at h
  cases h

end Enumeration

end Cursor

/-! ### Reads -/

/-- A place in a run of bytes, and the error reported if the reading fails. -/
structure Cursor (ε : Type) where
  bytes : List UInt8
  position : Nat
  error : ε

namespace Cursor

variable {ε α β : Type}

def remaining (cursor : Cursor ε) : Nat := cursor.bytes.length - cursor.position

/-- The bytes not read yet. -/
def unread (cursor : Cursor ε) : List UInt8 := cursor.bytes.drop cursor.position

def advance (cursor : Cursor ε) (n : Nat) : Cursor ε := { cursor with position := cursor.position + n }

@[simp] theorem length_unread (cursor : Cursor ε) : cursor.unread.length = cursor.remaining := List.length_drop

@[simp] theorem unread_advance (cursor : Cursor ε) (n : Nat) : (cursor.advance n).unread = cursor.unread.drop n := by
  rw [unread, unread, List.drop_drop, advance]

@[simp] theorem advance_advance (cursor : Cursor ε) (m n : Nat) :
    (cursor.advance m).advance n = cursor.advance (m + n) := by
  rw [advance, advance, advance, Nat.add_assoc]

@[simp] theorem advance_zero (cursor : Cursor ε) : cursor.advance 0 = cursor := rfl

/-- Steps of the reading. One that fails yields no value and lets the next one go on where it stopped. -/
abbrev Reader (ε : Type) := StateM (Cursor ε)

theorem pure_apply (value : α) (start : Cursor ε) : (pure value : Reader ε α) start = (value, start) := rfl

theorem bind_apply (first : Reader ε α) (next : α → Reader ε β) (start : Cursor ε) :
    (first >>= next) start = next (first start).1 (first start).2 := rfl

/-- The next `n` bytes, if so many are left. -/
def take (n : Nat) : Reader ε (Option (List UInt8)) := fun cursor =>
  if cursor.remaining < n then (none, cursor) else (some (cursor.unread.take n), cursor.advance n)

/-- The next integer. -/
def integer (α : Type) [Integer α] : Reader ε (Option α) := do
  let bytes ← take (Integer.size α)
  return bytes.map fun bytes => Integer.ofUnsigned (BigEndian.decode bytes)

/-- The reading fails with this error. -/
def fail (error : ε) : Reader ε (Option α) := fun cursor => (none, { cursor with error := error })

/-- The reading yields no value wherever it starts. -/
def YieldsNothing (read : Reader ε (Option α)) : Prop := ∀ cursor, (read cursor).1 = none

theorem YieldsNothing.fail {error : ε} : YieldsNothing (fail error : Reader ε (Option α)) := fun _ => rfl

theorem YieldsNothing.none : YieldsNothing (pure none : Reader ε (Option α)) := fun _ => rfl

theorem YieldsNothing.bind {first : Reader ε α} {next : α → Reader ε (Option β)}
    (h : ∀ value, YieldsNothing (next value)) : YieldsNothing (first >>= next) :=
  fun cursor => h (first cursor).1 (first cursor).2

/-- The read yields exactly the good values, each where its layout comes next, and moves past the layout. -/
def Reads (read : Reader ε (Option α)) (good : α → Prop) (layout : α → List UInt8) : Prop :=
  ∀ start value rest, read start = (some value, rest) ↔
    good value ∧ layout value <+: start.unread ∧ rest = start.advance (layout value).length

variable {read : Reader ε (Option α)} {good good' : α → Prop} {layout layout' : α → List UInt8}

theorem Reads.of_fst_eq (hread : Reads read good layout) {start : Cursor ε} {value : α}
    (h : (read start).1 = some value) :
    layout value <+: start.unread ∧ read start = (some value, start.advance (layout value).length) := by
  obtain ⟨_, hlayout, hmoved⟩ := (hread start value (read start).2).mp (Prod.ext h rfl)
  exact ⟨hlayout, Prod.ext h hmoved⟩

theorem Reads.congr (h : Reads read good layout) (hgood : ∀ value, good value ↔ good' value)
    (hlayout : ∀ value, good value → layout value = layout' value) : Reads read good' layout' := by
  intro start value rest
  rw [h start value rest, ← hgood value]
  exact and_congr_right fun hvalue => by rw [hlayout value hvalue]

theorem reads_fail {error : ε} (h : ∀ value, ¬ good value) : Reads (fail error) good layout := by
  intro start value rest
  refine iff_of_false (fun hrun => ?_) fun hvalue => h value hvalue.1
  cases hrun

/-- A value decided without reading on. -/
theorem reads_pure {result : Option α} (h : ∀ value, result = some value ↔ good value) :
    Reads (pure result : Reader ε (Option α)) good (fun _ => []) := by
  intro start value rest
  rw [pure_apply, Prod.mk.injEq, h value]
  simp [eq_comm]

/-- The last check of a reading: it stops without a value, or yields the result. -/
theorem reads_guard {refused : Prop} [Decidable refused] {stop : Reader ε (Option α)} {result : α}
    (hstop : Reads stop (fun _ => False) (fun _ => [])) (h : ∀ value, ¬ refused ∧ result = value ↔ good value) :
    Reads (if refused then stop else pure (some result)) good (fun _ => []) := by
  split
  · rename_i hrefused
    exact hstop.congr (fun value => iff_of_false id fun hvalue => ((h value).mpr hvalue).1 hrefused) fun _ _ => rfl
  · rename_i haccepted
    exact reads_pure fun value => by rw [Option.some.injEq, ← h value, and_iff_right haccepted]

theorem reads_none (h : ∀ value, ¬ good value) : Reads (pure none : Reader ε (Option α)) good (fun _ => []) :=
  reads_pure fun value => iff_of_false (fun hnone => by cases hnone) (h value)

theorem reads_take (n : Nat) : Reads (take n : Reader ε (Option (List UInt8))) (fun bytes => bytes.length = n) id := by
  intro start value rest
  have hlength := start.length_unread
  unfold take
  split
  · rename_i hshort
    constructor
    · intro h
      cases h
    · intro h
      obtain ⟨rfl, hlayout, _⟩ := h
      have hfits := hlayout.length_le
      rw [id, hlength] at hfits
      omega
  · rename_i henough
    have htake : (start.unread.take n).length = n := List.length_take_of_le (by omega)
    constructor
    · intro h
      cases h
      exact ⟨htake, List.take_prefix n start.unread, by rw [id, htake]⟩
    · intro h
      obtain ⟨rfl, hlayout, rfl⟩ := h
      have hvalue := List.prefix_iff_eq_take.mp hlayout
      rw [id] at hvalue ⊢
      rw [← hvalue]

/-- One layout after another: the second comes next past the first. -/
theorem append_prefix_iff {first second whole : List UInt8} :
    first ++ second <+: whole ↔ first <+: whole ∧ second <+: whole.drop first.length := by
  constructor
  · intro h
    have hfirst := (List.prefix_append first second).trans h
    obtain ⟨tail, rfl⟩ := hfirst
    exact ⟨List.prefix_append _ _, by rw [List.drop_left]; exact (List.prefix_append_right_inj _).mp h⟩
  · intro h
    obtain ⟨⟨tail, rfl⟩, h⟩ := h
    rw [List.drop_left] at h
    exact (List.prefix_append_right_inj _).mpr h

/-- A field, and the reads after it that tell this field of their result. Without the field's value they must yield nothing. -/
theorem Reads.field (hread : Reads read good layout) (proj : β → α) {next : Option α → Reader ε (Option β)}
    {whole : β → Prop} {others : β → List UInt8}
    (hnone : YieldsNothing (next none)) (hgood : ∀ result, whole result → good (proj result))
    (hnext : ∀ value, good value → Reads (next (some value)) (fun result => proj result = value ∧ whole result) others) :
    Reads (read >>= next) whole (fun result => layout (proj result) ++ others result) := by
  intro start result rest
  rw [bind_apply]
  constructor
  · intro h
    cases hfield : (read start).1 with
    | none =>
        have hnothing := hnone (read start).2
        rw [hfield] at h
        rw [h] at hnothing
        cases hnothing
    | some value =>
        obtain ⟨hvalue, hlayout, hmoved⟩ := (hread start value (read start).2).mp (Prod.ext hfield rfl)
        rw [hfield, hmoved] at h
        obtain ⟨⟨rfl, hwhole⟩, hothers, rfl⟩ := (hnext value hvalue _ result rest).mp h
        rw [unread_advance] at hothers
        exact ⟨hwhole, append_prefix_iff.mpr ⟨hlayout, hothers⟩, by simp⟩
  · intro h
    obtain ⟨hwhole, hlayout, rfl⟩ := h
    obtain ⟨hfirst, hothers⟩ := append_prefix_iff.mp hlayout
    rw [(hread start (proj result) _).mpr ⟨hgood result hwhole, hfirst, rfl⟩]
    rw [← unread_advance] at hothers
    exact (hnext (proj result) (hgood result hwhole) _ result _).mpr ⟨⟨rfl, hwhole⟩, hothers, by simp⟩

/-- What was read, wrapped up. -/
theorem Reads.map (hread : Reads read good layout) {f : α → β} {whole : β → Prop} {wrapped : β → List UInt8}
    (hwhole : ∀ result, whole result ↔ ∃ value, good value ∧ f value = result)
    (hwrapped : ∀ value, wrapped (f value) = layout value) :
    Reads (do let value ← read; return value.map f) whole wrapped := by
  intro start result rest
  rw [bind_apply, pure_apply, Prod.mk.injEq, Option.map_eq_some_iff, hwhole result]
  constructor
  · intro h
    obtain ⟨⟨value, hvalue, rfl⟩, hrest⟩ := h
    obtain ⟨hgood, hlayout, hmoved⟩ := (hread start value rest).mp (Prod.ext hvalue hrest)
    rw [hwrapped]
    exact ⟨⟨value, hgood, rfl⟩, hlayout, hmoved⟩
  · intro h
    obtain ⟨⟨value, hgood, rfl⟩, hlayout, hmoved⟩ := h
    rw [hwrapped] at hlayout hmoved
    rw [(hread start value rest).mpr ⟨hgood, hlayout, hmoved⟩]
    exact ⟨⟨value, rfl, rfl⟩, rfl⟩

theorem reads_integer (α : Type) [Integer α] :
    Reads (integer α : Reader ε (Option α)) (fun _ => True) integerBytes := by
  have hfield : Reads (integer α : Reader ε (Option α)) (fun _ => True) fun value => id (integerBytes value) ++ [] :=
    (reads_take (Integer.size α)).field integerBytes .none (fun value _ => length_integerBytes value)
      fun bytes hsize => reads_pure fun value => by
        rw [Option.map_some, Option.some.injEq, ofUnsigned_decode_eq_iff hsize]
        exact ⟨fun h => ⟨h.symm, trivial⟩, fun h => h.1.symm⟩
  exact hfield.congr (fun _ => Iff.rfl) fun value _ => List.append_nil _

/-! ### The error left behind -/

/-- The reading leaves an error of this kind where it found one. -/
def KeepsError (kind : ε → Prop) (read : Reader ε α) : Prop := ∀ start, kind start.error → kind (read start).2.error

variable {kind : ε → Prop}

theorem keepsError_pure (result : α) : KeepsError kind (pure result : Reader ε α) := fun _ h => h

theorem keepsError_fail {error : ε} (h : kind error) : KeepsError kind (fail error : Reader ε (Option α)) :=
  fun _ _ => h

theorem keepsError_take (n : Nat) : KeepsError kind (take n : Reader ε (Option (List UInt8))) := by
  intro start h
  unfold take
  split <;> exact h

theorem KeepsError.bind {first : Reader ε α} {next : α → Reader ε β} (hfirst : KeepsError kind first)
    (hnext : ∀ value, KeepsError kind (next value)) : KeepsError kind (first >>= next) :=
  fun start h => hnext (first start).1 _ (hfirst start h)

theorem keepsError_integer (α : Type) [Integer α] : KeepsError kind (integer α : Reader ε (Option α)) :=
  (keepsError_take _).bind fun _ => keepsError_pure _

end Cursor
