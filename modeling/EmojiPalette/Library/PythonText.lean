import Mathlib.Data.List.DropRight
import Mathlib.Data.List.Basic

/-!
# Strings of Python

A string is the list of its code points. Here are the operations on strings that Python has built in, as far as they are about blanks and lines: stripping, splitting at blanks, and splitting into lines.
-/

namespace Python

abbrev Str := List Nat

/-- What `isspace` holds for. -/
def isBlank (codepoint : Nat) : Bool :=
  (9 ≤ codepoint && codepoint ≤ 13) || (28 ≤ codepoint && codepoint ≤ 32) || codepoint = 0x85 || codepoint = 0xA0 ||
    codepoint = 0x1680 || (0x2000 ≤ codepoint && codepoint ≤ 0x200A) || codepoint = 0x2028 || codepoint = 0x2029 ||
    codepoint = 0x202F || codepoint = 0x205F || codepoint = 0x3000

/-- What a line can end with. -/
def isLineEnd (codepoint : Nat) : Bool :=
  (10 ≤ codepoint && codepoint ≤ 13) || (28 ≤ codepoint && codepoint ≤ 30) || codepoint = 0x85 || codepoint = 0x2028 ||
    codepoint = 0x2029

def strip (text : Str) : Str := (text.dropWhile isBlank).rdropWhile isBlank

/-- `split` without a separator. -/
def words (text : Str) : List Str := (text.splitOnP isBlank).filter (· ≠ [])

/-- A carriage return and the line feed behind it end one line. -/
def splitlines : Str → List Str
  | [] => []
  | 13 :: 10 :: text => [] :: splitlines text
  | codepoint :: text =>
      if isLineEnd codepoint then [] :: splitlines text
      else match splitlines text with
        | [] => [[codepoint]]
        | line :: lines => (codepoint :: line) :: lines

def Blank (text : Str) : Prop := ∀ codepoint ∈ text, isBlank codepoint = true

def Solid (text : Str) : Prop := ∀ codepoint ∈ text, isBlank codepoint = false

variable {text blanks : Str}

/-! ### Stripping -/

theorem dropWhile_append_blank (hblanks : Blank blanks) (text : Str) :
    (blanks ++ text).dropWhile isBlank = text.dropWhile isBlank :=
  List.dropWhile_append_of_pos hblanks

theorem strip_blank_append (hblanks : Blank blanks) (text : Str) : strip (blanks ++ text) = strip text := by
  rw [strip, dropWhile_append_blank hblanks, strip]

/-- What is stripped is a part of the text. -/
theorem strip_subset (text : Str) {codepoint : Nat} (h : codepoint ∈ strip text) : codepoint ∈ text := by
  have hmem : codepoint ∈ text.dropWhile isBlank := (List.rdropWhile_prefix isBlank _).subset h
  exact (List.dropWhile_sublist isBlank).subset hmem

/-! ### Words -/

theorem words_append_cons {codepoint : Nat} (h : isBlank codepoint = true) (text rest : Str) :
    words (text ++ codepoint :: rest) = words text ++ words rest := by
  rw [words, List.splitOnP_append_cons text rest h, List.filter_append]
  rfl

theorem words_blank (h : Blank blanks) : words blanks = [] := by
  induction blanks with
  | nil => rfl
  | cons codepoint rest ih =>
      have hsplit := words_append_cons (h codepoint List.mem_cons_self) [] rest
      rw [List.nil_append] at hsplit
      rw [hsplit, ih fun other hmem => h other (List.mem_cons_of_mem _ hmem)]
      rfl

theorem words_append_blank (text : Str) (h : Blank blanks) : words (text ++ blanks) = words text := by
  cases blanks with
  | nil => rw [List.append_nil]
  | cons codepoint rest =>
      rw [words_append_cons (h codepoint List.mem_cons_self),
        words_blank fun other hmem => h other (List.mem_cons_of_mem _ hmem), List.append_nil]

/-- A part of a split is made of what was split, and has nothing in it that it was split at. -/
theorem mem_of_mem_splitOnP {α : Type} {separates : α → Bool} {value part : List α} (h : part ∈ value.splitOnP separates) :
    ∀ item ∈ part, item ∈ value ∧ separates item = false := by
  induction value generalizing part with
  | nil =>
      rw [List.splitOnP_nil] at h
      rw [List.mem_singleton.mp h]
      simp
  | cons first rest ih =>
      have hgrows : ∀ {part : List α}, part ∈ rest.splitOnP separates →
          ∀ item ∈ part, item ∈ first :: rest ∧ separates item = false := fun hpart item hitem =>
        ⟨List.mem_cons_of_mem _ (ih hpart item hitem).1, (ih hpart item hitem).2⟩
      rw [List.splitOnP_cons_eq_if_modifyHead] at h
      by_cases hfirst : separates first = true
      · rw [if_pos hfirst] at h
        rcases List.mem_cons.mp h with rfl | h
        · simp
        · exact hgrows h
      · rw [if_neg hfirst] at h
        obtain ⟨head, tail, hsplit⟩ := List.exists_cons_of_ne_nil (List.splitOnP_ne_nil separates rest)
        rw [hsplit, List.modifyHead_cons] at h
        rw [hsplit] at hgrows
        rcases List.mem_cons.mp h with rfl | h
        · intro item hitem
          rcases List.mem_cons.mp hitem with rfl | hitem
          · exact ⟨List.mem_cons_self, Bool.eq_false_iff.mpr hfirst⟩
          · exact hgrows List.mem_cons_self item hitem
        · exact hgrows (List.mem_cons_of_mem _ h)

end Python
