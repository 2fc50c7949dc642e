import EmojiPalette.Core.SearchText
import EmojiPalette.Core.Utf8Standard
import EmojiPalette.Model.Catalog

/-!
# The text of a query

A search normalizes its query, splits the result into tokens, and normalizes once more on the way. The code points of a normal form settle what its bytes look like: a byte below 0x80 in it is one of the code points, and the ends and neighbours of the bytes are those of the code points. So the tokens are the words between single spaces, and none is empty.
-/

namespace EmojiPalette

/-! ### Code points of a normal form -/

theorem Tidy.codepoint {previousSpace : Bool} {codepoints : List Nat} (h : Tidy previousSpace codepoints) :
    ∀ codepoint ∈ codepoints, codepoint = 0x20 ∨ (isSpace codepoint = false ∧ foldCodepoint codepoint = codepoint) := by
  induction codepoints generalizing previousSpace with
  | nil => simp
  | cons codepoint rest ih =>
      rw [Tidy] at h
      by_cases hspace : isSpace codepoint = true
      · rw [if_pos hspace] at h
        exact List.forall_mem_cons.mpr ⟨Or.inl h.2.1, ih h.2.2⟩
      · rw [if_neg hspace] at h
        exact List.forall_mem_cons.mpr ⟨Or.inr ⟨Bool.eq_false_iff.mpr hspace, h.1⟩, ih h.2⟩

theorem Tidy.of_append {previousSpace : Bool} {before after : List Nat} (h : Tidy previousSpace (before ++ after)) :
    ∃ later, Tidy later after := by
  induction before generalizing previousSpace with
  | nil => exact ⟨previousSpace, h⟩
  | cons codepoint rest ih =>
      rw [List.cons_append, Tidy] at h
      by_cases hspace : isSpace codepoint = true
      · rw [if_pos hspace] at h
        exact ih h.2.2
      · rw [if_neg hspace] at h
        exact ih h.2

theorem Tidy.not_cons_space {codepoints : List Nat} : ¬ Tidy true (0x20 :: codepoints) := by
  intro h
  rw [Tidy, if_pos (by decide)] at h
  cases h.1

theorem Tidy.not_double {previousSpace : Bool} {codepoints : List Nat} (h : Tidy previousSpace codepoints) :
    ¬ [0x20, 0x20] <:+: codepoints := by
  intro hdouble
  obtain ⟨before, after, rfl⟩ := hdouble
  rw [List.append_assoc] at h
  obtain ⟨later, hlater⟩ := h.of_append
  rw [List.cons_append, Tidy, if_pos (by decide)] at hlater
  exact Tidy.not_cons_space hlater.2.2

/-! ### Bytes of a normal form -/

private theorem decodeUtf8_space : decodeUtf8 [32] = some [0x20] := by decide +kernel

private theorem decodeUtf8_spaces : decodeUtf8 [32, 32] = some [0x20, 0x20] := by decide +kernel

private theorem decodeUtf8_singleton {byte : UInt8} (h : byte ∈ ([9, 10, 13, 45, 95] : Bytes)) :
    decodeUtf8 [byte] = some [byte.toNat] := by
  revert byte
  decide +kernel

/-- A normal form and its code points. -/
theorem exists_decodeUtf8_normalizeForSearch (value : Bytes) :
    ∃ codepoints, NormalForm codepoints ∧ decodeUtf8 (normalizeForSearch value) = some codepoints := by
  obtain ⟨codepoints, hnormal, hvalue⟩ := exists_normalForm value
  exact ⟨codepoints, hnormal, by rw [hvalue, decodeUtf8_encodeUtf8 hnormal.scalars]⟩

section Bytes

variable {normal : Bytes} {codepoints : List Nat}

theorem NormalForm.head_ne (h : NormalForm codepoints) (hdecode : decodeUtf8 normal = some codepoints) :
    normal.head? ≠ some 32 := by
  intro hhead
  obtain ⟨rest, rfl⟩ := List.head?_eq_some_iff.mp hhead
  obtain ⟨others, rfl⟩ := isPrefix_of_decodeUtf8 decodeUtf8_space hdecode ⟨rest, rfl⟩
  exact Tidy.not_cons_space h.tidy

theorem NormalForm.getLast_ne (h : NormalForm codepoints) (hdecode : decodeUtf8 normal = some codepoints) :
    normal.getLast? ≠ some 32 := by
  intro hlast
  obtain ⟨front, rfl⟩ := List.getLast?_eq_some_iff.mp hlast
  obtain ⟨others, rfl⟩ := isSuffix_of_decodeUtf8 decodeUtf8_space hdecode ⟨front, rfl⟩
  exact h.last List.getLast?_concat

theorem NormalForm.not_double (h : NormalForm codepoints) (hdecode : decodeUtf8 normal = some codepoints) :
    ¬ [32, 32] <:+: normal :=
  fun hdouble => h.tidy.not_double (isInfix_of_decodeUtf8 decodeUtf8_spaces hdecode hdouble)

/-- Tabs, line breaks, hyphens and underscores have become spaces. -/
theorem NormalForm.not_mem (h : NormalForm codepoints) (hdecode : decodeUtf8 normal = some codepoints) {byte : UInt8}
    (hbyte : byte ∈ ([9, 10, 13, 45, 95] : Bytes)) : byte ∉ normal := by
  intro hmem
  have hoccurs := isInfix_of_decodeUtf8 (decodeUtf8_singleton hbyte) hdecode ((List.singleton_infix_iff _ _).mpr hmem)
  have hcodepoint := h.tidy.codepoint byte.toNat ((List.singleton_infix_iff _ _).mp hoccurs)
  have hnone : ∀ byte ∈ ([9, 10, 13, 45, 95] : Bytes),
      ¬ (byte.toNat = 0x20 ∨ (isSpace byte.toNat = false ∧ foldCodepoint byte.toNat = byte.toNat)) := by
    decide +kernel
  exact hnone byte hbyte hcodepoint

theorem NormalForm.folded (h : NormalForm codepoints) : ∀ codepoint ∈ codepoints, foldCodepoint codepoint = codepoint := by
  intro codepoint hmem
  rcases h.tidy.codepoint codepoint hmem with rfl | ⟨-, hfold⟩
  · rfl
  · exact hfold

end Bytes

/-! ### Tokens -/

theorem splitOn_cons_self (delimiter : UInt8) (rest : Bytes) :
    (delimiter :: rest).splitOn delimiter = [] :: rest.splitOn delimiter := by
  rw [List.splitOn_cons_eq_if_modifyHead, if_pos (beq_self_eq_true delimiter)]

theorem splitOn_cons_of_ne {first delimiter : UInt8} (h : first ≠ delimiter) (rest : Bytes) :
    ∃ head tail, rest.splitOn delimiter = head :: tail ∧
      (first :: rest).splitOn delimiter = (first :: head) :: tail := by
  obtain ⟨head, tail, hparts⟩ := List.exists_cons_of_ne_nil (List.splitOn_ne_nil delimiter rest)
  refine ⟨head, tail, hparts, ?_⟩
  rw [List.splitOn_cons_eq_if_modifyHead, if_neg (by simpa using h), hparts, List.modifyHead_cons]

/-- Empty parts after the first come from a delimiter at the end or before another. -/
theorem nil_mem_tail_splitOn {value : Bytes} {delimiter : UInt8} (h : [] ∈ (value.splitOn delimiter).tail) :
    value.getLast? = some delimiter ∨ [delimiter, delimiter] <:+: value := by
  induction value with
  | nil => simp at h
  | cons first rest ih =>
      have hrest : [] ∈ (rest.splitOn delimiter).tail →
          (first :: rest).getLast? = some delimiter ∨ [delimiter, delimiter] <:+: first :: rest := by
        intro htail
        rcases ih htail with hlast | hdouble
        · refine Or.inl ?_
          rw [List.getLast?_cons, hlast, Option.getD_some]
        · exact Or.inr (hdouble.trans (List.suffix_cons first rest).isInfix)
      by_cases hdelimiter : first = delimiter
      · subst hdelimiter
        rw [splitOn_cons_self, List.tail_cons] at h
        cases rest with
        | nil => exact Or.inl rfl
        | cons next rest =>
            by_cases hnext : next = first
            · exact Or.inr ⟨[], rest, by rw [hnext]; rfl⟩
            · obtain ⟨head, tail, -, hparts⟩ := splitOn_cons_of_ne hnext rest
              refine hrest ?_
              rw [hparts] at h ⊢
              exact (List.mem_cons.mp h).resolve_left (List.cons_ne_nil next head).symm
      · obtain ⟨head, tail, hparts, hgrown⟩ := splitOn_cons_of_ne hdelimiter rest
        rw [hgrown, List.tail_cons] at h
        refine hrest ?_
        rw [hparts, List.tail_cons]
        exact h

/-- A text with single delimiters inside it splits into parts that are not empty. -/
theorem split_eq_splitOn {value : Bytes} {delimiter : UInt8} (hnil : value ≠ []) (hhead : value.head? ≠ some delimiter)
    (hlast : value.getLast? ≠ some delimiter) (hdouble : ¬ [delimiter, delimiter] <:+: value) :
    split value delimiter = value.splitOn delimiter := by
  refine List.filter_eq_self.mpr fun part hpart => ?_
  cases part with
  | cons first rest => rfl
  | nil =>
      cases value with
      | nil => exact absurd rfl hnil
      | cons first rest =>
          have hfirst : first ≠ delimiter := fun heq => hhead (congrArg some heq)
          obtain ⟨head, tail, -, hparts⟩ := splitOn_cons_of_ne hfirst rest
          have htail : [] ∈ ((first :: rest).splitOn delimiter).tail := by
            rw [hparts] at hpart ⊢
            exact (List.mem_cons.mp hpart).resolve_left (List.cons_ne_nil first head).symm
          exact ((nil_mem_tail_splitOn htail).elim hlast hdouble).elim

theorem queryTokens_normalizeForSearch (query : Bytes) :
    queryTokens (normalizeForSearch query) = split (normalizeForSearch query) 32 := by
  rw [queryTokens, normalizeForSearch_normalizeForSearch]

/-- What normalization leaves of a text, and what it does not see: two texts have one normal form exactly when they look the same. -/
theorem normalizeForSearch_normal (value : Bytes) :
    let normal := normalizeForSearch value
    isValidUtf8 normal = true ∧
    (normal.head? ≠ some 32 ∧ normal.getLast? ≠ some 32 ∧ ¬ [32, 32] <:+: normal) ∧
    (∀ byte ∈ ([9, 10, 13, 45, 95] : Bytes), byte ∉ normal) ∧
    (∀ codepoints, decodeUtf8 normal = some codepoints → ∀ codepoint ∈ codepoints, foldCodepoint codepoint = codepoint) ∧
    normalizeForSearch normal = normal ∧
    (queryTokens normal = split normal 32 ∧ [32].intercalate (split normal 32) = normal ∧
      ∀ token ∈ split normal 32, token ≠ []) ∧
    (∀ other codepoints others, decodeUtf8 value = some codepoints → decodeUtf8 other = some others →
      (normal = normalizeForSearch other ↔ SameText codepoints others)) := by
  obtain ⟨codepoints, hnormal, hdecode⟩ := exists_decodeUtf8_normalizeForSearch value
  have hhead := hnormal.head_ne hdecode
  have hlast := hnormal.getLast_ne hdecode
  have hdouble := hnormal.not_double hdecode
  refine ⟨isValidUtf8_normalizeForSearch value, ⟨hhead, hlast, hdouble⟩, fun byte hbyte => hnormal.not_mem hdecode hbyte,
    ?_, normalizeForSearch_normalizeForSearch value, ⟨queryTokens_normalizeForSearch value, ?_, ?_⟩, ?_⟩
  · intro decoded hdecoded
    obtain rfl := Option.some.inj (hdecode.symm.trans hdecoded)
    exact hnormal.folded
  · by_cases hnil : normalizeForSearch value = []
    · rw [hnil]
      rfl
    · rw [split_eq_splitOn hnil hhead hlast hdouble, List.intercalate_splitOn]
  · intro token htoken hempty
    have hkept := (List.mem_filter.mp htoken).2
    rw [hempty] at hkept
    cases hkept
  · intro other decoded others hvalue hother
    rw [normalizeForSearch_of_decodeUtf8 hvalue, normalizeForSearch_of_decodeUtf8 hother, sameText_iff]
    refine ⟨fun heq => ?_, fun heq => congrArg encodeUtf8 heq⟩
    have hone := decodeUtf8_encodeUtf8 (normalForm_of_decodeUtf8 hvalue).scalars
    have htwo := decodeUtf8_encodeUtf8 (normalForm_of_decodeUtf8 hother).scalars
    rw [heq] at hone
    exact Option.some.inj (hone.symm.trans htwo)

end EmojiPalette
