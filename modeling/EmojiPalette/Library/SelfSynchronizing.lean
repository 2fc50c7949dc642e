import Mathlib.Data.List.Infix

/-!
# Self-synchronizing codes

In such a code the first symbol of a word is never one of the later symbols of a word, and no word begins with another. A place where a word starts can then be told by looking at one symbol, so what is found in an encoded text was there before the text was encoded.
-/

namespace SelfSynchronizing

variable {α β : Type} {starts : β → Bool} {encode : α → List β} {before after rest : List β} {xs ys : List α}

/-- What a word of the code looks like, and that words are told apart by what they begin with. -/
structure Code (starts : β → Bool) (encode : α → List β) : Prop where
  word : ∀ a, ∃ head tail, encode a = head :: tail ∧ starts head = true ∧ ∀ b ∈ tail, starts b = false
  eq_of_isPrefix : ∀ {a b}, encode a <+: encode b → a = b

/-- What may follow a whole number of words. -/
def Boundary (starts : β → Bool) (rest : List β) : Prop := ∀ head ∈ rest.head?, starts head = true

theorem Code.flatMap_eq_nil_iff (h : Code starts encode) : xs.flatMap encode = [] ↔ xs = [] := by
  cases xs with
  | nil => simp
  | cons x xs =>
      obtain ⟨head, tail, hword, -⟩ := h.word x
      simp [hword]

theorem Code.boundary_append (h : Code starts encode) (hxs : xs ≠ []) (rest : List β) :
    Boundary starts (xs.flatMap encode ++ rest) := by
  cases xs with
  | nil => exact absurd rfl hxs
  | cons x xs =>
      obtain ⟨head, tail, hword, hstarts, -⟩ := h.word x
      intro first hfirst
      rw [List.flatMap_cons, hword] at hfirst
      obtain rfl := Option.some.inj hfirst
      exact hstarts

/-- A text that goes on with more words where it may begins with the same words. -/
theorem Code.cut_left (h : Code starts encode) (heq : xs.flatMap encode ++ rest = ys.flatMap encode) :
    ∃ zs, ys = xs ++ zs ∧ zs.flatMap encode = rest := by
  induction xs generalizing ys with
  | nil => exact ⟨ys, rfl, heq.symm⟩
  | cons x xs ih =>
      cases ys with
      | nil =>
          have hnil := (List.append_eq_nil_iff.mp heq).1
          cases h.flatMap_eq_nil_iff.mp hnil
      | cons y ys =>
          rw [List.flatMap_cons, List.flatMap_cons, List.append_assoc] at heq
          have hx : encode x <+: encode y ++ ys.flatMap encode := ⟨_, heq⟩
          have hy : encode y <+: encode y ++ ys.flatMap encode := List.prefix_append _ _
          have hsame : x = y := by
            rcases List.prefix_or_prefix_of_prefix hx hy with hxy | hyx
            · exact h.eq_of_isPrefix hxy
            · exact (h.eq_of_isPrefix hyx).symm
          subst hsame
          obtain ⟨zs, rfl, hzs⟩ := ih (List.append_cancel_left heq)
          exact ⟨zs, rfl, hzs⟩

theorem Code.flatMap_injective (h : Code starts encode) (heq : xs.flatMap encode = ys.flatMap encode) : xs = ys := by
  rw [← List.append_nil (xs.flatMap encode)] at heq
  obtain ⟨zs, rfl, hzs⟩ := h.cut_left heq
  rw [h.flatMap_eq_nil_iff.mp hzs, List.append_nil]

/-- A text can be cut wherever a word may start, and only between two of its words. -/
theorem Code.cut (h : Code starts encode) (hrest : Boundary starts rest) (heq : before ++ rest = ys.flatMap encode) :
    ∃ left right, ys = left ++ right ∧ left.flatMap encode = before ∧ right.flatMap encode = rest := by
  induction ys generalizing before with
  | nil =>
      obtain ⟨rfl, rfl⟩ := List.append_eq_nil_iff.mp heq
      exact ⟨[], [], rfl, rfl, rfl⟩
  | cons y ys ih =>
      cases before with
      | nil => exact ⟨[], y :: ys, rfl, rfl, heq.symm⟩
      | cons first before =>
          obtain ⟨head, tail, hword, -, htail⟩ := h.word y
          rw [List.flatMap_cons, hword, List.cons_append, List.cons_append, List.cons.injEq] at heq
          obtain ⟨rfl, heq⟩ := heq
          rcases List.append_eq_append_iff.mp heq with ⟨inside, rfl, hinside⟩ | ⟨more, rfl, hmore⟩
          · -- the cut falls into the word, so nothing or a later symbol of it would come next
            cases inside with
            | nil =>
                obtain ⟨left, right, rfl, hleft, hright⟩ := ih ((List.nil_append rest).trans hinside)
                refine ⟨y :: left, right, rfl, ?_, hright⟩
                rw [List.flatMap_cons, hleft, hword, List.append_nil, List.append_nil]
            | cons next inside =>
                have hstarts := hrest next (by rw [hinside]; rfl)
                have hlater := htail next (List.mem_append_right _ List.mem_cons_self)
                exact absurd (hstarts.symm.trans hlater) (Bool.noConfusion)
          · obtain ⟨left, right, rfl, hleft, hright⟩ := ih hmore.symm
            refine ⟨y :: left, right, rfl, ?_, hright⟩
            rw [List.flatMap_cons, hleft, hword, List.cons_append]

/-- An encoded text found in another was a part of it. -/
theorem Code.infix_iff (h : Code starts encode) : xs.flatMap encode <:+: ys.flatMap encode ↔ xs <:+: ys := by
  constructor
  · intro hinfix
    by_cases hxs : xs = []
    · exact hxs ▸ List.nil_infix
    · obtain ⟨before, after, heq⟩ := hinfix
      rw [List.append_assoc] at heq
      obtain ⟨left, right, rfl, -, hright⟩ := h.cut (h.boundary_append hxs after) heq
      obtain ⟨zs, rfl, -⟩ := h.cut_left hright.symm
      exact ⟨left, zs, List.append_assoc left xs zs⟩
  · intro hinfix
    obtain ⟨left, right, rfl⟩ := hinfix
    exact ⟨left.flatMap encode, right.flatMap encode, by simp only [List.flatMap_append]⟩

theorem Code.prefix_iff (h : Code starts encode) : xs.flatMap encode <+: ys.flatMap encode ↔ xs <+: ys := by
  constructor
  · intro hprefix
    obtain ⟨after, heq⟩ := hprefix
    obtain ⟨zs, rfl, -⟩ := h.cut_left heq
    exact List.prefix_append xs zs
  · intro hprefix
    obtain ⟨zs, rfl⟩ := hprefix
    exact ⟨zs.flatMap encode, List.flatMap_append.symm⟩

theorem Code.suffix_iff (h : Code starts encode) : xs.flatMap encode <:+ ys.flatMap encode ↔ xs <:+ ys := by
  constructor
  · intro hsuffix
    by_cases hxs : xs = []
    · exact hxs ▸ List.nil_suffix
    · obtain ⟨before, heq⟩ := hsuffix
      have hboundary := h.boundary_append hxs []
      rw [List.append_nil] at hboundary
      obtain ⟨left, right, rfl, -, hright⟩ := h.cut hboundary heq
      exact h.flatMap_injective hright ▸ List.suffix_append left right
  · intro hsuffix
    obtain ⟨zs, rfl⟩ := hsuffix
    exact ⟨zs.flatMap encode, List.flatMap_append.symm⟩

end SelfSynchronizing
