import Mathlib.Data.List.Sort

/-!
# Rankings

A ranking is a strict order in which one of any two different entries comes before the other. In a sorted list of distinct entries the place of an entry is the number of entries that come before it, so a list cut off at a length keeps the entries that have fewer than that many before them.
-/

namespace Ranking

variable {α : Type} {before : α → α → Bool} {entries : List α} {x : α}

structure Ranks (before : α → α → Bool) : Prop where
  asymm : ∀ {a b}, before a b = true → before b a = false
  trans : ∀ {a b c}, before a b = true → before b c = true → before a c = true
  total : ∀ {a b}, a ≠ b → before a b = true ∨ before b a = true

/-- A stable sort by the ranking. -/
def sort (before : α → α → Bool) (entries : List α) : List α :=
  entries.insertionSort fun a b => before b a = false

theorem sort_perm (before : α → α → Bool) (entries : List α) : (sort before entries).Perm entries :=
  List.perm_insertionSort _ _

theorem Ranks.irrefl (h : Ranks before) (a : α) : before a a = false := by
  cases hself : before a a with
  | false => rfl
  | true => exact hself.symm.trans (h.asymm hself)

/-- Sorted distinct entries come one before the other, each before all that follow. -/
theorem Ranks.pairwise_sort (h : Ranks before) (hentries : entries.Nodup) :
    (sort before entries).Pairwise fun a b => before a b = true := by
  have htotal : Std.Total fun a b => before b a = false := by
    refine ⟨fun a b => ?_⟩
    cases hba : before b a with
    | false => exact Or.inl rfl
    | true => exact Or.inr (h.asymm hba)
  have htrans : IsTrans α fun a b => before b a = false := by
    refine ⟨fun a b c hba hcb => ?_⟩
    rw [← Bool.not_eq_true]
    intro hca
    by_cases hab : a = b
    · exact absurd hca (Bool.not_eq_true _ ▸ hab ▸ hcb)
    · rcases h.total hab with hab | hba'
      · exact absurd (h.trans hca hab) (Bool.not_eq_true _ ▸ hcb)
      · exact absurd hba' (Bool.not_eq_true _ ▸ hba)
  have hsorted := List.pairwise_insertionSort (fun a b => before b a = false) entries
  have hnodup : (sort before entries).Nodup := (sort_perm before entries).nodup_iff.mpr hentries
  apply (hsorted.and hnodup).imp
  intro a b hab
  exact (h.total hab.2).resolve_right (Bool.not_eq_true _ ▸ hab.1)

/-- Two lists of the same entries that are both in the order are one list. -/
theorem Ranks.eq_of_perm (h : Ranks before) {ranked other : List α}
    (hranked : ranked.Pairwise fun a b => before a b = true)
    (hother : other.Pairwise fun a b => before a b = true) (hperm : other.Perm ranked) : other = ranked := by
  refine List.Perm.eq_of_pairwise (fun a b _ _ hab hba => ?_) hother hranked hperm
  rw [h.asymm hab] at hba
  exact absurd hba Bool.false_ne_true

/-- The place of an entry in a sorted list is the number of entries before it. -/
theorem Ranks.mem_take_iff (h : Ranks before) (hsorted : entries.Pairwise fun a b => before a b = true)
    (hx : x ∈ entries) (length : Nat) :
    x ∈ entries.take length ↔ entries.countP (fun other => before other x) < length := by
  induction entries generalizing length with
  | nil => cases hx
  | cons first rest ih =>
      obtain ⟨hfirst, hrest⟩ := List.pairwise_cons.mp hsorted
      cases length with
      | zero => simp
      | succ length =>
          rw [List.take_succ_cons, List.mem_cons, List.countP_cons]
          by_cases hsame : x = first
          · have hnone : rest.countP (fun other => before other first) = 0 := by
              refine List.countP_eq_zero.mpr fun other hother => ?_
              rw [h.asymm (hfirst other hother)]
              exact Bool.false_ne_true
            rw [hsame, hnone, h.irrefl first]
            simp
          · have hx' : x ∈ rest := (List.mem_cons.mp hx).resolve_left hsame
            rw [ih hrest hx' length, if_pos (hfirst x hx')]
            simp [hsame]

/-- Sorting and cutting off keeps the entries that have few enough others before them. -/
theorem Ranks.mem_take_sort_iff (h : Ranks before) (hentries : entries.Nodup) (hx : x ∈ entries) (length : Nat) :
    x ∈ (sort before entries).take length ↔ entries.countP (fun other => before other x) < length := by
  have hperm := sort_perm before entries
  rw [h.mem_take_iff (h.pairwise_sort hentries) (hperm.mem_iff.mpr hx) length, hperm.countP_eq]

/-! ### Scores

Where entries are sorted by a score alone, equal scores keep the order they had. With that order behind the score no two entries are equal, so the result is one list.
-/

section Scores

variable {score : α → Int} {earlier : α → α → Prop}

/-- The higher score, or the earlier of equal ones. -/
def ByScore (score : α → Int) (earlier : α → α → Prop) (a b : α) : Prop :=
  score b < score a ∨ (score a = score b ∧ earlier a b)

theorem pairwise_orderedInsert (hx : ∀ a ∈ entries, earlier x a)
    (h : entries.Pairwise (ByScore score earlier)) :
    (entries.orderedInsert (fun a b => score a ≥ score b) x).Pairwise (ByScore score earlier) := by
  induction entries with
  | nil => simp
  | cons first rest ih =>
      obtain ⟨hfirst, hrest⟩ := List.pairwise_cons.mp h
      obtain ⟨hxfirst, hxrest⟩ := List.forall_mem_cons.mp hx
      have hplace : ∀ a, earlier x a → score x ≥ score a → ByScore score earlier x a := by
        intro a hearlier hscore
        rcases lt_or_eq_of_le hscore with hlt | heq
        · exact Or.inl hlt
        · exact Or.inr ⟨heq.symm, hearlier⟩
      by_cases hbefore : score x ≥ score first
      · rw [List.orderedInsert_cons, if_pos hbefore]
        refine List.pairwise_cons.mpr ⟨List.forall_mem_cons.mpr ⟨hplace first hxfirst hbefore, ?_⟩, h⟩
        intro a ha
        refine hplace a (hxrest a ha) (le_trans ?_ hbefore)
        rcases hfirst a ha with hlt | ⟨heq, -⟩
        · exact le_of_lt hlt
        · exact le_of_eq heq.symm
      · rw [List.orderedInsert_cons, if_neg hbefore]
        refine List.pairwise_cons.mpr ⟨fun a ha => ?_, ih hxrest hrest⟩
        rcases (List.mem_orderedInsert _).mp ha with rfl | hmem
        · exact Or.inl (not_le.mp hbefore)
        · exact hfirst a hmem

theorem pairwise_insertionSort (h : entries.Pairwise earlier) :
    (entries.insertionSort fun a b => score a ≥ score b).Pairwise (ByScore score earlier) := by
  induction entries with
  | nil => simp
  | cons first rest ih =>
      obtain ⟨hfirst, hrest⟩ := List.pairwise_cons.mp h
      rw [List.insertionSort_cons]
      exact pairwise_orderedInsert (fun a ha => hfirst a ((List.mem_insertionSort _).mp ha)) (ih hrest)

end Scores

end Ranking
