import Mathlib.Data.List.Dedup
import Mathlib.Data.List.Perm.Subperm

/-!
# Moving to the front

A list of what was used last has each used element moved to its front, and a bound cuts it off behind. Kept that way, it is at every moment the first part of all that was ever used, each element once, the latest first: what the bound has cut off does not matter later.
-/

namespace MoveToFront

variable {α : Type} [DecidableEq α]

/-- The element at the front, and nowhere else. -/
def touch (x : α) (entries : List α) : List α := x :: entries.erase x

theorem touch_of_nodup {entries : List α} (h : entries.Nodup) (x : α) :
    touch x entries = x :: entries.filter fun entry => entry ≠ x := by
  rw [touch, h.erase_eq_filter]
  refine congrArg _ (List.filter_congr fun entry _ => ?_)
  rw [decide_not, bne, beq_eq_decide]

/-- All that was used, each element at its latest use, the latest first. -/
def newest (uses : List α) : List α := uses.dedup.reverse

theorem nodup_newest (uses : List α) : (newest uses).Nodup := List.nodup_reverse.mpr uses.nodup_dedup

theorem mem_newest {uses : List α} {x : α} : x ∈ newest uses ↔ x ∈ uses := by
  rw [newest, List.mem_reverse, List.mem_dedup]

theorem length_newest_append_le (uses more : List α) : (newest uses).length ≤ (newest (uses ++ more)).length := by
  have hsub : newest uses ⊆ newest (uses ++ more) := fun x hx =>
    mem_newest.mpr (List.mem_append_left _ (mem_newest.mp hx))
  exact (List.subperm_of_subset (nodup_newest uses) hsub).length_le

theorem dedup_append_singleton (uses : List α) (x : α) : (uses ++ [x]).dedup = uses.dedup.erase x ++ [x] := by
  induction uses with
  | nil => simp
  | cons use rest ih =>
      rw [List.cons_append]
      by_cases hrest : use ∈ rest
      · rw [List.dedup_cons_of_mem (List.mem_append_left _ hrest), ih, List.dedup_cons_of_mem hrest]
      by_cases hsame : use = x
      · have hnew : x ∉ rest.dedup := fun hmem => hrest (hsame ▸ List.mem_dedup.mp hmem)
        rw [List.dedup_cons_of_mem (by simp [hsame]), ih, List.dedup_cons_of_notMem hrest, hsame, List.erase_cons_head,
          List.erase_of_not_mem hnew]
      · have hnew : use ∉ rest ++ [x] := by simp [hrest, hsame]
        rw [List.dedup_cons_of_notMem hnew, ih, List.dedup_cons_of_notMem hrest,
          List.erase_cons_tail (by simpa using hsame), List.cons_append]

/-- One more use moves its element to the front. -/
theorem newest_append_singleton (uses : List α) (x : α) : newest (uses ++ [x]) = touch x (newest uses) := by
  rw [newest, dedup_append_singleton, List.reverse_append, List.reverse_singleton, List.singleton_append, touch, newest,
    uses.nodup_dedup.erase_eq_filter, (List.nodup_reverse.mpr uses.nodup_dedup).erase_eq_filter, List.filter_reverse]

theorem take_erase_take (bound : Nat) (x : α) (entries : List α) :
    ((entries.take (bound + 1)).erase x).take bound = (entries.erase x).take bound := by
  induction entries generalizing bound with
  | nil => rfl
  | cons entry rest ih =>
      rw [List.take_succ_cons]
      by_cases hsame : entry = x
      · rw [hsame, List.erase_cons_head, List.erase_cons_head, List.take_take, Nat.min_self]
      · rw [List.erase_cons_tail (by simpa using hsame), List.erase_cons_tail (by simpa using hsame)]
        cases bound with
        | zero => rfl
        | succ bound => rw [List.take_succ_cons, List.take_succ_cons, ih]

/-- What was cut off before does not matter for what is kept. -/
theorem take_touch_take (bound : Nat) (x : α) (entries : List α) :
    (touch x (entries.take bound)).take bound = (touch x entries).take bound := by
  cases bound with
  | zero => rfl
  | succ bound => rw [touch, touch, List.take_succ_cons, List.take_succ_cons, take_erase_take]

end MoveToFront
