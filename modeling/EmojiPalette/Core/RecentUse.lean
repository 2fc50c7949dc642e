import EmojiPalette.Core.StateRuns
import EmojiPalette.Library.Ranking

/-!
# Where a used sequence ends up

A use is counted first and ranked afterwards, together with all the other entries, and the cap cuts the ranking off. So the entry of the sequence just used stays only when its time, and behind that its count, puts it among the first.
-/

namespace EmojiPalette

open Ranking

namespace PersistentState

theorem precedes_eq_true_iff {left right : RecentEntry} :
    precedes left right = true ↔ right.lastUsed < left.lastUsed ∨ (left.lastUsed = right.lastUsed ∧
      (right.useCount < left.useCount ∨
        (left.useCount = right.useCount ∧ left.sequence < right.sequence))) := by
  unfold precedes
  split
  · grind
  · split <;> grind

private theorem sequence_lt_or_gt {left right : Bytes} (h : left ≠ right) : left < right ∨ right < left := by
  rcases Std.Trichotomous.rel_or_eq_or_rel_swap (r := fun x y : Bytes => x < y) (a := left) (b := right) with
    hlt | heq | hgt
  · exact Or.inl hlt
  · exact absurd heq h
  · exact Or.inr hgt

theorem ranks_precedes : Ranks precedes where
  asymm := by
    intro left right h
    have hsequence : ∀ {x y : Bytes}, x < y → ¬ y < x := fun hlt hgt => List.lt_asymm hlt hgt
    rw [← Bool.not_eq_true, precedes_eq_true_iff]
    rw [precedes_eq_true_iff] at h
    grind
  trans := by
    intro left middle right hleft hright
    have hsequence : ∀ {x y z : Bytes}, x < y → y < z → x < z := fun hxy hyz => List.lt_trans hxy hyz
    rw [precedes_eq_true_iff] at hleft hright ⊢
    grind
  total := by
    intro left right hne
    rw [precedes_eq_true_iff, precedes_eq_true_iff]
    by_cases hsequence : left.sequence = right.sequence
    · have hkeys : left.lastUsed ≠ right.lastUsed ∨ left.useCount ≠ right.useCount := by
        by_contra hsame
        rw [not_or, not_not, not_not] at hsame
        obtain ⟨leftSequence, leftCount, leftTime⟩ := left
        obtain ⟨rightSequence, rightCount, rightTime⟩ := right
        exact hne (RecentEntry.mk.injEq .. ▸ ⟨hsequence, hsame.2, hsame.1⟩)
      grind
    · have hlt := sequence_lt_or_gt hsequence
      grind

theorem sortRecents_eq (recents : List RecentEntry) : sortRecents recents = sort precedes recents := rfl

/-- The entry of the sequence after a use: counted up from the entry there was, or the first use. -/
def usedEntry (sequence : Bytes) (timestamp : Int64) (recents : List RecentEntry) : RecentEntry :=
  ⟨sequence,
    match recents.find? fun entry => entry.sequence = sequence with
    | some entry => entry.useCount + 1
    | none => 1,
    timestamp⟩

def otherEntries (sequence : Bytes) (recents : List RecentEntry) : List RecentEntry :=
  recents.filter fun entry => entry.sequence ≠ sequence

theorem otherEntries_eq_self {sequence : Bytes} {recents : List RecentEntry}
    (h : sequence ∉ recents.map (·.sequence)) : otherEntries sequence recents = recents := by
  refine List.filter_eq_self.mpr fun entry hentry => decide_eq_true fun heq => h ?_
  exact heq ▸ List.mem_map_of_mem hentry

theorem countUse_perm (sequence : Bytes) (timestamp : Int64) {recents : List RecentEntry}
    (h : (recents.map (·.sequence)).Nodup) :
    (countUse sequence timestamp recents).Perm
      (usedEntry sequence timestamp recents :: otherEntries sequence recents) := by
  induction recents with
  | nil => exact List.Perm.refl _
  | cons head rest ih =>
      rw [List.map_cons, List.nodup_cons] at h
      rw [countUse]
      by_cases hsame : head.sequence = sequence
      · have hothers : otherEntries sequence (head :: rest) = rest := by
          rw [otherEntries, List.filter_cons_of_neg (by simp [hsame])]
          exact otherEntries_eq_self (hsame ▸ h.1)
        have hused : usedEntry sequence timestamp (head :: rest) =
            { head with useCount := head.useCount + 1, lastUsed := timestamp } := by
          simp [usedEntry, hsame]
        rw [if_pos hsame, hothers, hused]
      · have hothers : otherEntries sequence (head :: rest) = head :: otherEntries sequence rest := by
          rw [otherEntries, List.filter_cons_of_pos (by simp [hsame])]
          rfl
        have hused : usedEntry sequence timestamp (head :: rest) = usedEntry sequence timestamp rest := by
          simp [usedEntry, hsame]
        rw [if_neg hsame, hothers, hused]
        exact ((ih h.2).cons head).trans (List.Perm.swap _ _ _)

theorem recents_recordUse (state : PersistentState) (sequence : Bytes) (timestamp : Int64) (maximumEntries : Nat) :
    (state.recordUse sequence timestamp maximumEntries).recents =
      (sort precedes (countUse sequence timestamp state.recents)).take maximumEntries := by
  rw [← sortRecents_eq, recordUse]
  by_cases hlong : (sortRecents (countUse sequence timestamp state.recents)).length > maximumEntries
  · simp only [hlong, if_true]
  · simp only [hlong, if_false]
    rw [List.take_of_length_le (by omega)]

/-- The entry of the sequence just used is kept exactly when fewer others come before it than the cap allows, as when it is the latest; otherwise nothing is left of it. -/
theorem usedEntry_mem_recordUse_iff (state : PersistentState) (sequence : Bytes) (timestamp : Int64)
    (maximumEntries : Nat) (hrecents : (state.recents.map (·.sequence)).Nodup) :
    let used := usedEntry sequence timestamp state.recents
    let recents := (state.recordUse sequence timestamp maximumEntries).recents
    (used ∈ recents ↔
      (otherEntries sequence state.recents).countP (fun other => precedes other used) < maximumEntries) ∧
    (∀ entry ∈ recents, entry.sequence = sequence → entry = used) ∧
    (1 ≤ maximumEntries → (∀ other ∈ otherEntries sequence state.recents, other.lastUsed < timestamp) →
      used ∈ recents) := by
  have hperm := countUse_perm sequence timestamp hrecents
  have hnodup : (countUse sequence timestamp state.recents).Nodup := (nodup_countUse hrecents).of_map
  have hmem := hperm.mem_iff.mpr (List.mem_cons_self (a := usedEntry sequence timestamp state.recents))
  have hkept : usedEntry sequence timestamp state.recents ∈
      (state.recordUse sequence timestamp maximumEntries).recents ↔
        (otherEntries sequence state.recents).countP
          (fun other => precedes other (usedEntry sequence timestamp state.recents)) < maximumEntries := by
    rw [recents_recordUse, ranks_precedes.mem_take_sort_iff hnodup hmem, hperm.countP_eq, List.countP_cons,
      ranks_precedes.irrefl]
    simp
  refine ⟨hkept, fun entry hentry hsequence => ?_, fun hcap hlatest => hkept.mpr ?_⟩
  · have hentry := (recordUse_subperm state sequence timestamp maximumEntries).subset hentry
    rcases List.mem_cons.mp (hperm.mem_iff.mp hentry) with hused | hother
    · exact hused
    · have hne := (List.mem_filter.mp hother).2
      exact absurd hsequence (of_decide_eq_true hne)
  · have hnone : (otherEntries sequence state.recents).countP
        (fun other => precedes other (usedEntry sequence timestamp state.recents)) = 0 := by
      refine List.countP_eq_zero.mpr fun other hother hbefore => ?_
      have hearlier : precedes (usedEntry sequence timestamp state.recents) other = true :=
        precedes_eq_true_iff.mpr (Or.inl (hlatest other hother))
      rw [ranks_precedes.asymm hearlier] at hbefore
      cases hbefore
    omega

/-- A clock that moved back, with a cap of two. -/
theorem usedEntry_mem_recordUse_two :
    (⟨[97], 4, 6⟩ : RecentEntry) ∈ (recordUse ⟨[], [⟨[98], 1, 5⟩, ⟨[97], 3, 2⟩, ⟨[99], 9, 7⟩]⟩ [97] 6 2).recents :=
  (usedEntry_mem_recordUse_iff ⟨[], [⟨[98], 1, 5⟩, ⟨[97], 3, 2⟩, ⟨[99], 9, 7⟩]⟩ [97] 6 2 (by decide)).1.mpr
    (by decide)

/-- A use with a clock behind the one entry there is leaves nothing when the cap is one. -/
theorem recordUse_lost :
    ∃ (state : PersistentState) (sequence : Bytes) (timestamp : Int64) (maximumEntries : Nat),
      (state.recents.map (·.sequence)).Nodup ∧ 1 ≤ maximumEntries ∧
        ∀ entry ∈ (state.recordUse sequence timestamp maximumEntries).recents, entry.sequence ≠ sequence :=
  ⟨⟨[], [⟨[98], 1, 5⟩]⟩, [97], 4, 1, by decide, by decide, by decide⟩

/-! ### What the two operations leave of a state

The first list below is the ranking a reader would write down: the used entry and all the others, each strictly before the ones that follow it. Only one list is in that order, so the stable sort has no freedom.
-/

/-- Latest use first, then most uses, then the sequence. -/
def RankedBefore (left right : RecentEntry) : Prop :=
  right.lastUsed < left.lastUsed ∨ (left.lastUsed = right.lastUsed ∧
    (right.useCount < left.useCount ∨ (left.useCount = right.useCount ∧ left.sequence < right.sequence)))

theorem rankedBefore_iff {left right : RecentEntry} : RankedBefore left right ↔ precedes left right = true :=
  precedes_eq_true_iff.symm

theorem pairwise_rankedBefore_iff {recents : List RecentEntry} :
    recents.Pairwise RankedBefore ↔ recents.Pairwise fun left right => precedes left right = true :=
  List.Pairwise.iff fun _ _ => rankedBefore_iff

theorem existsUnique_ranking (sequence : Bytes) (timestamp : Int64) {recents : List RecentEntry}
    (h : (recents.map (·.sequence)).Nodup) :
    let entries := usedEntry sequence timestamp recents :: otherEntries sequence recents
    let ranked := sort precedes (countUse sequence timestamp recents)
    ranked.Pairwise RankedBefore ∧ ranked.Perm entries ∧
      ∀ other, other.Pairwise RankedBefore → other.Perm entries → other = ranked := by
  have hnodup : (countUse sequence timestamp recents).Nodup := (nodup_countUse h).of_map
  have hsorted := ranks_precedes.pairwise_sort hnodup
  have hperm := (sort_perm precedes _).trans (countUse_perm sequence timestamp h)
  refine ⟨pairwise_rankedBefore_iff.mpr hsorted, hperm, fun other hother hentries => ?_⟩
  exact ranks_precedes.eq_of_perm hsorted (pairwise_rankedBefore_iff.mp hother) (hentries.trans hperm.symm)

/-- Only the toggled sequence changes sides. -/
theorem mem_toggleFavorite_iff {state : PersistentState} (sequence : Bytes) (h : state.favorites.Nodup)
    (other : Bytes) :
    other ∈ (state.toggleFavorite sequence).favorites ↔
      if other = sequence then other ∉ state.favorites else other ∈ state.favorites := by
  by_cases hmem : sequence ∈ state.favorites
  · rw [favorites_toggleFavorite_of_mem hmem, h.mem_erase_iff]
    by_cases hsame : other = sequence
    · simp [hsame, hmem]
    · simp [hsame]
  · rw [favorites_toggleFavorite_of_not_mem hmem, List.mem_append, List.mem_singleton]
    by_cases hsame : other = sequence
    · simp [hsame, hmem]
    · simp [hsame]

theorem filter_toggleFavorite {state : PersistentState} (sequence : Bytes) (h : state.favorites.Nodup) :
    ((state.toggleFavorite sequence).favorites.filter fun other => other ≠ sequence) =
      state.favorites.filter fun other => other ≠ sequence := by
  by_cases hmem : sequence ∈ state.favorites
  · rw [favorites_toggleFavorite_of_mem hmem, h.erase_eq_filter, List.filter_filter]
    exact List.filter_congr fun other _ => by simp
  · rw [favorites_toggleFavorite_of_not_mem hmem]
    simp

/-- A favorite added at the end is the one taken away again. -/
theorem toggleFavorite_toggleFavorite {state : PersistentState} {sequence : Bytes}
    (h : sequence ∉ state.favorites) :
    (state.toggleFavorite sequence).toggleFavorite sequence = state := by
  have hone : state.toggleFavorite sequence = { state with favorites := state.favorites ++ [sequence] } := if_neg h
  have hmem : sequence ∈ state.favorites ++ [sequence] := List.mem_append_right _ List.mem_cons_self
  rw [hone, toggleFavorite, if_pos hmem]
  simp only [List.erase_append_right _ h, List.erase_cons_head, List.append_nil]

/-- A recorded use ranks the used entry among the untouched others and cuts the one ranking there is off at the cap; a toggle changes sides for its sequence alone. Both leave the other half of the state as it is and keep the sequences distinct. -/
theorem recordUse_toggleFavorite_spec (state : PersistentState) (sequence : Bytes) (timestamp : Int64)
    (maximumEntries : Nat) (hfavorites : state.favorites.Nodup)
    (hrecents : (state.recents.map (·.sequence)).Nodup) :
    let used := usedEntry sequence timestamp state.recents
    let others := otherEntries sequence state.recents
    let recorded := state.recordUse sequence timestamp maximumEntries
    let toggled := state.toggleFavorite sequence
    (recorded.favorites = state.favorites ∧
      (∃ ranked : List RecentEntry, ranked.Pairwise RankedBefore ∧ ranked.Perm (used :: others) ∧
        (∀ other, other.Pairwise RankedBefore → other.Perm (used :: others) → other = ranked) ∧
        recorded.recents = ranked.take maximumEntries) ∧
      (recorded.recents.map (·.sequence)).Nodup) ∧
    (toggled.recents = state.recents ∧
      (∀ other, other ∈ toggled.favorites ↔
        if other = sequence then other ∉ state.favorites else other ∈ state.favorites) ∧
      (toggled.favorites.filter fun other => other ≠ sequence) =
        (state.favorites.filter fun other => other ≠ sequence) ∧
      (sequence ∉ state.favorites → toggled.toggleFavorite sequence = state) ∧
      toggled.favorites.Nodup) := by
  obtain ⟨hsorted, hperm, hunique⟩ := existsUnique_ranking sequence timestamp hrecents
  constructor
  · have hcut := recents_recordUse state sequence timestamp maximumEntries
    exact ⟨rfl, ⟨_, hsorted, hperm, hunique, hcut⟩,
      nodup_recordUse state sequence timestamp maximumEntries hrecents⟩
  · exact ⟨recents_toggleFavorite state sequence, mem_toggleFavorite_iff sequence hfavorites,
      filter_toggleFavorite sequence hfavorites, toggleFavorite_toggleFavorite,
      nodup_toggleFavorite sequence hfavorites⟩

/-- A second use of one of two entries, with a cap of two. -/
theorem recordUse_toggleFavorite_spec_two :
    ([97] : Bytes) ∉ (toggleFavorite ⟨[[97], [98]], [⟨[98], 1, 5⟩, ⟨[97], 3, 2⟩]⟩ [97]).favorites ∧
      (recordUse ⟨[[97], [98]], [⟨[98], 1, 5⟩, ⟨[97], 3, 2⟩]⟩ [97] 6 2).favorites = [[97], [98]] := by
  have hspec := recordUse_toggleFavorite_spec ⟨[[97], [98]], [⟨[98], 1, 5⟩, ⟨[97], 3, 2⟩]⟩ [97] 6 2
    (by decide) (by decide)
  refine ⟨fun hmem => ?_, hspec.1.1⟩
  have hflip := (hspec.2.2.1 [97]).mp hmem
  rw [if_pos rfl] at hflip
  exact hflip (by decide)

end PersistentState

end EmojiPalette
