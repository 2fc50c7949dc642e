import EmojiPalette.Core.RecentUse
import EmojiPalette.Library.MoveToFront

/-!
# The recents are what was used last

The recents are ranked by time, count and sequence, and cut off behind. While the clock moves on from one use to the next the time alone decides, and the recents are then the sequences used last, each once and the latest first, whatever has been cut off on the way and however many favorites have been toggled in between.
-/

namespace EmojiPalette

open MoveToFront Trace

namespace PersistentState

/-- The uses among the operations, with their times. -/
def uses (operations : List Operation) : List (Bytes × Int64) :=
  operations.filterMap fun
    | .recordUse sequence timestamp => some (sequence, timestamp)
    | .toggleFavorite _ => none

theorem run_append (operations more : List Operation) (state : PersistentState) :
    run (operations ++ more) state = run more (run operations state) :=
  List.foldl_append

theorem uses_append (operations more : List Operation) : uses (operations ++ more) = uses operations ++ uses more :=
  List.filterMap_append

section Latest

variable {state : PersistentState} {sequence : Bytes} {timestamp : Int64}

theorem map_sequence_usedEntry_cons {recents : List RecentEntry} (h : (recents.map (·.sequence)).Nodup) :
    (usedEntry sequence timestamp recents :: otherEntries sequence recents).map (·.sequence) =
      touch sequence (recents.map (·.sequence)) := by
  rw [touch_of_nodup h, List.filter_map, List.map_cons, otherEntries]
  rfl

/-- A use later than all there are comes to the front, and the others stay in their order. -/
theorem recents_recordUse_of_latest (hnodup : (state.recents.map (·.sequence)).Nodup)
    (hsorted : state.recents.Pairwise fun left right => right.lastUsed < left.lastUsed)
    (hlatest : ∀ entry ∈ state.recents, entry.lastUsed < timestamp) (maximumEntries : Nat) :
    (state.recordUse sequence timestamp maximumEntries).recents =
      (usedEntry sequence timestamp state.recents :: otherEntries sequence state.recents).take maximumEntries := by
  obtain ⟨-, -, hunique⟩ := existsUnique_ranking sequence timestamp hnodup
  rw [recents_recordUse]
  refine congrArg (List.take maximumEntries) (hunique _ (List.pairwise_cons.mpr ⟨fun entry hentry => ?_, ?_⟩) (List.Perm.refl _)).symm
  · exact Or.inl (hlatest entry (List.mem_of_mem_filter hentry))
  · exact (hsorted.filter _).imp fun hbefore => Or.inl hbefore

end Latest

/-! ### The recents of a history -/

/-- The recents are what the history of uses makes them: the sequences used last, each with the time of its last use. -/
structure Recorded (history : List (Bytes × Int64)) (recents : List RecentEntry) : Prop where
  sequences : recents.map (·.sequence) = (newest (history.map (·.1))).take defaultMaximumEntries
  sorted : recents.Pairwise fun left right => right.lastUsed < left.lastUsed
  last : ∀ entry ∈ recents, ∃ newer,
    Since (fun use => use.1 = entry.sequence) history (entry.sequence, entry.lastUsed) newer
  /-- As long as nothing has been cut off, every use counts. -/
  counted : (newest (history.map (·.1))).length ≤ defaultMaximumEntries → ∀ entry ∈ recents,
    entry.useCount = UInt64.ofNat ((history.map (·.1)).count entry.sequence)

theorem Recorded.nodup {history : List (Bytes × Int64)} {recents : List RecentEntry} (h : Recorded history recents) :
    (recents.map (·.sequence)).Nodup := by
  rw [h.sequences]
  exact (nodup_newest _).sublist (List.take_sublist _ _)

theorem Recorded.mem_history {history : List (Bytes × Int64)} {recents : List RecentEntry} {entry : RecentEntry}
    (h : Recorded history recents) (hentry : entry ∈ recents) : (entry.sequence, entry.lastUsed) ∈ history := by
  obtain ⟨newer, older, hhistory, -⟩ := h.last entry hentry
  rw [hhistory]
  exact List.mem_append_right _ List.mem_cons_self

/-- The count of the entry just used is one more than before, and before it was the number of uses, which is none for a sequence that has no entry. -/
theorem Recorded.useCount_usedEntry {history : List (Bytes × Int64)} {recents : List RecentEntry} {sequence : Bytes}
    (h : Recorded history recents) (timestamp : Int64)
    (hall : (newest (history.map (·.1))).length ≤ defaultMaximumEntries) :
    (usedEntry sequence timestamp recents).useCount = UInt64.ofNat ((history.map (·.1)).count sequence + 1) := by
  rw [usedEntry]
  cases hfind : recents.find? (fun entry => entry.sequence = sequence) with
  | none =>
      have hunused : sequence ∉ history.map (·.1) := by
        intro hused
        have hmem := mem_newest.mpr hused
        rw [← List.take_of_length_le hall, ← h.sequences] at hmem
        obtain ⟨entry, hentry, hsame⟩ := List.mem_map.mp hmem
        exact absurd (decide_eq_true hsame) (List.find?_eq_none.mp hfind entry hentry)
      rw [List.count_eq_zero_of_not_mem hunused]
      rfl
  | some entry =>
      have hsame : entry.sequence = sequence := by simpa using List.find?_some hfind
      have hcount := h.counted hall entry (List.mem_of_find?_eq_some hfind)
      dsimp only
      rw [hcount, hsame, UInt64.ofNat_add]
      rfl

theorem Recorded.recordUse {history : List (Bytes × Int64)} {state : PersistentState} {sequence : Bytes}
    {timestamp : Int64} (h : Recorded history state.recents) (hlater : ∀ use ∈ history, use.2 < timestamp) :
    Recorded (history ++ [(sequence, timestamp)])
      (state.recordUse sequence timestamp defaultMaximumEntries).recents := by
  have hlatest : ∀ entry ∈ state.recents, entry.lastUsed < timestamp := fun entry hentry =>
    hlater (entry.sequence, entry.lastUsed) (h.mem_history hentry)
  rw [recents_recordUse_of_latest h.nodup h.sorted hlatest]
  have hmem : ∀ entry ∈ (usedEntry sequence timestamp state.recents ::
      otherEntries sequence state.recents).take defaultMaximumEntries,
      entry = usedEntry sequence timestamp state.recents ∨ entry ∈ state.recents ∧ entry.sequence ≠ sequence := by
    intro entry hentry
    rcases List.mem_cons.mp (List.mem_of_mem_take hentry) with hused | hother
    · exact Or.inl hused
    · exact Or.inr ⟨List.mem_of_mem_filter hother, of_decide_eq_true (List.mem_filter.mp hother).2⟩
  have hhistory : newest ((history ++ [(sequence, timestamp)]).map (·.1)) = touch sequence (newest (history.map (·.1))) := by
    rw [List.map_append, List.map_singleton, newest_append_singleton]
  refine ⟨?_, ?_, fun entry hentry => ?_, fun hall entry hentry => ?_⟩
  · rw [hhistory, ← take_touch_take, ← h.sequences, List.map_take, map_sequence_usedEntry_cons h.nodup]
  · have hall : (usedEntry sequence timestamp state.recents :: otherEntries sequence state.recents).Pairwise
        fun left right => right.lastUsed < left.lastUsed :=
      List.pairwise_cons.mpr ⟨fun entry hentry => hlatest entry (List.mem_of_mem_filter hentry), h.sorted.filter _⟩
    exact hall.sublist (List.take_sublist _ _)
  · rcases hmem entry hentry with rfl | ⟨hold, hne⟩
    · exact ⟨[], since_snoc_self _ _ _⟩
    · obtain ⟨newer, hsince⟩ := h.last entry hold
      exact ⟨_, hsince.snoc (Ne.symm hne)⟩
  · have hfew : (newest (history.map (·.1))).length ≤ defaultMaximumEntries := by
      rw [List.map_append] at hall
      exact le_trans (length_newest_append_le _ _) hall
    rw [List.map_append, List.count_append, List.map_singleton]
    rcases hmem entry hentry with rfl | ⟨hold, hne⟩
    · rw [h.useCount_usedEntry timestamp hfew]
      simp [usedEntry]
    · rw [h.counted hfew entry hold, List.count_singleton]
      simp [Ne.symm hne]

/-- Whatever the operations, as long as the clock moves on between the uses among them: the recents are the sequences used last, as many as there is room for, each once and with the time of its last use; as long as there was room for all, each is counted as often as it was used. -/
theorem recents_run_of_clock {operations : List Operation}
    (hclock : (uses operations).Pairwise fun earlier later => earlier.2 < later.2) :
    let recents := (run operations empty).recents
    recents.map (·.sequence) = (newest ((uses operations).map (·.1))).take defaultMaximumEntries ∧
      (∀ entry ∈ recents, ∃ newer,
        Since (fun use => use.1 = entry.sequence) (uses operations) (entry.sequence, entry.lastUsed) newer) ∧
      ((newest ((uses operations).map (·.1))).length ≤ defaultMaximumEntries → ∀ entry ∈ recents,
        entry.useCount = UInt64.ofNat (((uses operations).map (·.1)).count entry.sequence)) := by
  have hrecorded : Recorded (uses operations) (run operations empty).recents := by
    induction operations using List.reverseRecOn with
    | nil => exact ⟨rfl, List.Pairwise.nil, fun _ h => absurd h List.not_mem_nil, fun _ _ h => absurd h List.not_mem_nil⟩
    | append_singleton operations operation ih =>
        rw [uses_append] at hclock ⊢
        obtain ⟨hbefore, -, hlast⟩ := List.pairwise_append.mp hclock
        rw [run_append]
        cases operation with
        | toggleFavorite sequence =>
            have hsame : (run [.toggleFavorite sequence] (run operations empty)).recents = (run operations empty).recents :=
              recents_toggleFavorite _ sequence
            rw [hsame]
            exact (List.append_nil (uses operations)).symm ▸ ih hbefore
        | recordUse sequence timestamp =>
            exact (ih hbefore).recordUse fun use huse => hlast use huse _ (List.mem_singleton_self _)
  exact ⟨hrecorded.sequences, hrecorded.last, hrecorded.counted⟩

/-- Two sequences used in turn, with a favorite in between. -/
theorem recents_run_of_clock_three :
    ((run [.recordUse [97] 1, .toggleFavorite [98], .recordUse [98] 2, .recordUse [97] 5] empty).recents.map
      (·.sequence)) = [[97], [98]] := by
  have hclock : (uses [.recordUse [97] 1, .toggleFavorite [98], .recordUse [98] 2, .recordUse [97] 5]).Pairwise
      fun earlier later => earlier.2 < later.2 := by decide +kernel
  exact (recents_run_of_clock hclock).1.trans (by decide +kernel)

end PersistentState

end EmojiPalette
