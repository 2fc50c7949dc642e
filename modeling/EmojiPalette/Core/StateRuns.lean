import EmojiPalette.Core.StateText
import EmojiPalette.Library.Trace

/-!
# Runs of the state operations

The user's actions change the state only through `toggleFavorite` and `recordUse`. Counting a use keeps the state writable as long as the count does not wrap around; adding a favorite keeps it writable only below the limit of the writer, which `toggleFavorite` does not look at.
-/

namespace EmojiPalette

open Trace

namespace PersistentState

/-- A call of one of the two operations that change the state. -/
inductive Operation
  | toggleFavorite (sequence : Bytes)
  | recordUse (sequence : Bytes) (timestamp : Int64)

namespace Operation

def sequence : Operation → Bytes
  | .toggleFavorite sequence => sequence
  | .recordUse sequence _ => sequence

def apply : Operation → PersistentState → PersistentState
  | .toggleFavorite sequence, state => state.toggleFavorite sequence
  | .recordUse sequence timestamp, state => state.recordUse sequence timestamp defaultMaximumEntries

end Operation

def run (operations : List Operation) (state : PersistentState) : PersistentState :=
  operations.foldl (fun current operation => operation.apply current) state

/-- The states the program starts from: the empty one, and any that can be read. -/
def Loadable (state : PersistentState) : Prop :=
  state = empty ∨ ∃ content, parseState content = some state

/-- What keeps a call from making the state unwritable: a new favorite needs room, and a use count must not wrap. -/
def Fits (state : PersistentState) : Operation → Prop
  | .toggleFavorite sequence => sequence ∈ state.favorites ∨ state.favorites.length < maximumFavorites
  | .recordUse sequence _ => ∀ entry ∈ state.recents, entry.sequence = sequence → entry.useCount + 1 ≠ 0

theorem Loadable.storable {state : PersistentState} (h : Loadable state) : Storable state := by
  rcases h with rfl | ⟨content, hcontent⟩
  · exact storable_empty
  · exact storable_of_parseState hcontent

/-! ### Favorites -/

theorem favorites_toggleFavorite_of_mem {state : PersistentState} {sequence : Bytes}
    (h : sequence ∈ state.favorites) :
    (state.toggleFavorite sequence).favorites = state.favorites.erase sequence := by
  rw [toggleFavorite, if_pos h]

theorem favorites_toggleFavorite_of_not_mem {state : PersistentState} {sequence : Bytes}
    (h : sequence ∉ state.favorites) :
    (state.toggleFavorite sequence).favorites = state.favorites ++ [sequence] := by
  rw [toggleFavorite, if_neg h]

theorem recents_toggleFavorite (state : PersistentState) (sequence : Bytes) :
    (state.toggleFavorite sequence).recents = state.recents := by
  rw [toggleFavorite]
  split <;> rfl

theorem nodup_toggleFavorite {state : PersistentState} (sequence : Bytes) (h : state.favorites.Nodup) :
    (state.toggleFavorite sequence).favorites.Nodup := by
  by_cases hmem : sequence ∈ state.favorites
  · rw [favorites_toggleFavorite_of_mem hmem]
    exact h.erase sequence
  · rw [favorites_toggleFavorite_of_not_mem hmem, ← List.concat_eq_append]
    exact h.concat hmem

/-- A toggled favorite leaves the state writable exactly when it was a favorite before or there was room. -/
theorem storable_toggleFavorite_iff {state : PersistentState} {sequence : Bytes} (hstate : Storable state)
    (hsequence : validSequence sequence = true) :
    Storable (state.toggleFavorite sequence) ↔ Fits state (.toggleFavorite sequence) := by
  have hnodup := nodup_toggleFavorite sequence hstate.favorites_nodup
  unfold toggleFavorite at hnodup ⊢
  unfold Fits
  split
  · rename_i hmem
    rw [if_pos hmem] at hnodup
    refine ⟨fun _ => Or.inl hmem, fun _ => ?_⟩
    have hsub := List.erase_sublist (a := sequence) (l := state.favorites)
    exact { hstate with
      favorites_length := le_trans hsub.length_le hstate.favorites_length
      favorites_valid := fun other hother => hstate.favorites_valid other (hsub.mem hother)
      favorites_nodup := hnodup }
  · rename_i hnew
    rw [if_neg hnew] at hnodup
    constructor
    · intro h
      have hlength := h.favorites_length
      simp only [List.length_append, List.length_cons, List.length_nil] at hlength
      exact Or.inr (by omega)
    · rintro (hmem | hroom)
      · exact absurd hmem hnew
      · exact { hstate with
          favorites_length := by simpa using hroom
          favorites_valid := List.forall_mem_append.mpr ⟨hstate.favorites_valid, by simpa using hsequence⟩
          favorites_nodup := hnodup }

/-! ### Recent use -/

theorem mem_countUse {sequence : Bytes} {timestamp : Int64} {recents : List RecentEntry} {entry : RecentEntry}
    (h : entry ∈ countUse sequence timestamp recents) :
    entry ∈ recents ∨ entry = ⟨sequence, 1, timestamp⟩ ∨
      ∃ counted ∈ recents, counted.sequence = sequence ∧
        entry = { counted with useCount := counted.useCount + 1, lastUsed := timestamp } := by
  induction recents with
  | nil => exact Or.inr (Or.inl (by simpa [countUse] using h))
  | cons head rest ih =>
      rw [countUse] at h
      split at h
      · rename_i hsame
        rcases List.mem_cons.mp h with rfl | hmem
        · exact Or.inr (Or.inr ⟨head, List.mem_cons_self, hsame, rfl⟩)
        · exact Or.inl (List.mem_cons_of_mem _ hmem)
      · rcases List.mem_cons.mp h with rfl | hmem
        · exact Or.inl List.mem_cons_self
        · rcases ih hmem with hold | hnew | ⟨counted, hcounted, hrest⟩
          · exact Or.inl (List.mem_cons_of_mem _ hold)
          · exact Or.inr (Or.inl hnew)
          · exact Or.inr (Or.inr ⟨counted, List.mem_cons_of_mem _ hcounted, hrest⟩)

/-- Counting a use adds the sequence to the recents at most once. -/
theorem map_sequence_countUse (sequence : Bytes) (timestamp : Int64) (recents : List RecentEntry) :
    (countUse sequence timestamp recents).map (·.sequence) =
      if sequence ∈ recents.map (·.sequence) then recents.map (·.sequence)
      else recents.map (·.sequence) ++ [sequence] := by
  induction recents with
  | nil => rfl
  | cons head rest ih =>
      rw [countUse]
      by_cases hsame : head.sequence = sequence
      · simp [hsame]
      · rw [if_neg hsame, List.map_cons, ih, List.map_cons]
        by_cases hmem : sequence ∈ rest.map (·.sequence)
        · rw [if_pos hmem, if_pos (List.mem_cons_of_mem _ hmem)]
        · have hne : sequence ∉ head.sequence :: rest.map (·.sequence) := by
            simp only [List.mem_cons, not_or]
            exact ⟨fun heq => hsame heq.symm, hmem⟩
          rw [if_neg hmem, if_neg hne, List.cons_append]

theorem nodup_countUse {sequence : Bytes} {timestamp : Int64} {recents : List RecentEntry}
    (h : (recents.map (·.sequence)).Nodup) : ((countUse sequence timestamp recents).map (·.sequence)).Nodup := by
  rw [map_sequence_countUse]
  split
  · exact h
  · rename_i hnew
    rw [← List.concat_eq_append]
    exact h.concat hnew

/-- What the cap keeps is a part of the counted entries in another order. -/
theorem recordUse_subperm (state : PersistentState) (sequence : Bytes) (timestamp : Int64) (maximumEntries : Nat) :
    (state.recordUse sequence timestamp maximumEntries).recents.Subperm
      (countUse sequence timestamp state.recents) := by
  have hperm : (sortRecents (countUse sequence timestamp state.recents)).Perm
      (countUse sequence timestamp state.recents) := List.perm_insertionSort _ _
  simp only [recordUse]
  split
  · exact (List.take_sublist _ _).subperm.trans hperm.subperm
  · exact hperm.subperm

theorem length_recordUse_le (state : PersistentState) (sequence : Bytes) (timestamp : Int64)
    (maximumEntries : Nat) :
    (state.recordUse sequence timestamp maximumEntries).recents.length ≤ maximumEntries := by
  simp only [recordUse]
  split
  · exact List.length_take_le _ _
  · omega

theorem nodup_recordUse (state : PersistentState) (sequence : Bytes) (timestamp : Int64) (maximumEntries : Nat)
    (h : (state.recents.map (·.sequence)).Nodup) :
    ((state.recordUse sequence timestamp maximumEntries).recents.map (·.sequence)).Nodup := by
  obtain ⟨kept, hperm, hkept⟩ := recordUse_subperm state sequence timestamp maximumEntries
  have hcounted : ((countUse sequence timestamp state.recents).map (·.sequence)).Nodup := nodup_countUse h
  have hnodup := hcounted.sublist (hkept.map (·.sequence))
  exact (hperm.map (·.sequence)).nodup_iff.mp hnodup

/-- A recorded use leaves the state writable when no count wraps, whatever the timestamp and for any cap the writer allows. -/
theorem storable_recordUse {state : PersistentState} {sequence : Bytes} (timestamp : Int64) {maximumEntries : Nat}
    (hstate : Storable state) (hsequence : validSequence sequence = true)
    (hfits : Fits state (.recordUse sequence timestamp)) (hcap : maximumEntries ≤ maximumRecents) :
    Storable (state.recordUse sequence timestamp maximumEntries) := by
  have hsub := recordUse_subperm state sequence timestamp maximumEntries
  exact {
    favorites_length := hstate.favorites_length
    favorites_valid := hstate.favorites_valid
    favorites_nodup := hstate.favorites_nodup
    recents_length := le_trans (length_recordUse_le state sequence timestamp maximumEntries) hcap
    recents_valid := by
      intro entry hentry
      rcases mem_countUse (hsub.subset hentry) with hold | rfl | ⟨counted, hcounted, _, rfl⟩
      · exact hstate.recents_valid entry hold
      · exact hsequence
      · exact hstate.recents_valid counted hcounted
    recents_used := by
      intro entry hentry
      rcases mem_countUse (hsub.subset hentry) with hold | rfl | ⟨counted, hcounted, hsame, rfl⟩
      · exact hstate.recents_used entry hold
      · exact (by decide : (1 : UInt64) ≠ 0)
      · exact hfits counted hcounted hsame
    recents_nodup := nodup_recordUse state sequence timestamp maximumEntries hstate.recents_nodup }

/-! ### Runs -/

/-- One operation that fits keeps the state writable. -/
theorem Storable.apply {state : PersistentState} {operation : Operation} (hstate : Storable state)
    (hsequence : validSequence operation.sequence = true) (hfits : Fits state operation) :
    Storable (operation.apply state) := by
  cases operation with
  | toggleFavorite sequence => exact (storable_toggleFavorite_iff hstate hsequence).mpr hfits
  | recordUse sequence timestamp => exact storable_recordUse timestamp hstate hsequence hfits (by decide)

/-- Every state built from a loadable one by operations that fit can be written. -/
theorem isSome_serialize_of_reachable {state : PersistentState}
    (h : Reachable Loadable
      (fun state operation => validSequence operation.sequence = true ∧ Fits state operation)
      Operation.apply state) :
    (serialize state).isSome := by
  have hstorable : Storable state :=
    h.invariant (fun _ hstart => hstart.storable) fun _ _ hstate ⟨hsequence, hfits⟩ => hstate.apply hsequence hfits
  exact isSome_serialize_iff.mpr hstorable

theorem isSome_serialize_of_reachable_two :
    (serialize (Operation.apply (.recordUse [98] 5) (Operation.apply (.toggleFavorite [97]) empty))).isSome := by
  refine isSome_serialize_of_reachable (.step (.step (.start (Or.inl rfl)) ⟨?_, ?_⟩) ⟨?_, ?_⟩)
  · decide +kernel
  · exact Or.inr (by decide)
  · decide +kernel
  · simp [Fits, Operation.apply, toggleFavorite, empty]

/-! ### A favorite too many -/

/-- Toggling new sequences one after another adds each of them. -/
theorem run_toggleFavorite {sequences : List Bytes} {state : PersistentState}
    (h : (state.favorites ++ sequences).Nodup) :
    run (sequences.map .toggleFavorite) state = { state with favorites := state.favorites ++ sequences } := by
  induction sequences generalizing state with
  | nil => simp [run]
  | cons sequence rest ih =>
      rw [List.append_cons] at h
      have hnew : sequence ∉ state.favorites := fun hmem => by
        have hdisjoint := (List.nodup_append.mp (List.nodup_append.mp h).1).2.2
        exact hdisjoint sequence hmem sequence List.mem_cons_self rfl
      have hone : Operation.apply (.toggleFavorite sequence) state =
          { state with favorites := state.favorites ++ [sequence] } := if_neg hnew
      rw [List.map_cons, run, List.foldl_cons, hone, ← run, ih h, List.append_cons state.favorites sequence rest]

/-- Two-letter sequences, all different. -/
def pairOfLetters (i : Nat) : Bytes := [UInt8.ofNat (97 + i / 26), UInt8.ofNat (97 + i % 26)]

private theorem nodup_pairOfLetters : ((List.range 501).map pairOfLetters).Nodup := by
  refine List.Nodup.map_on (fun i hi j hj heq => ?_) List.nodup_range
  have hi := List.mem_range.mp hi
  have hj := List.mem_range.mp hj
  simp only [pairOfLetters, List.cons.injEq, ← UInt8.toNat_inj, UInt8.toNat_ofNat', and_true] at heq
  omega

/-- Five hundred and one valid sequences toggled from the empty state leave a state the writer refuses. -/
theorem serialize_run_toggleFavorite_eq_none :
    (∀ sequence ∈ (List.range 501).map pairOfLetters, validSequence sequence = true) ∧
      serialize (run (((List.range 501).map pairOfLetters).map .toggleFavorite) empty) = none := by
  refine ⟨by decide +kernel, ?_⟩
  rw [run_toggleFavorite (by simpa [empty] using nodup_pairOfLetters)]
  refine Option.not_isSome_iff_eq_none.mp fun h => ?_
  have hlength := (isSome_serialize_iff.mp h).favorites_length
  simp [empty, maximumFavorites] at hlength

/-- A loadable count at its limit wraps to zero. -/
example : serialize (run [.recordUse [97] 0] ⟨[], [⟨[97], 18446744073709551615, 0⟩]⟩) = none := by decide +kernel

end PersistentState

end EmojiPalette
