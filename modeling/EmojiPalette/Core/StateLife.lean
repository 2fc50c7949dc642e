import EmojiPalette.Core.SaveCalls
import EmojiPalette.Core.StateLoading
import EmojiPalette.Core.StateRuns

/-!
# The state over many runs of the helper

The helper loads the state when it starts and saves it after every change. It may be killed in the middle of a save, the power may be lost at any moment, and saves fail without the user being told. What the next start can find is then one of the states the helper has had since the last save that reported success, and nothing is loaded that was never the state, unless the load itself fails: it then yields the empty state, which the next save writes over the file. Where all saves and loads go through, starting anew makes no difference at all.
-/

namespace EmojiPalette

open Files PowerLoss Trace

namespace StateStore

/-- The state in the helper's memory while it runs, and the disk. Beside them the history: the state last reported as saved and every state since. -/
structure Life where
  memory : Option PersistentState
  storage : Storage Location UInt8
  since : List PersistentState

inductive LifeEvent
  /-- The helper starts and loads the state. -/
  | started (calls : LoadCalls) (fuel : Nat)
  /-- A change of the state with the save after it. -/
  | changed (operation : PersistentState.Operation) (calls : SystemCalls) (fuel : Nat)
  /-- A change with a save in which the helper is killed after so many calls. -/
  | killed (operation : PersistentState.Operation) (calls : SystemCalls) (fuel : Nat) (count : Nat)
  /-- The helper ends. -/
  | ended
  /-- The power is lost, and the disk comes back like this. -/
  | lostPower (files : Table Location Bytes)

namespace Life

def saving (path : Path) (life : Life) (state : PersistentState) (calls : SystemCalls) (fuel : Nat) :
    Option (Bool × List DiskCall) :=
  saveCalls fuel calls path state life.storage.contents

/-- What happens on an event; a save or a load that does not end changes nothing. -/
def step (path : Path) : LifeEvent → Life → Life
  | .started calls fuel, life =>
      match load fuel calls path life.storage.contents with
      | none => life
      | some result => { life with memory := some result.state }
  | .changed operation calls fuel, life =>
      match life.memory with
      | none => life
      | some memory =>
          let state := operation.apply memory
          match saving path life state calls fuel with
          | none => life
          | some (saved, log) =>
              ⟨some state, performAll log life.storage, if saved then [state] else life.since ++ [state]⟩
  | .killed operation calls fuel count, life =>
      match life.memory with
      | none => life
      | some memory =>
          let state := operation.apply memory
          match saving path life state calls fuel with
          | none => life
          | some (_, log) => ⟨none, performAll (log.take count) life.storage, life.since ++ [state]⟩
  | .ended, life => { life with memory := none }
  | .lostPower files, _ => ⟨none, .settled files, [stored (files path.location)]⟩

/-- The helper starts when it is not running, and lost power brings back what the disk may come back with. -/
def Allowed (life : Life) : LifeEvent → Prop
  | .started _ _ => life.memory = none
  | .lostPower files => life.storage.Loses files
  | _ => True

def Fresh (path : Path) (life : Life) : Prop :=
  ∃ files, life = ⟨none, .settled files, [stored (files path.location)]⟩

/-- All that the state file may hold, now or after lost power, stands for a state of the history. -/
structure Kept (path : Path) (life : Life) : Prop where
  present : stored (life.storage.contents path.location) ∈ life.since
  possible : ∀ found, life.storage.possible path.location found → stored found ∈ life.since

variable {path : Path} {life : Life}

theorem kept_settled (path : Path) (files : Table Location Bytes) :
    Kept path ⟨none, .settled files, [stored (files path.location)]⟩ := by
  refine ⟨?_, fun found hfound => ?_⟩
  · rw [Storage.contents_settled]
    exact List.mem_singleton_self _
  · rw [show found = files path.location from hfound]
    exact List.mem_singleton_self _

theorem Kept.stopped {state : PersistentState} {calls : SystemCalls} {fuel : Nat} {saved : Bool}
    {log done : List DiskCall} (h : Kept path life) (hsave : saving path life state calls fuel = some (saved, log))
    (hdone : done <+: log) (memory : Option PersistentState) :
    Kept path ⟨memory, performAll done life.storage, life.since ++ [state]⟩ := by
  obtain ⟨hpresent, hpossible⟩ := stopped_saveCalls hsave hdone
  have hold : ∀ {other : PersistentState}, other ∈ life.since → other ∈ life.since ++ [state] :=
    List.mem_append_left _
  have hnew : ∀ {content : Bytes}, state.serialize = some content → stored (some content) ∈ life.since ++ [state] := by
    intro content hcontent
    rw [stored_of_serialize hcontent]
    exact List.mem_append_right _ (List.mem_singleton_self _)
  constructor
  · rcases hpresent with hsame | ⟨content, hcontent, hreplaced⟩
    · rw [hsame]
      exact hold h.present
    · rw [hreplaced]
      exact hnew hcontent
  · intro found hfound
    rcases hpossible found hfound with hbefore | ⟨content, hcontent, rfl⟩
    · exact hold (h.possible found hbefore)
    · exact hnew hcontent

theorem Kept.saved {state : PersistentState} {calls : SystemCalls} {fuel : Nat} {log : List DiskCall}
    (hsave : saving path life state calls fuel = some (true, log)) (memory : Option PersistentState) :
    Kept path ⟨memory, performAll log life.storage, [state]⟩ := by
  obtain ⟨content, hcontent, hpresent, hpossible⟩ := certain_saveCalls hsave
  constructor
  · rw [hpresent, stored_of_serialize hcontent]
    exact List.mem_singleton_self _
  · intro found hfound
    rw [hpossible found hfound, stored_of_serialize hcontent]
    exact List.mem_singleton_self _

theorem Kept.step {event : LifeEvent} (h : Kept path life) : Kept path (step path event life) := by
  cases event with
  | started calls fuel =>
      simp only [Life.step]
      cases load fuel calls path life.storage.contents with
      | none => exact h
      | some result => exact ⟨h.present, h.possible⟩
  | changed operation calls fuel =>
      simp only [Life.step]
      cases life.memory with
      | none => exact h
      | some memory =>
          dsimp only
          cases hsave : saving path life (operation.apply memory) calls fuel with
          | none => exact h
          | some result =>
              obtain ⟨saved, log⟩ := result
              cases saved with
              | false => exact h.stopped hsave (List.prefix_refl log) _
              | true => exact Kept.saved hsave _
  | killed operation calls fuel count =>
      simp only [Life.step]
      cases life.memory with
      | none => exact h
      | some memory =>
          dsimp only
          cases hsave : saving path life (operation.apply memory) calls fuel with
          | none => exact h
          | some result => exact h.stopped hsave (List.take_prefix count _) _
  | ended => exact ⟨h.present, h.possible⟩
  | lostPower files => exact kept_settled path files

theorem kept_reachable (h : Reachable (Fresh path) Allowed (step path) life) : Kept path life := by
  refine h.invariant ?_ fun _ _ hkept _ => hkept.step
  rintro _ ⟨files, rfl⟩
  exact kept_settled path files

/-- However the helper comes to start again, after lost power or not, a load nothing is wrong with gives a state of the history: the one last reported as saved, or one since. -/
theorem load_mem_since (h : Reachable (Fresh path) Allowed (step path) life) {calls : LoadCalls} {fuel : Nat}
    {result : StateLoadResult} :
    (load fuel calls path life.storage.contents = some result →
      result.state ∈ life.since ∨ ¬ calls.Readable ∧ result.state = .empty) ∧
    (∀ files, life.storage.Loses files → load fuel calls path files = some result →
      result.state ∈ life.since ∨ ¬ calls.Readable ∧ result.state = .empty) := by
  have hkept := kept_reachable h
  have hload : ∀ files : Table Location Bytes, stored (files path.location) ∈ life.since →
      load fuel calls path files = some result → result.state ∈ life.since ∨ ¬ calls.Readable ∧ result.state = .empty := by
    intro files hmem hresult
    by_cases hreadable : calls.Readable
    · rw [load_of_readable hreadable hresult]
      exact Or.inl hmem
    · rcases load_state hresult with hstate | hempty
      · rw [hstate]
        exact Or.inl hmem
      · exact Or.inr ⟨hreadable, hempty⟩
  exact ⟨hload _ hkept.present, fun files hloses => hload files (hkept.possible _ (hloses path.location))⟩

/-- The helper's first run, up to a favorite whose save cannot sync the directory. -/
theorem load_mem_since_unsynced :
    let life := step ⟨[], [115]⟩ (.changed (.toggleFavorite [97]) { shortWrites with fsyncDirectory := false } 10)
      (step ⟨[], [115]⟩ (.started shortReads 12) ⟨none, .settled fun _ => none, [.empty]⟩)
    ∃ result, load 12 shortReads ⟨[], [115]⟩ life.storage.contents = some result ∧
      (result.state ∈ life.since ∨ ¬ shortReads.Readable ∧ result.state = .empty) := by
  intro life
  have hreachable : Reachable (Fresh ⟨[], [115]⟩) Allowed (step ⟨[], [115]⟩) life :=
    .step (.step (.start ⟨fun _ => none, rfl⟩) rfl) trivial
  have hsome : (load 12 shortReads ⟨[], [115]⟩ life.storage.contents).isSome = true := by decide +kernel
  obtain ⟨result, hresult⟩ := Option.isSome_iff_exists.mp hsome
  exact ⟨result, hresult, (load_mem_since hreachable).1 hresult⟩

/-! ### Runs in which everything goes through -/

/-- Every save reports success and every load finds nothing wrong; the helper may end and the power may be lost between them. -/
def Smooth (path : Path) (life : Life) : LifeEvent → Prop
  | .started calls fuel =>
      life.memory = none ∧ calls.Readable ∧ (load fuel calls path life.storage.contents).isSome
  | .changed operation calls fuel =>
      ∃ memory log, life.memory = some memory ∧ saving path life (operation.apply memory) calls fuel = some (true, log)
  | .killed _ _ _ _ => False
  | .ended => True
  | .lostPower files => life.storage.Loses files

def operations (events : List LifeEvent) : List PersistentState.Operation :=
  events.filterMap fun
    | .changed operation _ _ => some operation
    | _ => none

/-- The disk holds the state and nothing else, and so does the memory while the helper runs. -/
structure Holds (path : Path) (state : PersistentState) (life : Life) : Prop where
  kept : Kept path life
  since : life.since = [state]
  memory : ∀ memory, life.memory = some memory → memory = state

theorem Holds.stored_eq {state : PersistentState} (h : Holds path state life) :
    stored (life.storage.contents path.location) = state := by
  have hmem := h.kept.present
  rw [h.since] at hmem
  exact List.mem_singleton.mp hmem

theorem Holds.of_loses {state : PersistentState} (h : Holds path state life) {files : Table Location Bytes}
    (hfiles : life.storage.Loses files) : stored (files path.location) = state := by
  have hmem := h.kept.possible _ (hfiles path.location)
  rw [h.since] at hmem
  exact List.mem_singleton.mp hmem

theorem Holds.step {state : PersistentState} {event : LifeEvent} (h : Holds path state life)
    (hevent : Smooth path life event) :
    Holds path (PersistentState.run (operations [event]) state) (step path event life) := by
  cases event with
  | started calls fuel =>
      obtain ⟨-, hreadable, hsome⟩ := hevent
      obtain ⟨result, hload⟩ := Option.isSome_iff_exists.mp hsome
      have hstate : result.state = state := (load_of_readable hreadable hload).trans h.stored_eq
      refine ⟨h.kept.step, ?_, ?_⟩
      · simp only [Life.step, hload]
        exact h.since
      · simp only [Life.step, hload]
        intro memory hmemory
        rw [← Option.some.inj hmemory, hstate]
        rfl
  | changed operation calls fuel =>
      obtain ⟨memory, log, hmemory, hsave⟩ := hevent
      obtain rfl := h.memory memory hmemory
      refine ⟨h.kept.step, ?_, ?_⟩
      · simp only [Life.step, hmemory, hsave, if_true]
        rfl
      · simp only [Life.step, hmemory, hsave]
        intro now hnow
        exact (Option.some.inj hnow).symm
  | killed operation calls fuel count => exact hevent.elim
  | ended => exact ⟨h.kept.step, h.since, fun memory hmemory => nomatch hmemory⟩
  | lostPower files =>
      refine ⟨h.kept.step, ?_, fun memory hmemory => nomatch hmemory⟩
      rw [Life.step, h.of_loses hevent]
      rfl

theorem operations_cons (event : LifeEvent) (events : List LifeEvent) :
    operations (event :: events) = operations [event] ++ operations events := by
  rw [operations, operations, operations, ← List.filterMap_append, List.singleton_append]

theorem holds_run {state : PersistentState} (events : List LifeEvent) (h : Holds path state life)
    (hevents : Along (Smooth path) (step path) events life) :
    Holds path (PersistentState.run (operations events) state) (events.foldl (fun now event => step path event now) life) := by
  induction events generalizing life state with
  | nil => exact h
  | cons event events ih =>
      rw [operations_cons, PersistentState.run, List.foldl_append]
      exact ih (h.step hevents.1) hevents.2

/-- However often the helper ends, starts again and finds the power lost in between, the user has the state that the changes alone make of the first one, as long as every save reports success and every load finds nothing wrong. -/
theorem run_smooth (events : List LifeEvent) {files : Table Location Bytes}
    (hevents : Along (Smooth path) (step path) events ⟨none, .settled files, [stored (files path.location)]⟩) :
    let final := events.foldl (fun now event => step path event now)
      ⟨none, .settled files, [stored (files path.location)]⟩
    let state := PersistentState.run (operations events) (stored (files path.location))
    (∀ memory, final.memory = some memory → memory = state) ∧
      (∀ calls fuel result, calls.Readable → load fuel calls path final.storage.contents = some result →
        result.state = state) ∧
      ∀ lost, final.storage.Loses lost → ∀ calls fuel result, calls.Readable → load fuel calls path lost = some result →
        result.state = state := by
  have hstart : Holds path (stored (files path.location)) ⟨none, .settled files, [stored (files path.location)]⟩ :=
    ⟨kept_settled path files, rfl, fun memory hmemory => nomatch hmemory⟩
  have hholds := holds_run events hstart hevents
  refine ⟨hholds.memory, fun calls fuel result hreadable hload => ?_, fun lost hlost calls fuel result hreadable hload => ?_⟩
  · exact (load_of_readable hreadable hload).trans hholds.stored_eq
  · exact (load_of_readable hreadable hload).trans (hholds.of_loses hlost)

def favoriteKept : List LifeEvent :=
  [.started shortReads 12, .changed (.toggleFavorite [97]) shortWrites 10, .ended, .started shortReads 12]

theorem run_smooth_favoriteKept :
    let final := favoriteKept.foldl (fun now event => step ⟨[], [115]⟩ event now) ⟨none, .settled fun _ => none, [.empty]⟩
    ∀ memory, final.memory = some memory → memory = ⟨[[97]], []⟩ := by
  have hsaved : ∀ (life : Life) (state : PersistentState),
      ((saving ⟨[], [115]⟩ life state shortWrites 10).map (·.1)) = some true →
        ∃ log, saving ⟨[], [115]⟩ life state shortWrites 10 = some (true, log) := by
    intro life state h
    obtain ⟨⟨saved, log⟩, hsave, rfl⟩ := Option.map_eq_some_iff.mp h
    exact ⟨log, hsave⟩
  have hevents : Along (Smooth ⟨[], [115]⟩) (step ⟨[], [115]⟩) favoriteKept ⟨none, .settled fun _ => none, [.empty]⟩ := by
    refine ⟨⟨rfl, readable_shortReads, by decide +kernel⟩, ?_, trivial, ⟨rfl, readable_shortReads, by decide +kernel⟩, trivial⟩
    obtain ⟨log, hlog⟩ := hsaved (step ⟨[], [115]⟩ (.started shortReads 12) ⟨none, .settled fun _ => none, [.empty]⟩)
      ⟨[[97]], []⟩ (by decide +kernel)
    exact ⟨.empty, log, rfl, hlog⟩
  exact (run_smooth favoriteKept hevents).1

end Life

end StateStore

end EmojiPalette
