import EmojiPalette.Library.Files

/-!
# Disks that lose power

A disk keeps what it is told in memory for a while. Once power has been lost, a location may hold what the disk last made certain of or anything it has been told since: an old entry or a later one, and of a file that was never synced any content at all. `Storage` is the disk as programs see it, together with what may be found at each location.

A file is replaced by filling a new one beside it, syncing that, renaming it into place and syncing the directory. At every moment of this, lost power leaves the old content or the whole new one, and at its end the new one alone.
-/

namespace PowerLoss

open Files

variable {Location α : Type} [DecidableEq Location]

/-- A file as programs see it, and whether its content is certain to be on the disk. -/
structure File (α : Type) where
  content : List α
  synced : Bool

structure Storage (Location α : Type) where
  live : Table Location (File α)
  /-- What may be found at a location once power has been lost. -/
  possible : Location → Option (List α) → Prop

/-- What a program tells a disk. -/
inductive Call (Location α : Type)
  | create (location : Location)
  | append (location : Location) (more : List α)
  | sync (location : Location)
  | rename (source target : Location)
  | remove (location : Location)
  | syncDirectory (inside : Location → Bool)

/-- What may be found of an entry that is certain: exactly a synced content, or some content. -/
def Found : Option (File α) → Option (List α) → Prop
  | none, found => found = none
  | some file, found => if file.synced then found = some file.content else found.isSome = true

namespace Storage

/-- What is at each location as long as the power stays. -/
def contents (storage : Storage Location α) : Table Location (List α) := fun location =>
  (storage.live location).map (·.content)

/-- A location may hold something else from now on. -/
def mayHold (storage : Storage Location α) (location : Location) (holds : Option (List α) → Prop) :
    Location → Option (List α) → Prop := fun other found =>
  storage.possible other found ∨ (other = location ∧ holds found)

/-- A disk that has nothing left to do. -/
def settled (table : Table Location (List α)) : Storage Location α where
  live := fun location => (table location).map (⟨·, true⟩)
  possible := fun location found => found = table location

/-- What a disk may come back with. -/
def Loses (storage : Storage Location α) (table : Table Location (List α)) : Prop :=
  ∀ location, storage.possible location (table location)

omit [DecidableEq Location] in
@[simp] theorem contents_settled (table : Table Location (List α)) : (settled table).contents = table := by
  funext location
  simp [contents, settled, Option.map_map, Function.comp_def]

end Storage

namespace Call

/-- The effect of a call on a disk that may lose power. -/
def perform : Call Location α → Storage Location α → Storage Location α
  | .create location, storage =>
      ⟨put storage.live location ⟨[], false⟩, storage.mayHold location fun found => found.isSome = true⟩
  | .append location more, storage =>
      match storage.live location with
      | none => storage
      | some file =>
          ⟨put storage.live location ⟨file.content ++ more, false⟩,
            storage.mayHold location fun found => found.isSome = true⟩
  | .sync location, storage =>
      match storage.live location with
      | none => storage
      | some file => { storage with live := put storage.live location ⟨file.content, true⟩ }
  | .rename source target, storage =>
      let moved := storage.mayHold target (Found (storage.live source))
      ⟨Files.rename storage.live source target,
        fun location found => moved location found ∨ (location = source ∧ found = none)⟩
  | .remove location, storage => ⟨Files.remove storage.live location, storage.mayHold location (· = none)⟩
  | .syncDirectory inside, storage =>
      { storage with
        possible := fun location found =>
          if inside location then Found (storage.live location) found else storage.possible location found }

/-- The effect of a call as long as the power stays. -/
def onTable : Call Location α → Table Location (List α) → Table Location (List α)
  | .create location, table => put table location []
  | .append location more, table =>
      match table location with
      | none => table
      | some content => put table location (content ++ more)
  | .sync _, table => table
  | .rename source target, table => Files.rename table source target
  | .remove location, table => Files.remove table location
  | .syncDirectory _, table => table

/-- The call neither changes the location nor makes anything certain. -/
def Elsewhere (location : Location) : Call Location α → Prop
  | .create other => other ≠ location
  | .append other _ => other ≠ location
  | .sync other => other ≠ location
  | .rename source target => source ≠ location ∧ target ≠ location
  | .remove other => other ≠ location
  | .syncDirectory _ => False

end Call

open Call

def performAll (calls : List (Call Location α)) (storage : Storage Location α) : Storage Location α :=
  calls.foldl (fun current call => call.perform current) storage

variable {storage : Storage Location α} {calls more : List (Call Location α)} {location target temporary : Location}
  {found : Option (List α)} {chunks : List (List α)} {inside : Location → Bool}

theorem performAll_append : performAll (calls ++ more) storage = performAll more (performAll calls storage) :=
  List.foldl_append

/-! ### What programs see -/

theorem contents_put (live : Table Location (File α)) (possible : Location → Option (List α) → Prop)
    (location : Location) (file : File α) :
    (Storage.mk (put live location file) possible).contents =
      put (Storage.mk live possible).contents location file.content := by
  funext other
  simp only [Storage.contents, put, Function.update_apply]
  split <;> rfl

theorem contents_remove (live : Table Location (File α)) (possible : Location → Option (List α) → Prop)
    (location : Location) :
    (Storage.mk (Files.remove live location) possible).contents =
      Files.remove (Storage.mk live possible).contents location := by
  funext other
  simp only [Storage.contents, Files.remove, Function.update_apply]
  split <;> rfl

/-- As long as the power stays, nothing but the content of the files is seen. -/
theorem contents_perform (call : Call Location α) (storage : Storage Location α) :
    (call.perform storage).contents = call.onTable storage.contents := by
  cases call with
  | create location => exact contents_put storage.live _ location ⟨[], false⟩
  | append location more =>
      simp only [perform, onTable]
      cases hlive : storage.live location with
      | none => simp only [Storage.contents, hlive, Option.map_none]
      | some file =>
          have hcontent : storage.contents location = some file.content := by
            rw [Storage.contents, hlive, Option.map_some]
          rw [hcontent]
          exact contents_put storage.live _ location _
  | sync location =>
      simp only [perform, onTable]
      cases hlive : storage.live location with
      | none => rfl
      | some file =>
          have hcontent : storage.contents location = some file.content := by
            rw [Storage.contents, hlive, Option.map_some]
          have hsame : put storage.contents location file.content = storage.contents := by
            rw [put, ← hcontent, Function.update_eq_self]
          exact (contents_put storage.live _ location _).trans hsame
  | rename source target =>
      funext other
      simp only [perform, onTable, Storage.contents, Files.rename, Files.remove, Function.update_apply]
      split
      · rfl
      · split <;> rfl
  | remove location => exact contents_remove storage.live _ location
  | syncDirectory inside => rfl

theorem contents_performAll (calls : List (Call Location α)) (storage : Storage Location α) :
    (performAll calls storage).contents = calls.foldl (fun table call => call.onTable table) storage.contents := by
  induction calls generalizing storage with
  | nil => rfl
  | cons call rest ih =>
      rw [performAll, List.foldl_cons, ← performAll, ih, contents_perform, List.foldl_cons]

/-! ### What calls elsewhere leave alone -/

omit [DecidableEq Location] in
theorem mayHold_of_ne {other : Location} (h : other ≠ location) (holds : Option (List α) → Prop) :
    storage.mayHold other holds location found ↔ storage.possible location found :=
  ⟨fun hmay => hmay.resolve_right fun hthere => h hthere.1.symm, Or.inl⟩

theorem perform_elsewhere {call : Call Location α} (h : call.Elsewhere location) (storage : Storage Location α) :
    (call.perform storage).live location = storage.live location ∧
      ∀ found, (call.perform storage).possible location found ↔ storage.possible location found := by
  cases call with
  | create other => exact ⟨put_of_ne (Ne.symm h), fun _ => mayHold_of_ne h (·.isSome = true)⟩
  | append other more =>
      simp only [perform]
      cases storage.live other with
      | none => exact ⟨rfl, fun _ => Iff.rfl⟩
      | some file => exact ⟨put_of_ne (Ne.symm h), fun _ => mayHold_of_ne h (·.isSome = true)⟩
  | sync other =>
      simp only [perform]
      cases storage.live other with
      | none => exact ⟨rfl, fun _ => Iff.rfl⟩
      | some file => exact ⟨put_of_ne (Ne.symm h), fun _ => Iff.rfl⟩
  | rename source target =>
      refine ⟨?_, fun found => ?_⟩
      · simp only [perform, Files.rename, Files.remove, Function.update_of_ne (Ne.symm h.1),
          Function.update_of_ne (Ne.symm h.2)]
      · have hmoved : storage.mayHold target (Found (storage.live source)) location found ↔
            storage.possible location found := mayHold_of_ne h.2 _
        exact ⟨fun hmay => hmoved.mp (hmay.resolve_right fun hthere => h.1 hthere.1.symm), fun hold => Or.inl (Or.inl hold)⟩
  | remove other => exact ⟨Function.update_of_ne (Ne.symm h) _ _, fun _ => mayHold_of_ne h (· = none)⟩
  | syncDirectory inside => exact h.elim

theorem performAll_elsewhere (h : ∀ call ∈ calls, call.Elsewhere location) (storage : Storage Location α) :
    (performAll calls storage).live location = storage.live location ∧
      ∀ found, (performAll calls storage).possible location found ↔ storage.possible location found := by
  induction calls generalizing storage with
  | nil => exact ⟨rfl, fun _ => Iff.rfl⟩
  | cons call rest ih =>
      obtain ⟨hlive, hpossible⟩ := perform_elsewhere (h call List.mem_cons_self) storage
      obtain ⟨hlive', hpossible'⟩ := ih (fun other hother => h other (List.mem_cons_of_mem _ hother)) (call.perform storage)
      exact ⟨hlive'.trans hlive, fun found => (hpossible' found).trans (hpossible found)⟩

/-! ### Replacing a file -/

/-- A new file filled piece by piece. -/
def filling (temporary : Location) (chunks : List (List α)) : List (Call Location α) :=
  .create temporary :: chunks.map (.append temporary)

omit [DecidableEq Location] in
theorem elsewhere_filling (hne : temporary ≠ target) :
    ∀ call ∈ filling temporary chunks, call.Elsewhere target := by
  intro call hcall
  rcases List.mem_cons.mp hcall with rfl | hchunk
  · exact hne
  · obtain ⟨chunk, _, rfl⟩ := List.mem_map.mp hchunk
    exact hne

theorem live_performAll_append {content : List α} (h : storage.live temporary = some ⟨content, false⟩) :
    (performAll (chunks.map (.append temporary)) storage).live temporary =
      some ⟨content ++ chunks.flatten, false⟩ := by
  induction chunks generalizing storage content with
  | nil => rw [List.map_nil, performAll, List.foldl_nil, h, List.flatten_nil, List.append_nil]
  | cons chunk rest ih =>
      have hone : (perform (.append temporary chunk) storage).live temporary = some ⟨content ++ chunk, false⟩ := by
        simp only [perform, h]
        exact put_self
      rw [List.map_cons, performAll, List.foldl_cons, ← performAll, ih hone, List.flatten_cons,
        List.append_assoc]

/-- A filled file holds all the pieces, and nothing of it is certain yet. -/
theorem live_performAll_filling (temporary : Location) (chunks : List (List α)) (storage : Storage Location α) :
    (performAll (filling temporary chunks) storage).live temporary = some ⟨chunks.flatten, false⟩ := by
  have hnew : (perform (.create temporary) storage).live temporary = some ⟨[], false⟩ := put_self
  rw [filling, performAll, List.foldl_cons, ← performAll, live_performAll_append hnew, List.nil_append]

/-- Filled and synced. -/
def preparing (temporary : Location) (chunks : List (List α)) : List (Call Location α) :=
  filling temporary chunks ++ [.sync temporary]

omit [DecidableEq Location] in
theorem elsewhere_preparing (chunks : List (List α)) (hne : temporary ≠ target) :
    ∀ call ∈ preparing temporary chunks, call.Elsewhere target := by
  intro call hcall
  rcases List.mem_append.mp hcall with hfill | hsync
  · exact elsewhere_filling hne call hfill
  · rw [List.mem_singleton.mp hsync]
    exact hne

theorem live_performAll_preparing (temporary : Location) (chunks : List (List α)) (storage : Storage Location α) :
    (performAll (preparing temporary chunks) storage).live temporary = some ⟨chunks.flatten, true⟩ := by
  have hfilled := live_performAll_filling temporary chunks storage
  rw [preparing, performAll_append]
  simp only [performAll, List.foldl_cons, List.foldl_nil, perform] at hfilled ⊢
  rw [hfilled]
  exact put_self

/-- Prepared and renamed into place. -/
def replacing (temporary target : Location) (chunks : List (List α)) : List (Call Location α) :=
  preparing temporary chunks ++ [.rename temporary target]

theorem performAll_replacing (chunks : List (List α)) (storage : Storage Location α) (hne : temporary ≠ target) :
    (performAll (replacing temporary target chunks) storage).live target = some ⟨chunks.flatten, true⟩ ∧
      ∀ found, (performAll (replacing temporary target chunks) storage).possible target found ↔
        storage.possible target found ∨ found = some chunks.flatten := by
  have hprepared := live_performAll_preparing temporary chunks storage
  have hbefore := (performAll_elsewhere (elsewhere_preparing chunks hne) storage).2
  rw [replacing, performAll_append]
  constructor
  · exact (Function.update_self _ _ _).trans hprepared
  · intro found
    simp only [performAll, List.foldl_cons, List.foldl_nil, perform, Storage.mayHold] at hprepared hbefore ⊢
    rw [hprepared, hbefore]
    constructor
    · rintro ((hold | ⟨-, hnew⟩) | ⟨hsame, -⟩)
      · exact Or.inl hold
      · exact Or.inr hnew
      · exact absurd hsame.symm hne
    · rintro (hold | hnew)
      · exact Or.inl (Or.inl hold)
      · exact Or.inl (Or.inr ⟨trivial, hnew⟩)

/-- Once the directory has been synced, the new content is all that can be found. -/
theorem possible_syncDirectory {content : List α} (hinside : inside target = true)
    (hlive : storage.live target = some ⟨content, true⟩) :
    (perform (.syncDirectory inside) storage).possible target found ↔ found = some content := by
  simp only [perform, if_pos hinside, hlive, Found, if_true]

end PowerLoss
