import EmojiPalette.Core.State
import EmojiPalette.Library.Files
import Mathlib.Data.Set.Finite.Lattice

/-!
# Saving the state

`StateStore::save` writes the new text into a temporary file beside the state file and renames it into place. Every call it makes of the system can fail, so what it does is a function of the answers it gets; only the write calls are made more than once, and they are answered by their number. What the program never reads back is left out: the mode `fchmod` sets and what a crash would leave of unsynced data.
-/

namespace EmojiPalette

open Files

/-- A path as `std::filesystem` splits it. -/
structure Path where
  parentPath : Bytes
  filename : Bytes
  deriving DecidableEq

structure Location where
  directory : Bytes
  filename : Bytes
  deriving DecidableEq

namespace Path

def directory (path : Path) : Bytes := if path.parentPath.isEmpty then ascii ['.'] else path.parentPath

def location (path : Path) : Location := ⟨path.directory, path.filename⟩

/-- The name `mkstemp` makes from the pattern with its own letters. -/
def temporary (path : Path) (letters : Bytes) : Location :=
  ⟨path.directory, path.filename ++ (ascii ['.', 't', 'm', 'p', '.'] ++ letters)⟩

end Path

structure Disk where
  files : Table Location Bytes
  directories : List Bytes

namespace Disk

def put (disk : Disk) (location : Location) (content : Bytes) : Disk :=
  { disk with files := Files.put disk.files location content }

/-- What `write` does to the file it is called on: the written part comes to its end. -/
def append (disk : Disk) (location : Location) (written : Bytes) : Disk :=
  match disk.files location with
  | some content => disk.put location (content ++ written)
  | none => disk

def unlink (disk : Disk) (location : Location) : Disk :=
  { disk with files := remove disk.files location }

def rename (disk : Disk) (source target : Location) : Disk :=
  { disk with files := Files.rename disk.files source target }

theorem put_put (disk : Disk) (location : Location) (content later : Bytes) :
    (disk.put location content).put location later = disk.put location later :=
  congrArg (Disk.mk · disk.directories) Files.put_put

theorem append_put (disk : Disk) (location : Location) (content written : Bytes) :
    (disk.put location content).append location written = disk.put location (content ++ written) := by
  have hread : (disk.put location content).files location = some content := put_self
  rw [append, hread]
  exact put_put disk location content (content ++ written)

end Disk

namespace StateStore

inductive WriteResult where
  | interrupted
  | failed
  | wrote (count : Nat)
  deriving DecidableEq

/-- What the system answers to the calls of one save. -/
structure SystemCalls where
  /-- The directories `create_directories` gets to make, also when it fails. -/
  created : List Bytes
  createDirectories : Bool
  /-- The letters of the name `mkstemp` finds. -/
  mkstemp : Option Bytes
  fchmod : Bool
  write : Nat → WriteResult
  fsync : Bool
  close : Bool
  rename : Bool
  openDirectory : Bool
  fsyncDirectory : Bool

/-- The loop over what is left of the value, from the write call of that number on. -/
def writeAll (write : Nat → WriteResult) (temporary : Location) : Nat → Nat → Bytes → Disk → Option (Bool × Disk)
  | 0, _, _, _ => none
  | fuel + 1, call, value, disk =>
      if value.isEmpty then some (true, disk)
      else match write call with
        | .interrupted => writeAll write temporary fuel (call + 1) value disk
        | .failed => some (false, disk)
        | .wrote count =>
            if count = 0 then some (false, disk)
            else writeAll write temporary fuel (call + 1) (value.drop count) (disk.append temporary (value.take count))

/-- `mkstemp` opens a new file: a name that is taken is no answer. -/
def mkstemp (path : Path) (disk : Disk) : Option Bytes → Option (Location × Disk)
  | some letters =>
      let temporary := path.temporary letters
      if (disk.files temporary).isSome then none else some (temporary, disk.put temporary [])
  | none => none

/-- The calls on the open temporary file, each made only when those before it succeeded. -/
def fillTemporary (fuel : Nat) (calls : SystemCalls) (content : Bytes) (temporary : Location) (disk : Disk) :
    Option (Bool × Disk) :=
  if !calls.fchmod then some (false, disk)
  else (writeAll calls.write temporary fuel 0 content disk).map fun (written, after) =>
    (written && calls.fsync, after)

/-- What follows on the closed temporary file: it is renamed into place or removed. -/
def replaceTarget (calls : SystemCalls) (path : Path) (temporary : Location) (success : Bool) (disk : Disk) :
    Bool × Disk :=
  let renamed := success && calls.rename
  let disk := if renamed then disk.rename temporary path.location else disk
  if !renamed then (false, disk.unlink temporary)
  else if !calls.openDirectory then (false, disk)
  else (calls.fsyncDirectory, disk)

/-- The result of a save and the disk after it; no result stands for a write loop that still runs. -/
def save (fuel : Nat) (calls : SystemCalls) (path : Path) (state : PersistentState) (disk : Disk) :
    Option (Bool × Disk) :=
  match state.serialize with
  | none => some (false, disk)
  | some content =>
      let disk := { disk with directories := disk.directories ++ calls.created }
      if !calls.createDirectories then some (false, disk)
      else match mkstemp path disk calls.mkstemp with
        | none => some (false, disk)
        | some (temporary, disk) =>
            (fillTemporary fuel calls content temporary disk).map fun (success, disk) =>
              replaceTarget calls path temporary (success && calls.close) disk

/-! ### The write loop

Whatever the answers, the file gets a first part of the value, and all of it when the loop succeeds. Past the last interruption each write that goes on makes the rest shorter, so the loop ends.
-/

section Loop

variable {write : Nat → WriteResult} {temporary : Location} {fuel call : Nat} {value content : Bytes} {disk : Disk}

/-- A round of the loop ends it with the file as it is, or repeats an interrupted call, or takes some bytes off the value. -/
theorem writeAll_cases (write : Nat → WriteResult) (temporary : Location) (call : Nat) (value : Bytes) (disk : Disk) :
    (∃ written, (written = true → value = []) ∧
      ∀ fuel, writeAll write temporary (fuel + 1) call value disk = some (written, disk)) ∨
    (write call = .interrupted ∧
      ∀ fuel, writeAll write temporary (fuel + 1) call value disk =
        writeAll write temporary fuel (call + 1) value disk) ∨
    ∃ count, 0 < count ∧ 0 < value.length ∧
      ∀ fuel, writeAll write temporary (fuel + 1) call value disk =
        writeAll write temporary fuel (call + 1) (value.drop count) (disk.append temporary (value.take count)) := by
  by_cases hdone : value = []
  · exact Or.inl ⟨true, fun _ => hdone, fun fuel => by rw [writeAll, if_pos (List.isEmpty_iff.mpr hdone)]⟩
  have hsome : ¬ value.isEmpty = true := mt List.isEmpty_iff.mp hdone
  cases hanswer : write call with
  | interrupted => exact Or.inr (Or.inl ⟨rfl, fun fuel => by simp only [writeAll, if_neg hsome, hanswer]⟩)
  | failed =>
      exact Or.inl ⟨false, (fun hfalse => nomatch hfalse), fun fuel => by simp only [writeAll, if_neg hsome, hanswer]⟩
  | wrote count =>
      by_cases hzero : count = 0
      · refine Or.inl ⟨false, (fun hfalse => nomatch hfalse), fun fuel => ?_⟩
        simp only [writeAll, if_neg hsome, hanswer, if_pos hzero]
      · refine Or.inr (Or.inr ⟨count, Nat.pos_of_ne_zero hzero, List.length_pos_iff.mpr hdone, fun fuel => ?_⟩)
        simp only [writeAll, if_neg hsome, hanswer, if_neg hzero]

theorem writeAll_written {written : Bool} {after : Disk}
    (h : writeAll write temporary fuel call value (disk.put temporary content) = some (written, after)) :
    ∃ reported, after = disk.put temporary (content ++ reported) ∧ (written = true → reported = value) := by
  induction fuel generalizing call value content with
  | zero => cases h
  | succ fuel ih =>
      rcases writeAll_cases write temporary call value (disk.put temporary content) with
        ⟨stopped, hall, hround⟩ | ⟨-, hround⟩ | ⟨count, -, -, hround⟩
      · obtain ⟨rfl, rfl⟩ := Prod.mk.inj (Option.some.inj ((hround fuel).symm.trans h))
        exact ⟨[], by rw [List.append_nil], fun htrue => (hall htrue).symm⟩
      · exact ih ((hround fuel).symm.trans h)
      · rw [hround, Disk.append_put] at h
        obtain ⟨reported, hafter, hall⟩ := ih h
        refine ⟨value.take count ++ reported, ?_, fun htrue => ?_⟩
        · rw [hafter, List.append_assoc]
        · rw [hall htrue, List.take_append_drop]

theorem writeAll_succ {result : Bool × Disk} (h : writeAll write temporary fuel call value disk = some result) :
    writeAll write temporary (fuel + 1) call value disk = some result := by
  induction fuel generalizing call value disk with
  | zero => cases h
  | succ fuel ih =>
      rcases writeAll_cases write temporary call value disk with ⟨_, -, hround⟩ | ⟨-, hround⟩ | ⟨_, -, -, hround⟩
      · exact (hround _).trans ((hround fuel).symm.trans h)
      · exact (hround _).trans (ih ((hround fuel).symm.trans h))
      · exact (hround _).trans (ih ((hround fuel).symm.trans h))

theorem writeAll_of_le {more : Nat} {result : Bool × Disk}
    (h : writeAll write temporary fuel call value disk = some result) (hle : fuel ≤ more) :
    writeAll write temporary more call value disk = some result := by
  induction hle with
  | refl => exact h
  | step _ ih => exact writeAll_succ ih

/-- The interruptions still to come and the bytes still to write bound the rounds. -/
theorem isSome_writeAll {bound : Nat} (hbound : ∀ call, bound ≤ call → write call ≠ .interrupted)
    (hfuel : bound - call + value.length < fuel) :
    (writeAll write temporary fuel call value disk).isSome = true := by
  induction fuel generalizing call value disk with
  | zero => omega
  | succ fuel ih =>
      rcases writeAll_cases write temporary call value disk with
        ⟨written, -, hround⟩ | ⟨hanswer, hround⟩ | ⟨count, hcount, hlength, hround⟩
      · rw [hround, Option.isSome_some]
      · have hearly : call < bound := by
          by_contra hlate
          exact hbound call (by omega) hanswer
        rw [hround]
        exact ih (by omega)
      · rw [hround]
        apply ih
        rw [List.length_drop]
        omega

end Loop

/-! ### All or nothing -/

theorem mkstemp_eq_some {path : Path} {disk opened : Disk} {answer : Option Bytes} {temporary : Location}
    (h : mkstemp path disk answer = some (temporary, opened)) :
    disk.files temporary = none ∧ opened = disk.put temporary [] := by
  cases answer with
  | none => cases h
  | some letters =>
      simp only [mkstemp] at h
      by_cases htaken : (disk.files (path.temporary letters)).isSome = true
      · rw [if_pos htaken] at h
        cases h
      · rw [if_neg htaken] at h
        obtain ⟨rfl, rfl⟩ := Prod.mk.inj (Option.some.inj h)
        exact ⟨Option.not_isSome_iff_eq_none.mp htaken, rfl⟩

theorem fillTemporary_filled {fuel : Nat} {calls : SystemCalls} {content : Bytes} {temporary : Location}
    {disk after : Disk} {success : Bool}
    (h : fillTemporary fuel calls content temporary (disk.put temporary []) = some (success, after)) :
    ∃ reported, after = disk.put temporary reported ∧ (success = true → reported = content) := by
  rw [fillTemporary] at h
  by_cases hmode : (!calls.fchmod) = true
  · rw [if_pos hmode] at h
    obtain ⟨hsuccess, hafter⟩ := Prod.mk.inj (Option.some.inj h)
    exact ⟨[], hafter.symm, fun htrue => absurd (hsuccess.trans htrue) Bool.false_ne_true⟩
  · rw [if_neg hmode] at h
    obtain ⟨⟨written, filled⟩, hwrite, heq⟩ := Option.map_eq_some_iff.mp h
    obtain ⟨hsuccess, rfl⟩ := Prod.mk.inj heq
    obtain ⟨reported, hfilled, hall⟩ := writeAll_written hwrite
    refine ⟨reported, hfilled, fun htrue => hall ?_⟩
    rw [htrue] at hsuccess
    exact (Bool.and_eq_true_iff.mp hsuccess).1

/-- The temporary file is gone either way; the target is replaced only by a file that was filled. -/
theorem replaceTarget_files (calls : SystemCalls) (path : Path) (success : Bool) (content : Bytes)
    {temporary : Location} {disk : Disk} (hfresh : disk.files temporary = none) :
    let result := replaceTarget calls path temporary success (disk.put temporary content)
    (result.1 = false ∧ result.2.files = disk.files) ∨
      (success = true ∧ result.2.files = Files.put disk.files path.location content) := by
  simp only [replaceTarget]
  by_cases hrenamed : (success && calls.rename) = true
  · have hfiles : ((disk.put temporary content).rename temporary path.location).files =
        Files.put disk.files path.location content := rename_put hfresh
    refine Or.inr ⟨(Bool.and_eq_true_iff.mp hrenamed).1, ?_⟩
    rw [hrenamed]
    by_cases hopen : calls.openDirectory = true
    · simpa [hopen] using hfiles
    · simpa [hopen] using hfiles
  · have hfiles : ((disk.put temporary content).unlink temporary).files = disk.files := remove_put hfresh
    rw [Bool.not_eq_true] at hrenamed
    refine Or.inl ?_
    rw [hrenamed]
    exact ⟨rfl, hfiles⟩

/-- A save gives up before it has written anything, or it has a new file to fill and to move into place. -/
theorem save_cases (calls : SystemCalls) (path : Path) (state : PersistentState) (disk : Disk) :
    (∃ directories, ∀ fuel, save fuel calls path state disk = some (false, ⟨disk.files, directories⟩)) ∨
    ∃ content temporary directories, state.serialize = some content ∧ disk.files temporary = none ∧
      ∀ fuel, save fuel calls path state disk =
        (fillTemporary fuel calls content temporary (Disk.put ⟨disk.files, directories⟩ temporary [])).map fun filled =>
          replaceTarget calls path temporary (filled.1 && calls.close) filled.2 := by
  cases hserialized : state.serialize with
  | none => exact Or.inl ⟨disk.directories, fun fuel => by rw [save, hserialized]⟩
  | some content =>
      by_cases hdirectories : (!calls.createDirectories) = true
      · refine Or.inl ⟨disk.directories ++ calls.created, fun fuel => ?_⟩
        simp only [save, hserialized, if_pos hdirectories]
      cases hopened : mkstemp path { disk with directories := disk.directories ++ calls.created } calls.mkstemp with
      | none =>
          refine Or.inl ⟨disk.directories ++ calls.created, fun fuel => ?_⟩
          simp only [save, hserialized, if_neg hdirectories, hopened]
      | some opening =>
          obtain ⟨temporary, opened⟩ := opening
          obtain ⟨hfresh, rfl⟩ := mkstemp_eq_some hopened
          refine Or.inr ⟨content, temporary, disk.directories ++ calls.created, rfl, hfresh, fun fuel => ?_⟩
          simp only [save, hserialized, if_neg hdirectories, hopened]

/-- The files after a save are the files before it, or differ from them at the target alone. -/
theorem save_files {fuel : Nat} {calls : SystemCalls} {path : Path} {state : PersistentState} {disk after : Disk}
    {saved : Bool} (h : save fuel calls path state disk = some (saved, after)) :
    (saved = false ∧ after.files = disk.files) ∨
      ∃ content, state.serialize = some content ∧ after.files = Files.put disk.files path.location content := by
  rcases save_cases calls path state disk with
    ⟨directories, hstopped⟩ | ⟨content, temporary, directories, hcontent, hfresh, hsave⟩
  · obtain ⟨rfl, rfl⟩ := Prod.mk.inj (Option.some.inj ((hstopped fuel).symm.trans h))
    exact Or.inl ⟨rfl, rfl⟩
  · rw [hsave] at h
    obtain ⟨⟨success, filled⟩, hfilled, heq⟩ := Option.map_eq_some_iff.mp h
    obtain ⟨reported, rfl, hall⟩ := fillTemporary_filled hfilled
    have hnew : (Disk.mk disk.files directories).files temporary = none := hfresh
    have hreplaced := replaceTarget_files calls path (success && calls.close) reported hnew
    dsimp only at heq hreplaced
    rw [heq] at hreplaced
    rcases hreplaced with hkept | ⟨hsuccess, hfiles⟩
    · exact Or.inl hkept
    · rw [hall (Bool.and_eq_true_iff.mp hsuccess).1] at hfiles
      exact Or.inr ⟨content, hcontent, hfiles⟩

theorem fillTemporary_of_le {fuel more : Nat} {calls : SystemCalls} {content : Bytes} {temporary : Location}
    {disk : Disk} {result : Bool × Disk} (h : fillTemporary fuel calls content temporary disk = some result)
    (hle : fuel ≤ more) : fillTemporary more calls content temporary disk = some result := by
  rw [fillTemporary] at h ⊢
  by_cases hmode : (!calls.fchmod) = true
  · rw [if_pos hmode] at h ⊢
    exact h
  · rw [if_neg hmode] at h ⊢
    obtain ⟨written, hwrite, heq⟩ := Option.map_eq_some_iff.mp h
    rw [writeAll_of_le hwrite hle, Option.map_some, heq]

/-- More rounds than a save needs change nothing. -/
theorem save_of_le {fuel more : Nat} {calls : SystemCalls} {path : Path} {state : PersistentState} {disk : Disk}
    {result : Bool × Disk} (h : save fuel calls path state disk = some result) (hle : fuel ≤ more) :
    save more calls path state disk = some result := by
  rcases save_cases calls path state disk with ⟨_, hstopped⟩ | ⟨content, temporary, directories, -, -, hsave⟩
  · exact (hstopped more).trans ((hstopped fuel).symm.trans h)
  · rw [hsave] at h ⊢
    obtain ⟨filled, hfilled, heq⟩ := Option.map_eq_some_iff.mp h
    rw [fillTemporary_of_le hfilled hle, Option.map_some, heq]

theorem isSome_save {bound fuel : Nat} {calls : SystemCalls} (path : Path) {state : PersistentState} (disk : Disk)
    (hbound : ∀ call, bound ≤ call → calls.write call ≠ .interrupted)
    (hfuel : ∀ content, state.serialize = some content → bound + content.length < fuel) :
    (save fuel calls path state disk).isSome = true := by
  rcases save_cases calls path state disk with ⟨_, hstopped⟩ | ⟨content, temporary, directories, hcontent, -, hsave⟩
  · rw [hstopped, Option.isSome_some]
  · rw [hsave, Option.isSome_map, fillTemporary]
    by_cases hmode : (!calls.fchmod) = true
    · rw [if_pos hmode, Option.isSome_some]
    · rw [if_neg hmode, Option.isSome_map]
      have hlength := hfuel content hcontent
      exact isSome_writeAll hbound (by omega)

theorem save_of_serialize_eq_none {state : PersistentState} (h : state.serialize = none) (fuel : Nat)
    (calls : SystemCalls) (path : Path) (disk : Disk) : save fuel calls path state disk = some (false, disk) := by
  rw [save, h]

/-- With finitely many interruptions a save ends. It leaves the old content or the whole new one at the target and nothing else changed, so no temporary file, and reports success only with the new content in place. -/
theorem save_all_or_nothing (calls : SystemCalls) (path : Path) (state : PersistentState) (disk : Disk)
    (hfinite : {call | calls.write call = .interrupted}.Finite) :
    ∃ rounds saved after, (∀ fuel, rounds ≤ fuel → save fuel calls path state disk = some (saved, after)) ∧
      (after.files path.location = disk.files path.location ∨
        ∃ content, state.serialize = some content ∧ after.files path.location = some content) ∧
      (saved = true → ∃ content, state.serialize = some content ∧ after.files path.location = some content) ∧
      (state.serialize = none → saved = false ∧ after = disk) ∧
      (∀ location, location ≠ path.location → after.files location = disk.files location) := by
  obtain ⟨last, hlast⟩ := hfinite.bddAbove
  have hbound : ∀ call, last + 1 ≤ call → calls.write call ≠ .interrupted := by
    intro call hcall hinterrupted
    have hle : call ≤ last := hlast hinterrupted
    omega
  have hfuel : ∀ content, state.serialize = some content →
      last + 1 + content.length < last + 1 + (state.serialize.getD []).length + 1 := by
    intro content hcontent
    rw [hcontent, Option.getD_some]
    omega
  have hsome := isSome_save path disk hbound hfuel
  obtain ⟨⟨saved, after⟩, hsave⟩ := Option.isSome_iff_exists.mp hsome
  refine ⟨_, saved, after, fun fuel hle => save_of_le hsave hle, ?_⟩
  have hunwritable : state.serialize = none → saved = false ∧ after = disk := by
    intro hnone
    rw [save_of_serialize_eq_none hnone] at hsave
    obtain ⟨hsaved, hafter⟩ := Prod.mk.inj (Option.some.inj hsave)
    exact ⟨hsaved.symm, hafter.symm⟩
  rcases save_files hsave with ⟨hsaved, hfiles⟩ | ⟨content, hcontent, hfiles⟩
  · rw [hfiles]
    exact ⟨Or.inl rfl, fun htrue => absurd (hsaved.symm.trans htrue) Bool.false_ne_true, hunwritable, fun _ _ => rfl⟩
  · have htarget : after.files path.location = some content := by rw [hfiles, put_self]
    refine ⟨Or.inr ⟨content, hcontent, htarget⟩, fun _ => ⟨content, hcontent, htarget⟩, hunwritable, ?_⟩
    intro location hother
    rw [hfiles, put_of_ne hother]

/-- Answers with an interruption first and seven bytes taken at a time. -/
def shortWrites : SystemCalls where
  created := []
  createDirectories := true
  mkstemp := some [97, 98, 99, 100, 101, 102]
  fchmod := true
  write := fun call => if call = 0 then .interrupted else .wrote 7
  fsync := true
  close := true
  rename := true
  openDirectory := true
  fsyncDirectory := true

theorem save_all_or_nothing_shortWrites :
    ∃ rounds saved after,
      (∀ fuel, rounds ≤ fuel → save fuel shortWrites ⟨[], [115]⟩ .empty ⟨fun _ => none, []⟩ = some (saved, after)) ∧
      (saved = true → ∃ content, PersistentState.empty.serialize = some content ∧
        after.files ⟨[46], [115]⟩ = some content) := by
  have hfinite : {call | shortWrites.write call = .interrupted}.Finite := by
    refine (Set.finite_singleton 0).subset fun call hcall => ?_
    by_contra hne
    have hwrote : shortWrites.write call = .wrote 7 := if_neg hne
    cases hwrote.symm.trans hcall
  obtain ⟨rounds, saved, after, hsave, -, hsaved, -⟩ :=
    save_all_or_nothing shortWrites ⟨[], [115]⟩ .empty ⟨fun _ => none, []⟩ hfinite
  exact ⟨rounds, saved, after, hsave, hsaved⟩

/-- These answers let the save through; a failed `fsync` of the directory is reported with the new text in place. -/
example : ((save 9 shortWrites ⟨[], [115]⟩ .empty ⟨fun _ => none, []⟩).map fun result =>
    (result.1, (result.2.files ⟨[46], [115]⟩).isSome)) = some (true, true) ∧
    ((save 9 { shortWrites with fsyncDirectory := false } ⟨[], [115]⟩ .empty ⟨fun _ => none, []⟩).map fun result =>
      (result.1, (result.2.files ⟨[46], [115]⟩).isSome)) = some (false, true) := by
  decide +kernel

end StateStore

end EmojiPalette
