import EmojiPalette.Core.StateStore
import EmojiPalette.Core.StateText

/-!
# Loading the state

`StateStore::load` reads the state file and parses it. It never fails: a file that is not there, cannot be opened, is no regular file, is too large, breaks off or does not parse all give the empty state, and the caller learns whether there was a file. As for saving, the answers of the system are an argument, and only the read calls are made more than once.
-/

namespace EmojiPalette

open Files

namespace StateStore

inductive ReadResult where
  | interrupted
  | failed
  /-- As many bytes as the system has ready; none at the end of the file. -/
  | got (count : Nat)
  deriving DecidableEq

/-- What the system answers to the calls of one load. -/
structure LoadCalls where
  /-- A file is not opened where it may not be read, and where the last component is a symbolic link. -/
  openFile : Bool
  fstat : Bool
  regular : Bool
  read : Nat → ReadResult
  close : Bool

structure StateLoadResult where
  state : PersistentState
  recoveredFromCorruption : Bool
  deriving DecidableEq

/-- The loop over what is still to be read, from the read call of that number on. -/
def readLoop (read : Nat → ReadResult) : Nat → Nat → Bytes → Bytes → Option (Option Bytes)
  | 0, _, _, _ => none
  | fuel + 1, call, rest, content =>
      if rest.isEmpty then some (some content)
      else match read call with
        | .interrupted => readLoop read fuel (call + 1) rest content
        | .failed => some none
        | .got count =>
            if count = 0 then some none
            else readLoop read fuel (call + 1) (rest.drop count) (content ++ rest.take count)

def readFile (fuel : Nat) (calls : LoadCalls) (file : Option Bytes) : Option (Option Bytes × Bool) :=
  match file with
  | none => some (none, false)
  | some content =>
      if !calls.openFile then some (none, false)
      else if !calls.fstat || !calls.regular || content.length > PersistentState.maximumStateSize then some (none, true)
      else (readLoop calls.read fuel 0 content []).map fun result =>
        (if calls.close then result else none, true)

/-- The result of a load of what stands at the path; no result stands for a read loop that still runs. -/
def load (fuel : Nat) (calls : LoadCalls) (path : Path) (files : Table Location Bytes) : Option StateLoadResult :=
  (readFile fuel calls (files path.location)).map fun result =>
    match result.1 with
    | none => ⟨.empty, result.2⟩
    | some content =>
        match PersistentState.parseState content with
        | none => ⟨.empty, true⟩
        | some state => ⟨state, false⟩

/-! ### The read loop -/

section Loop

variable {read : Nat → ReadResult} {fuel call : Nat} {rest content : Bytes}

theorem readLoop_eq {result : Option Bytes} (h : readLoop read fuel call rest content = some result) :
    result = some (content ++ rest) ∨ result = none := by
  induction fuel generalizing call rest content with
  | zero => cases h
  | succ fuel ih =>
      rw [readLoop] at h
      split at h
      · rename_i hdone
        rw [List.isEmpty_iff.mp hdone, List.append_nil]
        exact Or.inl (Option.some.inj h).symm
      cases hanswer : read call with
      | interrupted =>
          rw [hanswer] at h
          exact ih h
      | failed =>
          rw [hanswer] at h
          exact Or.inr (Option.some.inj h).symm
      | got count =>
          rw [hanswer] at h
          dsimp only at h
          split at h
          · exact Or.inr (Option.some.inj h).symm
          · have hresult := ih h
            rwa [List.append_assoc, List.take_append_drop] at hresult

def ReadsOn (read : Nat → ReadResult) : Prop := ∀ call, read call ≠ .failed ∧ read call ≠ .got 0

theorem readLoop_succ {result : Option Bytes} (h : readLoop read fuel call rest content = some result) :
    readLoop read (fuel + 1) call rest content = some result := by
  induction fuel generalizing call rest content with
  | zero => cases h
  | succ fuel ih =>
      rw [readLoop] at h ⊢
      split at h
      · rename_i hdone
        rwa [if_pos hdone]
      rename_i hsome
      rw [if_neg hsome]
      cases hanswer : read call with
      | interrupted =>
          rw [hanswer] at h
          exact ih h
      | failed =>
          rw [hanswer] at h
          exact h
      | got count =>
          rw [hanswer] at h
          dsimp only at h ⊢
          split at h
          · rename_i hzero
            rwa [if_pos hzero]
          · rename_i hcount
            rw [if_neg hcount]
            exact ih h

/-- With finitely many interruptions the loop ends. -/
theorem isSome_readLoop {bound : Nat} (hbound : ∀ call, bound ≤ call → read call ≠ .interrupted)
    (hfuel : bound - call + rest.length < fuel) : (readLoop read fuel call rest content).isSome = true := by
  induction fuel generalizing call rest content with
  | zero => omega
  | succ fuel ih =>
      rw [readLoop]
      split
      · rfl
      rename_i hsome
      have hlength : 0 < rest.length := List.length_pos_iff.mpr fun hnil => hsome (List.isEmpty_iff.mpr hnil)
      cases hanswer : read call with
      | interrupted =>
          have hearly : call < bound := by
            by_contra hlate
            exact hbound call (by omega) hanswer
          exact ih (by omega)
      | failed => rfl
      | got count =>
          dsimp only
          split
          · rfl
          · apply ih
            rw [List.length_drop]
            omega

theorem readLoop_of_readsOn {result : Option Bytes} (hreads : ReadsOn read)
    (h : readLoop read fuel call rest content = some result) : result = some (content ++ rest) := by
  induction fuel generalizing call rest content with
  | zero => cases h
  | succ fuel ih =>
      rw [readLoop] at h
      split at h
      · rename_i hdone
        rw [List.isEmpty_iff.mp hdone, List.append_nil]
        exact (Option.some.inj h).symm
      cases hanswer : read call with
      | interrupted =>
          rw [hanswer] at h
          exact ih h
      | failed => exact absurd hanswer (hreads call).1
      | got count =>
          have hcount : count ≠ 0 := fun hzero => (hreads call).2 (hzero ▸ hanswer)
          rw [hanswer] at h
          dsimp only at h
          rw [if_neg hcount] at h
          have hresult := ih h
          rwa [List.append_assoc, List.take_append_drop] at hresult

end Loop

/-! ### What is loaded -/

/-- The state a file stands for when the system reads it without an error. -/
def stored : Option Bytes → PersistentState
  | none => .empty
  | some content =>
      if content.length > PersistentState.maximumStateSize then .empty
      else (PersistentState.parseState content).getD .empty

/-- The system finds nothing wrong with the file. Interrupted and short reads are not wrong. -/
structure LoadCalls.Readable (calls : LoadCalls) : Prop where
  openFile : calls.openFile = true
  fstat : calls.fstat = true
  regular : calls.regular = true
  read : ReadsOn calls.read
  close : calls.close = true

section Load

variable {fuel more : Nat} {calls : LoadCalls} {path : Path} {files : Table Location Bytes} {result : StateLoadResult}

/-- A load gives the state the file stands for, and says so when it is not empty, or it gives the empty state. -/
theorem load_cases (h : load fuel calls path files = some result) :
    (∃ content, files path.location = some content ∧ content.length ≤ PersistentState.maximumStateSize ∧
      PersistentState.parseState content = some result.state ∧ result.recoveredFromCorruption = false) ∨
    (result.state = .empty ∧ (result.recoveredFromCorruption = true → ∃ content, files path.location = some content ∧
      (calls.Readable → content.length ≤ PersistentState.maximumStateSize →
        PersistentState.parseState content = none))) := by
  obtain ⟨⟨read, found⟩, hread, heq⟩ := Option.map_eq_some_iff.mp h
  cases hfile : files path.location with
  | none =>
      rw [hfile] at hread
      cases hread
      rw [← heq]
      exact Or.inr ⟨rfl, fun hfalse => absurd hfalse Bool.false_ne_true⟩
  | some content =>
      rw [hfile, readFile] at hread
      split at hread
      · cases hread
        rw [← heq]
        exact Or.inr ⟨rfl, fun hfalse => absurd hfalse Bool.false_ne_true⟩
      split at hread
      · rename_i hwrong
        cases hread
        rw [← heq]
        refine Or.inr ⟨rfl, fun _ => ⟨content, rfl, fun hreadable hsize => absurd hwrong ?_⟩⟩
        rw [hreadable.fstat, hreadable.regular]
        simpa using hsize
      rename_i hright
      have hsize : content.length ≤ PersistentState.maximumStateSize := by
        simp only [Bool.or_eq_true, decide_eq_true_eq, not_or] at hright
        exact Nat.not_lt.mp hright.2
      obtain ⟨outcome, hloop, hclosed⟩ := Option.map_eq_some_iff.mp hread
      obtain ⟨rfl, rfl⟩ := Prod.mk.inj hclosed
      cases houtcome : (if calls.close = true then outcome else none) with
      | none =>
          rw [houtcome] at heq
          rw [← heq]
          refine Or.inr ⟨rfl, fun _ => ⟨content, rfl, fun hreadable _ => ?_⟩⟩
          rw [if_pos hreadable.close, readLoop_of_readsOn hreadable.read hloop] at houtcome
          cases houtcome
      | some all =>
          have hall : all = content := by
            split at houtcome
            · rcases readLoop_eq hloop with hsome | hnone
              · rw [hsome, List.nil_append] at houtcome
                exact (Option.some.inj houtcome).symm
              · rw [hnone] at houtcome
                cases houtcome
            · cases houtcome
          rw [houtcome, hall] at heq
          dsimp only at heq
          cases hparsed : PersistentState.parseState content with
          | none =>
              rw [hparsed] at heq
              rw [← heq]
              exact Or.inr ⟨rfl, fun _ => ⟨content, rfl, fun _ _ => hparsed⟩⟩
          | some state =>
              rw [hparsed] at heq
              rw [← heq]
              exact Or.inl ⟨content, rfl, hsize, hparsed, rfl⟩

theorem stored_of_serialize {state : PersistentState} {content : Bytes} (h : state.serialize = some content) :
    stored (some content) = state := by
  obtain ⟨hstorable, rfl⟩ := PersistentState.serialize_eq_some_iff.mp h
  rw [stored, if_neg (Nat.not_lt.mpr (PersistentState.length_render_le hstorable)),
    PersistentState.parseState_render hstorable, Option.getD_some]

theorem load_state (h : load fuel calls path files = some result) :
    result.state = stored (files path.location) ∨ result.state = .empty := by
  rcases load_cases h with ⟨content, hfile, hsize, hparsed, -⟩ | ⟨hempty, -⟩
  · rw [hfile, stored, if_neg (Nat.not_lt.mpr hsize), hparsed]
    exact Or.inl rfl
  · exact Or.inr hempty

/-- Where the system finds nothing wrong, the result depends on the file alone. -/
theorem load_of_readable (hcalls : calls.Readable) (h : load fuel calls path files = some result) :
    result.state = stored (files path.location) := by
  obtain ⟨⟨read, found⟩, hread, heq⟩ := Option.map_eq_some_iff.mp h
  cases hfile : files path.location with
  | none =>
      rw [hfile] at hread
      cases hread
      rw [← heq]
      rfl
  | some content =>
      have hopened : ¬ (!calls.openFile) = true := by simp [hcalls.openFile]
      rw [hfile, readFile, if_neg hopened, hcalls.fstat, hcalls.regular] at hread
      by_cases hsize : content.length > PersistentState.maximumStateSize
      · have hlarge : (!true || !true || decide (content.length > PersistentState.maximumStateSize)) = true := by
          simpa using hsize
        rw [if_pos hlarge] at hread
        cases hread
        rw [← heq, stored, if_pos hsize]
      · have hsmall : ¬ (!true || !true || decide (content.length > PersistentState.maximumStateSize)) = true := by
          simpa using hsize
        rw [if_neg hsmall] at hread
        obtain ⟨outcome, hloop, hclosed⟩ := Option.map_eq_some_iff.mp hread
        obtain ⟨rfl, rfl⟩ := Prod.mk.inj hclosed
        rw [if_pos hcalls.close, readLoop_of_readsOn hcalls.read hloop, List.nil_append] at heq
        rw [← heq, stored, if_neg hsize]
        dsimp only
        cases PersistentState.parseState content <;> rfl

theorem load_of_le (h : load fuel calls path files = some result) (hle : fuel ≤ more) :
    load more calls path files = some result := by
  have hloop : ∀ {rest : Bytes} {outcome : Option Bytes}, readLoop calls.read fuel 0 rest [] = some outcome →
      readLoop calls.read more 0 rest [] = some outcome := by
    intro rest outcome hread
    induction hle with
    | refl => exact hread
    | step _ ih => exact readLoop_succ ih
  obtain ⟨read, hread, heq⟩ := Option.map_eq_some_iff.mp h
  refine Option.map_eq_some_iff.mpr ⟨read, ?_, heq⟩
  unfold readFile at hread ⊢
  split at hread
  · exact hread
  split at hread
  · rename_i hunopened
    rwa [if_pos hunopened]
  rename_i hopened
  rw [if_neg hopened]
  split at hread
  · rename_i hwrong
    rwa [if_pos hwrong]
  · rename_i hright
    obtain ⟨outcome, hread, hclosed⟩ := Option.map_eq_some_iff.mp hread
    rw [if_neg hright, hloop hread, Option.map_some, hclosed]

theorem isSome_load {bound : Nat} (path : Path) (files : Table Location Bytes)
    (hbound : ∀ call, bound ≤ call → calls.read call ≠ .interrupted)
    (hfuel : bound + PersistentState.maximumStateSize < fuel) : (load fuel calls path files).isSome = true := by
  rw [load, Option.isSome_map]
  unfold readFile
  split
  · rfl
  split
  · rfl
  split
  · rfl
  rename_i hright
  rw [Option.isSome_map]
  apply isSome_readLoop hbound
  simp only [Bool.or_eq_true, decide_eq_true_eq, not_or, Nat.not_lt] at hright
  have hsize := hright.2
  omega

end Load

/-- Past some call nothing is interrupted any more. -/
theorem exists_bound {answer : Type} {answers : Nat → answer} {interrupted : answer}
    (h : {call | answers call = interrupted}.Finite) : ∃ bound, ∀ call, bound ≤ call → answers call ≠ interrupted := by
  obtain ⟨last, hlast⟩ := h.bddAbove
  refine ⟨last + 1, fun call hcall hinterrupted => ?_⟩
  have hle : call ≤ last := hlast hinterrupted
  omega

/-- Whatever the calls of a save and of the next load are answered, both end when finitely many of them are interrupted. A load nothing is wrong with gives the state that was saved or the one the file stood for before, the first when the save reported success; any other load gives one of these or the empty state. The file is called corrupt only when the save left an old one there that is. -/
theorem load_after_save (calls : SystemCalls) (reading : LoadCalls) (path : Path) (state : PersistentState) (disk : Disk)
    (hwrites : {call | calls.write call = .interrupted}.Finite)
    (hreads : {call | reading.read call = .interrupted}.Finite) :
    ∃ rounds saved after result, (∀ fuel, rounds ≤ fuel → save fuel calls path state disk = some (saved, after)) ∧
      (∀ fuel, rounds ≤ fuel → load fuel reading path after.files = some result) ∧
      (result.state = state ∨ result.state = stored (disk.files path.location) ∨ result.state = .empty) ∧
      (reading.Readable → result.state = state ∨
        saved = false ∧ result.state = stored (disk.files path.location)) ∧
      (reading.Readable → result.recoveredFromCorruption = true → saved = false ∧ result.state = .empty ∧
        ∃ content, disk.files path.location = some content ∧
          (content.length ≤ PersistentState.maximumStateSize → PersistentState.parseState content = none)) := by
  obtain ⟨last, hwriteBound⟩ := exists_bound hwrites
  obtain ⟨final, hreadBound⟩ := exists_bound hreads
  have hfuel : ∀ content, state.serialize = some content →
      last + content.length < last + (state.serialize.getD []).length + 1 := by
    intro content hcontent
    rw [hcontent, Option.getD_some]
    omega
  have henough : final + PersistentState.maximumStateSize < final + PersistentState.maximumStateSize + 1 := Nat.lt_succ_self _
  obtain ⟨⟨saved, after⟩, hsave⟩ := Option.isSome_iff_exists.mp (isSome_save path disk hwriteBound hfuel)
  obtain ⟨result, hload⟩ := Option.isSome_iff_exists.mp (isSome_load path after.files hreadBound henough)
  refine ⟨max _ _, saved, after, result, fun fuel hle => save_of_le hsave (le_trans (le_max_left _ _) hle),
    fun fuel hle => load_of_le hload (le_trans (le_max_right _ _) hle), ?_⟩
  rcases save_files hsave with ⟨hfailed, hfiles⟩ | ⟨content, hcontent, hfiles⟩
  · rw [hfiles] at hload
    refine ⟨Or.inr (load_state hload), fun hreadable => Or.inr ⟨hfailed, load_of_readable hreadable hload⟩, ?_⟩
    intro hreadable hcorrupt
    rcases load_cases hload with ⟨_, _, _, _, hfalse⟩ | ⟨hempty, hwhy⟩
    · exact absurd (hfalse.symm.trans hcorrupt) Bool.false_ne_true
    · obtain ⟨content, hfile, hparsed⟩ := hwhy hcorrupt
      exact ⟨hfailed, hempty, content, hfile, hparsed hreadable⟩
  · have htarget : stored (after.files path.location) = state := by
      rw [hfiles, put_self, stored_of_serialize hcontent]
    refine ⟨?_, fun hreadable => Or.inl ((load_of_readable hreadable hload).trans htarget), ?_⟩
    · exact (load_state hload).imp (fun hstate => hstate.trans htarget) Or.inr
    · intro hreadable hcorrupt
      rcases load_cases hload with ⟨_, _, _, _, hfalse⟩ | ⟨hempty, hwhy⟩
      · exact absurd (hfalse.symm.trans hcorrupt) Bool.false_ne_true
      · obtain ⟨other, hfile, hparsed⟩ := hwhy hcorrupt
        obtain ⟨hstorable, rfl⟩ := PersistentState.serialize_eq_some_iff.mp hcontent
        rw [hfiles, put_self] at hfile
        obtain rfl := Option.some.inj hfile
        have hnone := hparsed hreadable (PersistentState.length_render_le hstorable)
        rw [PersistentState.parseState_render hstorable] at hnone
        cases hnone

def shortReads : LoadCalls where
  openFile := true
  fstat := true
  regular := true
  read := fun call => if call = 1 then .interrupted else .got 5
  close := true

theorem readable_shortReads : shortReads.Readable := by
  refine ⟨rfl, rfl, rfl, fun call => ?_, rfl⟩
  by_cases hcall : call = 1
  · have hanswer : shortReads.read call = .interrupted := if_pos hcall
    rw [hanswer]
    exact ⟨by decide, by decide⟩
  · have hanswer : shortReads.read call = .got 5 := if_neg hcall
    rw [hanswer]
    exact ⟨by decide, by decide⟩

theorem load_after_save_shortReads :
    ∃ rounds saved after result,
      (∀ fuel, rounds ≤ fuel → save fuel shortWrites ⟨[], [115]⟩ ⟨[[97]], []⟩ ⟨fun _ => none, []⟩ = some (saved, after)) ∧
      (∀ fuel, rounds ≤ fuel → load fuel shortReads ⟨[], [115]⟩ after.files = some result) ∧
      (result.state = ⟨[[97]], []⟩ ∨ saved = false ∧ result.state = .empty) := by
  have hwrites : {call | shortWrites.write call = .interrupted}.Finite := by
    refine (Set.finite_singleton 0).subset fun call hcall => ?_
    by_contra hne
    have hwrote : shortWrites.write call = .wrote 7 := if_neg hne
    cases hwrote.symm.trans hcall
  have hreads : {call | shortReads.read call = .interrupted}.Finite := by
    refine (Set.finite_singleton 1).subset fun call hcall => ?_
    by_contra hne
    have hgot : shortReads.read call = .got 5 := if_neg hne
    cases hgot.symm.trans hcall
  obtain ⟨rounds, saved, after, result, hsave, hload, -, hresult, -⟩ :=
    load_after_save shortWrites shortReads ⟨[], [115]⟩ ⟨[[97]], []⟩ ⟨fun _ => none, []⟩ hwrites hreads
  exact ⟨rounds, saved, after, result, hsave, hload, hresult readable_shortReads⟩

end StateStore

end EmojiPalette
