import EmojiPalette.Core.StateStore
import EmojiPalette.Core.StateText
import EmojiPalette.Library.PowerLoss

/-!
# What a save tells the disk

`save` gives the disk a save leaves behind. Here it gives the calls that change the disk or make something of it certain, in their order, so that one can ask what there is when the helper is killed or the power is lost between two of them. Calls that fail are not among them: a failed `fsync` promises nothing.

The directory of the state file is taken to be on the disk already. The one `create_directories` makes is synced by nobody.
-/

namespace EmojiPalette

open Files PowerLoss

namespace StateStore

abbrev DiskCall := Call Location UInt8

def siblings (path : Path) (location : Location) : Bool := location.directory = path.directory

/-- The write calls of the loop that wrote something. -/
def writeCalls (write : Nat → WriteResult) (temporary : Location) : Nat → Nat → Bytes → Option (Bool × List Bytes)
  | 0, _, _ => none
  | fuel + 1, call, value =>
      if value.isEmpty then some (true, [])
      else match write call with
        | .interrupted => writeCalls write temporary fuel (call + 1) value
        | .failed => some (false, [])
        | .wrote count =>
            if count = 0 then some (false, [])
            else (writeCalls write temporary fuel (call + 1) (value.drop count)).map fun (written, chunks) =>
              (written, value.take count :: chunks)

/-- The calls on the open temporary file, `mkstemp` included. -/
def fillCalls (fuel : Nat) (calls : SystemCalls) (content : Bytes) (temporary : Location) :
    Option (Bool × List DiskCall) :=
  if !calls.fchmod then some (false, filling temporary [])
  else (writeCalls calls.write temporary fuel 0 content).map fun (written, chunks) =>
    if written && calls.fsync then (true, preparing temporary chunks) else (false, filling temporary chunks)

/-- The calls on the closed temporary file and on the directory. -/
def replaceCalls (calls : SystemCalls) (path : Path) (temporary : Location) (success : Bool) :
    Bool × List DiskCall :=
  if !(success && calls.rename) then (false, [.remove temporary])
  else if !calls.openDirectory then (false, [.rename temporary path.location])
  else if !calls.fsyncDirectory then (false, [.rename temporary path.location])
  else (true, [.rename temporary path.location, .syncDirectory (siblings path)])

def saveCalls (fuel : Nat) (calls : SystemCalls) (path : Path) (state : PersistentState)
    (files : Table Location Bytes) : Option (Bool × List DiskCall) :=
  match state.serialize with
  | none => some (false, [])
  | some content =>
      if !calls.createDirectories then some (false, [])
      else match mkstemp path ⟨files, []⟩ calls.mkstemp with
        | none => some (false, [])
        | some (temporary, _) =>
            (fillCalls fuel calls content temporary).map fun (success, filled) =>
              let replaced := replaceCalls calls path temporary (success && calls.close)
              (replaced.1, filled ++ replaced.2)

/-! ### The same disk -/

def filesAfter (log : List DiskCall) (files : Table Location Bytes) : Table Location Bytes :=
  log.foldl (fun table call => call.onTable table) files

theorem filesAfter_append (log more : List DiskCall) (files : Table Location Bytes) :
    filesAfter (log ++ more) files = filesAfter more (filesAfter log files) :=
  List.foldl_append

theorem files_append (disk : Disk) (location : Location) (written : Bytes) :
    (disk.append location written).files = Call.onTable (.append location written) disk.files := by
  simp only [Disk.append, Call.onTable]
  cases disk.files location <;> rfl

theorem writeAll_eq_writeCalls (write : Nat → WriteResult) (temporary : Location) (fuel call : Nat) (value : Bytes)
    (disk : Disk) :
    (writeAll write temporary fuel call value disk).map (fun result => (result.1, result.2.files)) =
      (writeCalls write temporary fuel call value).map fun result =>
        (result.1, filesAfter (result.2.map (.append temporary)) disk.files) := by
  induction fuel generalizing call value disk with
  | zero => rfl
  | succ fuel ih =>
      rw [writeAll, writeCalls]
      split
      · rfl
      cases write call with
      | interrupted => exact ih (call + 1) value disk
      | failed => rfl
      | wrote count =>
          dsimp only
          split
          · rfl
          · rw [ih, Option.map_map]
            refine congrArg (Option.map · _) (funext fun result => ?_)
            simp only [Function.comp_apply, List.map_cons, filesAfter, List.foldl_cons, files_append]

theorem fillTemporary_eq_fillCalls (fuel : Nat) (calls : SystemCalls) (content : Bytes) (temporary : Location)
    (disk : Disk) :
    (fillTemporary fuel calls content temporary (disk.put temporary [])).map (fun result => (result.1, result.2.files)) =
      (fillCalls fuel calls content temporary).map fun result => (result.1, filesAfter result.2 disk.files) := by
  rw [fillTemporary, fillCalls]
  split
  · rfl
  have hwritten := writeAll_eq_writeCalls calls.write temporary fuel 0 content (disk.put temporary [])
  cases hcalls : writeCalls calls.write temporary fuel 0 content with
  | none =>
      rw [hcalls, Option.map_none, Option.map_eq_none_iff] at hwritten
      rw [hwritten]
      rfl
  | some written =>
      rw [hcalls, Option.map_some] at hwritten
      obtain ⟨result, hresult, heq⟩ := Option.map_eq_some_iff.mp hwritten
      obtain ⟨hfirst, hfiles⟩ := Prod.mk.inj heq
      rw [hresult]
      simp only [Option.map_some, hfirst, hfiles]
      have hfilled : filesAfter (filling temporary written.2) disk.files =
          filesAfter (written.2.map (.append temporary)) (disk.put temporary []).files := rfl
      by_cases hsync : (written.1 && calls.fsync) = true
      · rw [if_pos hsync, hsync, preparing, filesAfter_append, hfilled]
        rfl
      · rw [if_neg hsync, hfilled, Bool.eq_false_iff.mpr hsync]

theorem replaceTarget_eq_replaceCalls (calls : SystemCalls) (path : Path) (temporary : Location) (success : Bool)
    (disk : Disk) :
    ((replaceTarget calls path temporary success disk).1, (replaceTarget calls path temporary success disk).2.files) =
      ((replaceCalls calls path temporary success).1,
        filesAfter (replaceCalls calls path temporary success).2 disk.files) := by
  simp only [replaceTarget, replaceCalls]
  cases hrenamed : success && calls.rename with
  | false => rfl
  | true =>
      cases calls.openDirectory with
      | false => rfl
      | true => cases calls.fsyncDirectory <;> rfl

theorem save_eq_saveCalls (fuel : Nat) (calls : SystemCalls) (path : Path) (state : PersistentState) (disk : Disk) :
    (save fuel calls path state disk).map (fun result => (result.1, result.2.files)) =
      (saveCalls fuel calls path state disk.files).map fun result => (result.1, filesAfter result.2 disk.files) := by
  rw [save, saveCalls]
  cases state.serialize with
  | none => rfl
  | some content =>
      dsimp only
      split
      · rfl
      cases hanswer : calls.mkstemp with
      | none => rfl
      | some letters =>
          by_cases htaken : (disk.files (path.temporary letters)).isSome = true
          · simp only [mkstemp, if_pos htaken]
            rfl
          simp only [mkstemp, if_neg htaken]
          have hfilled := fillTemporary_eq_fillCalls fuel calls content (path.temporary letters)
            { disk with directories := disk.directories ++ calls.created }
          cases hcalls : fillCalls fuel calls content (path.temporary letters) with
          | none =>
              rw [hcalls, Option.map_none, Option.map_eq_none_iff] at hfilled
              rw [hfilled]
              rfl
          | some filling =>
              rw [hcalls, Option.map_some] at hfilled
              obtain ⟨result, hresult, heq⟩ := Option.map_eq_some_iff.mp hfilled
              obtain ⟨hfirst, hfiles⟩ := Prod.mk.inj heq
              rw [hresult]
              simp only [Option.map_some, filesAfter_append]
              rw [← hfiles, ← hfirst]
              exact congrArg some (replaceTarget_eq_replaceCalls calls path _ _ result.2)

/-! ### What the calls come to -/

/-- A temporary file has a longer name than the file it is to replace. -/
theorem temporary_ne_location (path : Path) (letters : Bytes) : path.temporary letters ≠ path.location := by
  intro hsame
  have hlength := congrArg (fun location => location.filename.length) hsame
  simp [Path.temporary, Path.location, ascii] at hlength

theorem flatten_writeCalls {write : Nat → WriteResult} {temporary : Location} {fuel call : Nat} {value : Bytes}
    {chunks : List Bytes} (h : writeCalls write temporary fuel call value = some (true, chunks)) :
    chunks.flatten = value := by
  induction fuel generalizing call value chunks with
  | zero => cases h
  | succ fuel ih =>
      rw [writeCalls] at h
      split at h
      · rename_i hdone
        cases h
        exact (List.isEmpty_iff.mp hdone).symm
      cases hanswer : write call with
      | interrupted =>
          rw [hanswer] at h
          exact ih h
      | failed =>
          rw [hanswer] at h
          cases h
      | wrote count =>
          rw [hanswer] at h
          dsimp only at h
          split at h
          · cases h
          · obtain ⟨⟨written, rest⟩, hrest, heq⟩ := Option.map_eq_some_iff.mp h
            obtain ⟨rfl, rfl⟩ := Prod.mk.inj heq
            rw [List.flatten_cons, ih hrest, List.take_append_drop]

/-- The temporary file is filled with the whole content and synced, or the save is going to give it up. -/
theorem fillCalls_cases {fuel : Nat} {calls : SystemCalls} {content : Bytes} {temporary : Location} {success : Bool}
    {log : List DiskCall} (h : fillCalls fuel calls content temporary = some (success, log)) :
    (success = false ∧ ∃ chunks, log = filling temporary chunks) ∨
      ∃ chunks, chunks.flatten = content ∧ log = preparing temporary chunks := by
  rw [fillCalls] at h
  split at h
  · cases h
    exact Or.inl ⟨rfl, [], rfl⟩
  obtain ⟨⟨written, chunks⟩, hwritten, heq⟩ := Option.map_eq_some_iff.mp h
  dsimp only at heq
  split at heq
  · rename_i hsynced
    cases heq
    rw [(Bool.and_eq_true_iff.mp hsynced).1] at hwritten
    exact Or.inr ⟨chunks, flatten_writeCalls hwritten, rfl⟩
  · cases heq
    exact Or.inl ⟨rfl, chunks, rfl⟩

theorem replaceCalls_cases (calls : SystemCalls) (path : Path) (temporary : Location) (success : Bool) :
    replaceCalls calls path temporary success = (false, [.remove temporary]) ∨
      success = true ∧ (replaceCalls calls path temporary success = (false, [.rename temporary path.location]) ∨
        replaceCalls calls path temporary success =
          (true, [.rename temporary path.location, .syncDirectory (siblings path)])) := by
  cases success with
  | false => exact Or.inl rfl
  | true =>
      rw [replaceCalls, Bool.true_and]
      cases calls.rename with
      | false => exact Or.inl rfl
      | true =>
          refine Or.inr ⟨rfl, ?_⟩
          cases calls.openDirectory with
          | false => exact Or.inl rfl
          | true =>
              cases calls.fsyncDirectory with
              | false => exact Or.inl rfl
              | true => exact Or.inr rfl

/-- A save does nothing at its target, or replaces it and reports success when it has synced the directory too. -/
theorem saveCalls_cases {fuel : Nat} {calls : SystemCalls} {path : Path} {state : PersistentState}
    {files : Table Location Bytes} {saved : Bool} {log : List DiskCall}
    (h : saveCalls fuel calls path state files = some (saved, log)) :
    (saved = false ∧ ∀ call ∈ log, call.Elsewhere path.location) ∨
      ∃ temporary chunks, temporary ≠ path.location ∧ state.serialize = some chunks.flatten ∧
        log = replacing temporary path.location chunks ++ if saved then [.syncDirectory (siblings path)] else [] := by
  rw [saveCalls] at h
  cases hserialized : state.serialize with
  | none =>
      rw [hserialized] at h
      cases h
      exact Or.inl ⟨rfl, fun _ hcall => absurd hcall List.not_mem_nil⟩
  | some content =>
      rw [hserialized] at h
      dsimp only at h
      split at h
      · cases h
        exact Or.inl ⟨rfl, fun _ hcall => absurd hcall List.not_mem_nil⟩
      cases hopened : mkstemp path ⟨files, []⟩ calls.mkstemp with
      | none =>
          rw [hopened] at h
          cases h
          exact Or.inl ⟨rfl, fun _ hcall => absurd hcall List.not_mem_nil⟩
      | some opening =>
          obtain ⟨temporary, opened⟩ := opening
          have hne : temporary ≠ path.location := by
            cases hanswer : calls.mkstemp with
            | none =>
                rw [hanswer] at hopened
                cases hopened
            | some letters =>
                rw [hanswer, mkstemp] at hopened
                dsimp only at hopened
                split at hopened
                · cases hopened
                · cases hopened
                  exact temporary_ne_location path letters
          rw [hopened] at h
          obtain ⟨⟨success, filled⟩, hfilled, heq⟩ := Option.map_eq_some_iff.mp h
          dsimp only at heq
          obtain ⟨rfl, rfl⟩ := Prod.mk.inj heq
          rcases replaceCalls_cases calls path temporary (success && calls.close) with hremoved | ⟨hsuccess, hrenamed⟩
          · rw [hremoved]
            refine Or.inl ⟨rfl, List.forall_mem_append.mpr ⟨?_, by simpa [Call.Elsewhere] using hne⟩⟩
            rcases fillCalls_cases hfilled with ⟨-, chunks, rfl⟩ | ⟨chunks, -, rfl⟩
            · exact elsewhere_filling hne
            · exact elsewhere_preparing _ hne
          · rcases fillCalls_cases hfilled with ⟨hfailed, -⟩ | ⟨chunks, rfl, rfl⟩
            · rw [hfailed, Bool.false_and] at hsuccess
              cases hsuccess
            · refine Or.inr ⟨temporary, chunks, hne, rfl, ?_⟩
              rcases hrenamed with hrenamed | hrenamed
              · rw [hrenamed, replacing, List.append_assoc]
                rfl
              · rw [hrenamed, replacing, List.append_assoc]
                rfl

/-! ### When they stop half way -/

section Stopped

variable {fuel : Nat} {calls : SystemCalls} {path : Path} {state : PersistentState} {storage : Storage Location UInt8}
  {saved : Bool} {log done : List DiskCall}

/-- Whatever the moment the calls stop at, the target holds what it held or the whole new content, and lost power can bring back nothing but what it could before and the whole new content. -/
theorem stopped_saveCalls (h : saveCalls fuel calls path state storage.contents = some (saved, log))
    (hdone : done <+: log) :
    ((performAll done storage).contents path.location = storage.contents path.location ∨
      (∃ content, state.serialize = some content ∧ (performAll done storage).contents path.location = some content)) ∧
    ∀ found, (performAll done storage).possible path.location found →
      storage.possible path.location found ∨ ∃ content, state.serialize = some content ∧ found = some content := by
  have huntouched : (∀ call ∈ done, call.Elsewhere path.location) →
      (performAll done storage).contents path.location = storage.contents path.location ∧
        ∀ found, (performAll done storage).possible path.location found → storage.possible path.location found := by
    intro helsewhere
    obtain ⟨hlive, hpossible⟩ := performAll_elsewhere helsewhere storage
    exact ⟨by rw [Storage.contents, hlive, Storage.contents], fun found => (hpossible found).mp⟩
  rcases saveCalls_cases h with ⟨-, helsewhere⟩ | ⟨temporary, chunks, hne, hcontent, rfl⟩
  · obtain ⟨hsame, hpossible⟩ := huntouched fun call hcall => helsewhere call (hdone.subset hcall)
    exact ⟨Or.inl hsame, fun found hfound => Or.inl (hpossible found hfound)⟩
  obtain ⟨hlive, hpossible⟩ := performAll_replacing chunks storage hne
  have hcontents : (performAll (replacing temporary path.location chunks) storage).contents path.location =
      some chunks.flatten := by rw [Storage.contents, hlive, Option.map_some]
  have hreplaced : ((performAll (replacing temporary path.location chunks) storage).contents path.location =
      storage.contents path.location ∨ ∃ content, state.serialize = some content ∧
        (performAll (replacing temporary path.location chunks) storage).contents path.location = some content) ∧
      ∀ found, (performAll (replacing temporary path.location chunks) storage).possible path.location found →
        storage.possible path.location found ∨ ∃ content, state.serialize = some content ∧ found = some content := by
    refine ⟨Or.inr ⟨_, hcontent, hcontents⟩, fun found hfound => ?_⟩
    exact ((hpossible found).mp hfound).imp_right fun hnew => ⟨_, hcontent, hnew⟩
  -- Either the directory has been synced, or the rename was the last call, or it is still to come.
  have hstop : (∃ inside : Location → Bool, inside path.location = true ∧
        done = replacing temporary path.location chunks ++ [.syncDirectory inside]) ∨
      done = replacing temporary path.location chunks ∨ done <+: preparing temporary chunks := by
    have hbefore : ∀ {early : List DiskCall}, early <+: replacing temporary path.location chunks →
        early = replacing temporary path.location chunks ∨ early <+: preparing temporary chunks :=
      fun hearly => List.prefix_concat_iff.mp hearly
    cases saved with
    | false =>
        rw [if_neg Bool.false_ne_true, List.append_nil] at hdone
        exact Or.inr (hbefore hdone)
    | true =>
        rw [if_pos rfl] at hdone
        rcases List.prefix_concat_iff.mp hdone with hall | hearly
        · exact Or.inl ⟨siblings path, decide_eq_true rfl, hall⟩
        · exact Or.inr (hbefore hearly)
  rcases hstop with ⟨inside, hinside, rfl⟩ | rfl | hearly
  · rw [performAll_append]
    refine ⟨Or.inr ⟨_, hcontent, hcontents⟩, fun found hfound => Or.inr ⟨_, hcontent, ?_⟩⟩
    exact (possible_syncDirectory hinside hlive).mp hfound
  · exact hreplaced
  · obtain ⟨hsame, hold⟩ := huntouched fun call hcall => elsewhere_preparing _ hne call (hearly.subset hcall)
    exact ⟨Or.inl hsame, fun found hfound => Or.inl (hold found hfound)⟩

/-- A save that reports success has made certain of its content. -/
theorem certain_saveCalls (h : saveCalls fuel calls path state storage.contents = some (true, log)) :
    ∃ content, state.serialize = some content ∧ (performAll log storage).contents path.location = some content ∧
      ∀ found, (performAll log storage).possible path.location found → found = some content := by
  rcases saveCalls_cases h with ⟨hfalse, -⟩ | ⟨temporary, chunks, hne, hcontent, rfl⟩
  · cases hfalse
  obtain ⟨hlive, -⟩ := performAll_replacing chunks storage hne
  have hinside : siblings path path.location = true := decide_eq_true rfl
  rw [if_pos rfl, performAll_append]
  refine ⟨_, hcontent, ?_, fun found hfound => ?_⟩
  · exact (congrArg (Option.map (·.content)) hlive : _)
  · exact (possible_syncDirectory hinside hlive).mp hfound

/-- The calls of a save make the files it leaves. Stopped after any of them, it has left the target as it was or with the whole new content, and power lost at that moment brings back no third thing. Once it has reported success, the new content is all that lost power can bring back, and it reads as the state that was saved. -/
theorem save_stopped_anywhere {disk after : Disk} (hdisk : disk.files = storage.contents)
    (h : save fuel calls path state disk = some (saved, after)) :
    ∃ log, saveCalls fuel calls path state disk.files = some (saved, log) ∧
      after.files = (performAll log storage).contents ∧
      (∀ done, done <+: log →
        ((performAll done storage).contents path.location = disk.files path.location ∨
          ∃ content, state.serialize = some content ∧ (performAll done storage).contents path.location = some content) ∧
        ∀ files, (performAll done storage).Loses files →
          storage.possible path.location (files path.location) ∨
            ∃ content, state.serialize = some content ∧ files path.location = some content) ∧
      (saved = true → ∀ files, (performAll log storage).Loses files →
        ∃ content, files path.location = some content ∧ PersistentState.parseState content = some state) := by
  have hcalls := save_eq_saveCalls fuel calls path state disk
  rw [h, Option.map_some, hdisk] at hcalls
  obtain ⟨⟨reported, log⟩, hlog, heq⟩ := Option.map_eq_some_iff.mp hcalls.symm
  obtain ⟨hreported, hfiles⟩ := Prod.mk.inj heq
  dsimp only at hreported hfiles
  subst hreported
  refine ⟨log, hdisk ▸ hlog, hfiles.symm.trans (contents_performAll log storage).symm, fun done hdone => ?_, ?_⟩
  · obtain ⟨hpresent, hpossible⟩ := stopped_saveCalls hlog hdone
    rw [hdisk]
    exact ⟨hpresent, fun files hloses => hpossible _ (hloses path.location)⟩
  · rintro rfl files hloses
    obtain ⟨content, hcontent, -, hfound⟩ := certain_saveCalls hlog
    obtain ⟨hstorable, rfl⟩ := PersistentState.serialize_eq_some_iff.mp hcontent
    exact ⟨_, hfound _ (hloses path.location), PersistentState.parseState_render hstorable⟩

end Stopped

/-- The first save of an empty state, in a directory without files. -/
theorem save_stopped_anywhere_shortWrites :
    let path : Path := ⟨[], [115]⟩
    let storage : Storage Location UInt8 := .settled fun _ => none
    ∃ saved after log, save 9 shortWrites path .empty ⟨storage.contents, []⟩ = some (saved, after) ∧
      saveCalls 9 shortWrites path .empty storage.contents = some (saved, log) ∧
      after.files = (performAll log storage).contents ∧
      (∀ done, done <+: log →
        ((performAll done storage).contents path.location = storage.contents path.location ∨
          ∃ content, PersistentState.empty.serialize = some content ∧
            (performAll done storage).contents path.location = some content) ∧
        ∀ files, (performAll done storage).Loses files →
          storage.possible path.location (files path.location) ∨
            ∃ content, PersistentState.empty.serialize = some content ∧ files path.location = some content) ∧
      (saved = true → ∀ files, (performAll log storage).Loses files →
        ∃ content, files path.location = some content ∧ PersistentState.parseState content = some .empty) := by
  intro path storage
  have hsome : (save 9 shortWrites path .empty ⟨storage.contents, []⟩).isSome = true := by decide +kernel
  obtain ⟨⟨saved, after⟩, hsave⟩ := Option.isSome_iff_exists.mp hsome
  obtain ⟨log, hlog⟩ := save_stopped_anywhere (show (⟨storage.contents, []⟩ : Disk).files = storage.contents from rfl) hsave
  exact ⟨saved, after, log, hsave, hlog⟩

end StateStore

end EmojiPalette
