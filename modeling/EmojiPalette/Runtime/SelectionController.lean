import EmojiPalette.Ipc.Protocol
import EmojiPalette.Library.Trace

/-!
# The selection controller

The controller holds the transaction of the active selection and the target it would be committed to. A target is known only through its answers, which may be others at every call, and through its `commit`, which may call the controller again before `select` returns. A run is therefore a list of calls in which every `select` carries the calls its commit makes.
-/

namespace EmojiPalette

open Ipc Trace

inductive SelectionResult
  | committed
  | inactive
  | transactionMismatch
  | targetUnavailable
  | focusLost
  | invalidSelection
  deriving DecidableEq

/-- What the targets answer at the moment they are asked. -/
structure CommitTargets (τ : Type) where
  available : τ → Bool
  focused : τ → Bool

structure SelectionController (τ : Type) where
  transaction : Option TransactionId
  target : Option τ
  lastCancelReason : Option CancelReason
  deriving DecidableEq

namespace SelectionController

variable {τ : Type}

def initial : SelectionController τ := ⟨none, none, none⟩

def active (controller : SelectionController τ) : Bool := controller.transaction.isSome

def begin (transaction : TransactionId) (target : τ) : SelectionController τ := ⟨some transaction, some target, none⟩

def cancel (reason : CancelReason) : SelectionController τ := ⟨none, none, some reason⟩

/-- What `select` returns, what it calls before that, and the state in which it makes the call. -/
structure Selection (τ : Type) where
  controller : SelectionController τ
  result : SelectionResult
  commit : Option (τ × Bytes)

def validSelection (catalog : EmojiCatalog) (sequence : Bytes) : Bool :=
  !(sequence.isEmpty || sequence.length > maximumSelectionSize || !isValidUtf8 sequence ||
    !catalog.contains sequence)

def select (catalog : EmojiCatalog) (targets : CommitTargets τ) (selected : Selected)
    (controller : SelectionController τ) : Selection τ :=
  match controller.transaction, controller.target with
  | some transaction, some target =>
      if selected.transaction ≠ transaction then ⟨controller, .transactionMismatch, none⟩
      else if !targets.available target then ⟨cancel .contextDestroyed, .targetUnavailable, none⟩
      else if !targets.focused target then ⟨cancel .focusLost, .focusLost, none⟩
      else if !validSelection catalog selected.sequence then ⟨cancel .protocolError, .invalidSelection, none⟩
      else ⟨initial, .committed, some (target, selected.sequence)⟩
  | _, _ => ⟨controller, .inactive, none⟩

theorem validSelection_iff {catalog : EmojiCatalog} {sequence : Bytes} :
    validSelection catalog sequence = true ↔ 1 ≤ sequence.length ∧ sequence.length ≤ 128 ∧
      isValidUtf8 sequence = true ∧ catalog.contains sequence = true := by
  simp [validSelection, maximumSelectionSize, Nat.one_le_iff_ne_zero]
  tauto

/-- What a `select` did, by its result. A commit happens only past all the checks and leaves the initial state behind. -/
theorem select_cases (catalog : EmojiCatalog) (targets : CommitTargets τ) (selected : Selected)
    (controller : SelectionController τ) :
    (∃ target, controller.transaction = some selected.transaction ∧ controller.target = some target ∧
      targets.available target = true ∧ targets.focused target = true ∧
      validSelection catalog selected.sequence = true ∧
      select catalog targets selected controller = ⟨initial, .committed, some (target, selected.sequence)⟩) ∨
    (∃ result, (result = .inactive ∨ result = .transactionMismatch) ∧
      (controller.transaction = some selected.transaction → controller.target = none) ∧
      select catalog targets selected controller = ⟨controller, result, none⟩) ∨
    (∃ target result reason, (result = .targetUnavailable ∨ result = .focusLost ∨ result = .invalidSelection) ∧
      controller.transaction = some selected.transaction ∧ controller.target = some target ∧
      (targets.available target = true → targets.focused target = true →
        validSelection catalog selected.sequence = false) ∧
      select catalog targets selected controller = ⟨cancel reason, result, none⟩) := by
  unfold select
  split
  · rename_i transaction target htransaction htarget
    split
    · rename_i hother
      refine Or.inr (Or.inl ⟨_, Or.inr rfl, fun hsame => ?_, rfl⟩)
      exact absurd (Option.some.inj (hsame.symm.trans htransaction)) hother
    rename_i hsame
    rw [← not_not.mp hsame] at htransaction
    split
    · rename_i hgone
      refine Or.inr (Or.inr ⟨target, _, _, Or.inl rfl, htransaction, htarget, fun havailable => ?_, rfl⟩)
      simp [havailable] at hgone
    rename_i havailable
    split
    · rename_i hlost
      refine Or.inr (Or.inr ⟨target, _, _, Or.inr (Or.inl rfl), htransaction, htarget, fun _ hfocused => ?_, rfl⟩)
      simp [hfocused] at hlost
    rename_i hfocused
    split
    · rename_i hinvalid
      refine Or.inr (Or.inr ⟨target, _, _, Or.inr (Or.inr rfl), htransaction, htarget, fun _ _ => ?_, rfl⟩)
      simpa using hinvalid
    rename_i hvalid
    exact Or.inl ⟨target, htransaction, htarget, by simpa using havailable, by simpa using hfocused,
      by simpa using hvalid, rfl⟩
  · rename_i hnone
    refine Or.inr (Or.inl ⟨_, Or.inl rfl, fun hsame => ?_, rfl⟩)
    cases htarget : controller.target with
    | none => rfl
    | some target => exact absurd htarget (hnone _ _ hsame)

/-! ### Runs -/

/-- A call of the controller. The commit a `select` leads to makes the calls it carries. -/
inductive Call (τ : Type)
  | begin (transaction : TransactionId) (target : τ)
  | cancel (reason : CancelReason)
  | select (targets : CommitTargets τ) (selected : Selected) (reentrant : List (Call τ))

/-- What is seen of a run: each begin and cancel that is called, and each commit with the frame that led to it, the targets' answers, and the state in which the controller makes it. -/
inductive Event (τ : Type)
  | began (transaction : TransactionId) (target : τ)
  | cancelled (reason : CancelReason)
  | committed (target : τ) (sequence : Bytes) (selected : Selected) (targets : CommitTargets τ)
      (controller : SelectionController τ)

/-- The controller's own part of a `select`, up to the call of `commit`. -/
def selectAction (catalog : EmojiCatalog) (targets : CommitTargets τ) (selected : Selected) :
    Action (SelectionController τ) (Event τ) := fun controller =>
  let selection := select catalog targets selected controller
  (selection.controller, match selection.commit with
    | some (target, sequence) => [.committed target sequence selected targets selection.controller]
    | none => [])

mutual

def Call.run (catalog : EmojiCatalog) : Call τ → Action (SelectionController τ) (Event τ)
  | .begin transaction target => fun _ => (SelectionController.begin transaction target, [.began transaction target])
  | .cancel reason => fun _ => (SelectionController.cancel reason, [.cancelled reason])
  | .select targets selected reentrant => fun controller =>
      if (SelectionController.select catalog targets selected controller).commit.isSome then
        (selectAction catalog targets selected).andThen (Call.runAll catalog reentrant) controller
      else selectAction catalog targets selected controller

def Call.runAll (catalog : EmojiCatalog) : List (Call τ) → Action (SelectionController τ) (Event τ)
  | [] => Action.skip
  | call :: rest => (Call.run catalog call).andThen (Call.runAll catalog rest)

end

def Event.IsBegan : Event τ → Prop
  | .began _ _ => True
  | _ => False

def Event.IsCommitted : Event τ → Prop
  | .committed _ _ _ _ _ => True
  | _ => False

/-- The event ends the selection that was begun. -/
def Event.IsEnd : Event τ → Prop
  | .began _ _ => False
  | _ => True

/-- The latest begin of the trace is this one, and nothing has ended it since. -/
def Open (log : List (Event τ)) (transaction : TransactionId) (target : τ) : Prop :=
  ∃ newer, Since Event.IsBegan log (.began transaction target) newer ∧ ∀ event ∈ newer, ¬ event.IsEnd

/-- Why a commit may happen. -/
def CommitReason (catalog : EmojiCatalog) (before : List (Event τ)) : Event τ → Prop
  | .committed target sequence selected targets controller =>
      Open before selected.transaction target ∧ targets.available target = true ∧ targets.focused target = true ∧
        sequence = selected.sequence ∧ 1 ≤ sequence.length ∧ sequence.length ≤ 128 ∧
        isValidUtf8 sequence = true ∧ catalog.contains sequence = true ∧ controller.transaction = none
  | _ => True

/-- An active controller holds the transaction and the target of the latest begin, and every commit so far had its reason. -/
def Inv (catalog : EmojiCatalog) (controller : SelectionController τ) (log : List (Event τ)) : Prop :=
  Justified (CommitReason catalog) log ∧
    ∀ transaction target, controller.transaction = some transaction → controller.target = some target →
      Open log transaction target

theorem preserves_selectAction (catalog : EmojiCatalog) (targets : CommitTargets τ) (selected : Selected) :
    Action.Preserves (Inv catalog) (selectAction catalog targets selected) := by
  rintro controller log ⟨hlog, hopen⟩
  rcases select_cases catalog targets selected controller with
    ⟨target, htransaction, htarget, havailable, hfocused, hvalid, hselect⟩ | ⟨_, _, _, hselect⟩ |
    ⟨_, _, _, _, _, _, _, hselect⟩
  · obtain ⟨hlow, hhigh, hutf8, hcontains⟩ := validSelection_iff.mp hvalid
    simp only [selectAction, hselect]
    refine ⟨hlog.snoc ⟨hopen _ _ htransaction htarget, havailable, hfocused, rfl, hlow, hhigh, hutf8, hcontains, rfl⟩,
      fun _ _ h => ?_⟩
    cases h
  · simpa only [selectAction, hselect, List.append_nil] using ⟨hlog, hopen⟩
  · simp only [selectAction, hselect, List.append_nil]
    refine ⟨hlog, fun _ _ h => ?_⟩
    cases h

mutual

theorem preserves_run (catalog : EmojiCatalog) : ∀ call : Call τ, Action.Preserves (Inv catalog) (call.run catalog)
  | .begin transaction target => by
      rintro controller log ⟨hlog, _⟩
      simp only [Call.run]
      refine ⟨hlog.snoc trivial, fun t other htransaction htarget => ?_⟩
      cases htransaction
      cases htarget
      exact ⟨[], since_snoc_self _ _ _, by simp⟩
  | .cancel reason => by
      rintro controller log ⟨hlog, _⟩
      simp only [Call.run]
      refine ⟨hlog.snoc trivial, fun _ _ h => ?_⟩
      cases h
  | .select targets selected reentrant => by
      intro controller log h
      simp only [Call.run]
      split
      · exact ((preserves_selectAction catalog targets selected).andThen (preserves_runAll catalog reentrant)) _ _ h
      · exact preserves_selectAction catalog targets selected _ _ h

theorem preserves_runAll (catalog : EmojiCatalog) :
    ∀ calls : List (Call τ), Action.Preserves (Inv catalog) (Call.runAll catalog calls)
  | [] => Action.Preserves.skip
  | call :: rest => (preserves_run catalog call).andThen (preserves_runAll catalog rest)

end

theorem inv_runAll (catalog : EmojiCatalog) (calls : List (Call τ)) :
    Inv catalog (Call.runAll catalog calls initial).1 (Call.runAll catalog calls initial).2 := by
  have hinitial : Inv catalog (initial : SelectionController τ) [] := by
    refine ⟨justified_nil _, fun _ _ h => ?_⟩
    cases h
  simpa using preserves_runAll catalog calls initial [] hinitial

/-- Every commit has its reason, a begin stands between any two commits, and a `select` that returns anything else commits nothing. -/
theorem commits_justified (catalog : EmojiCatalog) (calls : List (Call τ)) :
    Justified (CommitReason catalog) (Call.runAll catalog calls initial).2 ∧
      (∀ before first between second after,
        (Call.runAll catalog calls initial).2 = before ++ first :: (between ++ second :: after) →
        first.IsCommitted → second.IsCommitted → ∃ event ∈ between, event.IsBegan) ∧
      (∀ (targets : CommitTargets τ) (selected : Selected) (controller : SelectionController τ),
        let selection := select catalog targets selected controller
        (selection.result = .inactive ∨ selection.result = .transactionMismatch →
          selection.controller = controller ∧ selection.commit = none) ∧
        (selection.result = .targetUnavailable ∨ selection.result = .focusLost ∨
          selection.result = .invalidSelection → selection.controller.active = false ∧ selection.commit = none)) := by
  obtain ⟨hjustified, _⟩ := inv_runAll catalog calls
  refine ⟨hjustified, fun before first between second after hlog hfirst hsecond => ?_,
    fun targets selected controller => ?_⟩
  · have hreason := hjustified (before ++ first :: between) second after (by rw [hlog]; simp)
    cases second with
    | committed target sequence selected targets controller =>
        obtain ⟨⟨newer, hsince, hopen⟩, _⟩ := hreason
        have hend : first.IsEnd := by
          cases first with
          | committed => trivial
          | _ => exact hfirst.elim
        have hne : first ≠ .began selected.transaction target := by
          rintro rfl
          exact hfirst
        exact ⟨_, hsince.mem_of_notMem hne fun hmem => hopen first hmem hend, trivial⟩
    | _ => exact hsecond.elim
  · rcases select_cases catalog targets selected controller with
      ⟨_, _, _, _, _, _, hselect⟩ | ⟨_, hresult, _, hselect⟩ | ⟨_, _, _, hresult, _, _, _, hselect⟩
    · simp [hselect]
    · rcases hresult with rfl | rfl <;> simp [hselect]
    · rcases hresult with rfl | rfl | rfl <;> simp [hselect, active, cancel]

end SelectionController

end EmojiPalette
