import EmojiPalette.Addon.Outcomes

/-!
# What is committed

A handler of the addon commits at most one text, and only one handler does so at all: the one that receives a choice, when the choice is for the active transaction, its context lives and has the focus, and the catalog knows the text. A commit ends the transaction, and what follows it is a transaction that has just been drawn, or none.
-/

namespace EmojiPalette

open Ipc Trace

namespace Addon

variable {κ : Type}

/-- The texts among the outputs, with the contexts they go to. -/
def commits (outputs : List (Output κ)) : List (κ × Bytes) :=
  outputs.filterMap fun output =>
    match output with
    | .committed context sequence => some (context, sequence)
    | _ => none

@[simp] theorem commits_append (outputs more : List (Output κ)) :
    commits (outputs ++ more) = commits outputs ++ commits more := List.filterMap_append

theorem commits_map (committed : List (κ × Bytes)) :
    commits (committed.map fun commit => .committed commit.1 commit.2) = committed := by
  induction committed with
  | nil => rfl
  | cons first rest ih => exact congrArg (first :: ·) ih

namespace EmojiPaletteAddon

variable {surroundings : Surroundings κ} {addon : EmojiPaletteAddon κ}

/-! ### Handlers that commit nothing -/

@[simp] theorem commits_sendEnvelope (surroundings : Surroundings κ) (payload : Payload) (addon : EmojiPaletteAddon κ) :
    commits (sendEnvelope surroundings payload addon).2 = [] := by
  by_cases h : surroundings.Delivers payload
  · rw [sendEnvelope_of_delivers h]
    rfl
  · obtain ⟨reason, hsent⟩ := sendEnvelope_of_not_delivers h addon
    rw [hsent]
    rfl

@[simp] theorem commits_cancel (surroundings : Surroundings κ) (reason : CancelReason) (notifyHelper : Bool)
    (addon : EmojiPaletteAddon κ) : commits (cancel surroundings reason notifyHelper addon).2 = [] := by
  unfold cancel
  split
  · rfl
  split
  · simp [clear]
  · rfl

@[simp] theorem commits_sendShow (surroundings : Surroundings κ) (contexts : Contexts κ) (context : κ)
    (transaction : TransactionId) (addon : EmojiPaletteAddon κ) :
    commits (sendShow surroundings contexts context transaction addon).2 = [] := commits_sendEnvelope _ _ _

theorem commits_show (surroundings : Surroundings κ) (context : κ) (addon : EmojiPaletteAddon κ) :
    commits («show» surroundings context addon).2 = [] := by
  rw [show_apply]
  dsimp only
  rw [commits_append, commits_cancel, List.nil_append, sendShowOrNegotiate]
  split
  · exact commits_sendShow _ _ _ _ _
  · rw [negotiate_apply]
    split <;> rfl

theorem commits_sendCommand (surroundings : Surroundings κ) (kind : CommandKind) (text : Bytes)
    (addon : EmojiPaletteAddon κ) : commits (sendCommand surroundings kind text addon).2 = [] := by
  unfold sendCommand
  split
  · rfl
  · exact commits_sendEnvelope _ _ _

theorem commits_keyEvent [DecidableEq κ] (installation : Installation) (surroundings : Surroundings κ)
    (event : KeyEvent κ) (addon : EmojiPaletteAddon κ) :
    commits (keyEvent installation surroundings event addon).2 = [] := by
  unfold keyEvent
  split
  · unfold handleActiveKey
    split
    · rfl
    rw [Action.andThen_snd, commits_append, Action.emit_apply]
    refine List.append_eq_nil_iff.mpr ⟨rfl, ?_⟩
    cases addon.keyRouter.route installation.fcitx event.key event.origKey event.isRelease addon.search with
    | ignore => rfl
    | command command => exact commits_sendCommand _ _ _ _
    | search text => exact commits_sendCommand _ _ _ _
  split
  · rw [Action.andThen_snd, commits_append, commits_show]
    rfl
  · rfl

theorem commits_reply (surroundings : Surroundings κ) (serial : Nat) (sender : Bytes) (answer : Reply)
    (addon : EmojiPaletteAddon κ) : commits (reply surroundings serial sender answer addon).2 = [] := by
  unfold reply
  split
  · rfl
  split
  · unfold receiveReply
    split
    · rfl
    split
    · exact commits_cancel _ _ _ _
    · exact commits_cancel _ _ _ _
    split
    · unfold receiveWelcome
      dsimp only
      split
      · exact commits_cancel _ _ _ _
      split
      · exact commits_cancel _ _ _ _
      · exact commits_sendShow _ _ _ _ _
    · exact commits_cancel _ _ _ _
  · rfl

theorem commits_receiveCancelled (surroundings : Surroundings κ) (cancelled : Cancelled) (addon : EmojiPaletteAddon κ) :
    commits (receiveCancelled surroundings cancelled addon).2 = [] := by
  unfold receiveCancelled
  split
  · exact commits_cancel _ _ _ _
  · rfl

/-- An input other than a frame of the helper commits nothing. -/
theorem commits_step_of_ne [DecidableEq κ] (installation : Installation) (surroundings : Surroundings κ)
    {input : Input κ} (hinput : ∀ sender content, input ≠ .frame sender content) (addon : EmojiPaletteAddon κ) :
    commits (step installation surroundings input addon).2 = [] := by
  cases input with
  | key event => exact commits_keyEvent installation surroundings event addon
  | contextEvent context event =>
      rw [step, contextEvent]
      split
      · exact commits_cancel _ _ _ _
      · rfl
  | groupChanged layout => rfl
  | configured config layout => rfl
  | ownerChanged oldOwner newOwner =>
      rw [step, ownerChanged]
      dsimp only
      split
      · exact commits_cancel _ _ _ _
      · rfl
  | reply serial sender answer => exact commits_reply surroundings serial sender answer addon
  | frame sender content => exact absurd rfl (hinput sender content)

/-! ### A choice -/

theorem commits_afterCommit (surroundings : Surroundings κ) (addon : EmojiPaletteAddon κ) :
    commits (afterCommit surroundings addon).2 = [] := by
  unfold afterCommit
  split
  · rfl
  split
  · exact commits_cancel _ _ _ _
  split
  · exact commits_sendShow _ _ _ _ _
  · exact commits_cancel _ _ _ _

theorem commits_receiveSelected (catalog : EmojiCatalog) (surroundings : Surroundings κ) (selected : Selected)
    (addon : EmojiPaletteAddon κ) : commits (receiveSelected catalog surroundings selected addon).2 =
      (addon.controller.select catalog surroundings.contexts.targets selected).commit.toList := by
  unfold receiveSelected
  rcases SelectionController.select_cases catalog surroundings.contexts.targets selected addon.controller with
    ⟨target, _, _, _, _, _, hselect⟩ | ⟨_, hresult, _, hselect⟩ | ⟨_, _, _, hresult, _, _, _, hselect⟩
  · rw [hselect]
    dsimp only
    rw [commits_append, commits_map, commits_afterCommit, List.append_nil]
  · rcases hresult with rfl | rfl <;> rw [hselect] <;> rfl
  · rcases hresult with rfl | rfl | rfl <;> rw [hselect] <;> exact commits_cancel _ _ _ _

/-- The choice is for the active transaction, and there is somebody to commit it to. -/
def awaited (surroundings : Surroundings κ) (selected : Selected) (addon : EmojiPaletteAddon κ) : Bool :=
  addon.controller.transaction = some selected.transaction && addon.controller.target.any surroundings.contexts.focused

/-- A choice of the catalog is committed if and only if it is awaited. -/
theorem select_of_valid (surroundings : Surroundings κ) (addon : EmojiPaletteAddon κ) {catalog : EmojiCatalog}
    {selected : Selected} (hvalid : SelectionController.validSelection catalog selected.sequence = true) :
    (∃ context, addon.controller.target = some context ∧ addon.controller.transaction = some selected.transaction ∧
      awaited surroundings selected addon = true ∧
      (addon.controller.select catalog surroundings.contexts.targets selected).commit = some (context, selected.sequence)) ∨
    awaited surroundings selected addon = false ∧
      (addon.controller.select catalog surroundings.contexts.targets selected).commit = none := by
  rcases SelectionController.select_cases catalog surroundings.contexts.targets selected addon.controller with
    ⟨context, htransaction, htarget, _, hfocused, _, hselect⟩ | ⟨_, _, hnone, hselect⟩ |
    ⟨context, _, _, _, htransaction, htarget, hrefused, hselect⟩
  · rw [hselect]
    refine Or.inl ⟨context, htarget, htransaction, ?_, rfl⟩
    rw [awaited, htransaction, htarget, decide_eq_true rfl, Bool.true_and]
    exact hfocused
  · rw [hselect]
    refine Or.inr ⟨?_, rfl⟩
    by_cases hsame : addon.controller.transaction = some selected.transaction
    · rw [awaited, hnone hsame, Option.any_none, Bool.and_false]
    · rw [awaited, decide_eq_false hsame, Bool.false_and]
  · rw [hselect]
    refine Or.inr ⟨?_, rfl⟩
    rw [awaited, htarget, Option.any_some]
    -- A context that has the focus lives, so that nothing would have been refused.
    cases hfocus : surroundings.contexts.focused context with
    | false => rw [Bool.and_false]
    | true =>
        have halive : surroundings.contexts.alive context = true := by
          simp only [Contexts.focused, Bool.and_eq_true] at hfocus
          exact hfocus.1
        cases (hrefused halive hfocus).symm.trans hvalid

/-! ### What becomes of the controller -/

/-- The controller is left, loses its transaction, or gets the one that has been drawn. -/
def ControllerMoves (surroundings : Surroundings κ) (before after : SelectionController κ) : Prop :=
  after = before ∨ after.transaction = none ∨ ∃ context, after = .begin surroundings.transaction context

theorem Becomes.controller {before after : EmojiPaletteAddon κ} (h : Becomes surroundings before after) :
    ControllerMoves surroundings before.controller after.controller := by
  cases h with
  | same | typed => exact Or.inl rfl
  | ended | closed => exact Or.inr (Or.inl rfl)
  | continued context => exact Or.inr (Or.inr ⟨context, rfl⟩)

theorem controller_step [DecidableEq κ] (installation : Installation) (surroundings : Surroundings κ) (input : Input κ)
    (addon : EmojiPaletteAddon κ) :
    ControllerMoves surroundings addon.controller (step installation surroundings input addon).1.controller := by
  have houtcome := outcome_step installation surroundings input addon
  generalize (step installation surroundings input addon).1 = after at houtcome
  cases houtcome with
  | becomes hbecomes => exact hbecomes.controller
  | begins event => exact Or.inr (Or.inr ⟨event.context, rfl⟩)
  | fails => exact Or.inr (Or.inl rfl)
  | reloads => exact Or.inl rfl
  | reconnects session pendingCall _ hbecomes => exact hbecomes.controller

end EmojiPaletteAddon

end Addon

end EmojiPalette
