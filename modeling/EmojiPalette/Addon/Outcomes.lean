import EmojiPalette.Addon.EmojiPaletteAddon

/-!
# What becomes of the addon

Every handler of the addon, seen by the state it leaves. Most of them can do five things to the transaction and nothing to the session: leave it, end it, type in it, close it with a commit or go on after one. A trigger begins a transaction, and the answer of a negotiation or the loss of an owner changes the session, after which the transaction is left or ended.
-/

namespace EmojiPalette

open Ipc Trace

namespace Addon

namespace EmojiPaletteAddon

variable {κ : Type} {surroundings : Surroundings κ} {before after addon : EmojiPaletteAddon κ}

/-- What becomes of the addon while its session is left alone. -/
inductive Becomes (surroundings : Surroundings κ) (before : EmojiPaletteAddon κ) : EmojiPaletteAddon κ → Prop
  | same : Becomes surroundings before before
  | ended (reason : CancelReason) : Becomes surroundings before (before.cleared reason)
  | typed (text : Bytes) (sequence : UInt32) (htext : TextWithin 256 before.search → TextWithin 256 text) :
      Becomes surroundings before { before with search := text, commandSequence := sequence }
  | closed : Becomes surroundings before { before with controller := .initial, origin := none }
  /-- The next transaction of the same context. -/
  | continued (context : κ) (horigin : before.origin = some context) : Becomes surroundings before
      { before with controller := .begin surroundings.transaction context, commandSequence := 0 }

/-- What becomes of the addon in a handler. -/
inductive Outcome (surroundings : Surroundings κ) (before : EmojiPaletteAddon κ) :
    Input κ → EmojiPaletteAddon κ → Prop
  | becomes {input : Input κ} {after : EmojiPaletteAddon κ} (h : Becomes surroundings before after) :
      Outcome surroundings before input after
  | begins (event : KeyEvent κ) (pendingCall : Option (PendingCall κ))
      (hready : before.session.state = .ready → pendingCall = before.pendingCall) :
      Outcome surroundings before (.key event)
        { started surroundings event.context before with pendingCall := pendingCall }
  | fails (event : KeyEvent κ) (reason : CancelReason) :
      Outcome surroundings before (.key event) ((started surroundings event.context before).cleared reason)
  | reloads {input : Input κ} (config : EmojiPaletteConfig) (shortcutMatcher : ShortcutMatcher)
      (keyRouter : ActiveKeyRouter) : Outcome surroundings before input
        { before with config := config, shortcutMatcher := shortcutMatcher, keyRouter := keyRouter }
  /-- The session has changed, or the call that may change it. -/
  | reconnects {input : Input κ} {after : EmojiPaletteAddon κ} (session : PeerSession)
      (pendingCall : Option (PendingCall κ)) (hready : session.state = .ready → pendingCall = none ∨
        session = before.session ∧ pendingCall = before.pendingCall)
      (h : Becomes surroundings { before with session := session, pendingCall := pendingCall } after) :
      Outcome surroundings before input after

/-! ### The parts -/

theorem becomes_cancel {reason : CancelReason} {notifyHelper : Bool}
    (hcleared : ∀ reason, addon.cleared reason = before.cleared reason) :
    Becomes surroundings before (cancel surroundings reason notifyHelper addon).1 := by
  obtain ⟨other, hcancelled⟩ := cancel_fst surroundings reason notifyHelper addon
  rw [hcancelled, hcleared]
  exact .ended other

/-- A cancel whose `Hide` is taken, if there is one to send. -/
theorem cancel_of_delivers {reason : CancelReason} (hdelivers : ∀ transaction,
      addon.controller.transaction = some transaction → surroundings.Delivers (.hide ⟨transaction, reason⟩))
    (notifyHelper : Bool) : cancel surroundings reason notifyHelper addon = (addon.cleared reason,
      if notifyHelper && addon.session.state = .ready then
        addon.controller.transaction.toList.map fun transaction => .sent (Payload.hide ⟨transaction, reason⟩).frame
      else []) := by
  unfold cancel
  cases htransaction : addon.controller.transaction with
  | none => simp [clear]
  | some transaction =>
      have hsent := sendEnvelope_of_delivers (hdelivers transaction htransaction) (addon.cleared reason)
      dsimp only
      split
      · rw [clear, Action.andThen, Action.update_apply, hsent]
        rfl
      · rfl

/-- An envelope that cannot be sent ends the transaction. -/
theorem Becomes.sendEnvelope {payload : Payload} (h : Becomes surroundings before addon)
    (hcleared : ∀ reason, addon.cleared reason = before.cleared reason) :
    Becomes surroundings before (EmojiPaletteAddon.sendEnvelope surroundings payload addon).1 := by
  rcases sendEnvelope_fst surroundings payload addon with hsame | ⟨reason, hended⟩
  · rwa [hsame]
  · rw [hended, hcleared]
    exact .ended reason

theorem becomes_sendCommand (kind : CommandKind) (given : Bytes) {text : Bytes}
    (htext : TextWithin 256 before.search → TextWithin 256 text) :
    Becomes surroundings before (sendCommand surroundings kind given { before with search := text }).1 := by
  unfold sendCommand
  split
  · exact .typed text before.commandSequence htext
  · exact (Becomes.typed text (before.commandSequence + 1) htext).sendEnvelope fun _ => rfl

theorem becomes_handleActiveKey [DecidableEq κ] (installation : Installation) (surroundings : Surroundings κ)
    (event : KeyEvent κ) (before : EmojiPaletteAddon κ) :
    Becomes surroundings before (handleActiveKey installation surroundings event before).1 := by
  unfold handleActiveKey
  split
  · exact .same
  rw [Action.andThen_fst, Action.emit_apply]
  cases hroute : before.keyRouter.route installation.fcitx event.key event.origKey event.isRelease before.search with
  | ignore => exact .same
  | command command => exact becomes_sendCommand command [] id
  | search text =>
      exact becomes_sendCommand .searchText text fun hsearch => ActiveKeyRouter.textWithin_of_route hsearch hroute

theorem becomes_contextEvent [DecidableEq κ] (surroundings : Surroundings κ) (context : κ) (event : ContextEvent)
    (before : EmojiPaletteAddon κ) : Becomes surroundings before (contextEvent surroundings context event before).1 := by
  unfold contextEvent
  split
  · exact becomes_cancel fun _ => rfl
  · exact .same

/-! ### Frames of the helper -/

theorem becomes_receiveSelected (catalog : EmojiCatalog) (surroundings : Surroundings κ) (selected : Selected)
    (before : EmojiPaletteAddon κ) :
    Becomes surroundings before (receiveSelected catalog surroundings selected before).1 := by
  unfold receiveSelected
  rcases SelectionController.select_cases catalog surroundings.contexts.targets selected before.controller with
    ⟨_, _, _, _, _, _, hselect⟩ | ⟨_, hresult, _, hselect⟩ | ⟨_, _, _, hresult, _, _, _, hselect⟩
  · rw [hselect]
    dsimp only
    unfold afterCommit
    split
    · exact .closed
    split
    · exact becomes_cancel fun _ => rfl
    rename_i context hcontext
    split
    · have hcontinued : Becomes surroundings before
          { before with controller := .begin surroundings.transaction context, commandSequence := 0 } :=
        .continued context (Option.filter_eq_some_iff.mp hcontext).1
      exact hcontinued.sendEnvelope fun _ => rfl
    · exact becomes_cancel fun _ => rfl
  · rcases hresult with rfl | rfl <;> rw [hselect] <;> exact .same
  · rcases hresult with rfl | rfl | rfl <;> rw [hselect] <;> exact becomes_cancel fun _ => rfl

theorem becomes_receiveFrame (catalog : EmojiCatalog) (surroundings : Surroundings κ) (sender : Bytes)
    (content : Option Bytes) (before : EmojiPaletteAddon κ) :
    Becomes surroundings before (receiveFrame catalog surroundings sender content before).1 := by
  unfold receiveFrame
  split
  · exact .same
  split
  · exact becomes_cancel fun _ => rfl
  split
  · exact becomes_cancel fun _ => rfl
  split
  · exact becomes_receiveSelected catalog surroundings _ before
  · unfold receiveCancelled
    split
    · exact becomes_cancel fun _ => rfl
    · exact .same
  · exact .same

/-! ### The session -/

theorem Becomes.peer (h : Becomes surroundings before after) : after.peer = before.peer := by
  cases h <;> rfl

/-- A key is one for the active transaction, or a trigger begins a transaction, which may fail at once. -/
theorem keyEvent_cases [DecidableEq κ] (installation : Installation) (surroundings : Surroundings κ)
    (event : KeyEvent κ) (before : EmojiPaletteAddon κ) :
    Becomes surroundings before (keyEvent installation surroundings event before).1 ∨
      (∃ pendingCall, (before.session.state = .ready → pendingCall = before.pendingCall) ∧
        (keyEvent installation surroundings event before).1 =
          { started surroundings event.context before with pendingCall := pendingCall }) ∨
      ∃ reason, (keyEvent installation surroundings event before).1 =
        (started surroundings event.context before).cleared reason := by
  unfold keyEvent
  split
  · exact Or.inl (becomes_handleActiveKey installation surroundings event before)
  split
  · refine Or.inr ?_
    obtain ⟨reason, hcleared⟩ := cancel_fst surroundings .user true before
    have hstarted : started surroundings event.context (before.cleared reason) =
        started surroundings event.context before := rfl
    rw [Action.andThen_fst, Action.emit_apply, show_apply, hcleared, hstarted]
    dsimp only
    rw [sendShowOrNegotiate]
    split
    · rcases sendEnvelope_fst surroundings _ (started surroundings event.context before) with hsame | ⟨other, hended⟩
      · rw [sendShow, hsame]
        exact Or.inl ⟨before.pendingCall, fun _ => rfl, rfl⟩
      · rw [sendShow, hended]
        exact Or.inr ⟨other, rfl⟩
    · rename_i hnot
      rw [negotiate_apply]
      split
      · exact Or.inl ⟨_, fun hready => absurd hready hnot, rfl⟩
      · exact Or.inl ⟨_, fun hready => absurd hready hnot, rfl⟩
  · exact Or.inl .same

theorem outcome_reply (surroundings : Surroundings κ) (serial : Nat) (sender : Bytes) (answer : Reply)
    (before : EmojiPaletteAddon κ) {input : Input κ} :
    Outcome surroundings before input (reply surroundings serial sender answer before).1 := by
  unfold reply
  split
  · exact .becomes .same
  split
  · -- The call has been taken out before anything can make the session ready.
    have hreconnects : ∀ (session : PeerSession) {after : EmojiPaletteAddon κ},
        Becomes surroundings { before with session := session, pendingCall := none } after →
          Outcome surroundings before input after := fun session _ h => .reconnects session none (fun _ => Or.inl rfl) h
    unfold receiveReply
    split
    · exact hreconnects before.session .same
    split
    · exact hreconnects before.session (becomes_cancel fun _ => rfl)
    · exact hreconnects before.session (becomes_cancel fun _ => rfl)
    split
    · unfold receiveWelcome
      dsimp only
      split
      · exact hreconnects _ (becomes_cancel fun _ => rfl)
      split
      · exact hreconnects _ (becomes_cancel fun _ => rfl)
      · exact hreconnects _ (Becomes.same.sendEnvelope fun _ => rfl)
    · exact hreconnects before.session (becomes_cancel fun _ => rfl)
  · exact .becomes .same

theorem outcome_ownerChanged (surroundings : Surroundings κ) (oldOwner newOwner : Bytes)
    (before : EmojiPaletteAddon κ) {input : Input κ} :
    Outcome surroundings before input (ownerChanged surroundings oldOwner newOwner before).1 := by
  unfold ownerChanged
  by_cases hloses : (!oldOwner.isEmpty && before.session.accepts oldOwner) = true
  · have hlost : (before.session.ownerLost oldOwner).state ≠ .ready := by
      simp only [PeerSession.accepts, Bool.and_eq_true, decide_eq_true_eq] at hloses
      simp [PeerSession.ownerLost, hloses.2.2, PeerSession.disconnect]
    obtain ⟨reason, hcleared⟩ := cancel_fst surroundings .helperDisconnected false
      { before with session := before.session.ownerLost oldOwner }
    simp only [if_pos hloses, hcleared]
    split
    · exact .reconnects _ none (fun _ => Or.inl rfl) (.ended reason)
    · exact .reconnects _ before.pendingCall (fun hready => absurd hready hlost) (.ended reason)
  · simp only [if_neg hloses]
    split
    · exact .reconnects before.session none (fun _ => Or.inl rfl) .same
    · exact .becomes .same

/-- A handler leaves one of the outcomes. -/
theorem outcome_step [DecidableEq κ] (installation : Installation) (surroundings : Surroundings κ) (input : Input κ)
    (before : EmojiPaletteAddon κ) :
    Outcome surroundings before input (step installation surroundings input before).1 := by
  cases input with
  | key event =>
      rcases keyEvent_cases installation surroundings event before with
        hbecomes | ⟨pendingCall, hready, hbegun⟩ | ⟨reason, hfailed⟩
      · exact .becomes hbecomes
      · rw [step, hbegun]
        exact .begins event pendingCall hready
      · rw [step, hfailed]
        exact .fails event reason
  | contextEvent context event => exact .becomes (becomes_contextEvent surroundings context event before)
  | groupChanged layout => cases layout <;> exact .reloads _ _ _
  | configured config layout => cases layout <;> exact .reloads _ _ _
  | ownerChanged oldOwner newOwner => exact outcome_ownerChanged surroundings oldOwner newOwner before
  | reply serial sender answer => exact outcome_reply surroundings serial sender answer before
  | frame sender content => exact .becomes (becomes_receiveFrame installation.catalog surroundings sender content before)

end EmojiPaletteAddon

end Addon

end EmojiPalette
