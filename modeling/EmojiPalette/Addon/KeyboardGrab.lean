import EmojiPalette.Addon.Outcomes

/-!
# Keys grabbed for a transaction

While a transaction is active its context's keys go nowhere else, so something must always be able to end it. Either the session is ready, and the helper can answer or be lost, or the negotiation for this very transaction still has its callback. Two kinds of steps can break this, and no other does: the helper's name is lost while it is not the session that notices, and a negotiation whose call cannot be issued.
-/

namespace EmojiPalette

open Ipc Trace

namespace Addon

namespace EmojiPaletteAddon

variable {κ : Type}

/-- Some event of the helper can still end the active transaction. -/
def Resolvable (addon : EmojiPaletteAddon κ) : Prop :=
  ∀ transaction, addon.controller.transaction = some transaction →
    addon.session.state = .ready ∨ ∃ call, addon.pendingCall = some call ∧ call.transaction = transaction

/-- The transaction is as before or gone, and what it is resolved through is as before. -/
structure Keeps (before after : EmojiPaletteAddon κ) : Prop where
  session : after.session = before.session
  pendingCall : after.pendingCall = before.pendingCall
  transaction : after.controller.transaction = none ∨ after.controller.transaction = before.controller.transaction

theorem Keeps.refl (addon : EmojiPaletteAddon κ) : Keeps addon addon := ⟨rfl, rfl, Or.inr rfl⟩

theorem Keeps.resolvable {before after : EmojiPaletteAddon κ} (h : Keeps before after) (hbefore : before.Resolvable) :
    after.Resolvable := by
  intro transaction htransaction
  rcases h.transaction with hnone | hsame
  · rw [hnone] at htransaction
    cases htransaction
  · rw [h.session, h.pendingCall]
    exact hbefore transaction (hsame ▸ htransaction)

theorem keeps_cleared (reason : CancelReason) (addon : EmojiPaletteAddon κ) : Keeps addon (addon.cleared reason) :=
  ⟨rfl, rfl, Or.inl rfl⟩

theorem keeps_sendEnvelope (surroundings : Surroundings κ) (payload : Payload) (addon : EmojiPaletteAddon κ) :
    Keeps addon (sendEnvelope surroundings payload addon).1 := by
  rcases sendEnvelope_fst surroundings payload addon with h | ⟨reason, h⟩
  · rw [h]
    exact Keeps.refl addon
  · rw [h]
    exact keeps_cleared reason addon

theorem keeps_cancel (surroundings : Surroundings κ) (reason : CancelReason) (notifyHelper : Bool)
    (addon : EmojiPaletteAddon κ) : Keeps addon (cancel surroundings reason notifyHelper addon).1 := by
  obtain ⟨other, h⟩ := cancel_fst surroundings reason notifyHelper addon
  rw [h]
  exact keeps_cleared other addon

theorem resolvable_of_transaction_eq_none {addon : EmojiPaletteAddon κ} (h : addon.controller.transaction = none) :
    addon.Resolvable := by
  intro transaction htransaction
  rw [h] at htransaction
  cases htransaction

theorem resolvable_of_ready {addon : EmojiPaletteAddon κ} (h : addon.session.state = .ready) : addon.Resolvable :=
  fun _ _ => Or.inl h

theorem resolvable_cancel (surroundings : Surroundings κ) (reason : CancelReason) (notifyHelper : Bool)
    (addon : EmojiPaletteAddon κ) : (cancel surroundings reason notifyHelper addon).1.Resolvable := by
  obtain ⟨other, h⟩ := cancel_fst surroundings reason notifyHelper addon
  rw [h]
  exact resolvable_of_transaction_eq_none rfl

/-! ### The handlers -/

theorem keeps_sendCommand (surroundings : Surroundings κ) (kind : CommandKind) (text : Bytes)
    (addon : EmojiPaletteAddon κ) : Keeps addon (sendCommand surroundings kind text addon).1 := by
  unfold sendCommand
  split
  · exact Keeps.refl addon
  · rename_i transaction _
    have hsent := keeps_sendEnvelope surroundings (.command ⟨transaction, addon.commandSequence + 1, kind, text⟩)
      { addon with commandSequence := addon.commandSequence + 1 }
    exact ⟨hsent.session, hsent.pendingCall, hsent.transaction⟩

theorem keeps_followRoute (surroundings : Surroundings κ) (route : KeyRoute) (addon : EmojiPaletteAddon κ) :
    Keeps addon (followRoute surroundings route addon).1 := by
  cases route with
  | ignore => exact Keeps.refl addon
  | command command => exact keeps_sendCommand surroundings command [] addon
  | search text =>
      have hsent := keeps_sendCommand surroundings .searchText text { addon with search := text }
      exact ⟨hsent.session, hsent.pendingCall, hsent.transaction⟩

theorem keeps_handleActiveKey [DecidableEq κ] (installation : Installation) (surroundings : Surroundings κ)
    (event : KeyEvent κ) (addon : EmojiPaletteAddon κ) :
    Keeps addon (handleActiveKey installation surroundings event addon).1 := by
  unfold handleActiveKey
  split
  · exact Keeps.refl addon
  · exact keeps_followRoute surroundings _ addon

theorem keeps_reloadLayout (installation : Installation) (layout : Option Bytes) (addon : EmojiPaletteAddon κ) :
    Keeps addon (addon.reloadLayout installation layout) := by
  cases layout with
  | none => exact Keeps.refl addon
  | some layout => exact ⟨rfl, rfl, Or.inr rfl⟩

theorem keeps_reloadConfig (installation : Installation) (config : EmojiPaletteConfig) (layout : Option Bytes)
    (addon : EmojiPaletteAddon κ) : Keeps addon (addon.reloadConfig installation config layout) := by
  cases layout with
  | none => exact ⟨rfl, rfl, Or.inr rfl⟩
  | some layout => exact ⟨rfl, rfl, Or.inr rfl⟩

theorem keeps_contextEvent [DecidableEq κ] (surroundings : Surroundings κ) (context : κ) (event : ContextEvent)
    (addon : EmojiPaletteAddon κ) : Keeps addon (contextEvent surroundings context event addon).1 := by
  unfold contextEvent
  split
  · exact keeps_cancel surroundings event.reason true addon
  · exact Keeps.refl addon

/-- A frame is only looked at when the session is ready, and leaves it so. -/
theorem resolvable_receiveFrame (catalog : EmojiCatalog) (surroundings : Surroundings κ) (sender : Bytes)
    (content : Option Bytes) {addon : EmojiPaletteAddon κ} (h : addon.Resolvable) :
    (receiveFrame catalog surroundings sender content addon).1.Resolvable := by
  by_cases haccepts : addon.session.accepts sender = true
  · simp only [PeerSession.accepts, Bool.and_eq_true, decide_eq_true_eq] at haccepts
    have hsession := congrArg Prod.fst (becomes_receiveFrame catalog surroundings sender content addon).peer
    exact resolvable_of_ready ((congrArg PeerSession.state hsession).trans haccepts.1)
  · simpa [receiveFrame, haccepts] using h

theorem resolvable_receiveReply (surroundings : Surroundings κ) (call : PendingCall κ) (sender : Bytes)
    (reply : Reply) {addon : EmojiPaletteAddon κ}
    (h : addon.controller.transaction ≠ some call.transaction → addon.Resolvable) :
    (receiveReply surroundings call sender reply addon).1.Resolvable := by
  unfold receiveReply
  split
  · rename_i htransaction
    exact h htransaction
  split
  · exact resolvable_cancel _ _ _ _
  · exact resolvable_cancel _ _ _ _
  split
  · rename_i welcome _
    unfold receiveWelcome
    dsimp only
    split
    · exact resolvable_cancel _ _ _ _
    rename_i haccepted
    split
    · exact resolvable_cancel _ _ _ _
    · apply (keeps_sendEnvelope surroundings _ _).resolvable
      apply resolvable_of_ready
      have hready := PeerSession.acceptWelcome_ready (by simpa using haccepted)
      exact congrArg PeerSession.state hready
  · exact resolvable_cancel _ _ _ _

theorem resolvable_reply (surroundings : Surroundings κ) (serial : Nat) (sender : Bytes) (answer : Reply)
    {addon : EmojiPaletteAddon κ} (h : addon.Resolvable) :
    (reply surroundings serial sender answer addon).1.Resolvable := by
  unfold reply
  split
  · exact h
  rename_i call hcall
  split
  · apply resolvable_receiveReply
    -- The call that is gone was not the active transaction's, so the session must have been ready.
    intro hother transaction htransaction
    rcases h transaction htransaction with hready | ⟨pending, hpending, hof⟩
    · exact Or.inl hready
    · rw [hcall] at hpending
      cases hpending
      exact absurd (hof ▸ htransaction) hother
  · exact h

/-! ### The two kinds of steps that matter -/

/-- The step is no trigger that starts a negotiation whose call fails, and no loss of the helper's name under an active transaction, unless it is the session's peer that is lost. -/
def CallKept (installation : Installation) (addon : EmojiPaletteAddon κ) (event : Surroundings κ × Input κ) : Prop :=
  match event.2 with
  | .key key =>
      addon.active = false → addon.triggers installation key = true → addon.session.state ≠ .ready →
        event.1.callIssued = true
  | .ownerChanged oldOwner newOwner =>
      newOwner = [] → addon.active = true → oldOwner ≠ [] ∧ addon.session.accepts oldOwner = true
  | _ => True

/-- A new transaction is resolvable unless it is left with a call that was not issued. -/
theorem resolvable_show_iff (surroundings : Surroundings κ) (context : κ) (addon : EmojiPaletteAddon κ) :
    («show» surroundings context addon).1.Resolvable ↔
      (addon.session.state ≠ .ready → surroundings.callIssued = true) := by
  obtain ⟨reason, hcleared⟩ := cancel_fst surroundings .user true addon
  rw [show_apply, hcleared]
  have hstate : (started surroundings context (addon.cleared reason)).session.state = addon.session.state := rfl
  dsimp only
  by_cases hready : addon.session.state = .ready
  · refine iff_of_true ?_ fun h => absurd hready h
    rw [sendShowOrNegotiate, if_pos (hstate.trans hready)]
    exact (keeps_sendEnvelope surroundings _ _).resolvable (resolvable_of_ready hready)
  rw [sendShowOrNegotiate, if_neg fun h => hready (hstate.symm.trans h), negotiate_apply]
  by_cases hissued : surroundings.callIssued = true
  · rw [if_pos hissued]
    refine iff_of_true ?_ fun _ => hissued
    intro transaction htransaction
    obtain rfl : surroundings.transaction = transaction := Option.some.inj htransaction
    exact Or.inr ⟨_, rfl, rfl⟩
  · rw [if_neg hissued]
    refine iff_of_false ?_ fun h => hissued (h hready)
    intro h
    rcases h surroundings.transaction rfl with hother | ⟨call, hcall, _⟩
    · exact hready hother
    · cases hcall

theorem resolvable_keyEvent_iff [DecidableEq κ] (installation : Installation) (surroundings : Surroundings κ)
    (key : KeyEvent κ) {addon : EmojiPaletteAddon κ} (h : addon.Resolvable) :
    (keyEvent installation surroundings key addon).1.Resolvable ↔
      CallKept installation addon (surroundings, .key key) := by
  unfold keyEvent CallKept
  by_cases hactive : addon.active = true
  · rw [if_pos hactive]
    refine iff_of_true ((keeps_handleActiveKey installation surroundings key addon).resolvable h) fun hinactive => ?_
    rw [hactive] at hinactive
    cases hinactive
  · rw [if_neg hactive]
    by_cases htriggers : addon.triggers installation key = true
    · rw [if_pos htriggers]
      have hshow := resolvable_show_iff surroundings key.context addon
      simpa [hactive, htriggers] using hshow
    · rw [if_neg htriggers]
      exact iff_of_true h fun _ htrue => absurd htrue htriggers

theorem active_eq_false_iff {addon : EmojiPaletteAddon κ} :
    addon.active = false ↔ addon.controller.transaction = none := by
  simp [active, SelectionController.active]

/-- After the loss of the name a transaction is left exactly if one was active and its peer was not the one lost. -/
theorem active_ownerChanged_iff (surroundings : Surroundings κ) (oldOwner newOwner : Bytes)
    (addon : EmojiPaletteAddon κ) :
    (ownerChanged surroundings oldOwner newOwner addon).1.active = false ↔
      (addon.active = true → oldOwner ≠ [] ∧ addon.session.accepts oldOwner = true) := by
  have hcontroller : (ownerChanged surroundings oldOwner newOwner addon).1.controller =
      (if !oldOwner.isEmpty && addon.session.accepts oldOwner then
        cancel surroundings .helperDisconnected false { addon with session := addon.session.ownerLost oldOwner }
      else (addon, [])).1.controller := by
    unfold ownerChanged
    dsimp only
    split <;> rfl
  rw [active_eq_false_iff, hcontroller]
  split
  · rename_i hlost
    obtain ⟨other, hcleared⟩ := cancel_fst surroundings .helperDisconnected false
      { addon with session := addon.session.ownerLost oldOwner }
    rw [hcleared]
    exact iff_of_true rfl fun _ => by simpa using hlost
  · rename_i hother
    rw [← active_eq_false_iff]
    cases addon.active with
    | false => simp
    | true => simpa using hother

theorem resolvable_ownerChanged (surroundings : Surroundings κ) (oldOwner newOwner : Bytes)
    {addon : EmojiPaletteAddon κ} (h : addon.Resolvable)
    (hkept : newOwner = [] → addon.active = true → oldOwner ≠ [] ∧ addon.session.accepts oldOwner = true) :
    (ownerChanged surroundings oldOwner newOwner addon).1.Resolvable := by
  by_cases hnew : newOwner = []
  · have hinactive := (active_ownerChanged_iff surroundings oldOwner newOwner addon).mpr (hkept hnew)
    exact resolvable_of_transaction_eq_none (active_eq_false_iff.mp hinactive)
  · have hname : newOwner.isEmpty = false := by simpa using hnew
    unfold ownerChanged
    simp only [hname, Bool.false_eq_true, if_false]
    split
    · exact resolvable_cancel _ _ _ _
    · exact h

/-- The machine the handlers make up. -/
def handle [DecidableEq κ] (installation : Installation) (event : Surroundings κ × Input κ)
    (addon : EmojiPaletteAddon κ) : EmojiPaletteAddon κ :=
  (step installation event.1 event.2 addon).1

/-- If the step is a loss of the helper's name, it leaves no transaction. -/
def EndsOnLoss [DecidableEq κ] (installation : Installation) (addon : EmojiPaletteAddon κ)
    (event : Surroundings κ × Input κ) : Prop :=
  ∀ oldOwner, event.2 = .ownerChanged oldOwner [] → (handle installation event addon).active = false

theorem resolvable_handle_iff [DecidableEq κ] (installation : Installation) (event : Surroundings κ × Input κ)
    {addon : EmojiPaletteAddon κ} (h : addon.Resolvable) :
    (handle installation event addon).Resolvable ∧ EndsOnLoss installation addon event ↔
      CallKept installation addon event := by
  obtain ⟨surroundings, input⟩ := event
  have hother : (∀ oldOwner, input ≠ .ownerChanged oldOwner []) →
      EndsOnLoss installation addon (surroundings, input) := fun hne oldOwner heq => absurd heq (hne oldOwner)
  cases input with
  | key key =>
      rw [and_iff_left (hother fun _ => by simp)]
      exact resolvable_keyEvent_iff installation surroundings key h
  | ownerChanged oldOwner newOwner =>
      have hactive := active_ownerChanged_iff surroundings oldOwner newOwner addon
      constructor
      · rintro ⟨_, hloss⟩ rfl
        exact hactive.mp (hloss oldOwner rfl)
      · intro hkept
        refine ⟨resolvable_ownerChanged surroundings oldOwner newOwner h hkept, fun other heq => ?_⟩
        cases heq
        exact hactive.mpr (hkept rfl)
  | contextEvent context event =>
      refine iff_of_true ⟨?_, hother fun _ => by simp⟩ trivial
      exact (keeps_contextEvent surroundings context event addon).resolvable h
  | groupChanged layout =>
      refine iff_of_true ⟨?_, hother fun _ => by simp⟩ trivial
      exact (keeps_reloadLayout installation layout addon).resolvable h
  | configured config layout =>
      refine iff_of_true ⟨?_, hother fun _ => by simp⟩ trivial
      exact (keeps_reloadConfig installation config layout addon).resolvable h
  | reply serial sender answer =>
      refine iff_of_true ⟨?_, hother fun _ => by simp⟩ trivial
      exact resolvable_reply surroundings serial sender answer h
  | frame sender content =>
      refine iff_of_true ⟨?_, hother fun _ => by simp⟩ trivial
      exact resolvable_receiveFrame installation.catalog surroundings sender content h

/-- Along a run every handler leaves the active transaction resolvable, and every loss of the helper's name ends it, exactly if every step keeps the call that is needed. -/
theorem resolvable_iff_callKept [DecidableEq κ] (installation : Installation) (config : EmojiPaletteConfig)
    (layout : Option Bytes) (events : List (Surroundings κ × Input κ)) :
    Along (fun addon event => (handle installation event addon).Resolvable ∧ EndsOnLoss installation addon event)
        (handle installation) events (initial installation config layout) ↔
      Along (CallKept installation) (handle installation) events (initial installation config layout) := by
  have hagree := fun (addon : EmojiPaletteAddon κ) event (h : addon.Resolvable) =>
    resolvable_handle_iff installation event h
  refine along_iff hagree (fun _ _ _ h => h.1) events ?_
  exact (keeps_reloadConfig installation config layout _).resolvable (resolvable_of_transaction_eq_none rfl)

/-- The trigger is pressed, and the helper's name is lost while the negotiation it starts is pending. The transaction stays active, and nothing of the helper can end it. -/
theorem not_resolvable_ownerChanged :
    let installation : Installation := ⟨⟨[]⟩, asciiKeys, ⟨true, fun _ _ => none, id, id⟩⟩
    let surroundings : Surroundings Unit := calm ⟨List.replicate 16 1, rfl⟩ (by decide)
    let trigger : Input Unit := .key ⟨(), ⟨0x2E, 64, 0⟩, ⟨0x2E, 64, 0⟩, false⟩
    ¬ Along (fun addon event => (handle installation event addon).Resolvable ∧ EndsOnLoss installation addon event)
        (handle installation) [(surroundings, trigger), (surroundings, .ownerChanged [58, 49] [])]
        (initial installation .default none) := by
  intro installation surroundings trigger h
  obtain ⟨_, ⟨hresolvable, _⟩, _⟩ := h
  have hleft : ∀ call, (handle installation (surroundings, .ownerChanged [58, 49] [])
      (handle installation (surroundings, trigger) (initial installation .default none))).pendingCall ≠ some call := by
    have hnone : (handle installation (surroundings, .ownerChanged [58, 49] [])
        (handle installation (surroundings, trigger) (initial installation .default none))).pendingCall = none := by
      decide +kernel
    simp [hnone]
  rcases hresolvable ⟨List.replicate 16 1, rfl⟩ (by decide +kernel) with hready | ⟨call, hcall, _⟩
  · exact absurd hready (by decide +kernel)
  · exact hleft call hcall

end EmojiPaletteAddon

end Addon

end EmojiPalette
