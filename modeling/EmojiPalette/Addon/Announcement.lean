import EmojiPalette.Addon.KeyboardGrab
import EmojiPalette.Addon.Source

/-!
# What the helper is told of an end

The addon announces the end of a transaction with a `Hide`, as far as the helper does not know of it. The announcement is made by `cancel`, from the transaction it still finds in the controller. A refused selection has ended the transaction in the controller before, and `cancel` finds nothing to announce.
-/

namespace EmojiPalette

open Ipc Trace

namespace Addon

namespace EmojiPaletteAddon

variable {κ : Type}

/-- The states of the addon over all runs of its handlers. -/
def Reached [DecidableEq κ] (installation : Installation) (addon : EmojiPaletteAddon κ) : Prop :=
  Reachable (fun start => ∃ config layout, start = initial installation config layout) (fun _ _ => True)
    (handle installation) addon

/-- What the helper sends about the transaction, or what its frame is otherwise. -/
def payloadOf? (input : Input κ) : Option Payload :=
  match input with
  | .frame _ (some frame) => (parse frame).envelope.map Envelope.payload
  | _ => none

def SelectionOf (transaction : TransactionId) (input : Input κ) : Prop :=
  ∃ sequence, payloadOf? input = some (.selected ⟨transaction, sequence⟩)

/-- The ends the helper has no need to be told of: a commit, its own cancel, and its own loss. -/
def Excused (addon : EmojiPaletteAddon κ) (transaction : TransactionId) (input : Input κ)
    (outputs : List (Output κ)) : Prop :=
  (∃ context sequence, .committed context sequence ∈ outputs) ∨
    (∃ reason, payloadOf? input = some (.cancelled ⟨transaction, reason⟩)) ∨
    ∃ oldOwner newOwner, input = .ownerChanged oldOwner newOwner ∧ addon.session.accepts oldOwner = true

/-- The same surroundings with a bus that takes everything. -/
def onPerfectBus (surroundings : Surroundings κ) : Surroundings κ := { surroundings with sends := fun _ => true }

def NoneFails [DecidableEq κ] (installation : Installation) (surroundings : Surroundings κ) (input : Input κ)
    (addon : EmojiPaletteAddon κ) : Prop :=
  ∀ frame, .sent frame ∈ (step installation (onPerfectBus surroundings) input addon).2 →
    surroundings.sends frame = true

/-! ### A ready session has no call -/

def Settled (addon : EmojiPaletteAddon κ) : Prop := addon.session.state = .ready → addon.pendingCall = none

theorem Settled.step [DecidableEq κ] {addon : EmojiPaletteAddon κ} (h : addon.Settled) (installation : Installation)
    (surroundings : Surroundings κ) (input : Input κ) :
    (EmojiPaletteAddon.step installation surroundings input addon).1.Settled := by
  have houtcome := outcome_step installation surroundings input addon
  generalize (EmojiPaletteAddon.step installation surroundings input addon).1 = after at houtcome
  have hpeer : ∀ {before : EmojiPaletteAddon κ}, before.Settled → Becomes surroundings before after → after.Settled := by
    intro before hbefore hbecomes hready
    have hsession : after.session = before.session := congrArg Prod.fst hbecomes.peer
    exact (congrArg Prod.snd hbecomes.peer).trans (hbefore (hsession ▸ hready))
  cases houtcome with
  | becomes hbecomes => exact hpeer h hbecomes
  | begins event pendingCall hkept => exact fun hready => (hkept hready).trans (h hready)
  | fails | reloads => exact h
  | reconnects session pendingCall hsettled hbecomes =>
      refine hpeer (fun hready => ?_) hbecomes
      rcases hsettled hready with hnone | ⟨hsession, hcall⟩
      · exact hnone
      · exact hcall.trans (h (hsession ▸ hready))

theorem Reached.settled [DecidableEq κ] {installation : Installation} {addon : EmojiPaletteAddon κ}
    (h : addon.Reached installation) : addon.Settled ∧ addon.WellFormed := by
  induction h with
  | start hstart =>
      obtain ⟨config, layout, rfl⟩ := hstart
      refine ⟨fun _ => ?_, wellFormed_initial installation config layout⟩
      cases layout <;> rfl
  | @step _ event _ _ ih =>
      obtain ⟨hsettled, hwellFormed⟩ := ih
      exact ⟨hsettled.step installation event.1 event.2, hwellFormed.step installation event.1 event.2⟩

/-! ### The ends -/

theorem cancel_of_ready {surroundings : Surroundings κ} {reason : CancelReason} {addon : EmojiPaletteAddon κ}
    {transaction : TransactionId} (htransaction : addon.controller.transaction = some transaction)
    (hready : addon.session.state = .ready) (hdelivers : surroundings.Delivers (.hide ⟨transaction, reason⟩)) :
    cancel surroundings reason true addon =
      (addon.cleared reason, [.sent (Payload.hide ⟨transaction, reason⟩).frame]) := by
  have hactive : ∀ other, addon.controller.transaction = some other →
      surroundings.Delivers (.hide ⟨other, reason⟩) := by
    intro other hother
    cases htransaction.symm.trans hother
    exact hdelivers
  rw [cancel_of_delivers hactive, htransaction, hready]
  rfl

theorem delivers_onPerfectBus {surroundings : Surroundings κ} {payload : Payload} (h : payload.Writable) :
    (onPerfectBus surroundings).Delivers payload := ⟨h, rfl⟩

/-- A step that is such a cancel, whatever the bus does, sends the `Hide`. -/
theorem hide_sent_of_cancel [DecidableEq κ] {installation : Installation} {surroundings : Surroundings κ}
    {input : Input κ} {addon : EmojiPaletteAddon κ} {transaction : TransactionId} {reason : CancelReason}
    (htransaction : addon.controller.transaction = some transaction) (hvalid : transaction.Valid)
    (hready : addon.session.state = .ready) (hsends : NoneFails installation surroundings input addon)
    (hperfect : step installation (onPerfectBus surroundings) input addon =
      cancel (onPerfectBus surroundings) reason true addon)
    (hstep : step installation surroundings input addon = cancel surroundings reason true addon) :
    .sent (Payload.hide ⟨transaction, reason⟩).frame ∈ (step installation surroundings input addon).2 := by
  have htaken : surroundings.sends (Payload.hide ⟨transaction, reason⟩).frame = true := by
    apply hsends
    rw [hperfect, cancel_of_ready htransaction hready (delivers_onPerfectBus hvalid)]
    exact List.mem_singleton_self _
  rw [hstep, cancel_of_ready htransaction hready ⟨hvalid, htaken⟩]
  exact List.mem_singleton_self _

theorem controller_sendCommand {surroundings : Surroundings κ} {addon : EmojiPaletteAddon κ} (h : addon.WellFormed)
    {kind : CommandKind} {text : Bytes} (htext : TextWithin 256 text) (honly : kind ≠ .searchText → text = [])
    (hsends : ∀ frame, .sent frame ∈ (sendCommand (onPerfectBus surroundings) kind text addon).2 →
      surroundings.sends frame = true) :
    (sendCommand surroundings kind text addon).1.controller = addon.controller := by
  unfold sendCommand at hsends ⊢
  cases htransaction : addon.controller.transaction with
  | none => rfl
  | some transaction =>
      simp only [htransaction] at hsends ⊢
      have hwritable : (Payload.command ⟨transaction, addon.commandSequence + 1, kind, text⟩).Writable :=
        ⟨valid_of_transaction h htransaction, htext, honly⟩
      have htaken : surroundings.sends
          (Payload.command ⟨transaction, addon.commandSequence + 1, kind, text⟩).frame = true := by
        apply hsends
        rw [sendEnvelope_of_delivers (delivers_onPerfectBus hwritable)]
        exact List.mem_singleton_self _
      rw [sendEnvelope_of_delivers ⟨hwritable, htaken⟩]

theorem controller_handleActiveKey [DecidableEq κ] {installation : Installation} {surroundings : Surroundings κ}
    {event : KeyEvent κ} {addon : EmojiPaletteAddon κ} (h : addon.WellFormed)
    (hsends : ∀ frame, .sent frame ∈ (handleActiveKey installation (onPerfectBus surroundings) event addon).2 →
      surroundings.sends frame = true) :
    (handleActiveKey installation surroundings event addon).1.controller = addon.controller := by
  unfold handleActiveKey at hsends ⊢
  by_cases hother : (!addon.active || surroundings.contexts.get addon.origin ≠ some event.context) = true
  · rw [if_pos hother]
  · have hperfect : ¬ (!addon.active ||
        (onPerfectBus surroundings).contexts.get addon.origin ≠ some event.context) = true := hother
    rw [if_neg hperfect] at hsends
    rw [if_neg hother, Action.andThen_fst, Action.emit_apply]
    rw [Action.andThen_snd, Action.emit_apply] at hsends
    cases hroute : addon.keyRouter.route installation.fcitx event.key event.origKey event.isRelease addon.search with
    | ignore => rfl
    | command command =>
        rw [hroute] at hsends
        exact controller_sendCommand h textWithin_nil (fun _ => rfl) fun frame hframe =>
          hsends frame (List.mem_append_right _ hframe)
    | search text =>
        rw [hroute] at hsends
        have htext := ActiveKeyRouter.textWithin_of_route h.search hroute
        exact controller_sendCommand (h.withSearch htext) htext (fun hne => absurd rfl hne) fun frame hframe =>
          hsends frame (List.mem_append_right _ hframe)

/-- What a frame can do to the active transaction of a ready session. -/
theorem receiveFrame_cases (installation : Installation) (surroundings : Surroundings κ) (sender : Bytes)
    (content : Option Bytes) {addon : EmojiPaletteAddon κ} {transaction : TransactionId}
    (htransaction : addon.controller.transaction = some transaction) :
    let ran := fun surroundings : Surroundings κ =>
      receiveFrame installation.catalog surroundings sender content addon
    let input : Input κ := .frame sender content
    (∀ surroundings, ran surroundings = cancel surroundings .protocolError true addon ∧ payloadOf? input = none) ∨
      (ran surroundings).1.controller.transaction = some transaction ∨
      Excused addon transaction input (ran surroundings).2 ∨
      (SelectionOf transaction input ∧ (ran surroundings).2 = []) := by
  intro ran input
  by_cases haccepts : addon.session.accepts sender = true
  swap
  · refine Or.inr (Or.inl ?_)
    simpa [ran, receiveFrame, haccepts] using htransaction
  cases content with
  | none =>
      refine Or.inl fun surroundings => ⟨?_, rfl⟩
      simp [ran, receiveFrame, haccepts]
  | some frame =>
      cases hparsed : (parse frame).envelope with
      | none =>
          refine Or.inl fun surroundings => ⟨?_, ?_⟩
          · simp [ran, receiveFrame, haccepts, hparsed]
          · simp [input, payloadOf?, hparsed]
      | some envelope =>
          have hpayload : payloadOf? input = some envelope.payload := by simp [input, payloadOf?, hparsed]
          refine Or.inr ?_
          cases hof : envelope.payload with
          | selected selected =>
              have hran : ran surroundings = receiveSelected installation.catalog surroundings selected addon := by
                simp [ran, receiveFrame, haccepts, hparsed, hof]
              rw [hran]
              unfold receiveSelected
              rcases SelectionController.select_cases installation.catalog surroundings.contexts.targets selected
                  addon.controller with
                ⟨target, _, _, _, _, _, hselect⟩ | ⟨result, hresult, _, hselect⟩ |
                ⟨_, result, reason, hresult, hsame, _, _, hselect⟩
              · refine Or.inr (Or.inl (Or.inl ⟨target, selected.sequence, ?_⟩))
                simp [hselect]
              · refine Or.inl ?_
                rcases hresult with rfl | rfl <;> simpa only [hselect] using htransaction
              · refine Or.inr (Or.inr ⟨⟨selected.sequence, ?_⟩, ?_⟩)
                · obtain rfl : selected.transaction = transaction := Option.some.inj (hsame.symm.trans htransaction)
                  rw [hpayload, hof]
                · rcases hresult with rfl | rfl | rfl <;> simp only [hselect] <;> rfl
          | cancelled cancelled =>
              have hran : ran surroundings = receiveCancelled surroundings cancelled addon := by
                simp [ran, receiveFrame, haccepts, hparsed, hof]
              rw [hran, receiveCancelled]
              by_cases hsame : addon.controller.transaction = some cancelled.transaction
              · refine Or.inr (Or.inl (Or.inr (Or.inl ⟨cancelled.reason, ?_⟩)))
                obtain rfl : cancelled.transaction = transaction := Option.some.inj (hsame.symm.trans htransaction)
                rw [hpayload, hof]
              · rw [if_neg hsame]
                exact Or.inl htransaction
          | _ =>
              refine Or.inl ?_
              simpa [ran, receiveFrame, haccepts, hparsed, hof] using htransaction

/-- A step that ends the transaction of a ready session, where nothing excuses the addon and no frame fails, tells the helper of the end exactly if it is not a selection that is refused. -/
theorem announced_iff [DecidableEq κ] (installation : Installation) (surroundings : Surroundings κ) (input : Input κ)
    (addon : EmojiPaletteAddon κ) (transaction : TransactionId) (hreached : addon.Reached installation)
    (htransaction : addon.controller.transaction = some transaction) (hready : addon.session.state = .ready)
    (hends : (step installation surroundings input addon).1.controller.transaction ≠ some transaction)
    (hexcused : ¬ Excused addon transaction input (step installation surroundings input addon).2)
    (hsends : NoneFails installation surroundings input addon) :
    (∃ reason, .sent (Payload.hide ⟨transaction, reason⟩).frame ∈ (step installation surroundings input addon).2) ↔
      ¬ SelectionOf transaction input := by
  obtain ⟨hsettled, hwellFormed⟩ := hreached.settled
  have hvalid := valid_of_transaction hwellFormed htransaction
  have hactive : addon.active = true := by simp [active, SelectionController.active, htransaction]
  cases input with
  | key event =>
      have hstep : ∀ surroundings : Surroundings κ, step installation surroundings (.key event) addon =
          handleActiveKey installation surroundings event addon := by
        intro surroundings
        simp only [step, keyEvent, hactive, if_true]
      unfold NoneFails at hsends
      rw [hstep] at hsends hends
      exact absurd (controller_handleActiveKey hwellFormed hsends ▸ htransaction) hends
  | contextEvent context event =>
      refine iff_of_true ⟨event.reason, ?_⟩ fun h => by cases h.choose_spec
      by_cases hown : surroundings.contexts.get addon.origin = some context
      · exact hide_sent_of_cancel htransaction hvalid hready hsends (if_pos hown) (if_pos hown)
      · simp only [step, contextEvent, if_neg hown] at hends
        exact absurd htransaction hends
  | groupChanged layout => cases layout <;> exact absurd htransaction hends
  | configured config layout => cases layout <;> exact absurd htransaction hends
  | ownerChanged oldOwner newOwner =>
      have hkept : (!oldOwner.isEmpty && addon.session.accepts oldOwner) = false := by
        cases haccepts : addon.session.accepts oldOwner with
        | false => exact Bool.and_false _
        | true => exact absurd (Or.inr (Or.inr ⟨oldOwner, newOwner, rfl, haccepts⟩)) hexcused
      simp only [step, ownerChanged, hkept, Bool.false_eq_true, if_false] at hends
      refine absurd ?_ hends
      split <;> exact htransaction
  | reply serial sender answer =>
      simp only [step, reply, hsettled hready] at hends
      exact absurd htransaction hends
  | frame sender content =>
      rcases receiveFrame_cases installation surroundings sender content htransaction with
        hcancel | hkept | hexcuse | ⟨hselection, hsilent⟩
      · refine iff_of_true ⟨.protocolError, ?_⟩ fun h => ?_
        · exact hide_sent_of_cancel htransaction hvalid hready hsends (hcancel (onPerfectBus surroundings)).1
            (hcancel surroundings).1
        · obtain ⟨sequence, hsequence⟩ := h
          rw [(hcancel surroundings).2] at hsequence
          cases hsequence
      · exact absurd hkept hends
      · exact absurd hexcuse hexcused
      · refine iff_of_false ?_ (not_not.mpr hselection)
        intro h
        obtain ⟨reason, hsent⟩ := h
        rw [step, hsilent] at hsent
        cases hsent

/-! ### Two ends -/

def bare : Installation := ⟨⟨[]⟩, asciiKeys, ⟨true, fun _ _ => none, id, id⟩⟩

def finding (focus : Bool) : Surroundings Unit :=
  { calm ⟨List.replicate 16 4, rfl⟩ (by decide) with
    contexts := ⟨fun _ => true, fun _ => focus, fun _ => ⟨0, 0, 0, 0⟩, fun _ => 100⟩ }

/-- The addon after the trigger and the helper's `Welcome`. -/
def welcomed : EmojiPaletteAddon Unit :=
  handle bare (finding true, .reply 0 [58, 50] (.message (some (Payload.welcome ⟨1, 1, 5⟩).frame)))
    (handle bare (finding true, .key ⟨(), ⟨0x2E, 64, 0⟩, ⟨0x2E, 64, 0⟩, false⟩) (initial bare .default none))

theorem reached_welcomed : welcomed.Reached bare := .step (.step (.start ⟨.default, none, rfl⟩) trivial) trivial

/-- The context loses the focus, and the helper is told. -/
theorem announced_focusOut :
    ∃ reason, .sent (Payload.hide ⟨(finding true).transaction, reason⟩).frame ∈
      (step bare (finding true) (.contextEvent () .focusOut) welcomed).2 := by
  refine (announced_iff bare (finding true) (.contextEvent () .focusOut) welcomed (finding true).transaction
    reached_welcomed (by decide +kernel) (by decide +kernel) (by decide +kernel) ?_ fun _ _ => rfl).mpr ?_
  · intro h
    rcases h with ⟨context, sequence, hcommitted⟩ | ⟨reason, hcancelled⟩ | ⟨oldOwner, newOwner, hinput, _⟩
    · have hsent : (step bare (finding true) (.contextEvent () .focusOut) welcomed).2 =
          [.sent (Payload.hide ⟨(finding true).transaction, .focusLost⟩).frame] := by decide +kernel
      rw [hsent] at hcommitted
      simp at hcommitted
    · cases hcancelled
    · cases hinput
  · intro h
    cases h.choose_spec

/-- The context has lost the focus when its selection comes. The transaction is over, and the helper is told nothing. -/
theorem not_announced_selected :
    ∃ (installation : Installation) (surroundings : Surroundings Unit) (input : Input Unit)
      (addon : EmojiPaletteAddon Unit) (transaction : TransactionId),
      addon.Reached installation ∧ addon.controller.transaction = some transaction ∧ addon.session.state = .ready ∧
        (step installation surroundings input addon).1.controller.transaction ≠ some transaction ∧
        ¬ Excused addon transaction input (step installation surroundings input addon).2 ∧
        NoneFails installation surroundings input addon ∧
        ¬ ∃ reason, .sent (Payload.hide ⟨transaction, reason⟩).frame ∈
          (step installation surroundings input addon).2 := by
  have hsilent : (step bare (finding false)
      (.frame [58, 50] (some (Payload.selected ⟨(finding true).transaction, [120]⟩).frame)) welcomed).2 = [] := by
    decide +kernel
  refine ⟨bare, finding false, .frame [58, 50] (some (Payload.selected ⟨(finding true).transaction, [120]⟩).frame),
    welcomed, (finding true).transaction, reached_welcomed, by decide +kernel, by decide +kernel, by decide +kernel,
    fun h => ?_, fun _ _ => rfl, ?_⟩
  · rw [hsilent] at h
    rcases h with ⟨context, sequence, hcommitted⟩ | ⟨reason, hcancelled⟩ | ⟨oldOwner, newOwner, hinput, _⟩
    · cases hcommitted
    · have hvalid : (Payload.selected ⟨(finding true).transaction, [120]⟩).Valid :=
        ⟨by decide, ⟨by simp, by decide⟩, by simp⟩
      rw [payloadOf?, parse_payload_frame hvalid] at hcancelled
      cases hcancelled
    · cases hinput
  · rw [hsilent]
    simp

end EmojiPaletteAddon

end Addon

end EmojiPalette
