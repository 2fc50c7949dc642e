import EmojiPalette.System.Abstraction

/-!
# The helper as the one who answers

What the helper does with a frame of the addon and with the pointer. A request that reaches a bound session is received as it was meant. Everything else that can happen is that the window answers what it shows, by a choice or a cancel, or that nothing of the handover changes.
-/

namespace EmojiPalette

open Ipc Trace Addon Ui Handover

namespace System

open PaletteWindow (Does Keeps WithinCatalog chooseSequence)

/-! ### Sound helpers -/

/-- The helper shows a transaction in a window that is visible, and lists nothing but its catalog. -/
structure Sound (catalog : EmojiCatalog) (helper : Helper PaletteWindow) : Prop where
  shown : ∀ transaction, helper.session.transaction = some transaction →
    transaction.Valid ∧ helper.window.visible = true
  withinCatalog : helper.window.WithinCatalog catalog

/-- The session has agreed with the peer. -/
def Bound (peer : Bytes) (session : PaletteSession) : Prop := session.negotiated = true ∧ session.peerOwner = peer

theorem sound_of_none {catalog : EmojiCatalog} {helper : Helper PaletteWindow} (hnone : helper.session.transaction = none)
    (hwindow : helper.window.WithinCatalog catalog) : Sound catalog helper := by
  refine ⟨fun transaction hsome => ?_, hwindow⟩
  cases hnone.symm.trans hsome

theorem Sound.keeps {catalog : EmojiCatalog} {helper : Helper PaletteWindow} (h : Sound catalog helper)
    {window : PaletteWindow} (hkeeps : Keeps catalog helper.window window) :
    Sound catalog { helper with window := window } := by
  refine ⟨fun transaction htransaction => ?_, hkeeps.withinCatalog h.withinCatalog⟩
  rw [hkeeps.visible]
  exact h.shown transaction htransaction

theorem Sound.withValidator {catalog : EmojiCatalog} {helper : Helper PaletteWindow} (h : Sound catalog helper)
    (validator : SequenceValidator) :
    Sound catalog ⟨{ helper.session with sequenceValidator := validator }, helper.window⟩ :=
  ⟨h.shown, h.withinCatalog⟩

theorem display_keeps {catalog : EmojiCatalog} {helper : Helper PaletteWindow} {window : PaletteWindow}
    (hkeeps : Keeps catalog helper.window window) : display { helper with window := window } = display helper := by
  rw [display, display, hkeeps.visible, hkeeps.request]

theorem withinCatalog_hidePalette {catalog : EmojiCatalog} {window : PaletteWindow} (h : window.WithinCatalog catalog) :
    window.hidePalette.WithinCatalog catalog := ⟨h.listed, h.offered⟩

theorem signals_outgoing {payload : Payload} (h : payload.Valid) :
    signals (Helper.outgoing payload) = [.signal payload.frame] := by
  rw [Helper.outgoing, serialize_payload (Payload.valid_iff.mp h).1]
  rfl

/-! ### The window runs -/

/-- What the window does begins with a choice. -/
def Chooses : WindowProgram PaletteWindow → Prop
  | .emit _ (.selectionRequested _) _ => True
  | _ => False

/-- What a run of the window does to the handover, and the messages it leaves. -/
inductive Acted (catalog : EmojiCatalog) (chooses : Prop) (before after : Display TransactionId) :
    List AddonMessage → Prop
  | nothing (hafter : after = before) : Acted catalog chooses before after []
  | chose (ask : Ask TransactionId) (sequence : Bytes) (hchooses : chooses) (hbefore : before = .shown ask)
      (hafter : after = if ask.stays then .waiting else .hidden)
      (hvalid : Selected.Valid ⟨ask.id, sequence⟩) (hcatalog : catalog.contains sequence = true) :
      Acted catalog chooses before after [.signal (Payload.selected ⟨ask.id, sequence⟩).frame]
  | cancelled (ask : Ask TransactionId) (reason : CancelReason) (hbefore : before = .shown ask) (hafter : after = .hidden)
      (hvalid : ask.id.Valid) :
      Acted catalog chooses before after [.signal (Payload.cancelled ⟨ask.id, reason⟩).frame]
  | closed (hbefore : before = .waiting) (hafter : after = .hidden) : Acted catalog chooses before after []

theorem Acted.imp {catalog : EmojiCatalog} {chooses other : Prop} {before after : Display TransactionId}
    {messages : List AddonMessage} (h : Acted catalog chooses before after messages) (himp : chooses → other) :
    Acted catalog other before after messages := by
  cases h with
  | nothing hafter => exact .nothing hafter
  | chose ask sequence hchooses hbefore hafter hvalid hcatalog =>
      exact .chose ask sequence (himp hchooses) hbefore hafter hvalid hcatalog
  | cancelled ask reason hbefore hafter hvalid => exact .cancelled ask reason hbefore hafter hvalid
  | closed hbefore hafter => exact .closed hbefore hafter

variable {setup : Setup} {desktop : Desktop} {helper : Helper PaletteWindow}

/-- Cancelling answers what is shown, and otherwise closes what waits. -/
theorem acted_cancel (h : Sound setup.installation.catalog helper) {chooses : Prop} (reason : CancelReason) :
    let ran := Helper.reset (PaletteWindow.calls setup.helperInstallation desktop) reason true helper
    Acted setup.installation.catalog chooses (display helper) (display ran.1) (signals ran.2) := by
  have hhidden : display ⟨helper.session.clear, helper.window.hidePalette⟩ = .hidden := rfl
  unfold Helper.reset
  cases htransaction : helper.session.transaction with
  | some transaction =>
      have hvalid : (Payload.cancelled ⟨transaction, reason⟩).Valid := (h.shown transaction htransaction).1
      dsimp only
      rw [signals_outgoing hvalid]
      exact .cancelled ⟨transaction, _⟩ reason (display_of_some htransaction) hhidden hvalid
  | none =>
      cases hvisible : helper.window.visible with
      | true =>
          refine .closed ?_ hhidden
          rw [display_of_none htransaction, hvisible, if_pos rfl]
      | false =>
          refine .nothing (hhidden.trans ?_)
          rw [display_of_none htransaction, hvisible]
          rfl

/-- The window after a choice, open or not. -/
def closed (window : PaletteWindow) : PaletteWindow :=
  if window.request.closeAfterSelection then window.hidePalette else window

theorem withinCatalog_closed {catalog : EmojiCatalog} {window : PaletteWindow} (h : window.WithinCatalog catalog) :
    (closed window).WithinCatalog catalog := by
  rw [closed]
  split
  · exact withinCatalog_hidePalette h
  · exact h

theorem display_closed {session : PaletteSession} (hnone : session.transaction = none) (window : PaletteWindow) :
    display ⟨session, closed window⟩ =
      if window.request.closeAfterSelection then .hidden else if window.visible then .waiting else .hidden := by
  rw [display_of_none hnone, closed]
  split <;> rfl

theorem runWindow_chooseSequence (sequence : Bytes) (after : PaletteWindow) :
    let window := after.recordChoice setup.helperInstallation desktop sequence
    let chosen := Helper.selectionRequested (setup.qt.fromUtf8 sequence) { helper with window := window }
    Helper.runWindow (PaletteWindow.calls setup.helperInstallation desktop)
      (chooseSequence setup.helperInstallation desktop sequence after) helper =
        (⟨chosen.1.session, closed window⟩, chosen.2) := by
  dsimp only
  generalize hwindow : after.recordChoice setup.helperInstallation desktop sequence = window
  have hslot : (Helper.selectionRequested (setup.qt.fromUtf8 sequence) { helper with window := window }).1.window =
      window := by
    unfold Helper.selectionRequested
    split <;> rfl
  rw [chooseSequence, hwindow, Helper.runWindow, Action.andThen, Action.andThen]
  simp only [Action.update_apply, List.nil_append, Helper.slot, Helper.runWindow, List.append_nil]
  exact Prod.ext (congrArg (fun window => Helper.mk _ (closed window)) hslot) rfl

/-- A choice answers what is shown. The window is left open exactly if it was asked to stay. -/
theorem acted_choose (h : Sound setup.installation.catalog helper) {after : PaletteWindow} {sequence : Bytes}
    (hkeeps : Keeps setup.installation.catalog helper.window after)
    (hcatalog : ∃ record ∈ setup.installation.catalog.records, record.sequence = sequence) :
    let program := chooseSequence setup.helperInstallation desktop sequence after
    let ran := Helper.runWindow (PaletteWindow.calls setup.helperInstallation desktop) program helper
    Acted setup.installation.catalog (Chooses program) (display helper) (display ran.1) (signals ran.2) ∧
      Sound setup.installation.catalog ran.1 := by
  have hwindow : Keeps setup.helperInstallation.catalog helper.window
      (after.recordChoice setup.helperInstallation desktop sequence) := Keeps.recordChoice hkeeps desktop sequence
  dsimp only
  rw [runWindow_chooseSequence]
  generalize after.recordChoice setup.helperInstallation desktop sequence = window at hwindow
  have hwithin := withinCatalog_closed (hwindow.withinCatalog h.withinCatalog)
  obtain ⟨record, hrecord, rfl⟩ := hcatalog
  obtain ⟨hnonempty, htext, hplain⟩ := setup.sequence_fits record hrecord
  rw [setup.qt.fromUtf8_plain record.sequence hplain]
  unfold Helper.selectionRequested
  cases htransaction : helper.session.transaction with
  | some transaction =>
      have hvalid : (Payload.selected ⟨transaction, record.sequence⟩).Valid :=
        ⟨(h.shown transaction htransaction).1, htext, hnonempty⟩
      refine ⟨?_, sound_of_none rfl hwithin⟩
      dsimp only
      rw [signals_outgoing hvalid]
      refine .chose ⟨transaction, _⟩ record.sequence trivial (display_of_some htransaction) ?_ hvalid
        (EmojiCatalog.contains_iff.mpr ⟨record, hrecord, rfl⟩)
      rw [display_closed rfl, hwindow.visible, hwindow.request, (h.shown transaction htransaction).2]
      cases helper.window.request.closeAfterSelection <;> rfl
  | none =>
      refine ⟨?_, sound_of_none htransaction hwithin⟩
      have hdisplay := display_of_none htransaction
      have hafter := display_closed htransaction window
      rw [hwindow.visible, hwindow.request] at hafter
      by_cases hcloses : helper.window.request.closeAfterSelection = true
      · rw [if_pos hcloses] at hafter
        by_cases hvisible : helper.window.visible = true
        · rw [if_pos hvisible] at hdisplay
          exact .closed hdisplay hafter
        · rw [if_neg hvisible] at hdisplay
          exact .nothing (hafter.trans hdisplay.symm)
      · rw [if_neg hcloses] at hafter
        exact .nothing (hafter.trans hdisplay.symm)

/-- Whatever a command or the pointer makes the window do, it acts. -/
theorem acted_runWindow (h : Sound setup.installation.catalog helper) {program : WindowProgram PaletteWindow}
    (hdoes : Does setup.helperInstallation desktop helper.window program) :
    let ran := Helper.runWindow (PaletteWindow.calls setup.helperInstallation desktop) program helper
    Acted setup.installation.catalog (Chooses program) (display helper) (display ran.1) (signals ran.2) ∧
      Sound setup.installation.catalog ran.1 := by
  cases hdoes with
  | nothing hkeeps => exact ⟨.nothing (display_keeps hkeeps), h.keeps hkeeps⟩
  | chooses hkeeps hcatalog => exact acted_choose h hkeeps (hcatalog h.withinCatalog)
  | cancels =>
      have hran : Helper.runWindow (PaletteWindow.calls setup.helperInstallation desktop)
          (.emit helper.window (.cancellationRequested .user) .done) helper =
            Helper.reset (PaletteWindow.calls setup.helperInstallation desktop) .user true helper := by
        simp [Helper.runWindow, Helper.slot, Helper.reset, Action.andThen]
      dsimp only
      rw [hran]
      exact ⟨acted_cancel h .user, sound_of_none rfl (withinCatalog_hidePalette h.withinCatalog)⟩

theorem bound_runWindow {ω : Type} {calls : WindowCalls ω} {peer : Bytes} (program : WindowProgram ω) {helper : Helper ω}
    (h : Bound peer helper.session) : Bound peer (Helper.runWindow calls program helper).1.session := by
  induction program generalizing helper with
  | done window => exact h
  | emit window signal next ih =>
      apply ih
      cases signal with
      | selectionRequested sequence =>
          simp only [Helper.slot, Helper.selectionRequested]
          split <;> exact h
      | cancellationRequested reason => exact h

/-! ### Frames -/

/-- What an exchange does with a frame. It ignores the requests of a peer that is not bound, and a `Hide` of another transaction. -/
inductive Exchanged {ω : Type} (calls : WindowCalls ω) (sender frame : Bytes) (helper : Helper ω) :
    Helper.Exchange ω → Prop
  | ignored (hshow : ∀ value, payloadOf frame = some (.show value) → ¬ Bound sender helper.session)
      (hhide : ∀ value, payloadOf frame = some (.hide value) → Bound sender helper.session →
        helper.session.transaction ≠ some value.transaction) :
      Exchanged calls sender frame helper (Helper.ignore helper)
  | welcomed {hello : Hello} {welcome : Welcome} (hframe : payloadOf frame = some (.hello hello)) :
      Exchanged calls sender frame helper (Helper.answer (Helper.welcomePeer calls sender) (.welcome welcome) helper)
  | shown {value : Show} (hframe : payloadOf frame = some (.show value)) (hbound : Bound sender helper.session) :
      Exchanged calls sender frame helper (Helper.answer (Helper.beginShow calls sender value) (.pong ⟨0⟩) helper)
  | hidden {value : Hide} (hframe : payloadOf frame = some (.hide value)) (hbound : Bound sender helper.session)
      (htransaction : helper.session.transaction = some value.transaction) :
      Exchanged calls sender frame helper (Helper.answer (Helper.reset calls value.reason false) (.pong ⟨0⟩) helper)
  | commanded {value : Command} {validator : SequenceValidator} (hframe : payloadOf frame = some (.command value))
      (htransaction : helper.session.transaction = some value.transaction)
      (haccept : helper.session.sequenceValidator.accept value.transaction value.sequence = some validator) :
      Exchanged calls sender frame helper
        (Helper.answer (Helper.executeCommand calls sender value validator) (.pong ⟨value.sequence.toUInt64⟩) helper)
  | pinged {value : Ping} (hframe : payloadOf frame = some (.ping value)) :
      Exchanged calls sender frame helper (Helper.answer Action.skip (.pong ⟨value.nonce⟩) helper)

theorem exchanged_exchangeBound {ω : Type} (calls : WindowCalls ω) {sender frame : Bytes} {payload : Payload}
    {helper : Helper ω} (hframe : payloadOf frame = some payload) (hbound : Bound sender helper.session) :
    Exchanged calls sender frame helper (Helper.exchangeBound calls sender payload helper) := by
  have hother : (∀ value, payload ≠ .show value) → (∀ value, payload ≠ .hide value) →
      Exchanged calls sender frame helper (Helper.ignore helper) := by
    refine fun hshow hhide => .ignored (fun value hvalue => ?_) fun value hvalue => ?_
    · exact absurd (Option.some.inj (hframe.symm.trans hvalue)) (hshow value)
    · exact absurd (Option.some.inj (hframe.symm.trans hvalue)) (hhide value)
  cases payload with
  | «show» value => exact .shown hframe hbound
  | hide value =>
      simp only [Helper.exchangeBound]
      split
      · rename_i hne
        refine .ignored (fun other hvalue => ?_) fun other hvalue _ => ?_
        · cases hframe.symm.trans hvalue
        · cases hframe.symm.trans hvalue
          exact hne
      · rename_i heq
        exact .hidden hframe hbound (not_not.mp heq)
  | command value =>
      simp only [Helper.exchangeBound]
      split
      · exact hother (by simp) (by simp)
      rename_i heq
      cases haccept : helper.session.sequenceValidator.accept value.transaction value.sequence with
      | none => exact hother (by simp) (by simp)
      | some validator => exact .commanded hframe (not_not.mp heq) haccept
  | ping value => exact .pinged hframe
  | _ => exact hother (by simp) (by simp)

theorem exchanged_exchange {ω : Type} (calls : WindowCalls ω) {sender : Bytes} (hsender : sender ≠ []) (frame : Bytes)
    (helper : Helper ω) : Exchanged calls sender frame helper (Helper.exchange calls frame sender helper) := by
  have hempty : sender.isEmpty = false := by simpa using hsender
  unfold Helper.exchange
  rw [hempty]
  cases hparsed : (parse frame).envelope with
  | none =>
      have hframe : payloadOf frame = none := by rw [payloadOf, hparsed, Option.map_none]
      refine .ignored (fun value hvalue => ?_) fun value hvalue => ?_
      · cases hframe.symm.trans hvalue
      · cases hframe.symm.trans hvalue
  | some envelope =>
      obtain ⟨version, payload⟩ := envelope
      have hframe : payloadOf frame = some payload := by rw [payloadOf, hparsed, Option.map_some]
      have hbound : Exchanged calls sender frame helper
          (if !helper.session.negotiated || sender ≠ helper.session.peerOwner then Helper.ignore helper
          else Helper.exchangeBound calls sender payload helper) := by
        split
        · rename_i hrefused
          have hunbound : ¬ Bound sender helper.session := by
            intro h
            obtain ⟨hnegotiated, howner⟩ := h
            simp [hnegotiated, howner] at hrefused
          exact .ignored (fun _ _ => hunbound) fun _ _ h => absurd h hunbound
        · rename_i haccepted
          simp only [Bool.or_eq_true, Bool.not_eq_true', decide_eq_true_eq, not_or, not_not,
            Bool.not_eq_false] at haccepted
          exact exchanged_exchangeBound calls hframe ⟨haccepted.1, haccepted.2.symm⟩
      cases payload with
      | hello hello =>
          dsimp only
          cases negotiate hello Helper.supportedCapabilities with
          | none =>
              refine .ignored (fun value hvalue => ?_) fun value hvalue => ?_
              · cases hframe.symm.trans hvalue
              · cases hframe.symm.trans hvalue
          | some welcome => exact .welcomed hframe
      | _ => exact hbound

section

variable {ω : Type} {calls : WindowCalls ω} {sender frame : Bytes} {before : Helper ω} {exchange : Helper.Exchange ω}

theorem Exchanged.bound (h : Exchanged calls sender frame before exchange) (hbound : Bound sender before.session) :
    Bound sender exchange.helper.session := by
  cases h with
  | welcomed =>
      refine ⟨rfl, ?_⟩
      simp [Helper.answer, Helper.welcomePeer, hbound.2]
  | commanded => exact bound_runWindow _ hbound
  | _ => exact hbound

/-- Only a session that is bound answers with a `Welcome`. -/
theorem Exchanged.bound_of_welcome (h : Exchanged calls sender frame before exchange) {welcome : Welcome}
    (hresponse : payloadOf exchange.response = some (.welcome welcome)) : Bound sender exchange.helper.session := by
  have hpong : ∀ nonce, payloadOf (Helper.response (.pong nonce)) ≠ some (.welcome welcome) := by
    intro nonce hwelcome
    have hvalid : (Payload.pong nonce).Valid := trivial
    rw [Helper.response, serialize_payload (Payload.valid_iff.mp hvalid).1, Option.getD_some,
      payloadOf_frame hvalid] at hwelcome
    cases hwelcome
  cases h with
  | ignored => cases hresponse
  | welcomed =>
      refine ⟨rfl, ?_⟩
      by_cases howner : before.session.peerOwner = sender
      · simp [Helper.answer, Helper.welcomePeer, howner]
      · simp [Helper.answer, Helper.welcomePeer, howner]
  | _ => exact absurd hresponse (hpong _)

end

section

variable {peer frame : Bytes} {exchange : Helper.Exchange PaletteWindow}

/-- The frame is a command that is executed, and what it makes the window do begins with a choice. -/
def CommandChooses (setup : Setup) (desktop : Desktop) (frame : Bytes) (helper : Helper PaletteWindow) : Prop :=
  ∃ value, payloadOf frame = some (.command value) ∧ helper.session.transaction = some value.transaction ∧
    (helper.session.sequenceValidator.accept value.transaction value.sequence).isSome ∧
    Chooses (PaletteWindow.handleCommand setup.helperInstallation desktop value helper.window)

/-- A request that reaches a bound session is received. -/
theorem Exchanged.received
    (h : Exchanged (PaletteWindow.calls setup.helperInstallation desktop) peer frame helper exchange)
    (hbound : Bound peer helper.session) {payload : Payload} (hframe : payloadOf frame = some payload)
    {asks : Request TransactionId} (hrequest : request payload = some asks) :
    display exchange.helper = (display helper).receive asks ∧ signals exchange.effects = [] := by
  cases h with
  | ignored hshow hhide =>
      cases payload with
      | «show» value => exact absurd hbound (hshow value hframe)
      | hide value =>
          obtain rfl := Option.some.inj hrequest
          refine ⟨?_, rfl⟩
          have hne := hhide value hframe hbound
          cases hshown : display helper with
          | shown ask =>
              have hid : ask.id ≠ value.transaction := by
                rintro hid
                exact hne (hid ▸ transaction_of_shown hshown)
              rw [Display.receive, if_neg hid]
              exact hshown
          | hidden => exact hshown
          | waiting => exact hshown
      | _ => cases hrequest
  | shown hother =>
      cases hframe.symm.trans hother
      obtain rfl := Option.some.inj hrequest
      refine ⟨?_, rfl⟩
      simp only [Helper.answer, Helper.beginShow, display, PaletteWindow.calls, PaletteWindow.showPalette_request]
      rfl
  | hidden hother _ htransaction =>
      cases hframe.symm.trans hother
      obtain rfl := Option.some.inj hrequest
      refine ⟨?_, rfl⟩
      rw [display_of_some htransaction, Display.receive, if_pos rfl]
      rfl
  | welcomed hother | commanded hother | pinged hother =>
      cases hframe.symm.trans hother
      cases hrequest

/-- Any other frame makes the window act. -/
theorem Exchanged.acted
    (h : Exchanged (PaletteWindow.calls setup.helperInstallation desktop) peer frame helper exchange)
    (hsound : Sound setup.installation.catalog helper) (hhidden : ¬ Bound peer helper.session → display helper = .hidden)
    (hrequest : ∀ payload, payloadOf frame = some payload → request payload = none) :
    Acted setup.installation.catalog (CommandChooses setup desktop frame helper) (display helper)
      (display exchange.helper) (signals exchange.effects) := by
  cases h with
  | ignored => exact .nothing rfl
  | welcomed hframe =>
      by_cases howner : helper.session.peerOwner = peer
      · simp only [Helper.answer, Helper.welcomePeer, howner, ne_eq, not_true_eq_false, if_false]
        exact .nothing rfl
      · have hbefore := hhidden fun hbound => howner hbound.2
        simp only [Helper.answer, Helper.welcomePeer, howner, ne_eq, not_false_eq_true, if_true]
        exact .nothing hbefore.symm
  | shown hframe => cases hrequest _ hframe
  | hidden hframe => cases hrequest _ hframe
  | commanded hframe htransaction haccept =>
      rename_i value validator
      have hacted := acted_runWindow (hsound.withValidator validator)
        (PaletteWindow.does_handleCommand desktop value helper.window)
      refine hacted.1.imp fun hchooses => ⟨value, hframe, htransaction, ?_, hchooses⟩
      rw [haccept]
      rfl
  | pinged hframe => exact .nothing rfl

theorem Exchanged.sound
    (h : Exchanged (PaletteWindow.calls setup.helperInstallation desktop) peer frame helper exchange)
    (hsound : Sound setup.installation.catalog helper) : Sound setup.installation.catalog exchange.helper := by
  cases h with
  | ignored => exact hsound
  | welcomed hframe =>
      by_cases howner : helper.session.peerOwner = peer
      · simp only [Helper.answer, Helper.welcomePeer, howner, ne_eq, not_true_eq_false, if_false]
        exact ⟨hsound.shown, hsound.withinCatalog⟩
      · simp only [Helper.answer, Helper.welcomePeer, howner, ne_eq, not_false_eq_true, if_true]
        exact sound_of_none rfl (withinCatalog_hidePalette hsound.withinCatalog)
  | shown hframe =>
      rename_i value _
      have hwithin : (PaletteWindow.showPalette setup.helperInstallation desktop value helper.window).WithinCatalog
          setup.helperInstallation.catalog := PaletteWindow.withinCatalog_showPalette _ _ hsound.withinCatalog
      refine ⟨fun transaction htransaction => ?_, hwithin⟩
      obtain rfl := Option.some.inj htransaction
      exact ⟨(payloadOf_eq_some_iff.mp hframe).1.transaction, rfl⟩
  | hidden => exact sound_of_none rfl (withinCatalog_hidePalette hsound.withinCatalog)
  | commanded =>
      rename_i value validator _ _ _
      exact (acted_runWindow (hsound.withValidator validator)
        (PaletteWindow.does_handleCommand desktop value helper.window)).2
  | pinged => exact hsound

end

end System

end EmojiPalette
