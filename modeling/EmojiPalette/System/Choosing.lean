import EmojiPalette.System.WindowRuns

/-!
# From the key to the text

With nothing on its way and one transaction on both sides, the rows are the ones the text of the addon asks for, and the key that selects has the current one committed: the command finds its transaction and the next number, the window announces the record of its current row, and the choice finds the addon waiting for it.
-/

namespace EmojiPalette

open Ipc Trace Addon Ui Handover

namespace System

variable {κ : Type} {setup : Setup}

/-! ### The key -/

theorem step_commandKey [DecidableEq κ] {addon : EmojiPaletteAddon κ} {surroundings : Surroundings κ} {event : KeyEvent κ}
    {transaction : TransactionId} {kind : CommandKind} (hsends : ∀ frame, surroundings.sends frame = true)
    (h : addon.WellFormed) (hactive : addon.controller.transaction = some transaction)
    (hown : surroundings.contexts.get addon.origin = some event.context)
    (hroute : addon.keyRouter.route setup.installation.fcitx event.key event.origKey event.isRelease addon.search =
      .command kind) :
    EmojiPaletteAddon.step setup.installation surroundings (.key event) addon =
      ({ addon with commandSequence := addon.commandSequence + 1 },
        [.filtered, .sent (Payload.command ⟨transaction, addon.commandSequence + 1, kind, []⟩).frame]) := by
  have hon : addon.active = true := by
    rw [EmojiPaletteAddon.active, SelectionController.active, hactive]
    rfl
  have hvalid : (Payload.command ⟨transaction, addon.commandSequence + 1, kind, []⟩).Valid :=
    ⟨EmojiPaletteAddon.valid_of_transaction h hactive, EmojiPaletteAddon.textWithin_nil, fun _ => rfl⟩
  have hsent := EmojiPaletteAddon.sendEnvelope_of_delivers ⟨(Payload.valid_iff.mp hvalid).1, hsends _⟩
    { addon with commandSequence := addon.commandSequence + 1 }
  rw [EmojiPaletteAddon.step, EmojiPaletteAddon.keyEvent, if_pos hon, EmojiPaletteAddon.handleActiveKey,
    if_neg (by simp [hon, hown]), Action.andThen, Action.emit_apply, hroute, EmojiPaletteAddon.followRoute,
    EmojiPaletteAddon.sendCommand]
  dsimp only
  rw [hactive]
  dsimp only
  rw [hsent]
  rfl

/-! ### The command -/

variable {desktop : Desktop} {helper : Helper PaletteWindow} {peer frame : Bytes}

theorem exchange_command (setup : Setup) (desktop : Desktop) {command : Command} {validator : SequenceValidator} (hpeer : peer ≠ [])
    (hframe : payloadOf frame = some (.command command)) (hbound : Bound peer helper.session)
    (hheld : helper.session.transaction = some command.transaction)
    (haccept : helper.session.sequenceValidator.accept command.transaction command.sequence = some validator) :
    Helper.exchange (PaletteWindow.calls setup.helperInstallation desktop) frame peer helper =
      Helper.answer (Helper.executeCommand (PaletteWindow.calls setup.helperInstallation desktop) peer command validator)
        (.pong ⟨command.sequence.toUInt64⟩) helper := by
  obtain ⟨⟨version, heard⟩, hparsed, hheard⟩ := Option.map_eq_some_iff.mp hframe
  obtain rfl : heard = .command command := hheard
  simp [Helper.exchange, Helper.exchangeBound, hpeer, hparsed, hbound.1, hbound.2, hheld, haccept]

theorem handleCommand_select {window : PaletteWindow} {command : Command} {record : EmojiRecord}
    (hkind : command.kind = .select) (hcells : window.keyboard.itemCount ≠ 0)
    (hrecord : window.currentRecord = some record) :
    window.handleCommand setup.helperInstallation desktop command =
      window.chooseSequence setup.helperInstallation desktop record.sequence := by
  have hdispatched : window.keyboard.dispatch .select = (window.keyboard, .selected) :=
    Prod.ext rfl (if_neg hcells)
  have hcurrent : PaletteWindow.currentRecord { window with keyboard := window.keyboard } = some record := hrecord
  rw [PaletteWindow.handleCommand, hkind]
  dsimp only [PaletteWindow.navigation]
  rw [PaletteWindow.navigate, hdispatched]
  dsimp only
  rw [PaletteWindow.activateCurrent, hcurrent]

theorem signals_chooseSequence {transaction : TransactionId} {sequence : Bytes} {window : PaletteWindow}
    (hheld : helper.session.transaction = some transaction) (hvalid : Selected.Valid ⟨transaction, sequence⟩)
    (hplain : isPlainText sequence = true) :
    signals (Helper.runWindow (PaletteWindow.calls setup.helperInstallation desktop)
      (window.chooseSequence setup.helperInstallation desktop sequence) helper).2 =
        [.signal (Payload.selected ⟨transaction, sequence⟩).frame] := by
  rw [runWindow_chooseSequence, setup.qt.fromUtf8_plain sequence hplain, Helper.selectionRequested]
  dsimp only
  rw [hheld]
  exact signals_outgoing hvalid

/-! ### The choice -/

/-- Whoever holds a transaction has agreed with the addon. -/
theorem bound_of_held {system : PaletteSystem κ} (h : Inv setup system) {transaction : TransactionId}
    (hheld : system.helper.session.transaction = some transaction) :
    system.addon.session.state = .ready ∧ Bound setup.addonName system.helper.session := by
  have hready : system.addon.session.state = .ready := by
    refine connected_eq_true_iff.mp (h.silent.connected_of_display fun hhidden => ?_)
    cases (display_of_some hheld).symm.trans hhidden
  exact ⟨hready, h.bound (Or.inl hready)⟩

section

variable [DecidableEq κ] {system : PaletteSystem κ}

/-- A choice of the active transaction is committed to its context if that has the focus. -/
theorem typing_of_holding (h : Inv setup system) (hnodup : (handover system).live.Nodup) {surroundings : Surroundings κ}
    (hlossless : Lossless system.issued surroundings) {value : Selected} {rest : List AddonMessage}
    (hmessages : system.toAddon = .signal (Payload.selected value).frame :: rest) (hvalid : value.Valid) {context : κ}
    (hholding : holding system.addon.controller = some (value.transaction, context))
    (hfocused : surroundings.contexts.focused context = true) :
    typing setup (.toAddon surroundings) system = [⟨some value.transaction, context, value.sequence⟩] := by
  obtain ⟨transaction, htransaction, htarget⟩ := Option.bind_eq_some_iff.mp hholding
  obtain ⟨target, htarget, hpair⟩ := Option.map_eq_some_iff.mp htarget
  cases hpair
  have hawaited : EmojiPaletteAddon.awaited surroundings value system.addon = true := by
    rw [EmojiPaletteAddon.awaited, htransaction, htarget, Option.any_some, hfocused]
    exact Bool.and_eq_true_iff.mpr ⟨decide_eq_true rfl, rfl⟩
  have hsettling : settling (.toAddon surroundings) system = [(value, true)] := by
    rw [settling, hmessages, List.take_succ_cons, List.take_zero, selections]
    simp [payloadOf_frame (show (Payload.selected value).Valid from hvalid), hawaited]
  have hpromised : Promised system (.toAddon surroundings) := hlossless
  cases settles_step h hnodup hpromised with
  | nothing hnothing =>
      rw [hsettling] at hnothing
      cases hnothing
  | choice chosen awaits hchoice _ _ _ htyping =>
      rw [hsettling] at hchoice
      cases hchoice
      obtain ⟨hawaits, _⟩ | ⟨_, other, hother, _, htyping⟩ := htyping
      · cases hawaits
      · rw [hholding] at hother
        cases hother
        exact htyping

theorem exchange_select (desktop : Desktop) {helper : Helper PaletteWindow} {transaction : TransactionId} {command : Command}
    {record : EmojiRecord} (h : Sound setup.installation.catalog helper) (hvalid : (Payload.command command).Valid)
    (hbound : Bound setup.addonName helper.session) (hheld : helper.session.transaction = some transaction)
    (hcommand : command.transaction = transaction) (hkind : command.kind = .select)
    (haccept : (helper.session.sequenceValidator.accept transaction command.sequence).isSome = true)
    (hcells : helper.window.keyboard.itemCount ≠ 0) (hrecord : helper.window.currentRecord = some record) :
    signals (Helper.exchange (PaletteWindow.calls setup.helperInstallation desktop) (Payload.command command).frame
      setup.addonName helper).effects = [.signal (Payload.selected ⟨transaction, record.sequence⟩).frame] := by
  subst hcommand
  obtain ⟨validator, haccept⟩ := Option.isSome_iff_exists.mp haccept
  have hwithin : helper.window.WithinCatalog setup.helperInstallation.catalog := h.withinCatalog
  have hmem : record ∈ setup.installation.catalog.records := PaletteWindow.currentRecord_mem hwithin hrecord
  obtain ⟨hnonempty, htext, hplain⟩ := setup.sequence_fits record hmem
  have hchoice : Selected.Valid ⟨command.transaction, record.sequence⟩ :=
    ⟨(h.shown _ hheld).1, htext, hnonempty⟩
  have hexchanged := exchange_command setup desktop setup.addonName_ne_nil (payloadOf_frame hvalid) hbound hheld haccept
  have hprogram : (PaletteWindow.calls setup.helperInstallation desktop).handleCommand command helper.window =
      helper.window.chooseSequence setup.helperInstallation desktop record.sequence :=
    handleCommand_select hkind hcells hrecord
  rw [hexchanged, Helper.answer, Helper.executeCommand, hprogram]
  exact signals_chooseSequence hheld hchoice hplain

/-- With nothing on its way, the command is the only frame that the key leaves. -/
theorem step_selectKey (hquiet : Quiet system) {surroundings : Surroundings κ} {event : KeyEvent κ}
    {transaction : TransactionId} (hlossless : Lossless system.issued surroundings) (h : system.addon.WellFormed)
    (hactive : system.addon.controller.transaction = some transaction)
    (hown : surroundings.contexts.get system.addon.origin = some event.context)
    (hroute : system.addon.keyRouter.route setup.installation.fcitx event.key event.origKey event.isRelease
      system.addon.search = .command .select) :
    PaletteSystem.step setup (.addon surroundings (.key event)) system =
      { system with
        addon := { system.addon with commandSequence := system.addon.commandSequence + 1 }
        toHelper := [⟨(Payload.command ⟨transaction, system.addon.commandSequence + 1, .select, []⟩).frame, none⟩]
        issued := transaction :: system.issued } := by
  rw [PaletteSystem.step, PaletteSystem.runAddon, Happening.input]
  dsimp only
  rw [step_commandKey hlossless.sends h hactive hown hroute, hquiet.toHelper, hactive]
  rfl

theorem typing_of_selecting (h : Inv setup system) (hnodup : (handover system).live.Nodup) {desktop : Desktop}
    {delivering : Surroundings κ} {transaction : TransactionId} {context : κ} {command : Command} {record : EmojiRecord}
    (hframes : system.toHelper = [⟨(Payload.command command).frame, none⟩]) (hnone : system.toAddon = [])
    (hvalid : (Payload.command command).Valid) (hheld : system.helper.session.transaction = some transaction)
    (hcommand : command.transaction = transaction) (hkind : command.kind = .select)
    (haccept : (system.helper.session.sequenceValidator.accept transaction command.sequence).isSome = true)
    (hcells : system.helper.window.keyboard.itemCount ≠ 0) (hrecord : system.helper.window.currentRecord = some record)
    (hholding : holding system.addon.controller = some (transaction, context))
    (hdelivering : Lossless system.issued delivering) (hfocused : delivering.contexts.focused context = true) :
    typing setup (.toAddon delivering) (PaletteSystem.step setup (.toHelper desktop) system) =
      [⟨some transaction, context, record.sequence⟩] := by
  have hpromised : Promised system (.toHelper desktop) := trivial
  have hwithin : system.helper.window.WithinCatalog setup.helperInstallation.catalog := h.helper.withinCatalog
  have hmem : record ∈ setup.installation.catalog.records := PaletteWindow.currentRecord_mem hwithin hrecord
  obtain ⟨hnonempty, htext, hplain⟩ := setup.sequence_fits record hmem
  have hchoice : Selected.Valid ⟨transaction, record.sequence⟩ :=
    ⟨(h.helper.shown _ hheld).1, htext, hnonempty⟩
  have hanswered := exchange_select desktop h.helper hvalid (bound_of_held h hheld).2 hheld hcommand hkind haccept hcells
    hrecord
  have hsilent : handles setup (.toHelper desktop) system = none := rfl
  obtain ⟨haddon, hissued⟩ := step_of_not_handled hsilent
  have hmessages : (PaletteSystem.step setup (.toHelper desktop) system).toAddon =
      [.signal (Payload.selected ⟨transaction, record.sequence⟩).frame] := by
    rw [PaletteSystem.step, PaletteSystem.deliverToHelper, hframes]
    dsimp only
    rw [hanswered, hnone]
    rfl
  refine typing_of_holding (h.step hpromised) (Silent.nodup_step h.silent hnodup (step_event h hpromised)) ?_ hmessages
    hchoice ?_ hfocused
  · rw [hissued]
    exact hdelivering
  · rw [haddon]
    exact hholding

/-! ### Every run -/

theorem fresh_reachable {allowed : PaletteSystem κ → Event κ → Prop}
    (hallowed : ∀ system event, allowed system event → Promised system event)
    (h : Reachable (Start setup) allowed (PaletteSystem.step setup) system) :
    system.helper.window.Fresh setup.installation.catalog := by
  have hboth : Inv setup system ∧ system.helper.window.Fresh setup.installation.catalog := by
    induction h with
    | start hstart =>
        refine ⟨inv_start hstart, ?_⟩
        obtain ⟨config, layout, desktop, state, cellSize, rfl⟩ := hstart
        exact PaletteWindow.fresh_initial setup.helperInstallation desktop state cellSize
    | @step before event _ hevent ih =>
        obtain ⟨hinv, hfresh⟩ := ih
        obtain ⟨announced, htouched, _⟩ := touched_step hinv event
        exact ⟨hinv.step (hallowed _ _ hevent), htouched.fresh hfresh⟩
  exact hboth.2

/-- In a run that avoids what parts the two, with everything arrived, the rows are the ones the addon's text asks for, and the key that selects has the current one committed to the context of its transaction. -/
theorem select_commits (setup : Setup) (system : PaletteSystem κ) (transaction : TransactionId)
    (pressing delivering : Surroundings κ) (desktop : Desktop) (event : KeyEvent κ) (record : EmojiRecord)
    (h : Reachable (Start setup) (fun system event => Promised system event ∧ Harmless setup system event)
      (PaletteSystem.step setup) system)
    (hquiet : Quiet system) (hactive : system.addon.controller.transaction = some transaction)
    (hheld : system.helper.session.transaction = some transaction) (hpressing : Lossless system.issued pressing)
    (horigin : pressing.contexts.get system.addon.origin = some event.context)
    (hroute : system.addon.keyRouter.route setup.installation.fcitx event.key event.origKey event.isRelease
      system.addon.search = .command .select)
    (hnumbers : system.addon.commandSequence ≠ 0xFFFFFFFF) (hcells : system.helper.window.keyboard.itemCount ≠ 0)
    (hrecord : system.helper.window.currentRecord = some record)
    (hdelivering : Lossless (transaction :: system.issued) delivering)
    (hfocused : delivering.contexts.focused event.context = true) :
    let window := system.helper.window
    let pressed := PaletteSystem.step setup (.addon pressing (.key event)) system
    let heard := PaletteSystem.step setup (.toHelper desktop) pressed
    window.model.records = EmojiListModel.listed setup.installation.catalog window.state window.model.category
      window.model.locale system.addon.search ∧
    record ∈ window.model.records ∧
    typing setup (.toAddon delivering) heard = [⟨some transaction, event.context, record.sequence⟩] := by
  have hfresh := fresh_reachable (fun _ _ hevent => hevent.1) h
  obtain ⟨recorded, received, rfl, hsynced⟩ := synced_reachable h
  have hinv := hsynced.ordered.inv
  obtain ⟨hready, hbound⟩ := bound_of_held hinv hheld
  have hquery : recorded.system.helper.window.query = recorded.system.addon.search := by
    have hupcoming := (hsynced.texts transaction hactive).held hheld
    rwa [hquiet.toHelper] at hupcoming
  refine ⟨?_, ?_, ?_⟩
  · rw [← hquery]
    exact hfresh.records
  · obtain ⟨row, _, hrow⟩ := Option.bind_eq_some_iff.mp hrecord
    exact List.mem_of_getElem? hrow
  · have hharmless : Harmless setup recorded.system (.addon pressing (.key event)) :=
      harmless_calm hready hquiet.toAddon hnumbers fun text hrouted => nomatch hroute.symm.trans hrouted.2.2
    have hpromised : Promised recorded.system (.addon pressing (.key event)) := hpressing
    obtain ⟨more, hnext⟩ := hsynced.step hpromised hharmless
    have hpressed := step_selectKey hquiet hpressing hinv.addon hactive horigin hroute
    have hvalid : (Payload.command
        ⟨transaction, recorded.system.addon.commandSequence + 1, .select, []⟩).Valid :=
      ⟨EmojiPaletteAddon.valid_of_transaction hinv.addon hactive, EmojiPaletteAddon.textWithin_nil, fun _ => rfl⟩
    have hframes : (recorded.step setup (.addon pressing (.key event))).system.toHelper =
        [⟨(Payload.command ⟨transaction, recorded.system.addon.commandSequence + 1, .select, []⟩).frame, none⟩] := by
      rw [Recorded.step, hpressed]
    have hhelper : (recorded.step setup (.addon pressing (.key event))).system.helper = recorded.system.helper := by
      rw [Recorded.step, hpressed]
    have haccept := hnext.ordered.accepts hnext.few hnext.all hframes (payloadOf_frame hvalid) (hhelper ▸ hheld)
    have hholding : holding recorded.system.addon.controller = some (transaction, event.context) := by
      cases hinv.addon.source with
      | idle hnone => cases hnone.symm.trans hactive
      | active other context hsome htarget hsource =>
          rw [hsource] at horigin
          obtain ⟨hcontext, _⟩ := Option.filter_eq_some_iff.mp horigin
          rw [holding, hactive, htarget, hcontext]
          rfl
    refine typing_of_selecting hnext.ordered.inv hnext.nodup hframes ?_ hvalid (hhelper ▸ hheld) rfl rfl haccept
      (hhelper ▸ hcells) (hhelper ▸ hrecord) ?_ ?_ hfocused
    · rw [Recorded.step, hpressed]
      exact hquiet.toAddon
    · rw [Recorded.step, hpressed]
      exact hholding
    · rw [Recorded.step, hpressed]
      exact hdelivering

end

/-! ### A run -/

def shownFirst : List (Event Unit) := handshake ++ [.toHelper desk]

def grinning : EmojiRecord := ⟨[0xF0, 0x9F, 0x98, 0x80], .smileysEmotion, [], fun _ => ⟨[], []⟩, []⟩

/-- Return commits the one emoji there is. -/
theorem select_commits_shownFirst :
    typing oneEmoji (.toAddon third) (PaletteSystem.step oneEmoji (.toHelper desk)
      (PaletteSystem.step oneEmoji (.addon second (.key ⟨(), ⟨keyReturn, 0, 0⟩, ⟨keyReturn, 0, 0⟩, false⟩))
        (run shownFirst))) = [⟨some first.transaction, (), [0xF0, 0x9F, 0x98, 0x80]⟩] := by
  have hreachable : Reachable (Start oneEmoji) (fun system event => Promised system event ∧ Harmless oneEmoji system event)
      (PaletteSystem.step oneEmoji) (run shownFirst) := by
    refine reachable_run ⟨⟨⟨fun _ => rfl, rfl, by decide +kernel⟩, harmless_inactive (by decide +kernel)⟩,
      ⟨trivial, fun _ _ _ => ⟨fun _ => ?_, fun _ _ => ?_⟩⟩, ⟨lossless_second (by decide +kernel), trivial⟩,
      ⟨trivial, fun _ _ _ => ⟨fun _ => ?_, fun _ _ => ?_⟩⟩, trivial⟩
    · exact not_textCrosses_of_none (by decide +kernel)
    · exact not_reopens_of_nil (by decide +kernel)
    · exact not_textCrosses_of_none (by decide +kernel)
    · exact not_reopens_of_nil (by decide +kernel)
  have hquiet : Quiet (run shownFirst) := by
    constructor <;> decide +kernel
  obtain ⟨_, _, htyping⟩ := select_commits oneEmoji (run shownFirst) first.transaction second third desk
    ⟨(), ⟨keyReturn, 0, 0⟩, ⟨keyReturn, 0, 0⟩, false⟩ grinning hreachable hquiet (by decide +kernel) (by decide +kernel)
    (lossless_second (by decide +kernel)) (by decide +kernel) (by decide +kernel) (by decide +kernel) (by decide +kernel)
    (by rfl) ⟨fun _ => rfl, rfl, by decide +kernel⟩ (by decide +kernel)
  exact htyping

end System

end EmojiPalette
