import EmojiPalette.Library.Queue
import EmojiPalette.System.HelperSide
import EmojiPalette.System.AddonSide
import EmojiPalette.Ui.Handshake

/-!
# From the press to the palette

The parts of an opening, each on one side: the trigger leaves a call behind, the greeting is answered, the answer lets the `Show` out, and the `Show` is shown. Put together, the palette opens once everything is delivered three times over, whatever else is on its way before the call: the helper only adds to what it says, and the addon hears nothing but the answer to its call.
-/

namespace EmojiPalette

open Ipc Trace Addon Ui

namespace System

variable {κ : Type}

/-- The trigger of an addon that is idle and has agreed with nobody leaves a call behind, and its transaction waits. -/
theorem step_trigger [DecidableEq κ] {installation : Installation} {surroundings : Surroundings κ}
    {addon : EmojiPaletteAddon κ} (hissued : surroundings.callIssued = true) (event : KeyEvent κ)
    (hidle : addon.controller.transaction = none) (hunready : addon.session.state ≠ .ready)
    (htriggers : addon.triggers installation event = true) :
    ∃ after, EmojiPaletteAddon.step installation surroundings (.key event) addon =
        (after, [.called surroundings.serial (EmojiPaletteAddon.hello surroundings).frame, .filtered]) ∧
      after.controller.transaction = some surroundings.transaction ∧
      after.pendingCall = some ⟨surroundings.serial, event.context, surroundings.transaction, surroundings.nonce⟩ ∧
      after.session = addon.session := by
  have hinactive : addon.active = false := by
    rw [EmojiPaletteAddon.active, SelectionController.active, hidle]
    rfl
  obtain ⟨reason, hcleared⟩ := EmojiPaletteAddon.cancel_fst surroundings .user true addon
  have hcancel : (EmojiPaletteAddon.cancel surroundings .user true addon).2 = [] := by
    unfold EmojiPaletteAddon.cancel
    rw [hidle]
    rfl
  have hstate : (EmojiPaletteAddon.started surroundings event.context (addon.cleared reason)).session.state ≠ .ready :=
    hunready
  refine ⟨{ EmojiPaletteAddon.started surroundings event.context (addon.cleared reason) with
    pendingCall := some ⟨surroundings.serial, event.context, surroundings.transaction, surroundings.nonce⟩ }, ?_, rfl, rfl,
    rfl⟩
  rw [EmojiPaletteAddon.step, EmojiPaletteAddon.keyEvent, hinactive, htriggers]
  simp only [Bool.false_eq_true, if_false, if_true, Action.andThen, Action.emit_apply, EmojiPaletteAddon.show_apply,
    hcleared, hcancel, EmojiPaletteAddon.sendShowOrNegotiate, if_neg hstate, EmojiPaletteAddon.negotiate_apply, hissued]
  rfl

/-- A greeting is answered, whoever the helper was bound to before. -/
theorem exchange_greeting (setup : Setup) (desktop : Desktop) (surroundings : Surroundings κ) {sender : Bytes}
    (hsender : sender ≠ []) (helper : Helper PaletteWindow) :
    let exchanged := Helper.exchange (PaletteWindow.calls setup.helperInstallation desktop)
      (EmojiPaletteAddon.hello surroundings).frame sender helper
    Bound sender exchanged.helper.session ∧ ∃ welcome : Welcome, welcome.selectedVersion = protocolVersion ∧
      welcome.nonce = surroundings.nonce ∧ exchanged.response = (Payload.welcome welcome).frame := by
  have hrange : protocolVersion ≤ protocolVersion ∧ protocolVersion ≤ protocolVersion := by decide
  dsimp only
  rw [EmojiPaletteAddon.hello, Helper.exchange_hello hsender (valid_hello surroundings),
    negotiate_eq_some (by exact hrange)]
  simp only [Helper.answer, Helper.response_welcome, Helper.welcomePeer_fst]
  refine ⟨?_, _, rfl, rfl, rfl⟩
  by_cases howner : helper.session.peerOwner = sender
  · rw [Helper.boundTo, if_pos howner]
    exact ⟨rfl, howner⟩
  · rw [Helper.boundTo, if_neg howner]
    exact ⟨rfl, rfl⟩

/-- The answer that is waited for makes the session its sender's, and the `Show` goes out. -/
theorem reply_welcome {surroundings : Surroundings κ} (hsends : ∀ frame, surroundings.sends frame = true)
    {addon : EmojiPaletteAddon κ} {call : PendingCall κ} (hcall : addon.pendingCall = some call)
    (hactive : addon.controller.transaction = some call.transaction) (hvalid : call.transaction.Valid)
    (hfocused : surroundings.contexts.focused call.context = true)
    (hcaret : InBounds (surroundings.contexts.cursorRect call.context)) (sender : Bytes) {welcome : Welcome}
    (hversion : welcome.selectedVersion = protocolVersion) (hnonce : welcome.nonce = call.nonce) :
    let ran := EmojiPaletteAddon.reply surroundings call.serial sender (.message (some (Payload.welcome welcome).frame)) addon
    ran.1.controller.transaction = some call.transaction ∧ ran.1.session.accepts sender = true ∧
      ∃ value : Show, (Payload.show value).Valid ∧ value.transaction = call.transaction ∧
        ran.2 = [.sent (Payload.show value).frame] := by
  have hwelcome : (Payload.welcome welcome).Valid := by
    change 1 ≤ welcome.selectedVersion
    rw [hversion]
    exact UInt16.le_refl 1
  have haccepted := (acceptWelcome_begin addon.session sender call.nonce addonCapabilities).1 welcome hversion hnonce
  have hreplied : EmojiPaletteAddon.reply surroundings call.serial sender
      (.message (some (Payload.welcome welcome).frame)) addon =
        EmojiPaletteAddon.receiveWelcome surroundings call sender welcome { addon with pendingCall := none } := by
    rw [EmojiPaletteAddon.reply, hcall]
    simp only [if_true, EmojiPaletteAddon.receiveReply, hactive, ne_eq, not_true_eq_false, if_false,
      parse_payload_frame hwelcome]
  dsimp only
  rw [hreplied]
  unfold EmojiPaletteAddon.receiveWelcome
  simp only [haccepted.1, hfocused, Bool.not_true, Bool.false_eq_true, if_false]
  rcases sendShow_cases hsends surroundings.contexts call.context hvalid { addon with
      session := ((addon.session.begin sender call.nonce addonCapabilities).1.acceptWelcome sender welcome).1
      pendingCall := none } with ⟨_, value, hshow, hsame, _, hsent⟩ | ⟨hout, _⟩
  · rw [hsent]
    exact ⟨hactive, haccepted.2.2, value, hshow, hsame, rfl⟩
  · exact absurd hcaret hout

theorem shown_of_bound (setup : Setup) (desktop : Desktop) {sender : Bytes} (hsender : sender ≠ [])
    {helper : Helper PaletteWindow} (hbound : Bound sender helper.session) {value : Show} (hvalid : (Payload.show value).Valid) :
    let exchanged := Helper.exchange (PaletteWindow.calls setup.helperInstallation desktop) (Payload.show value).frame
      sender helper
    exchanged.helper.session.transaction = some value.transaction ∧ exchanged.helper.window.visible = true := by
  have hframe := payloadOf_frame hvalid
  have hexchanged := exchanged_exchange (PaletteWindow.calls setup.helperInstallation desktop) hsender
    (Payload.show value).frame helper
  dsimp only
  generalize Helper.exchange (PaletteWindow.calls setup.helperInstallation desktop) (Payload.show value).frame
    sender helper = exchange at hexchanged ⊢
  cases hexchanged with
  | ignored hshow => exact absurd hbound (hshow value hframe)
  | shown hother =>
      cases hframe.symm.trans hother
      exact ⟨rfl, rfl⟩
  | welcomed hother | hidden hother | commanded hother | pinged hother => cases hframe.symm.trans hother

/-! ### Everything is delivered -/

def AddonMessage.serial : AddonMessage → Option Nat
  | .reply serial _ => some serial
  | .signal _ => none

theorem serial_of_mem_signals {effects : List Effect} {message : AddonMessage} (h : message ∈ signals effects) :
    message.serial = none := by
  obtain ⟨frame, rfl⟩ := signal_of_mem h
  rfl

theorem reply_of_waiting {surroundings : Surroundings κ} {addon : EmojiPaletteAddon κ} {call : PendingCall κ}
    (hcall : addon.pendingCall = some call) {serial : Nat} (hother : serial ≠ call.serial) (sender : Bytes) (answer : Reply) :
    EmojiPaletteAddon.reply surroundings serial sender answer addon = (addon, []) := by
  simp [EmojiPaletteAddon.reply, hcall, hother.symm]

namespace PaletteSystem

variable [DecidableEq κ] {setup : Setup} {system : PaletteSystem κ} {first second : Surroundings κ}

/-- Everything that is on its way to the helper is delivered. -/
def readAll (setup : Setup) (desktop : Desktop) : PaletteSystem κ → PaletteSystem κ :=
  Queue.drain toHelper (deliverToHelper setup desktop)

def hearAll (setup : Setup) (surroundings : Surroundings κ) : PaletteSystem κ → PaletteSystem κ :=
  Queue.drain toAddon (deliverToAddon setup surroundings)

/-- The addon waits for the answer to the call, which has not been given, and so many frames are on their way. -/
structure Waiting (addon : EmojiPaletteAddon κ) (serial : Nat) (frames : List HelperFrame) (system : PaletteSystem κ) :
    Prop where
  addon : system.addon = addon
  toHelper : system.toHelper = frames
  unanswered : ∀ message ∈ system.toAddon, message.serial ≠ some serial

omit [DecidableEq κ] in
theorem Waiting.deliverToHelper {addon : EmojiPaletteAddon κ} {serial : Nat} {arrived : HelperFrame} {rest : List HelperFrame}
    (h : Waiting addon serial (arrived :: rest) system) (hother : arrived.serial ≠ some serial) (desktop : Desktop) :
    Waiting addon serial rest (PaletteSystem.deliverToHelper setup desktop system) := by
  rw [PaletteSystem.deliverToHelper, h.toHelper]
  refine ⟨h.addon, rfl, fun message hmem => ?_⟩
  rcases List.mem_append.mp hmem with hbefore | hnew
  · exact h.unanswered message hbefore
  rcases List.mem_append.mp hnew with hsignal | hanswer
  · simp [serial_of_mem_signals hsignal]
  · obtain ⟨answered, hanswered, rfl⟩ := List.mem_map.mp hanswer
    rwa [AddonMessage.serial, ← Option.mem_toList.mp hanswered]

theorem readAll_greeting (setup : Setup) (desktop : Desktop) (surroundings : Surroundings κ) {addon : EmojiPaletteAddon κ}
    {stale : List HelperFrame} {serial : Nat} (hstale : ∀ arrived ∈ stale, arrived.serial ≠ some serial)
    (h : Waiting addon serial (stale ++ [⟨(EmojiPaletteAddon.hello surroundings).frame, some serial⟩]) system) :
    ∃ helper before issued, ∃ welcome : Welcome, Bound setup.addonName helper.session ∧
      (∀ message ∈ before, message.serial ≠ some serial) ∧ welcome.selectedVersion = protocolVersion ∧
      welcome.nonce = surroundings.nonce ∧ readAll setup desktop system =
        ⟨addon, helper, [], before ++ [.reply serial (Payload.welcome welcome).frame], issued⟩ := by
  have hread := Queue.iterate_deliver (PaletteSystem.deliverToHelper setup desktop) (Waiting addon serial)
    (fun arrived hmem _ _ hwaiting => Waiting.deliverToHelper hwaiting (hstale arrived hmem) desktop) h
  rw [readAll, Queue.drain_append h.toHelper hread.toHelper, Queue.drain_singleton hread.toHelper]
  generalize (PaletteSystem.deliverToHelper setup desktop)^[stale.length] system = read at hread
  have hgreeted := exchange_greeting setup desktop surroundings setup.addonName_ne_nil read.helper
  rw [PaletteSystem.deliverToHelper, hread.toHelper]
  dsimp only at hgreeted ⊢
  generalize Helper.exchange _ _ _ read.helper = exchanged at hgreeted ⊢
  obtain ⟨hbound, welcome, hversion, hnonce, hresponse⟩ := hgreeted
  refine ⟨exchanged.helper, read.toAddon ++ signals exchanged.effects, read.issued, welcome, hbound,
    fun message hmem => ?_, hversion, hnonce, ?_⟩
  · rcases List.mem_append.mp hmem with hbefore | hsignal
    · exact hread.unanswered message hbefore
    · simp [serial_of_mem_signals hsignal]
  · rw [hread.addon, hresponse, List.append_assoc]
    rfl

theorem deliverToAddon_of_waiting {call : PendingCall κ} {message : AddonMessage} {rest : List AddonMessage}
    (hcall : system.addon.pendingCall = some call) (hunready : system.addon.session.state ≠ .ready)
    (hmessages : system.toAddon = message :: rest) (hother : message.serial ≠ some call.serial) :
    deliverToAddon setup second system = { system with
      toAddon := rest, issued := system.addon.controller.transaction.toList ++ system.issued } := by
  have hnothing : ∀ input, EmojiPaletteAddon.step setup.installation second input system.addon = (system.addon, []) →
      runAddon setup second input { system with toAddon := rest } = { system with
        toAddon := rest, issued := system.addon.controller.transaction.toList ++ system.issued } := by
    intro input hstep
    rw [runAddon, hstep, helperFrames, List.filterMap_nil, List.append_nil]
  rw [deliverToAddon, hmessages]
  cases message with
  | reply serial frame =>
      exact hnothing _ (reply_of_waiting hcall (fun hsame => hother (congrArg some hsame)) setup.helperName _)
  | signal frame => exact hnothing _ (frame_of_unready hunready setup.helperName _)

theorem hearAll_welcome (setup : Setup) {addon : EmojiPaletteAddon κ} {helper : Helper PaletteWindow}
    {before : List AddonMessage} {issued : List TransactionId} {call : PendingCall κ} {welcome : Welcome}
    (hsends : ∀ frame, second.sends frame = true) (hcall : addon.pendingCall = some call)
    (hunready : addon.session.state ≠ .ready) (hactive : addon.controller.transaction = some call.transaction)
    (hvalid : call.transaction.Valid) (hfocused : second.contexts.focused call.context = true)
    (hcaret : InBounds (second.contexts.cursorRect call.context))
    (hversion : welcome.selectedVersion = protocolVersion) (hnonce : welcome.nonce = call.nonce)
    (hbefore : ∀ message ∈ before, message.serial ≠ some call.serial)
    (hread : system = ⟨addon, helper, [], before ++ [.reply call.serial (Payload.welcome welcome).frame], issued⟩) :
    ∃ shown issued, ∃ value : Show, shown.controller.transaction = some call.transaction ∧
      shown.session.accepts setup.helperName = true ∧ (Payload.show value).Valid ∧ value.transaction = call.transaction ∧
      hearAll setup second system = ⟨shown, helper, [⟨(Payload.show value).frame, none⟩], [], issued⟩ := by
  obtain ⟨hended, haccepts, value, hshow, hsame, hsent⟩ :=
    reply_welcome hsends hcall hactive hvalid hfocused hcaret setup.helperName hversion hnonce
  have hstep : ∀ message ∈ before, ∀ rest heard, (∃ issued, heard = ⟨addon, helper, [], message :: rest, issued⟩) →
      ∃ issued, deliverToAddon setup second heard = ⟨addon, helper, [], rest, issued⟩ := by
    rintro message hmem rest _ ⟨issued, rfl⟩
    exact ⟨_, deliverToAddon_of_waiting hcall hunready rfl (hbefore message hmem)⟩
  obtain ⟨earlier, hheard⟩ := Queue.iterate_deliver (deliverToAddon setup second)
    (fun messages heard => ∃ issued, heard = ⟨addon, helper, [], messages, issued⟩) hstep ⟨issued, hread⟩
  have hlast : deliverToAddon setup second
      ⟨addon, helper, [], [.reply call.serial (Payload.welcome welcome).frame], earlier⟩ =
        let ran := EmojiPaletteAddon.reply second call.serial setup.helperName
          (.message (some (Payload.welcome welcome).frame)) addon
        ⟨ran.1, helper, helperFrames ran.2, [], ran.1.controller.transaction.toList ++ earlier⟩ := rfl
  rw [hearAll, Queue.drain_append (congrArg toAddon hread) (congrArg toAddon hheard), hheard,
    Queue.drain_singleton (show toAddon _ = [_] from rfl), hlast]
  dsimp only
  rw [hsent]
  exact ⟨_, _, value, hended, haccepts, hshow, hsame, rfl⟩

/-- The helper's palette opens for the transaction that waits, whatever else is on its way to the helper. -/
theorem opens_of_waiting (setup : Setup) (desktop : Desktop) (call : PendingCall κ) {stale : List HelperFrame}
    (hwaiting : Waiting system.addon call.serial
      (stale ++ [⟨(EmojiPaletteAddon.hello first).frame, some call.serial⟩]) system)
    (hstale : ∀ arrived ∈ stale, arrived.serial ≠ some call.serial) (hnonce : first.nonce = call.nonce)
    (hcall : system.addon.pendingCall = some call) (hunready : system.addon.session.state ≠ .ready)
    (hactive : system.addon.controller.transaction = some call.transaction) (hvalid : call.transaction.Valid)
    (hsends : ∀ frame, second.sends frame = true) (hfocused : second.contexts.focused call.context = true)
    (hcaret : InBounds (second.contexts.cursorRect call.context)) :
    let opened := readAll setup desktop (hearAll setup second (readAll setup desktop system))
    opened.addon.controller.transaction = some call.transaction ∧
      opened.addon.session.accepts setup.helperName = true ∧ opened.toHelper = [] ∧
      opened.helper.session.transaction = some call.transaction ∧ opened.helper.window.visible = true := by
  obtain ⟨helper, before, issued, welcome, hbound, hbefore, hversion, hsame, hread⟩ :=
    readAll_greeting setup desktop first hstale hwaiting
  obtain ⟨shown, issued, value, hended, haccepts, hshow, htransaction, hheard⟩ :=
    hearAll_welcome setup hsends hcall hunready hactive hvalid hfocused hcaret hversion (hsame.trans hnonce) hbefore
      hread
  dsimp only
  rw [hheard, readAll, Queue.drain_singleton (show toHelper _ = [_] from rfl)]
  have hopened := shown_of_bound setup desktop setup.addonName_ne_nil hbound hshow
  rw [htransaction] at hopened
  exact ⟨hended, haccepts, rfl, hopened⟩

end PaletteSystem

end System

end EmojiPalette
