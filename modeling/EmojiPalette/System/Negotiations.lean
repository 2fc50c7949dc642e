import EmojiPalette.System.Refinement

/-!
# Greetings and their answers

A handler of the addon seen by the calls it issues. The only call is a `Hello`, it goes out only while the session is not ready, and from then on the addon waits for the answer to this call and to no other. Nothing else that is sent is a `Hello`.
-/

namespace EmojiPalette

open Ipc Trace Addon Ui

namespace System

open EmojiPaletteAddon (Input cancel sendEnvelope sendShow sendCommand)

variable {κ : Type} {surroundings : Surroundings κ} {addon : EmojiPaletteAddon κ}

/-- The frame says hello. -/
def Greeting (frame : Bytes) : Prop := ∃ hello, payloadOf frame = some (.hello hello)

/-- No call, and no greeting without one. -/
structure Plain (outputs : List (Output κ)) : Prop where
  called : ∀ serial frame, .called serial frame ∉ outputs
  sent : ∀ frame, .sent frame ∈ outputs → ¬ Greeting frame

theorem plain_nil : Plain ([] : List (Output κ)) := ⟨fun _ _ => List.not_mem_nil, fun _ h => absurd h List.not_mem_nil⟩

theorem plain_filtered : Plain ([.filtered] : List (Output κ)) := ⟨by simp, by simp⟩

theorem plain_committed (commits : List (κ × Bytes)) :
    Plain (commits.map fun commit => Output.committed commit.1 commit.2) := ⟨by simp, by simp⟩

theorem Plain.append {outputs more : List (Output κ)} (h : Plain outputs) (hmore : Plain more) :
    Plain (outputs ++ more) := by
  refine ⟨fun serial frame hmem => ?_, fun frame hmem => ?_⟩
  · exact (List.mem_append.mp hmem).elim (h.called serial frame) (hmore.called serial frame)
  · exact (List.mem_append.mp hmem).elim (h.sent frame) (hmore.sent frame)

/-! ### The parts -/

theorem plain_sendEnvelope (surroundings : Surroundings κ) {payload : Payload} (hother : ∀ hello, payload ≠ .hello hello)
    (hrange : payload.HandshakeInRange) (addon : EmojiPaletteAddon κ) :
    Plain (sendEnvelope surroundings payload addon).2 := by
  by_cases h : surroundings.Delivers payload
  · rw [EmojiPaletteAddon.sendEnvelope_of_delivers h]
    refine ⟨by simp, fun frame hmem => ?_⟩
    obtain rfl : frame = payload.frame := by simpa using hmem
    rintro ⟨hello, hframe⟩
    rw [payloadOf_frame (Payload.valid_iff.mpr ⟨h.1, hrange⟩)] at hframe
    exact hother hello (Option.some.inj hframe)
  · obtain ⟨reason, hsent⟩ := EmojiPaletteAddon.sendEnvelope_of_not_delivers h addon
    rw [hsent]
    exact plain_nil

theorem plain_cancel (surroundings : Surroundings κ) (reason : CancelReason) (notifyHelper : Bool)
    (addon : EmojiPaletteAddon κ) : Plain (cancel surroundings reason notifyHelper addon).2 := by
  unfold EmojiPaletteAddon.cancel
  split
  · exact plain_nil
  split
  · exact plain_nil.append (plain_sendEnvelope surroundings (by simp) (by trivial) _)
  · exact plain_nil

theorem plain_sendShow (surroundings : Surroundings κ) (contexts : Contexts κ) (context : κ) (transaction : TransactionId)
    (addon : EmojiPaletteAddon κ) : Plain (sendShow surroundings contexts context transaction addon).2 :=
  plain_sendEnvelope surroundings (by simp) (by trivial) addon

theorem plain_sendCommand (surroundings : Surroundings κ) (kind : CommandKind) (text : Bytes)
    (addon : EmojiPaletteAddon κ) : Plain (sendCommand surroundings kind text addon).2 := by
  unfold EmojiPaletteAddon.sendCommand
  split
  · exact plain_nil
  · exact plain_sendEnvelope surroundings (by simp) (by trivial) _

theorem plain_handleActiveKey [DecidableEq κ] (installation : Installation) (surroundings : Surroundings κ)
    (event : KeyEvent κ) (addon : EmojiPaletteAddon κ) :
    Plain (EmojiPaletteAddon.handleActiveKey installation surroundings event addon).2 := by
  unfold EmojiPaletteAddon.handleActiveKey
  split
  · exact plain_nil
  refine plain_filtered.append ?_
  cases addon.keyRouter.route installation.fcitx event.key event.origKey event.isRelease addon.search with
  | ignore => exact plain_nil
  | command command => exact plain_sendCommand surroundings command [] _
  | search text => exact plain_nil.append (plain_sendCommand surroundings .searchText text _)

theorem plain_receiveSelected (catalog : EmojiCatalog) (surroundings : Surroundings κ) (selected : Selected)
    (addon : EmojiPaletteAddon κ) :
    Plain (EmojiPaletteAddon.receiveSelected catalog surroundings selected addon).2 := by
  unfold EmojiPaletteAddon.receiveSelected
  dsimp only
  split
  · refine (plain_committed _).append ?_
    unfold EmojiPaletteAddon.afterCommit
    split
    · exact plain_nil
    split
    · exact plain_cancel surroundings _ _ _
    split
    · exact plain_sendShow surroundings _ _ _ _
    · exact plain_cancel surroundings _ _ _
  · exact plain_nil
  · exact plain_nil
  · exact plain_cancel surroundings _ _ _

theorem plain_receiveFrame (catalog : EmojiCatalog) (surroundings : Surroundings κ) (sender : Bytes)
    (content : Option Bytes) (addon : EmojiPaletteAddon κ) :
    Plain (EmojiPaletteAddon.receiveFrame catalog surroundings sender content addon).2 := by
  unfold EmojiPaletteAddon.receiveFrame
  split
  · exact plain_nil
  split
  · exact plain_cancel surroundings _ _ _
  split
  · exact plain_cancel surroundings _ _ _
  split
  · exact plain_receiveSelected catalog surroundings _ addon
  · unfold EmojiPaletteAddon.receiveCancelled
    split
    · exact plain_cancel surroundings _ _ _
    · exact plain_nil
  · exact plain_nil

/-! ### Handlers -/

/-- What a handler says that is about the negotiation. -/
inductive Greets (surroundings : Surroundings κ) (input : Input κ) (before : EmojiPaletteAddon κ)
    (ran : EmojiPaletteAddon κ × List (Output κ)) : Prop
  | plain (hplain : Plain ran.2) (hpeer : ran.1.peer = before.peer)
      (hinput : ∀ oldOwner newOwner, input ≠ .ownerChanged oldOwner newOwner)
  /-- A negotiation begins. -/
  | greets (context : κ) (transaction : TransactionId) (hready : before.session.state ≠ .ready)
      (hsession : ran.1.session = before.session)
      (hcall : ran.1.pendingCall = some ⟨surroundings.serial, context, transaction, surroundings.nonce⟩)
      (hframes : helperFrames ran.2 = [⟨(EmojiPaletteAddon.hello surroundings).frame, some surroundings.serial⟩])
  /-- The answer that was waited for. -/
  | answered (call : PendingCall κ) (sender : Bytes) (answer : Reply) (hcall : before.pendingCall = some call)
      (hinput : input = .reply call.serial sender answer) (hplain : Plain ran.2) (hnone : ran.1.pendingCall = none)
      (hsession : ran.1.session = before.session ∨ ran.1.session.state ≠ .ready ∨
        ran.1.session.accepts sender = true ∧ ∃ frame, answer = .message (some frame))
  | ownerChanged (oldOwner newOwner : Bytes) (hinput : input = .ownerChanged oldOwner newOwner) (hplain : Plain ran.2)
      (hsession : ran.1.session = before.session ∧ (oldOwner ≠ [] → before.session.accepts oldOwner = false) ∨
        ran.1.session.state ≠ .ready)
      (hcall : ran.1.pendingCall = if newOwner.isEmpty then none else before.pendingCall)

/-- A trigger asks a session that is ready at once, and else begins a negotiation. -/
theorem greets_show (hissued : surroundings.callIssued = true) {input : Input κ}
    (hinput : ∀ oldOwner newOwner, input ≠ .ownerChanged oldOwner newOwner) (context : κ)
    (addon : EmojiPaletteAddon κ) (hnone : addon.controller.transaction = none) :
    Greets surroundings input addon (EmojiPaletteAddon.show surroundings context addon) := by
  obtain ⟨reason, hcleared⟩ := EmojiPaletteAddon.cancel_fst surroundings .user true addon
  have hcancel : (cancel surroundings .user true addon).2 = [] := by
    unfold EmojiPaletteAddon.cancel
    rw [hnone]
    rfl
  rw [EmojiPaletteAddon.show_apply, hcleared, hcancel, EmojiPaletteAddon.sendShowOrNegotiate]
  by_cases hready : addon.session.state = .ready
  · have hstate : (EmojiPaletteAddon.started surroundings context (addon.cleared reason)).session.state = .ready := hready
    rw [if_pos hstate]
    exact .plain (plain_nil.append (plain_sendShow surroundings _ _ _ _)) (EmojiPaletteAddon.sendEnvelope_peer _ _ _)
      hinput
  · have hstate : (EmojiPaletteAddon.started surroundings context (addon.cleared reason)).session.state ≠ .ready := hready
    rw [if_neg hstate, EmojiPaletteAddon.negotiate_apply, if_pos hissued]
    exact .greets context surroundings.transaction hready rfl rfl rfl

theorem greets_keyEvent [DecidableEq κ] (installation : Installation) (hissued : surroundings.callIssued = true)
    (event : KeyEvent κ) (addon : EmojiPaletteAddon κ) :
    Greets surroundings (.key event) addon (EmojiPaletteAddon.keyEvent installation surroundings event addon) := by
  unfold EmojiPaletteAddon.keyEvent
  split
  · exact .plain (plain_handleActiveKey installation surroundings event addon)
      (EmojiPaletteAddon.becomes_handleActiveKey installation surroundings event addon).peer (by simp)
  rename_i hinactive
  split
  · have hnone : addon.controller.transaction = none := by
      simpa [EmojiPaletteAddon.active, SelectionController.active] using hinactive
    have hshow : ((EmojiPaletteAddon.show surroundings event.context).andThen (Action.emit .filtered)) addon =
        ((EmojiPaletteAddon.show surroundings event.context addon).1,
          (EmojiPaletteAddon.show surroundings event.context addon).2 ++ [.filtered]) := rfl
    rw [hshow]
    cases greets_show hissued (show ∀ oldOwner newOwner, Input.key event ≠ .ownerChanged oldOwner newOwner by simp)
        event.context addon hnone with
    | plain hplain hpeer hinput => exact .plain (hplain.append plain_filtered) hpeer hinput
    | greets context transaction hready hsession hcall hframes =>
        refine .greets context transaction hready hsession hcall ?_
        rw [helperFrames_append, hframes]
        rfl
    | answered _ _ _ _ hinput => cases hinput
    | ownerChanged _ _ hinput => cases hinput
  · exact .plain plain_nil rfl (by simp)

/-! ### The negotiation's answer -/

/-- A `Welcome` makes the session its sender's, or does not make it ready. -/
theorem ready_of_welcome (session : PeerSession) (nonce : UInt64) (sender : Bytes) (welcome : Welcome) :
    let accepted := ((session.begin sender nonce addonCapabilities).1).acceptWelcome sender welcome
    accepted.1.state ≠ .ready ∨ accepted.1.accepts sender = true := by
  dsimp only
  cases haccepted : (((session.begin sender nonce addonCapabilities).1).acceptWelcome sender welcome).2 with
  | false =>
      have hbegun : (session.begin sender nonce addonCapabilities).1.state ≠ .ready := by simp [PeerSession.begin]
      exact Or.inl (PeerSession.acceptWelcome_not_ready hbegun haccepted)
  | true =>
      rw [PeerSession.acceptWelcome_ready haccepted]
      exact Or.inr (by simp [PeerSession.accepts, PeerSession.begin])

theorem greets_reply (surroundings : Surroundings κ) (serial : Nat) (sender : Bytes) (answer : Reply)
    (addon : EmojiPaletteAddon κ) : Greets surroundings (.reply serial sender answer) addon
      (EmojiPaletteAddon.reply surroundings serial sender answer addon) := by
  unfold EmojiPaletteAddon.reply
  split
  · exact .plain plain_nil rfl (by simp)
  rename_i call hcall
  split
  swap
  · exact .plain plain_nil rfl (by simp)
  rename_i hserial
  subst hserial
  have hkept : ∀ reason notifyHelper, Greets surroundings (.reply call.serial sender answer) addon
      (cancel surroundings reason notifyHelper { addon with pendingCall := none }) := by
    intro reason notifyHelper
    have hpeer := EmojiPaletteAddon.cancel_peer surroundings reason notifyHelper { addon with pendingCall := none }
    exact .answered call sender answer hcall rfl (plain_cancel surroundings _ _ _) (congrArg Prod.snd hpeer)
      (Or.inl (congrArg Prod.fst hpeer))
  unfold EmojiPaletteAddon.receiveReply
  split
  · exact .answered call sender answer hcall rfl plain_nil rfl (Or.inl rfl)
  split
  · exact hkept _ _
  · exact hkept _ _
  split
  swap
  · exact hkept _ _
  rename_i frame _ _ welcome _
  have hready := ready_of_welcome addon.session call.nonce sender welcome
  unfold EmojiPaletteAddon.receiveWelcome
  dsimp only
  generalize ((addon.session.begin sender call.nonce addonCapabilities).1).acceptWelcome sender welcome = accepted at hready ⊢
  have hwelcomed : ∀ ran : EmojiPaletteAddon κ × List (Output κ), Plain ran.2 → ran.1.peer = (accepted.1, none) →
      Greets surroundings (.reply call.serial sender (.message (some frame))) addon ran := by
    intro ran hplain hpeer
    have hsession : ran.1.session = accepted.1 := congrArg Prod.fst hpeer
    refine .answered call sender _ hcall rfl hplain (congrArg Prod.snd hpeer) (Or.inr ?_)
    rw [hsession]
    exact hready.imp_right fun haccepts => ⟨haccepts, frame, rfl⟩
  split
  · exact hwelcomed _ (plain_cancel surroundings _ _ _) (EmojiPaletteAddon.cancel_peer surroundings _ _ _)
  split
  · exact hwelcomed _ (plain_cancel surroundings _ _ _) (EmojiPaletteAddon.cancel_peer surroundings _ _ _)
  · exact hwelcomed _ (plain_sendShow surroundings _ _ _ _) (EmojiPaletteAddon.sendEnvelope_peer surroundings _ _)

theorem greets_ownerChanged (surroundings : Surroundings κ) (oldOwner newOwner : Bytes) (addon : EmojiPaletteAddon κ) :
    Greets surroundings (.ownerChanged oldOwner newOwner) addon
      (EmojiPaletteAddon.ownerChanged surroundings oldOwner newOwner addon) := by
  have hpending : ∀ lost : EmojiPaletteAddon κ × List (Output κ), lost.1.pendingCall = addon.pendingCall → Plain lost.2 →
      lost.1.session = addon.session ∧ (oldOwner ≠ [] → addon.session.accepts oldOwner = false) ∨
        lost.1.session.state ≠ .ready →
      Greets surroundings (.ownerChanged oldOwner newOwner) addon
        (if newOwner.isEmpty then { lost.1 with pendingCall := none } else lost.1, lost.2) := by
    intro lost hcall hplain hsession
    by_cases hempty : newOwner.isEmpty = true
    · refine .ownerChanged oldOwner newOwner rfl hplain ?_ ?_
      · simpa [hempty] using hsession
      · simp [hempty]
    · refine .ownerChanged oldOwner newOwner rfl hplain ?_ ?_
      · simpa [hempty] using hsession
      · simpa [hempty] using hcall
  unfold EmojiPaletteAddon.ownerChanged
  by_cases hloses : (!oldOwner.isEmpty && addon.session.accepts oldOwner) = true
  · simp only [if_pos hloses]
    have hlost : (addon.session.ownerLost oldOwner).state ≠ .ready := by
      simp only [PeerSession.accepts, Bool.and_eq_true, decide_eq_true_eq] at hloses
      simp [PeerSession.ownerLost, hloses.2.2, PeerSession.disconnect]
    have hpeer := EmojiPaletteAddon.cancel_peer surroundings .helperDisconnected false
      { addon with session := addon.session.ownerLost oldOwner }
    refine hpending _ (congrArg Prod.snd hpeer) (plain_cancel surroundings _ _ _) (Or.inr ?_)
    rw [show (cancel surroundings .helperDisconnected false
      { addon with session := addon.session.ownerLost oldOwner }).1.session = addon.session.ownerLost oldOwner from
        congrArg Prod.fst hpeer]
    exact hlost
  · simp only [if_neg hloses]
    refine hpending (addon, []) rfl plain_nil (Or.inl ⟨rfl, fun hne => ?_⟩)
    simpa [hne] using hloses

/-- All that a handler can do to the negotiation. -/
theorem greets_step [DecidableEq κ] (installation : Installation) (hissued : surroundings.callIssued = true)
    (input : Input κ) (addon : EmojiPaletteAddon κ) :
    Greets surroundings input addon (EmojiPaletteAddon.step installation surroundings input addon) := by
  cases input with
  | key event => exact greets_keyEvent installation hissued event addon
  | contextEvent context event =>
      refine .plain ?_ (EmojiPaletteAddon.becomes_contextEvent surroundings context event addon).peer (by simp)
      rw [EmojiPaletteAddon.step, EmojiPaletteAddon.contextEvent]
      split
      · exact plain_cancel surroundings _ _ _
      · exact plain_nil
  | groupChanged layout => cases layout <;> exact .plain plain_nil rfl (by simp)
  | configured config layout => cases layout <;> exact .plain plain_nil rfl (by simp)
  | ownerChanged oldOwner newOwner => exact greets_ownerChanged surroundings oldOwner newOwner addon
  | reply serial sender answer => exact greets_reply surroundings serial sender answer addon
  | frame sender content =>
      exact .plain (plain_receiveFrame installation.catalog surroundings sender content addon)
        (EmojiPaletteAddon.becomes_receiveFrame installation.catalog surroundings sender content addon).peer (by simp)

/-- A session becomes ready by the answer of its owner only. -/
theorem Greets.ready {input : Input κ} {before : EmojiPaletteAddon κ} {ran : EmojiPaletteAddon κ × List (Output κ)}
    (h : Greets surroundings input before ran)
    (hready : ran.1.session.state = .ready) : before.session.state = .ready ∨
      ∃ serial sender frame, input = .reply serial sender (.message (some frame)) ∧
        ran.1.session.accepts sender = true := by
  cases h with
  | plain _ hpeer =>
      have hsession : ran.1.session = before.session := congrArg Prod.fst hpeer
      exact Or.inl (hsession ▸ hready)
  | greets _ _ _ hsession => exact Or.inl (hsession ▸ hready)
  | answered call sender answer _ hinput _ _ hsession =>
      rcases hsession with hsession | hunready | ⟨haccepts, frame, rfl⟩
      · exact Or.inl (hsession ▸ hready)
      · exact absurd hready hunready
      · exact Or.inr ⟨call.serial, sender, frame, hinput, haccepts⟩
  | ownerChanged _ _ _ _ hsession =>
      rcases hsession with ⟨hsession, _⟩ | hunready
      · exact Or.inl (hsession ▸ hready)
      · exact absurd hready hunready

/-- A session that is not ready becomes so by an answer only. -/
theorem unready_step [DecidableEq κ] (installation : Installation) {addon : EmojiPaletteAddon κ}
    {input : EmojiPaletteAddon.Input κ} (hissued : surroundings.callIssued = true)
    (hinput : ∀ serial sender frame, input ≠ .reply serial sender (.message (some frame)))
    (hunready : addon.session.state ≠ .ready) :
    (EmojiPaletteAddon.step installation surroundings input addon).1.session.state ≠ .ready := by
  intro hready
  rcases (greets_step installation hissued input addon).ready hready with hbefore | ⟨serial, sender, frame, hanswer, _⟩
  · exact hunready hbefore
  · exact hinput serial sender frame hanswer

/-- An addon that has only begun has agreed with nobody and asks for nothing. -/
theorem initial_unready (installation : Installation) (config : EmojiPaletteConfig) (layout : Option Bytes) :
    (EmojiPaletteAddon.initial installation config layout : EmojiPaletteAddon κ).session.state ≠ .ready ∧
      (EmojiPaletteAddon.initial installation config layout : EmojiPaletteAddon κ).controller.transaction = none := by
  have hinitial : (EmojiPaletteAddon.initial installation config layout : EmojiPaletteAddon κ).session = .initial ∧
      (EmojiPaletteAddon.initial installation config layout : EmojiPaletteAddon κ).controller.transaction = none := by
    cases layout <;> exact ⟨rfl, rfl⟩
  rw [hinitial.1]
  exact ⟨by simp [PeerSession.initial], hinitial.2⟩

/-! ### Requests -/

/-- A request goes out only while the session is ready, and leaves it so. -/
theorem requests_of_not_ready [DecidableEq κ] (installation : Installation) (hsends : ∀ frame, surroundings.sends frame = true)
    (hissued : surroundings.callIssued = true) (h : addon.WellFormed)
    (hcalled : addon.session.state = .ready → addon.pendingCall = none) (input : Input κ)
    (hafter : (EmojiPaletteAddon.step installation surroundings input addon).1.session.state ≠ .ready) :
    requests (helperFrames (EmojiPaletteAddon.step installation surroundings input addon).2) = [] := by
  have hunready : ∀ {ran : EmojiPaletteAddon κ × List (Output κ)}, Stays addon ran.1 → ran.1.session.state ≠ .ready →
      connected addon = false := fun hstays hran => decide_eq_false fun hready => hran (hstays.1 ▸ hready)
  cases input with
  | key event =>
      have hconnected := hunready (stays_keyEvent installation surroundings event addon) hafter
      rcases said_keyEvent installation hsends hissued h event with hsaid | ⟨_, ask, _, hsaid⟩
      · exact congrArg Prod.snd hsaid
      · rw [hconnected] at hsaid
        exact congrArg Prod.snd hsaid
  | contextEvent context event =>
      have hconnected := hunready (stays_contextEvent surroundings context event addon) hafter
      rcases said_contextEvent hsends h context event with hsaid | ⟨_, ask, _, hsaid⟩
      · exact congrArg Prod.snd hsaid
      · rw [hconnected] at hsaid
        exact congrArg Prod.snd hsaid
  | groupChanged layout => cases layout <;> rfl
  | configured config layout => cases layout <;> rfl
  | ownerChanged oldOwner newOwner =>
      simp only [EmojiPaletteAddon.step, EmojiPaletteAddon.ownerChanged]
      have hlost : ({ addon with session := addon.session.ownerLost oldOwner } : EmojiPaletteAddon κ).WellFormed :=
        h.congr rfl rfl rfl
      have hsaid := said_cancel hsends hlost .helperDisconnected false
      split
      · exact congrArg Prod.snd hsaid
      · rfl
  | reply serial sender answer =>
      rcases said_reply hsends h hcalled serial sender answer with ⟨hsaid, _⟩ | ⟨ask, _, _, hnegotiated⟩
      · exact congrArg Prod.snd hsaid
      cases hnegotiated with
      | failed hsaid => exact congrArg Prod.snd hsaid
      | welcomed _ _ _ haccepts =>
          simp only [PeerSession.accepts, Bool.and_eq_true, decide_eq_true_eq] at haccepts
          exact absurd haccepts.1 hafter
  | frame sender content =>
      have hstays := stays_receiveFrame installation.catalog surroundings sender content addon
      have hrefused : addon.session.accepts sender = false := by
        have hconnected := of_decide_eq_false (hunready hstays hafter)
        simp [PeerSession.accepts, hconnected]
      simp [EmojiPaletteAddon.step, EmojiPaletteAddon.receiveFrame, hrefused, helperFrames]

/-! ### The helper's part -/

/-- No slot concerns the negotiation. -/
theorem negotiated_runWindow {ω : Type} {calls : WindowCalls ω} (program : WindowProgram ω) (helper : Helper ω) :
    (Helper.runWindow calls program helper).1.session.negotiated = helper.session.negotiated := by
  induction program generalizing helper with
  | done window => rfl
  | emit window signal next ih =>
      refine (ih _ _).trans ?_
      cases signal with
      | selectionRequested sequence =>
          simp only [Helper.slot, Helper.selectionRequested]
          split <;> rfl
      | cancellationRequested reason => rfl

/-- Only a greeting makes a helper one that is greeted. -/
theorem negotiated_exchanged {ω : Type} {calls : WindowCalls ω} {sender frame : Bytes} {helper : Helper ω}
    {exchange : Helper.Exchange ω} (h : Exchanged calls sender frame helper exchange)
    (hafter : exchange.helper.session.negotiated = true) : helper.session.negotiated = true ∨ Greeting frame := by
  cases h with
  | welcomed hframe => exact Or.inr ⟨_, hframe⟩
  | commanded =>
      rename_i value validator _ _ _
      exact Or.inl ((negotiated_runWindow (calls.handleCommand value helper.window)
        ⟨{ helper.session with sequenceValidator := validator }, helper.window⟩).symm.trans hafter)
  | _ => exact Or.inl hafter

/-- A helper that has not been greeted does nothing with what is no greeting. -/
theorem exchanged_unheard {calls : WindowCalls PaletteWindow} {sender frame : Bytes} {helper : Helper PaletteWindow}
    {exchange : Helper.Exchange PaletteWindow} (h : Exchanged calls sender frame helper exchange)
    (hnegotiated : helper.session.negotiated = false) (hgreeting : ¬ Greeting frame)
    (hidle : helper.session.transaction = none) : exchange.helper = helper ∧ signals exchange.effects = [] := by
  cases h with
  | ignored => exact ⟨rfl, rfl⟩
  | welcomed hframe => exact absurd ⟨_, hframe⟩ hgreeting
  | shown _ hbound => cases hnegotiated.symm.trans hbound.1
  | hidden _ hbound => cases hnegotiated.symm.trans hbound.1
  | commanded _ htransaction => cases hidle.symm.trans htransaction
  | pinged => exact ⟨rfl, rfl⟩

end System

end EmojiPalette
