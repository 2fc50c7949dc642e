import EmojiPalette.Addon.Source
import EmojiPalette.System.Abstraction

/-!
# The addon as the one who asks

What each handler of the addon comes to when every frame is sent: what it then asks for and what it has requested. Keys and configurations say nothing, and a trigger asks only when nothing is asked for. A `Show` that cannot be written, its caret being out of bounds, takes the ask back.
-/

namespace EmojiPalette

open Ipc Trace Addon Ui Handover

namespace System

open EmojiPaletteAddon (WellFormed valid_of_transaction cancel sendEnvelope sendShow sendCommand)

variable {κ : Type} {addon : EmojiPaletteAddon κ} {surroundings : Surroundings κ}

@[simp] theorem said_andThen (first second : AddonAction κ) (addon : EmojiPaletteAddon κ) :
    said (first.andThen second addon) =
      ((said (second (first addon).1)).1, (said (first addon)).2 ++ (said (second (first addon).1)).2) := by
  simp [said]

theorem said_sendEnvelope {payload : Payload} (hsends : ∀ frame, surroundings.sends frame = true)
    (hvalid : payload.Valid) (addon : EmojiPaletteAddon κ) :
    said (sendEnvelope surroundings payload addon) = (asked addon, (request payload).toList) := by
  have hwritable := (Payload.valid_iff.mp hvalid).1
  rw [EmojiPaletteAddon.sendEnvelope_of_delivers ⟨hwritable, hsends _⟩, said, requests_sent hvalid]

/-! ### Ending -/

theorem said_cancel_of_none (hnone : addon.controller.transaction = none) (reason : CancelReason) (notifyHelper : Bool) :
    said (cancel surroundings reason notifyHelper addon) = (none, []) := by
  unfold EmojiPaletteAddon.cancel
  rw [hnone]
  rfl

/-- A cancel revokes what was asked for, if the helper is to be told and can be. -/
theorem said_cancel (hsends : ∀ frame, surroundings.sends frame = true) (h : addon.WellFormed) (reason : CancelReason)
    (notifyHelper : Bool) : said (cancel surroundings reason notifyHelper addon) =
      (none, if notifyHelper && connected addon then (asked addon).toList.map fun ask => .revoke ask.id else []) := by
  rw [EmojiPaletteAddon.cancel_of_delivers fun _ htransaction => ⟨valid_of_transaction h htransaction, hsends _⟩, said,
    connected]
  cases htransaction : addon.controller.transaction with
  | none =>
      rw [asked_eq_none_iff.mpr htransaction]
      split <;> rfl
  | some transaction =>
      have hvalid : (Payload.hide ⟨transaction, reason⟩).Valid := valid_of_transaction h htransaction
      rw [asked_of_transaction htransaction]
      split
      · exact Prod.ext rfl (requests_sent hvalid)
      · rfl

/-! ### Asking -/

theorem scalePercent_within (scale : Int) :
    50 ≤ EmojiPaletteAddon.scalePercent scale ∧ EmojiPaletteAddon.scalePercent scale ≤ 400 := by
  rw [UInt16.le_iff_toNat_le, UInt16.le_iff_toNat_le, EmojiPaletteAddon.scalePercent, UInt16.toNat_ofNat']
  have hlow : (50 : UInt16).toNat = 50 := rfl
  have hhigh : (400 : UInt16).toNat = 400 := rfl
  rw [hlow, hhigh]
  omega

theorem inBounds_zero : InBounds ⟨0, 0, 0, 0⟩ := by
  constructor <;> decide

/-- A `Show` is sent, or is refused because of its caret and ends the transaction. -/
theorem sendShow_cases (hsends : ∀ frame, surroundings.sends frame = true) (contexts : Contexts κ) (context : κ)
    {transaction : TransactionId} (hvalid : transaction.Valid) (addon : EmojiPaletteAddon κ) :
    (InBounds (contexts.cursorRect context) ∧ ∃ value : Show, (Payload.show value).Valid ∧
      value.transaction = transaction ∧ value.closeAfterSelection = addon.closeAfterSelection ∧
        sendShow surroundings contexts context transaction addon = (addon, [.sent (Payload.show value).frame])) ∨
    (¬ InBounds (contexts.cursorRect context) ∧
      ∃ reason, sendShow surroundings contexts context transaction addon = (addon.cleared reason, [])) := by
  by_cases hcaret : InBounds (contexts.cursorRect context)
  · have hshow : (Payload.show ⟨transaction, contexts.cursorRect context, ⟨0, 0, 0, 0⟩, currentLocale surroundings,
        EmojiPaletteAddon.scalePercent (contexts.scale context), addon.closeAfterSelection⟩).Valid :=
      ⟨hvalid, hcaret, inBounds_zero, scalePercent_within _⟩
    have hdelivers : surroundings.Delivers _ := ⟨(Payload.valid_iff.mp hshow).1, hsends _⟩
    exact Or.inl ⟨hcaret, _, hshow, rfl, rfl, EmojiPaletteAddon.sendEnvelope_of_delivers hdelivers addon⟩
  · have hrefused : ¬ surroundings.Delivers (.show ⟨transaction, contexts.cursorRect context, ⟨0, 0, 0, 0⟩,
        currentLocale surroundings, EmojiPaletteAddon.scalePercent (contexts.scale context),
        addon.closeAfterSelection⟩) := fun hdelivers => hcaret hdelivers.1.caret
    exact Or.inr ⟨hcaret, EmojiPaletteAddon.sendEnvelope_of_not_delivers hrefused addon⟩

/-- The ask is made, or it is taken back because of the caret. -/
theorem said_sendShow (hsends : ∀ frame, surroundings.sends frame = true) (contexts : Contexts κ) (context : κ)
    {transaction : TransactionId} (hvalid : transaction.Valid) (addon : EmojiPaletteAddon κ) :
    let ran := sendShow surroundings contexts context transaction addon
    said ran = (asked addon, [.begin ⟨transaction, !addon.closeAfterSelection⟩]) ∨
      said ran = (none, []) ∧ ¬ InBounds (contexts.cursorRect context) := by
  dsimp only
  rcases sendShow_cases hsends contexts context hvalid addon with
    ⟨_, value, hshow, hsame, hcloses, hsent⟩ | ⟨hcaret, reason, hrefused⟩
  · rw [hsent, ← hsame, ← hcloses]
    exact Or.inl (Prod.ext rfl (requests_sent hshow))
  · rw [hrefused]
    exact Or.inr ⟨rfl, hcaret⟩

theorem valid_hello (surroundings : Surroundings κ) : (EmojiPaletteAddon.hello surroundings).Valid := by
  have hversion : (1 : UInt16) ≤ protocolVersion ∧ protocolVersion ≤ protocolVersion := by decide
  exact hversion

/-- A negotiation is not a request, and changes nothing in what is asked for. -/
theorem said_negotiate (hissued : surroundings.callIssued = true) (context : κ) (transaction : TransactionId)
    (addon : EmojiPaletteAddon κ) :
    said (EmojiPaletteAddon.negotiate surroundings context transaction addon) = (asked addon, []) := by
  rw [EmojiPaletteAddon.negotiate_apply, if_pos hissued, said]
  have hframes : requests (helperFrames [(.called surroundings.serial (EmojiPaletteAddon.hello surroundings).frame :
      Output κ)]) = requests [⟨(EmojiPaletteAddon.hello surroundings).frame, some surroundings.serial⟩] := rfl
  rw [hframes, requests_cons, payloadOf_frame (valid_hello surroundings)]
  rfl

/-- A show of an addon without a transaction asks, at once or after the negotiation, or takes the ask back. -/
theorem said_show (hsends : ∀ frame, surroundings.sends frame = true) (hissued : surroundings.callIssued = true)
    (h : addon.WellFormed) (hnone : asked addon = none) (context : κ) :
    let ask := ⟨surroundings.transaction, !addon.config.closeAfterSelection⟩
    let ran := EmojiPaletteAddon.show surroundings context addon
    said ran = (none, []) ∨ said ran = (some ask, if connected addon then [.begin ask] else []) := by
  obtain ⟨reason, hcleared⟩ := EmojiPaletteAddon.cancel_fst surroundings .user true addon
  have hstarted : said (EmojiPaletteAddon.show surroundings context addon) =
      said (EmojiPaletteAddon.sendShowOrNegotiate surroundings context
        (EmojiPaletteAddon.started surroundings context (addon.cleared reason))) := by
    rw [EmojiPaletteAddon.show, said_andThen, said_cancel hsends h, said_andThen, hcleared, hnone]
    simp [said, helperFrames]
  dsimp only
  rw [hstarted, EmojiPaletteAddon.sendShowOrNegotiate, connected]
  by_cases hready : addon.session.state = .ready
  · have hstate : (EmojiPaletteAddon.started surroundings context (addon.cleared reason)).session.state = .ready :=
      hready
    rw [if_pos hstate, if_pos (decide_eq_true hready)]
    rcases said_sendShow hsends surroundings.contexts context surroundings.transaction_valid
        (EmojiPaletteAddon.started surroundings context (addon.cleared reason)) with hasks | ⟨hrefused, _⟩
    · exact Or.inr hasks
    · exact Or.inl hrefused
  · have hstate : (EmojiPaletteAddon.started surroundings context (addon.cleared reason)).session.state ≠ .ready :=
      hready
    rw [if_neg hstate, if_neg (by simpa using hready)]
    exact Or.inr (said_negotiate hissued _ _ _)

/-! ### The session -/

/-- The session is as it was, and a session that is ready has no new call. -/
def Stays (before after : EmojiPaletteAddon κ) : Prop :=
  after.session = before.session ∧ (before.session.state = .ready → after.pendingCall = before.pendingCall)

theorem stays_of_peer {before after : EmojiPaletteAddon κ} (h : after.peer = before.peer) : Stays before after :=
  ⟨congrArg Prod.fst h, fun _ => congrArg Prod.snd h⟩

theorem Stays.connected {before after : EmojiPaletteAddon κ} (h : Stays before after) :
    connected after = System.connected before := by
  rw [System.connected, System.connected, h.1]

theorem stays_keyEvent [DecidableEq κ] (installation : Installation) (surroundings : Surroundings κ)
    (event : KeyEvent κ) (addon : EmojiPaletteAddon κ) :
    Stays addon (EmojiPaletteAddon.keyEvent installation surroundings event addon).1 := by
  rcases EmojiPaletteAddon.keyEvent_cases installation surroundings event addon with
    hbecomes | ⟨pendingCall, hready, hbegun⟩ | ⟨reason, hfailed⟩
  · exact stays_of_peer hbecomes.peer
  · rw [hbegun]
    exact ⟨rfl, hready⟩
  · rw [hfailed]
    exact stays_of_peer rfl

theorem stays_contextEvent [DecidableEq κ] (surroundings : Surroundings κ) (context : κ) (event : ContextEvent)
    (addon : EmojiPaletteAddon κ) : Stays addon (EmojiPaletteAddon.contextEvent surroundings context event addon).1 :=
  stays_of_peer (EmojiPaletteAddon.becomes_contextEvent surroundings context event addon).peer

theorem stays_receiveFrame (catalog : EmojiCatalog) (surroundings : Surroundings κ) (sender : Bytes)
    (content : Option Bytes) (addon : EmojiPaletteAddon κ) :
    Stays addon (EmojiPaletteAddon.receiveFrame catalog surroundings sender content addon).1 :=
  stays_of_peer (EmojiPaletteAddon.becomes_receiveFrame catalog surroundings sender content addon).peer

/-! ### Keys and contexts -/

theorem said_sendCommand (hsends : ∀ frame, surroundings.sends frame = true) (h : addon.WellFormed)
    (kind : CommandKind) {text : Bytes} (htext : TextWithin 256 text) (hkind : kind ≠ .searchText → text = []) :
    said (sendCommand surroundings kind text addon) = (asked addon, []) := by
  unfold EmojiPaletteAddon.sendCommand
  split
  · rfl
  · rename_i transaction htransaction
    have hcommand : (Payload.command ⟨transaction, addon.commandSequence + 1, kind, text⟩).Valid :=
      ⟨valid_of_transaction h htransaction, htext, hkind⟩
    exact said_sendEnvelope hsends hcommand _

/-- Keys for the active transaction say nothing. Any other key is the trigger, or nothing at all. -/
theorem said_keyEvent [DecidableEq κ] (installation : Installation) (hsends : ∀ frame, surroundings.sends frame = true)
    (hissued : surroundings.callIssued = true) (h : addon.WellFormed) (event : KeyEvent κ) :
    let ran := EmojiPaletteAddon.keyEvent installation surroundings event addon
    said ran = (asked addon, []) ∨
      asked addon = none ∧ ∃ ask, ask.id = surroundings.transaction ∧
        said ran = (some ask, if connected addon then [.begin ask] else []) := by
  dsimp only
  unfold EmojiPaletteAddon.keyEvent
  split
  · refine Or.inl ?_
    unfold EmojiPaletteAddon.handleActiveKey
    split
    · rfl
    rw [said_andThen, Action.emit_apply]
    cases hroute : addon.keyRouter.route installation.fcitx event.key event.origKey event.isRelease addon.search with
    | ignore => rfl
    | command command =>
        have hcommand := said_sendCommand hsends h command EmojiPaletteAddon.textWithin_nil fun _ => rfl
        rw [EmojiPaletteAddon.followRoute, hcommand]
        rfl
    | search text =>
        have htext := ActiveKeyRouter.textWithin_of_route h.search hroute
        have hcommand := said_sendCommand hsends (h.withSearch htext) .searchText htext fun hne => absurd rfl hne
        rw [EmojiPaletteAddon.followRoute, said_andThen, Action.update_apply, hcommand]
        rfl
  rename_i hinactive
  split
  · have hnone : asked addon = none := by
      rw [asked_eq_none_iff]
      simpa [EmojiPaletteAddon.active, SelectionController.active] using hinactive
    have hshow : said ((EmojiPaletteAddon.show surroundings event.context).andThen (Action.emit .filtered) addon) =
        said (EmojiPaletteAddon.show surroundings event.context addon) := by
      rw [said_andThen]
      exact Prod.ext rfl (List.append_nil _)
    rw [hshow]
    rcases said_show hsends hissued h hnone event.context with hnothing | hasks
    · exact Or.inl (hnothing.trans (by rw [hnone]))
    · exact Or.inr ⟨hnone, _, rfl, hasks⟩
  · exact Or.inl rfl

/-- An event of the context that is asked for takes the ask back. -/
theorem said_contextEvent [DecidableEq κ] (hsends : ∀ frame, surroundings.sends frame = true) (h : addon.WellFormed)
    (context : κ) (event : ContextEvent) :
    let ran := EmojiPaletteAddon.contextEvent surroundings context event addon
    said ran = (asked addon, []) ∨ surroundings.contexts.get addon.origin = some context ∧
      ∃ ask, asked addon = some ask ∧ said ran = (none, if connected addon then [.revoke ask.id] else []) := by
  dsimp only
  unfold EmojiPaletteAddon.contextEvent
  split
  · rename_i horigin
    refine Or.inr ⟨horigin, ?_⟩
    cases h.source with
    | idle _ hnone =>
        rw [hnone] at horigin
        cases horigin
    | active transaction _ htransaction =>
        have hasked := asked_of_transaction htransaction
        refine ⟨_, hasked, ?_⟩
        rw [said_cancel hsends h, hasked]
        rfl
  · exact Or.inl rfl

/-! ### The negotiation's answer -/

/-- What can become of the ask that waits for the negotiation. -/
inductive Negotiated (sender : Bytes) (answer : Reply) (ask : Ask TransactionId)
    (ran : EmojiPaletteAddon κ × List (Output κ)) : Prop
  | failed (hsaid : said ran = (none, [])) (hconnected : connected ran.1 = false)
  | welcomed {frame : Bytes} {welcome : Welcome} (requests : List (Request TransactionId))
      (hanswer : answer = .message (some frame)) (hframe : payloadOf frame = some (.welcome welcome))
      (haccepts : ran.1.session.accepts sender = true) (hcall : ran.1.pendingCall = none)
      (hsaid : said ran = (some ask, [.begin ask]) ∨
        said ran = (none, requests) ∧ (requests = [] ∨ requests = [.revoke ask.id]))

/-- A cancel before the session is ready asks nothing and revokes nothing. -/
theorem failed_cancel (hsends : ∀ frame, surroundings.sends frame = true) (h : addon.WellFormed)
    (hconnected : connected addon = false) (reason : CancelReason) (notifyHelper : Bool) {sender : Bytes}
    {answer : Reply} {ask : Ask TransactionId} :
    Negotiated sender answer ask (cancel surroundings reason notifyHelper addon) := by
  have hstays := stays_of_peer (EmojiPaletteAddon.cancel_peer surroundings reason notifyHelper addon)
  refine .failed ?_ (hstays.connected.trans hconnected)
  rw [said_cancel hsends h, hconnected, Bool.and_false]
  rfl

theorem negotiated_receiveWelcome (hsends : ∀ frame, surroundings.sends frame = true) (h : addon.WellFormed)
    {call : PendingCall κ} {sender frame : Bytes} {welcome : Welcome}
    (htransaction : addon.controller.transaction = some call.transaction) (hcall : addon.pendingCall = none)
    (hframe : payloadOf frame = some (.welcome welcome)) :
    Negotiated sender (.message (some frame)) ⟨call.transaction, !addon.closeAfterSelection⟩
      (EmojiPaletteAddon.receiveWelcome surroundings call sender welcome addon) := by
  unfold EmojiPaletteAddon.receiveWelcome
  dsimp only
  have hnegotiated : ∀ session, ({ addon with session := session } : EmojiPaletteAddon κ).WellFormed :=
    fun _ => h.congr rfl rfl rfl
  split
  · rename_i hrefused
    have hbegun : (addon.session.begin sender call.nonce addonCapabilities).1.state ≠ .ready := by
      simp [PeerSession.begin]
    have hready := PeerSession.acceptWelcome_not_ready hbegun (by simpa using hrefused)
    exact failed_cancel hsends (hnegotiated _) (decide_eq_false hready) _ _
  rename_i haccepted
  have hready : (((addon.session.begin sender call.nonce addonCapabilities).1).acceptWelcome sender welcome).1.accepts
      sender = true := by
    rw [PeerSession.acceptWelcome_ready (by simpa using haccepted)]
    simp [PeerSession.accepts, PeerSession.begin]
  generalize (((addon.session.begin sender call.nonce addonCapabilities).1).acceptWelcome sender welcome).1 = session
    at hready
  have haccepts : ∀ after : EmojiPaletteAddon κ, after.peer = (session, addon.pendingCall) →
      after.session.accepts sender = true ∧ after.pendingCall = none := by
    intro after hpeer
    rw [show after.session = session from congrArg Prod.fst hpeer]
    exact ⟨hready, (congrArg Prod.snd hpeer).trans hcall⟩
  have hstate : session.state = .ready := by
    simp only [PeerSession.accepts, Bool.and_eq_true, decide_eq_true_eq] at hready
    exact hready.1
  split
  · have hcancelled := EmojiPaletteAddon.cancel_peer surroundings .focusLost true { addon with session := session }
    obtain ⟨hpeer, hnone⟩ := haccepts _ hcancelled
    refine .welcomed [.revoke call.transaction] rfl hframe hpeer hnone (Or.inr ⟨?_, Or.inr rfl⟩)
    rw [said_cancel hsends (hnegotiated _)]
    simp [connected, hstate, asked, htransaction]
  have hsent : (sendShow surroundings surroundings.contexts call.context call.transaction
      { addon with session := session }).1.peer = (session, addon.pendingCall) :=
    EmojiPaletteAddon.sendEnvelope_peer _ _ _
  obtain ⟨hpeer, hnone⟩ := haccepts _ hsent
  refine .welcomed [] rfl hframe hpeer hnone ?_
  rcases said_sendShow hsends surroundings.contexts call.context (valid_of_transaction h htransaction)
      { addon with session := session } with hasks | ⟨hrefused, _⟩
  · refine Or.inl ?_
    rw [hasks]
    simp [asked, htransaction]
  · exact Or.inr ⟨hrefused, Or.inl rfl⟩

/-- An answer to a call either is none that is waited for, or decides what becomes of the ask. -/
theorem said_reply (hsends : ∀ frame, surroundings.sends frame = true) (h : addon.WellFormed)
    (hcalled : addon.session.state = .ready → addon.pendingCall = none) (serial : Nat) (sender : Bytes) (answer : Reply) :
    let ran := EmojiPaletteAddon.reply surroundings serial sender answer addon
    (said ran = (asked addon, []) ∧ Stays addon ran.1) ∨
      ∃ ask, asked addon = some ask ∧ connected addon = false ∧ Negotiated sender answer ask ran := by
  dsimp only
  unfold EmojiPaletteAddon.reply
  cases hcall : addon.pendingCall with
  | none => exact Or.inl ⟨rfl, stays_of_peer rfl⟩
  | some call =>
      have hconnected : connected addon = false := by
        refine decide_eq_false fun hready => ?_
        cases hcall.symm.trans (hcalled hready)
      dsimp only
      split
      · unfold EmojiPaletteAddon.receiveReply
        split
        · refine Or.inl ⟨rfl, rfl, fun hready => ?_⟩
          cases hcall.symm.trans (hcalled hready)
        rename_i hsame
        have htransaction : addon.controller.transaction = some call.transaction := not_not.mp hsame
        have hanswered : ({ addon with pendingCall := none } : EmojiPaletteAddon κ).WellFormed := h.congr rfl rfl rfl
        refine Or.inr ⟨_, asked_of_transaction htransaction, hconnected, ?_⟩
        split
        · exact failed_cancel hsends hanswered hconnected _ _
        · exact failed_cancel hsends hanswered hconnected _ _
        split
        · rename_i frame _ version welcome hparsed
          refine negotiated_receiveWelcome hsends hanswered htransaction rfl ?_
          rw [payloadOf, hparsed, Option.map_some]
        · exact failed_cancel hsends hanswered hconnected _ _
      · exact Or.inl ⟨rfl, stays_of_peer rfl⟩

/-! ### Frames of the helper -/

/-- Nobody listens before the session is ready. -/
theorem frame_of_unready [DecidableEq κ] {installation : Installation} (hunready : addon.session.state ≠ .ready)
    (sender : Bytes) (content : Option Bytes) :
    EmojiPaletteAddon.step installation surroundings (.frame sender content) addon = (addon, []) := by
  have hrefused : addon.session.accepts sender = false := by simp [PeerSession.accepts, hunready]
  simp [EmojiPaletteAddon.step, EmojiPaletteAddon.receiveFrame, hrefused]

theorem receiveFrame_of_accepts {catalog : EmojiCatalog} {sender : Bytes}
    (haccepts : addon.session.accepts sender = true) (payload : Payload) (hvalid : payload.Valid) :
    EmojiPaletteAddon.receiveFrame catalog surroundings sender (some payload.frame) addon =
      match payload with
      | .selected selected => EmojiPaletteAddon.receiveSelected catalog surroundings selected addon
      | .cancelled cancelled => EmojiPaletteAddon.receiveCancelled surroundings cancelled addon
      | _ => (addon, []) := by
  unfold EmojiPaletteAddon.receiveFrame
  rw [haccepts]
  simp only [Bool.not_true, Bool.false_eq_true, if_false, parse_payload_frame hvalid]
  cases payload <;> rfl

theorem said_receiveCancelled (hsends : ∀ frame, surroundings.sends frame = true) (h : addon.WellFormed)
    (cancelled : Cancelled) : said (EmojiPaletteAddon.receiveCancelled surroundings cancelled addon) =
      if addon.controller.transaction = some cancelled.transaction then (none, []) else (asked addon, []) := by
  unfold EmojiPaletteAddon.receiveCancelled
  split
  · rw [said_cancel hsends h]
    rfl
  · rfl

/-- The context lives and has the focus. -/
def Focused (contexts : Contexts κ) (origin : Option κ) : Prop :=
  ∃ context, origin = some context ∧ contexts.focused context = true

/-- The context lives and has the focus, and its caret can be told. -/
def Lasts (contexts : Contexts κ) (origin : Option κ) : Prop :=
  ∃ context, origin = some context ∧ contexts.focused context = true ∧ InBounds (contexts.cursorRect context)

/-- After a commit the next ask follows, or none. -/
theorem said_afterCommit (hsends : ∀ frame, surroundings.sends frame = true)
    (hended : addon.controller.transaction = none) :
    let ask := ⟨surroundings.transaction, !addon.closeAfterSelection⟩
    let ran := EmojiPaletteAddon.afterCommit surroundings addon
    said ran = (some ask, [.begin ask]) ∨
      said ran = (none, []) ∧ (addon.closeAfterSelection = false → ¬ Lasts surroundings.afterCommit addon.origin) := by
  dsimp only
  unfold EmojiPaletteAddon.afterCommit
  split
  · rename_i hcloses
    refine Or.inr ⟨?_, fun hopen => ?_⟩
    · exact Prod.ext (asked_eq_none_iff.mpr hended) rfl
    · cases hcloses.symm.trans hopen
  cases hget : surroundings.afterCommit.get addon.origin with
  | none =>
      refine Or.inr ⟨said_cancel_of_none hended _ _, fun _ => ?_⟩
      intro h
      obtain ⟨context, horigin, hfocused, _⟩ := h
      simp only [Contexts.focused, Bool.and_eq_true] at hfocused
      simp [Contexts.get, horigin, hfocused.1] at hget
  | some context =>
      obtain ⟨horigin, halive⟩ := Option.filter_eq_some_iff.mp hget
      have hunfocused : ¬ (surroundings.afterCommit.hasFocus context = true ∧
          InBounds (surroundings.afterCommit.cursorRect context)) → ¬ Lasts surroundings.afterCommit addon.origin := by
        rintro hnot ⟨other, hother, hfocused, hcaret⟩
        cases horigin.symm.trans hother
        simp only [Contexts.focused, Bool.and_eq_true] at hfocused
        exact hnot ⟨hfocused.2, hcaret⟩
      dsimp only
      split
      · rename_i hfocus
        rcases said_sendShow hsends surroundings.afterCommit context surroundings.transaction_valid
            { addon with controller := .begin surroundings.transaction context, commandSequence := 0 } with
          hasks | ⟨hrefused, hcaret⟩
        · exact Or.inl hasks
        · exact Or.inr ⟨hrefused, fun _ => hunfocused fun h => hcaret h.2⟩
      · rename_i hfocus
        exact Or.inr ⟨said_cancel_of_none hended _ _, fun _ => hunfocused fun h => hfocus h.1⟩

/-- The choice for what is asked for ends it, and the next ask follows if there is somebody left to ask. -/
theorem said_receiveSelected (catalog : EmojiCatalog) (hsends : ∀ frame, surroundings.sends frame = true)
    (h : addon.WellFormed) {selected : Selected} (htransaction : addon.controller.transaction = some selected.transaction) :
    let ask := ⟨surroundings.transaction, !addon.closeAfterSelection⟩
    let ran := EmojiPaletteAddon.receiveSelected catalog surroundings selected addon
    said ran = (some ask, [.begin ask]) ∨
      said ran = (none, []) ∧ (addon.closeAfterSelection = false →
        SelectionController.validSelection catalog selected.sequence = true →
        Focused surroundings.contexts addon.origin → ¬ Lasts surroundings.afterCommit addon.origin) := by
  dsimp only
  unfold EmojiPaletteAddon.receiveSelected
  rcases SelectionController.select_cases catalog surroundings.contexts.targets selected addon.controller with
    ⟨target, _, _, _, _, _, hselect⟩ | ⟨_, _, hnone, _⟩ | ⟨target, _, _, hresult, _, htarget, hrefused, hselect⟩
  · rw [hselect]
    have hended : ({ addon with controller := .initial } : EmojiPaletteAddon κ).controller.transaction = none := rfl
    rcases said_afterCommit hsends hended with hasks | ⟨hends, hlast⟩
    · exact Or.inl hasks
    · exact Or.inr ⟨hends, fun hopen _ _ => hlast hopen⟩
  · cases h.source with
    | idle hidle => cases hidle.symm.trans htransaction
    | active _ _ _ hsome => cases (hnone htransaction).symm.trans hsome
  · refine Or.inr ⟨?_, fun _ hvalid hfocused => ?_⟩
    · rw [hselect]
      rcases hresult with rfl | rfl | rfl <;> exact said_cancel_of_none rfl _ _
    -- The target is the origin, so what was refused is not the selection.
    · obtain ⟨context, horigin, hfocus⟩ := hfocused
      have halive : surroundings.contexts.alive context = true := by
        simp only [Contexts.focused, Bool.and_eq_true] at hfocus
        exact hfocus.1
      cases h.source with
      | idle hidle => cases hidle.symm.trans htransaction
      | active _ other _ hsome hother =>
          obtain rfl := Option.some.inj (hother.symm.trans horigin)
          obtain rfl := Option.some.inj (hsome.symm.trans htarget)
          cases (hrefused halive hfocus).symm.trans hvalid

/-- A choice for something else changes nothing. -/
theorem said_receiveSelected_of_ne (catalog : EmojiCatalog) {selected : Selected}
    (hother : addon.controller.transaction ≠ some selected.transaction) :
    said (EmojiPaletteAddon.receiveSelected catalog surroundings selected addon) = (asked addon, []) := by
  unfold EmojiPaletteAddon.receiveSelected
  rcases SelectionController.select_cases catalog surroundings.contexts.targets selected addon.controller with
    ⟨_, hsame, _⟩ | ⟨result, hresult, _, hselect⟩ | ⟨_, _, _, _, hsame, _⟩
  · exact absurd hsame hother
  · rcases hresult with rfl | rfl <;> rw [hselect] <;> rfl
  · exact absurd hsame hother

end System

end EmojiPalette
