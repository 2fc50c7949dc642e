import EmojiPalette.Addon.KeyRouter
import EmojiPalette.Ipc.Session
import EmojiPalette.Library.Trace
import EmojiPalette.Runtime.SelectionController

/-!
# The addon

The addon starts a transaction when the trigger is pressed, negotiates with the helper if it has to, forwards keys as commands, and commits what the helper answers. It runs on one event loop: each handler runs to its end before the next. What a handler finds outside the addon, and the random numbers it draws, are its `Surroundings`; what it does outside is its list of outputs.
-/

namespace EmojiPalette

open Ipc Trace

namespace Addon

/-! ### Surroundings -/

/-- The input contexts at one moment. `scale` is the scale factor in percent, cut to an integer. -/
structure Contexts (κ : Type) where
  alive : κ → Bool
  hasFocus : κ → Bool
  cursorRect : κ → Rect
  scale : κ → Int

namespace Contexts

variable {κ : Type}

/-- What a tracked reference gives: the context, as long as it lives. -/
def get (contexts : Contexts κ) (reference : Option κ) : Option κ := reference.filter contexts.alive

def focused (contexts : Contexts κ) (context : κ) : Bool := contexts.alive context && contexts.hasFocus context

def targets (contexts : Contexts κ) : CommitTargets κ := ⟨contexts.alive, contexts.focused⟩

end Contexts

/-- What one run of a handler finds and draws. A commit may change the contexts. A transaction is drawn until it is not all zeros. A call that cannot be issued leaves no slot behind. -/
structure Surroundings (κ : Type) where
  contexts : Contexts κ
  afterCommit : Contexts κ
  lcAll : Option Bytes
  lcMessages : Option Bytes
  lang : Option Bytes
  transaction : TransactionId
  transaction_valid : transaction.Valid
  nonce : UInt64
  serial : Nat
  sends : Bytes → Bool
  callIssued : Bool

/-- The payload can be written, and the bus takes its frame. -/
def Surroundings.Delivers {κ : Type} (surroundings : Surroundings κ) (payload : Payload) : Prop :=
  payload.Writable ∧ surroundings.sends payload.frame = true

/-- What stays the same while the addon runs. -/
structure Installation where
  catalog : EmojiCatalog
  fcitx : FcitxKeys
  xkb : Xkb

/-- The value of the first variable that is set and not empty, or of the last. -/
def localeName (lcAll lcMessages lang : Option Bytes) : Bytes :=
  if (lcAll.getD []).isEmpty then
    if (lcMessages.getD []).isEmpty then lang.getD [] else lcMessages.getD []
  else lcAll.getD []

def currentLocale {κ : Type} (surroundings : Surroundings κ) : Locale :=
  let name := localeName surroundings.lcAll surroundings.lcMessages surroundings.lang
  if [100, 101].isPrefixOf name then .german
  else if [114, 117].isPrefixOf name then .russian
  else .english

/-! ### The state -/

/-- `PointerSelection` and `LocalizedSearch`. -/
def addonCapabilities : UInt32 := 1 ||| 4

structure EmojiPaletteConfig where
  triggerKey : List Key
  closeAfterSelection : Bool
  deriving DecidableEq

/-- `Super+period`, and the palette closes after a selection. -/
def EmojiPaletteConfig.default : EmojiPaletteConfig := ⟨[⟨0x2E, 64, 0⟩], true⟩

/-- The negotiation that has not been answered, with what its callback has captured. -/
structure PendingCall (κ : Type) where
  serial : Nat
  context : κ
  transaction : TransactionId
  nonce : UInt64
  deriving DecidableEq

structure EmojiPaletteAddon (κ : Type) where
  config : EmojiPaletteConfig
  pendingCall : Option (PendingCall κ)
  controller : SelectionController κ
  shortcutMatcher : ShortcutMatcher
  keyRouter : ActiveKeyRouter
  session : PeerSession
  origin : Option κ
  commandSequence : UInt32
  search : Bytes
  closeAfterSelection : Bool
  deriving DecidableEq

/-- What a handler does outside the addon: a key event filtered and accepted, a frame sent without waiting, a frame sent as a call, a text committed. -/
inductive Output (κ : Type)
  | filtered
  | sent (frame : Bytes)
  | called (serial : Nat) (frame : Bytes)
  | committed (context : κ) (sequence : Bytes)
  deriving DecidableEq

abbrev AddonAction (κ : Type) := Action (EmojiPaletteAddon κ) (Output κ)

structure KeyEvent (κ : Type) where
  context : κ
  key : Key
  origKey : Key
  isRelease : Bool

inductive ContextEvent
  | focusOut
  | reset
  | switchInputMethod
  | destroyed
  deriving DecidableEq

def ContextEvent.reason : ContextEvent → CancelReason
  | .focusOut => .focusLost
  | .reset => .contextReset
  | .switchInputMethod => .inputMethodChanged
  | .destroyed => .contextDestroyed

/-- The answer to a call: an error, a timeout among them, or a message that may hold a frame. -/
inductive Reply
  | error
  | message (frame : Option Bytes)
  deriving DecidableEq

namespace EmojiPaletteAddon

variable {κ : Type}

def active (addon : EmojiPaletteAddon κ) : Bool := addon.controller.active

/-! ### Ending a transaction -/

/-- What `cancel` does to the addon itself. -/
def cleared (reason : CancelReason) (addon : EmojiPaletteAddon κ) : EmojiPaletteAddon κ :=
  { addon with controller := .cancel reason, origin := none, search := [], commandSequence := 0 }

def clear (reason : CancelReason) : AddonAction κ := Action.update (cleared reason)

/-- An envelope that cannot be written or sent ends the transaction, and the helper is not told. -/
def sendEnvelope (surroundings : Surroundings κ) (payload : Payload) : AddonAction κ :=
  match serialize ⟨protocolVersion, payload⟩ with
  | none => clear .protocolError
  | some frame => if surroundings.sends frame then Action.emit (.sent frame) else clear .helperDisconnected

def cancel (surroundings : Surroundings κ) (reason : CancelReason) (notifyHelper : Bool) : AddonAction κ :=
  fun addon =>
    match addon.controller.transaction with
    | none => clear reason addon
    | some transaction =>
        if notifyHelper && addon.session.state = .ready then
          (clear reason).andThen (sendEnvelope surroundings (.hide ⟨transaction, reason⟩)) addon
        else clear reason addon

/-! ### Starting a transaction -/

/-- `std::clamp` to what the protocol allows. -/
def scalePercent (scale : Int) : UInt16 := UInt16.ofNat (max 50 (min scale 400)).toNat

def sendShow (surroundings : Surroundings κ) (contexts : Contexts κ) (context : κ) (transaction : TransactionId) :
    AddonAction κ := fun addon =>
  sendEnvelope surroundings (.show ⟨transaction, contexts.cursorRect context, ⟨0, 0, 0, 0⟩,
    currentLocale surroundings, scalePercent (contexts.scale context), addon.closeAfterSelection⟩) addon

def callExchange (surroundings : Surroundings κ) (payload : Payload) (call : PendingCall κ) : AddonAction κ :=
  match serialize ⟨protocolVersion, payload⟩ with
  | none => clear .protocolError
  | some frame => fun addon =>
      if surroundings.callIssued then ({ addon with pendingCall := some call }, [.called call.serial frame])
      else ({ addon with pendingCall := none }, [])

def hello (surroundings : Surroundings κ) : Payload :=
  .hello ⟨protocolVersion, protocolVersion, surroundings.nonce, addonCapabilities⟩

def negotiate (surroundings : Surroundings κ) (context : κ) (transaction : TransactionId) : AddonAction κ :=
  callExchange surroundings (hello surroundings) ⟨surroundings.serial, context, transaction, surroundings.nonce⟩

/-- The addon with a transaction begun for the context that asked for it. -/
def started (surroundings : Surroundings κ) (context : κ) (addon : EmojiPaletteAddon κ) : EmojiPaletteAddon κ :=
  { addon with
    origin := some context
    closeAfterSelection := addon.config.closeAfterSelection
    controller := .begin surroundings.transaction context
    search := []
    commandSequence := 0 }

def sendShowOrNegotiate (surroundings : Surroundings κ) (context : κ) : AddonAction κ := fun addon =>
  if addon.session.state = .ready then
    sendShow surroundings surroundings.contexts context surroundings.transaction addon
  else negotiate surroundings context surroundings.transaction addon

def «show» (surroundings : Surroundings κ) (context : κ) : AddonAction κ :=
  (cancel surroundings .user true).andThen
    ((Action.update (started surroundings context)).andThen (sendShowOrNegotiate surroundings context))

/-! ### The negotiation's answer -/

def receiveWelcome (surroundings : Surroundings κ) (call : PendingCall κ) (sender : Bytes) (welcome : Welcome) :
    AddonAction κ := fun addon =>
  let accepted := ((addon.session.begin sender call.nonce addonCapabilities).1).acceptWelcome sender welcome
  let negotiated := { addon with session := accepted.1 }
  if !accepted.2 then cancel surroundings .protocolError true negotiated
  else if !surroundings.contexts.focused call.context then cancel surroundings .focusLost true negotiated
  else sendShow surroundings surroundings.contexts call.context call.transaction negotiated

/-- The callback of a negotiation. -/
def receiveReply (surroundings : Surroundings κ) (call : PendingCall κ) (sender : Bytes) (reply : Reply) :
    AddonAction κ := fun addon =>
  if addon.controller.transaction ≠ some call.transaction then (addon, [])
  else match reply with
    | .error => cancel surroundings .helperDisconnected false addon
    | .message none => cancel surroundings .protocolError true addon
    | .message (some frame) =>
        match (parse frame).envelope with
        | some ⟨_, .welcome welcome⟩ => receiveWelcome surroundings call sender welcome addon
        | _ => cancel surroundings .protocolError true addon

/-- An answer finds its callback only as long as the slot of its call is kept. -/
def reply (surroundings : Surroundings κ) (serial : Nat) (sender : Bytes) (reply : Reply) : AddonAction κ :=
  fun addon =>
    match addon.pendingCall with
    | none => (addon, [])
    | some call =>
        if call.serial = serial then
          receiveReply surroundings call sender reply { addon with pendingCall := none }
        else (addon, [])

/-! ### Commands -/

def sendCommand (surroundings : Surroundings κ) (kind : CommandKind) (text : Bytes) : AddonAction κ :=
  fun addon =>
    match addon.controller.transaction with
    | none => (addon, [])
    | some transaction =>
        sendEnvelope surroundings (.command ⟨transaction, addon.commandSequence + 1, kind, text⟩)
          { addon with commandSequence := addon.commandSequence + 1 }

def followRoute (surroundings : Surroundings κ) : KeyRoute → AddonAction κ
  | .ignore => Action.skip
  | .command command => sendCommand surroundings command []
  | .search text =>
      (Action.update fun addon => { addon with search := text }).andThen
        (sendCommand surroundings .searchText text)

/-- Every key on the source context is filtered, whatever it does. -/
def handleActiveKey [DecidableEq κ] (installation : Installation) (surroundings : Surroundings κ)
    (event : KeyEvent κ) : AddonAction κ := fun addon =>
  if !addon.active || surroundings.contexts.get addon.origin ≠ some event.context then (addon, [])
  else (Action.emit .filtered).andThen (followRoute surroundings (addon.keyRouter.route installation.fcitx event.key
    event.origKey event.isRelease addon.search)) addon

/-- The press of a key that is a trigger. -/
def triggers (installation : Installation) (event : KeyEvent κ) (addon : EmojiPaletteAddon κ) : Bool :=
  !event.isRelease && addon.shortcutMatcher.matches installation.fcitx event.key event.origKey

def keyEvent [DecidableEq κ] (installation : Installation) (surroundings : Surroundings κ) (event : KeyEvent κ) :
    AddonAction κ := fun addon =>
  if addon.active then handleActiveKey installation surroundings event addon
  else if addon.triggers installation event then
    («show» surroundings event.context).andThen (Action.emit .filtered) addon
  else (addon, [])

/-! ### Frames of the helper -/

/-- After a commit: the end, or the next transaction of a context that still has the focus. -/
def afterCommit (surroundings : Surroundings κ) : AddonAction κ := fun addon =>
  if addon.closeAfterSelection then ({ addon with origin := none }, [])
  else match surroundings.afterCommit.get addon.origin with
    | none => cancel surroundings .focusLost true addon
    | some context =>
        if surroundings.afterCommit.hasFocus context then
          sendShow surroundings surroundings.afterCommit context surroundings.transaction
            { addon with controller := .begin surroundings.transaction context, commandSequence := 0 }
        else cancel surroundings .focusLost true addon

def receiveSelected (catalog : EmojiCatalog) (surroundings : Surroundings κ) (selected : Selected) :
    AddonAction κ := fun addon =>
  let selection := addon.controller.select catalog surroundings.contexts.targets selected
  let ended := { addon with controller := selection.controller }
  match selection.result with
  | .committed =>
      ((afterCommit surroundings ended).1,
        (selection.commit.toList.map fun commit => .committed commit.1 commit.2) ++ (afterCommit surroundings ended).2)
  | .transactionMismatch | .inactive => (ended, [])
  | _ => cancel surroundings .protocolError true ended

def receiveCancelled (surroundings : Surroundings κ) (cancelled : Cancelled) : AddonAction κ := fun addon =>
  if addon.controller.transaction = some cancelled.transaction then
    cancel surroundings cancelled.reason false addon
  else (addon, [])

def receiveFrame (catalog : EmojiCatalog) (surroundings : Surroundings κ) (sender : Bytes) (content : Option Bytes) :
    AddonAction κ := fun addon =>
  if !addon.session.accepts sender then (addon, [])
  else match content with
    | none => cancel surroundings .protocolError true addon
    | some frame =>
        match (parse frame).envelope with
        | none => cancel surroundings .protocolError true addon
        | some envelope =>
            match envelope.payload with
            | .selected selected => receiveSelected catalog surroundings selected addon
            | .cancelled cancelled => receiveCancelled surroundings cancelled addon
            | _ => (addon, [])

/-! ### The other handlers -/

def contextEvent [DecidableEq κ] (surroundings : Surroundings κ) (context : κ) (event : ContextEvent) :
    AddonAction κ := fun addon =>
  if surroundings.contexts.get addon.origin = some context then cancel surroundings event.reason true addon
  else (addon, [])

/-- The service watcher. -/
def ownerChanged (surroundings : Surroundings κ) (oldOwner newOwner : Bytes) : AddonAction κ := fun addon =>
  let lost :=
    if !oldOwner.isEmpty && addon.session.accepts oldOwner then
      cancel surroundings .helperDisconnected false { addon with session := addon.session.ownerLost oldOwner }
    else (addon, [])
  (if newOwner.isEmpty then { lost.1 with pendingCall := none } else lost.1, lost.2)

/-- `layout` is the default layout of the current group, if there is a group. -/
def reloadLayout (installation : Installation) (layout : Option Bytes) (addon : EmojiPaletteAddon κ) :
    EmojiPaletteAddon κ :=
  match layout with
  | none => addon
  | some layout =>
      { addon with
        shortcutMatcher := addon.shortcutMatcher.setLayout installation.fcitx installation.xkb layout
        keyRouter := addon.keyRouter.setLayout installation.fcitx installation.xkb layout }

def reloadConfig (installation : Installation) (config : EmojiPaletteConfig) (layout : Option Bytes)
    (addon : EmojiPaletteAddon κ) : EmojiPaletteAddon κ :=
  reloadLayout installation layout
    { addon with
      config := config
      shortcutMatcher := addon.shortcutMatcher.setShortcuts installation.fcitx installation.xkb config.triggerKey }

/-! ### Runs -/

inductive Input (κ : Type)
  | key (event : KeyEvent κ)
  | contextEvent (context : κ) (event : ContextEvent)
  | groupChanged (layout : Option Bytes)
  | configured (config : EmojiPaletteConfig) (layout : Option Bytes)
  | ownerChanged (oldOwner newOwner : Bytes)
  | reply (serial : Nat) (sender : Bytes) (reply : Reply)
  | frame (sender : Bytes) (content : Option Bytes)

def step [DecidableEq κ] (installation : Installation) (surroundings : Surroundings κ) : Input κ → AddonAction κ
  | .key event => keyEvent installation surroundings event
  | .contextEvent context event => contextEvent surroundings context event
  | .groupChanged layout => Action.update (reloadLayout installation layout)
  | .configured config layout => Action.update (reloadConfig installation config layout)
  | .ownerChanged oldOwner newOwner => ownerChanged surroundings oldOwner newOwner
  | .reply serial sender answer => reply surroundings serial sender answer
  | .frame sender content => receiveFrame installation.catalog surroundings sender content

/-- The addon as its constructor leaves it, with the configuration and the layout read there. -/
def initial (installation : Installation) (config : EmojiPaletteConfig) (layout : Option Bytes) :
    EmojiPaletteAddon κ :=
  reloadConfig installation config layout
    { config := .default
      pendingCall := none
      controller := .initial
      shortcutMatcher := .initial installation.fcitx installation.xkb
      keyRouter := .initial installation.fcitx installation.xkb
      session := .initial
      origin := none
      commandSequence := 0
      search := []
      closeAfterSelection := true }

/-- Contexts that live and have the focus, a bus that takes everything, and a transaction that is drawn. -/
def calm (transaction : TransactionId) (h : transaction.Valid) : Surroundings κ where
  contexts := ⟨fun _ => true, fun _ => true, fun _ => ⟨0, 0, 0, 0⟩, fun _ => 100⟩
  afterCommit := ⟨fun _ => true, fun _ => true, fun _ => ⟨0, 0, 0, 0⟩, fun _ => 100⟩
  lcAll := none
  lcMessages := none
  lang := none
  transaction := transaction
  transaction_valid := h
  nonce := 1
  serial := 0
  sends _ := true
  callIssued := true

/-! ### What the parts do -/

theorem sendEnvelope_of_delivers {surroundings : Surroundings κ} {payload : Payload}
    (h : surroundings.Delivers payload) (addon : EmojiPaletteAddon κ) :
    sendEnvelope surroundings payload addon = (addon, [.sent payload.frame]) := by
  rw [sendEnvelope, serialize_payload h.1]
  simp only [h.2, if_true, Action.emit_apply]

theorem sendEnvelope_of_not_delivers {surroundings : Surroundings κ} {payload : Payload}
    (h : ¬ surroundings.Delivers payload) (addon : EmojiPaletteAddon κ) :
    ∃ reason, sendEnvelope surroundings payload addon = (addon.cleared reason, []) := by
  by_cases hwritable : payload.Writable
  · have hsends : surroundings.sends payload.frame = false := by
      simpa using fun hsends => h ⟨hwritable, hsends⟩
    refine ⟨.helperDisconnected, ?_⟩
    rw [sendEnvelope, serialize_payload hwritable]
    simp only [hsends, Bool.false_eq_true, if_false]
    rfl
  · refine ⟨.protocolError, ?_⟩
    rw [sendEnvelope, serialize_payload_eq_none hwritable]
    rfl

/-- Whatever becomes of the envelope, the addon is left as it was or without its transaction. -/
theorem sendEnvelope_fst (surroundings : Surroundings κ) (payload : Payload) (addon : EmojiPaletteAddon κ) :
    (sendEnvelope surroundings payload addon).1 = addon ∨
      ∃ reason, (sendEnvelope surroundings payload addon).1 = addon.cleared reason := by
  by_cases h : surroundings.Delivers payload
  · rw [sendEnvelope_of_delivers h]
    exact Or.inl rfl
  · obtain ⟨reason, hsent⟩ := sendEnvelope_of_not_delivers h addon
    rw [hsent]
    exact Or.inr ⟨reason, rfl⟩

/-- However the helper takes it, a cancel leaves no transaction. -/
theorem cancel_fst (surroundings : Surroundings κ) (reason : CancelReason) (notifyHelper : Bool)
    (addon : EmojiPaletteAddon κ) :
    ∃ other, (cancel surroundings reason notifyHelper addon).1 = addon.cleared other := by
  unfold cancel
  split
  · exact ⟨reason, rfl⟩
  split
  · rename_i transaction _ _
    rcases sendEnvelope_fst surroundings (.hide ⟨transaction, reason⟩) (addon.cleared reason) with h | ⟨other, h⟩
    · exact ⟨reason, h⟩
    · exact ⟨other, h⟩
  · exact ⟨reason, rfl⟩

/-- The session, and the call whose answer may change it. -/
def peer (addon : EmojiPaletteAddon κ) : PeerSession × Option (PendingCall κ) := (addon.session, addon.pendingCall)

@[simp] theorem cleared_peer (reason : CancelReason) (addon : EmojiPaletteAddon κ) :
    (addon.cleared reason).peer = addon.peer := rfl

@[simp] theorem sendEnvelope_peer (surroundings : Surroundings κ) (payload : Payload) (addon : EmojiPaletteAddon κ) :
    (sendEnvelope surroundings payload addon).1.peer = addon.peer := by
  rcases sendEnvelope_fst surroundings payload addon with h | ⟨reason, h⟩
  · rw [h]
  · rw [h, cleared_peer]

@[simp] theorem cancel_peer (surroundings : Surroundings κ) (reason : CancelReason) (notifyHelper : Bool)
    (addon : EmojiPaletteAddon κ) : (cancel surroundings reason notifyHelper addon).1.peer = addon.peer := by
  obtain ⟨other, h⟩ := cancel_fst surroundings reason notifyHelper addon
  rw [h, cleared_peer]

/-- A negotiation goes out as a call, or leaves nothing that could answer it. -/
theorem negotiate_apply (surroundings : Surroundings κ) (context : κ) (transaction : TransactionId)
    (addon : EmojiPaletteAddon κ) : negotiate surroundings context transaction addon =
      if surroundings.callIssued = true then
        ({ addon with pendingCall := some ⟨surroundings.serial, context, transaction, surroundings.nonce⟩ },
          [.called surroundings.serial (hello surroundings).frame])
      else ({ addon with pendingCall := none }, []) := by
  have hwritten : serialize ⟨protocolVersion, hello surroundings⟩ = some (hello surroundings).frame :=
    serialize_payload trivial
  rw [negotiate, callExchange, hwritten]

theorem show_apply (surroundings : Surroundings κ) (context : κ) (addon : EmojiPaletteAddon κ) :
    let asked := sendShowOrNegotiate surroundings context
      (started surroundings context (cancel surroundings .user true addon).1)
    «show» surroundings context addon = (asked.1, (cancel surroundings .user true addon).2 ++ asked.2) := rfl

end EmojiPaletteAddon

end Addon

end EmojiPalette
