import EmojiPalette.Ipc.Layout
import EmojiPalette.Ipc.Session
import EmojiPalette.Library.Trace

/-!
# The helper's session

The session stands between the bus and the window. It binds itself to the peer that says `Hello`, starts a transaction with every `Show`, hands the commands of the transaction to the window in increasing order, and ends the transaction with one frame.

The window is any that offers the three calls the session makes. Its signals are connected to the session directly, so a slot runs in the middle of whatever raised the signal, and may change the window before the rest of it runs: a `WindowProgram` says what the window does from signal to signal.
-/

namespace EmojiPalette

open Ipc Trace

namespace Ui

inductive WindowSignal
  | selectionRequested (sequence : Bytes)
  | cancellationRequested (reason : CancelReason)

/-- What a window does: it ends in a state, or it raises a signal in a state and goes on from the state the slot leaves. -/
inductive WindowProgram (ω : Type)
  | done (window : ω)
  | emit (window : ω) (signal : WindowSignal) (next : ω → WindowProgram ω)

/-- The calls of the window that the session makes. -/
structure WindowCalls (ω : Type) where
  showPalette : Show → ω → ω
  hidePalette : ω → ω
  handleCommand : Command → ω → WindowProgram ω

structure PaletteSession where
  peerOwner : Bytes
  negotiated : Bool
  transaction : Option TransactionId
  sequenceValidator : SequenceValidator
  deriving DecidableEq

/-- The session with its window. -/
structure Helper (ω : Type) where
  session : PaletteSession
  window : ω

/-- What the session does outside itself: the calls of the window that a peer can cause, and its own signals. -/
inductive Effect
  | shown (owner : Bytes) (request : Show)
  | commanded (sender : Bytes) (command : Command)
  | outgoingFrame (frame : Bytes)
  | peerChanged (owner : Bytes)
  deriving DecidableEq

namespace PaletteSession

def initial : PaletteSession := ⟨[], false, none, .initial⟩

def clear (session : PaletteSession) : PaletteSession :=
  { session with transaction := none, sequenceValidator := .reset }

end PaletteSession

namespace Helper

variable {ω : Type}

abbrev HelperAction (ω : Type) := Action (Helper ω) Effect

/-- The frame of the payload as `outgoingFrame` carries it, if it can be written. -/
def outgoing (payload : Payload) : List Effect :=
  (serialize ⟨protocolVersion, payload⟩).toList.map .outgoingFrame

def reset (calls : WindowCalls ω) (reason : CancelReason) (notify : Bool) : HelperAction ω := fun helper =>
  (⟨helper.session.clear, calls.hidePalette helper.window⟩,
    match notify, helper.session.transaction with
    | true, some transaction => outgoing (.cancelled ⟨transaction, reason⟩)
    | _, _ => [])

def selectionRequested (sequence : Bytes) : HelperAction ω := fun helper =>
  match helper.session.transaction with
  | none => (helper, [])
  | some transaction =>
      ({ helper with session := helper.session.clear }, outgoing (.selected ⟨transaction, sequence⟩))

/-- The slot connected to a signal. -/
def slot (calls : WindowCalls ω) : WindowSignal → HelperAction ω
  | .selectionRequested sequence => selectionRequested sequence
  | .cancellationRequested reason => reset calls reason true

/-- The window runs, and the slots of its signals run where it raises them. -/
def runWindow (calls : WindowCalls ω) : WindowProgram ω → HelperAction ω
  | .done window => Action.update fun helper => { helper with window := window }
  | .emit window signal next =>
      (Action.update fun helper => { helper with window := window }).andThen
        ((slot calls signal).andThen fun helper => runWindow calls (next helper.window) helper)

/-! ### The exchange -/

/-- `PointerSelection`, `LayerShell` and `LocalizedSearch`. -/
def supportedCapabilities : UInt32 := 1 ||| 2 ||| 4

def response (payload : Payload) : Bytes := (serialize ⟨protocolVersion, payload⟩).getD []

structure Exchange (ω : Type) where
  helper : Helper ω
  effects : List Effect
  response : Bytes

def ignore (helper : Helper ω) : Exchange ω := ⟨helper, [], []⟩

def answer (action : HelperAction ω) (payload : Payload) (helper : Helper ω) : Exchange ω :=
  ⟨(action helper).1, (action helper).2, response payload⟩

/-- A peer whose `Hello` is accepted becomes the owner. A new owner finds nothing of the old one's transaction. -/
def welcomePeer (calls : WindowCalls ω) (sender : Bytes) : HelperAction ω := fun helper =>
  let bound : Helper ω × List Effect :=
    if helper.session.peerOwner ≠ sender then
      (((reset calls .helperDisconnected false).andThen fun helper =>
        ({ helper with session := { helper.session with peerOwner := sender } }, [.peerChanged sender])) helper)
    else (helper, [])
  ({ bound.1 with session := { bound.1.session with negotiated := true } }, bound.2)

def beginShow (calls : WindowCalls ω) (sender : Bytes) (request : Show) : HelperAction ω := fun helper =>
  (⟨{ helper.session with
      transaction := some request.transaction, sequenceValidator := .begin request.transaction },
    calls.showPalette request helper.window⟩, [.shown sender request])

def executeCommand (calls : WindowCalls ω) (sender : Bytes) (command : Command) (validator : SequenceValidator) :
    HelperAction ω := fun helper =>
  (Action.andThen
    (fun helper => ({ helper with session := { helper.session with sequenceValidator := validator } },
      [.commanded sender command]))
    (runWindow calls (calls.handleCommand command helper.window))) helper

def exchangeBound (calls : WindowCalls ω) (sender : Bytes) (payload : Payload) (helper : Helper ω) : Exchange ω :=
  match payload with
  | .show request => answer (beginShow calls sender request) (.pong ⟨0⟩) helper
  | .command command =>
      if helper.session.transaction ≠ some command.transaction then ignore helper
      else match helper.session.sequenceValidator.accept command.transaction command.sequence with
        | none => ignore helper
        | some validator =>
            answer (executeCommand calls sender command validator) (.pong ⟨command.sequence.toUInt64⟩) helper
  | .hide hide =>
      if helper.session.transaction ≠ some hide.transaction then ignore helper
      else answer (reset calls hide.reason false) (.pong ⟨0⟩) helper
  | .ping ping => answer Action.skip (.pong ⟨ping.nonce⟩) helper
  | _ => ignore helper

def exchange (calls : WindowCalls ω) (frame sender : Bytes) (helper : Helper ω) : Exchange ω :=
  if sender.isEmpty then ignore helper
  else match (parse frame).envelope with
    | none => ignore helper
    | some envelope =>
        match envelope.payload with
        | .hello hello =>
            match negotiate hello supportedCapabilities with
            | none => ignore helper
            | some welcome => answer (welcomePeer calls sender) (.welcome welcome) helper
        | payload =>
            if !helper.session.negotiated || sender ≠ helper.session.peerOwner then ignore helper
            else exchangeBound calls sender payload helper

def peerDisconnected (calls : WindowCalls ω) (owner : Bytes) : HelperAction ω := fun helper =>
  if owner = helper.session.peerOwner then
    ((reset calls .helperDisconnected false).andThen fun helper =>
      ({ helper with session := { helper.session with peerOwner := [], negotiated := false } },
        [.peerChanged []])) helper
  else (helper, [])

/-! ### Runs -/

/-- What can happen to the helper. A pointer makes the window run on its own. -/
inductive Input (ω : Type)
  | exchange (frame sender : Bytes)
  | peerDisconnected (owner : Bytes)
  | pointer (program : ω → WindowProgram ω)

def step (calls : WindowCalls ω) : Input ω → HelperAction ω
  | .exchange frame sender => fun helper =>
      ((exchange calls frame sender helper).helper, (exchange calls frame sender helper).effects)
  | .peerDisconnected owner => peerDisconnected calls owner
  | .pointer program => fun helper => runWindow calls (program helper.window) helper

def run (calls : WindowCalls ω) (inputs : List (Input ω)) (window : ω) : Helper ω × List Effect :=
  Action.sequence (inputs.map (step calls)) ⟨.initial, window⟩

/-! ### Senders that are not the owner -/

/-- The answer to a frame that is a `Hello` with the protocol's version in its range. -/
def acceptedHello (frame : Bytes) : Option Welcome :=
  match (parse frame).envelope with
  | some ⟨_, .hello hello⟩ => negotiate hello supportedCapabilities
  | _ => none

/-- A sender other than the owner is ignored altogether, except that a `Hello` that can be accepted makes it the new owner of a session without a transaction. -/
theorem exchange_stranger (calls : WindowCalls ω) (helper : Helper ω) (frame sender : Bytes)
    (hstranger : sender ≠ helper.session.peerOwner) :
    (sender = [] ∨ acceptedHello frame = none → exchange calls frame sender helper = ⟨helper, [], []⟩) ∧
      ∀ welcome, sender ≠ [] → acceptedHello frame = some welcome →
        exchange calls frame sender helper =
          ⟨⟨⟨sender, true, none, .initial⟩, calls.hidePalette helper.window⟩, [.peerChanged sender],
            response (.welcome welcome)⟩ := by
  unfold exchange acceptedHello
  cases hsender : sender.isEmpty with
  | true => exact ⟨fun _ => rfl, fun _ hne _ => absurd (List.isEmpty_iff.mp hsender) hne⟩
  | false =>
      have hne : sender ≠ [] := by simpa using hsender
      cases (parse frame).envelope with
      | none => exact ⟨fun _ => rfl, fun _ _ h => by cases h⟩
      | some envelope =>
          obtain ⟨version, payload⟩ := envelope
          cases payload with
          | hello hello =>
              cases hwelcome : negotiate hello supportedCapabilities with
              | none => exact ⟨fun _ => by simp [hwelcome, ignore], fun _ _ h => by simp [hwelcome] at h⟩
              | some welcome =>
                  refine ⟨fun h => by simp [hne, hwelcome] at h, fun other _ h => ?_⟩
                  obtain rfl : welcome = other := by simpa [hwelcome] using h
                  simp [hwelcome, answer, welcomePeer, reset, PaletteSession.clear, SequenceValidator.reset,
                    hstranger.symm]
          | _ => exact ⟨fun _ => by simp [hstranger, ignore], fun _ _ h => by cases h⟩

/-- A window that is only visible or not. -/
def switch : WindowCalls Bool := ⟨fun _ _ => true, fun _ => false, fun _ window => .done window⟩

/-- The helper after a handshake and a `Show` of one peer. -/
def shownHelper : Helper Bool :=
  (run switch ([.hello ⟨1, 1, 7, 0⟩,
    .show ⟨⟨List.replicate 16 1, rfl⟩, ⟨0, 0, 0, 0⟩, ⟨0, 0, 0, 0⟩, .english, 100, true⟩].map fun payload =>
      .exchange (response payload) [58, 49]) false).1

/-- A `Show` sent by another peer is ignored. -/
theorem exchange_stranger_show :
    exchange switch (response (.show ⟨⟨List.replicate 16 2, rfl⟩, ⟨0, 0, 0, 0⟩, ⟨0, 0, 0, 0⟩, .english, 100, true⟩))
      [58, 50] shownHelper = ⟨shownHelper, [], []⟩ :=
  (exchange_stranger switch shownHelper _ [58, 50] (by decide +kernel)).1 (Or.inr (by decide +kernel))

/-- A second peer's `Hello` takes over a session that is negotiated and bound to the first, with its transaction active and its window visible. -/
theorem exchange_stranger_hello :
    (shownHelper.session.negotiated = true ∧ shownHelper.session.peerOwner = [58, 49] ∧
      shownHelper.session.transaction.isSome ∧ shownHelper.window = true) ∧
    let exchanged := exchange switch (response (.hello ⟨1, 1, 8, 0⟩)) [58, 50] shownHelper
    exchanged.response ≠ [] ∧ exchanged.helper.session.peerOwner = [58, 50] ∧
      exchanged.helper.session.transaction = none ∧ exchanged.helper.window = false := by
  decide +kernel

end Helper

end Ui

end EmojiPalette
