import EmojiPalette.Library.Handover
import EmojiPalette.System.PaletteSystem

/-!
# Asks and answers of the palette

The addon and its helper seen as two parties of a handover. The addon asks with a `Show` and revokes with a `Hide`, the helper answers with a `Selected` or a `Cancelled`, and everything else they say is left out. A window that is visible without a transaction is the one that waits.
-/

namespace EmojiPalette

open Ipc Trace Addon Ui Handover

namespace System

variable {κ : Type}

/-! ### The two parties -/

def asked (addon : EmojiPaletteAddon κ) : Option (Ask TransactionId) :=
  addon.controller.transaction.map fun transaction => ⟨transaction, !addon.closeAfterSelection⟩

def connected (addon : EmojiPaletteAddon κ) : Bool := addon.session.state = .ready

def display (helper : Helper PaletteWindow) : Display TransactionId :=
  match helper.session.transaction with
  | some transaction => .shown ⟨transaction, !helper.window.request.closeAfterSelection⟩
  | none => if helper.window.visible then .waiting else .hidden

/-! ### The two queues -/

def request : Payload → Option (Request TransactionId)
  | .show value => some (.begin ⟨value.transaction, !value.closeAfterSelection⟩)
  | .hide value => some (.revoke value.transaction)
  | _ => none

def answer : Payload → Option (Answer TransactionId)
  | .selected value => some (.chosen value.transaction)
  | .cancelled value => some (.cancelled value.transaction)
  | _ => none

def requests (frames : List HelperFrame) : List (Request TransactionId) :=
  frames.filterMap fun arrived => (payloadOf arrived.frame).bind request

def answers (messages : List AddonMessage) : List (Answer TransactionId) :=
  messages.filterMap fun message =>
    match message with
    | .signal frame => (payloadOf frame).bind answer
    | .reply _ _ => none

def handover (system : PaletteSystem κ) : State TransactionId where
  asked := asked system.addon
  connected := connected system.addon
  display := display system.helper
  requests := requests system.toHelper
  answers := answers system.toAddon

/-- What a handler of the addon comes to: what it then asks for, and what it has requested. -/
def said (ran : EmojiPaletteAddon κ × List (Output κ)) : Option (Ask TransactionId) × List (Request TransactionId) :=
  (asked ran.1, requests (helperFrames ran.2))

/-! ### Frames and payloads -/

theorem payloadOf_eq_some_iff {frame : Bytes} {payload : Payload} :
    payloadOf frame = some payload ↔ payload.Valid ∧ frame = payload.frame := by
  rw [payloadOf, Option.map_eq_some_iff]
  constructor
  · intro h
    obtain ⟨⟨version, other⟩, hparsed, rfl⟩ := h
    obtain ⟨⟨rfl, hvalid⟩, hframe⟩ := parse_eq_some_iff.mp hparsed
    exact ⟨hvalid, hframe⟩
  · intro h
    obtain ⟨hvalid, rfl⟩ := h
    exact ⟨_, parse_payload_frame hvalid, rfl⟩

theorem payloadOf_frame {payload : Payload} (h : payload.Valid) : payloadOf payload.frame = some payload :=
  payloadOf_eq_some_iff.mpr ⟨h, rfl⟩

@[simp] theorem requests_nil : requests [] = [] := rfl

@[simp] theorem requests_append (frames more : List HelperFrame) :
    requests (frames ++ more) = requests frames ++ requests more := List.filterMap_append

theorem requests_cons (arrived : HelperFrame) (rest : List HelperFrame) :
    requests (arrived :: rest) = ((payloadOf arrived.frame).bind request).toList ++ requests rest := by
  rw [requests, List.filterMap_cons]
  cases (payloadOf arrived.frame).bind request <;> rfl

@[simp] theorem answers_nil : answers [] = [] := rfl

@[simp] theorem answers_append (messages more : List AddonMessage) :
    answers (messages ++ more) = answers messages ++ answers more := List.filterMap_append

@[simp] theorem answers_reply (serial : Nat) (frame : Bytes) (rest : List AddonMessage) :
    answers (.reply serial frame :: rest) = answers rest := rfl

/-- The answer to a call is none to the handover. -/
theorem answers_replies (serials : List Nat) (frame : Bytes) :
    answers (serials.map fun serial => .reply serial frame) = [] := by
  induction serials with
  | nil => rfl
  | cons serial rest ih => exact ih

theorem answers_signal (payload : Payload) (h : payload.Valid) (rest : List AddonMessage) :
    answers (.signal payload.frame :: rest) = (answer payload).toList ++ answers rest := by
  rw [answers, List.filterMap_cons]
  simp only [payloadOf_frame h, Option.bind_some]
  cases answer payload <;> rfl

theorem signal_of_mem {effects : List Effect} {message : AddonMessage} (h : message ∈ signals effects) :
    ∃ frame, message = .signal frame := by
  obtain ⟨effect, _, heffect⟩ := List.mem_filterMap.mp h
  cases effect with
  | outgoingFrame frame =>
      cases heffect
      exact ⟨frame, rfl⟩
  | _ => cases heffect

@[simp] theorem helperFrames_append (outputs more : List (Output κ)) :
    helperFrames (outputs ++ more) = helperFrames outputs ++ helperFrames more := List.filterMap_append

theorem requests_sent {payload : Payload} (h : payload.Valid) :
    requests (helperFrames [(.sent payload.frame : Output κ)]) = (request payload).toList := by
  have hframes : helperFrames [(.sent payload.frame : Output κ)] = [⟨payload.frame, none⟩] := rfl
  rw [hframes, requests_cons, payloadOf_frame h, Option.bind_some, requests_nil, List.append_nil]

/-! ### Displays -/

theorem display_of_some {helper : Helper PaletteWindow} {transaction : TransactionId}
    (h : helper.session.transaction = some transaction) :
    display helper = .shown ⟨transaction, !helper.window.request.closeAfterSelection⟩ := by
  rw [display, h]

theorem display_of_none {helper : Helper PaletteWindow} (h : helper.session.transaction = none) :
    display helper = if helper.window.visible then .waiting else .hidden := by
  rw [display, h]

theorem transaction_of_shown {helper : Helper PaletteWindow} {ask : Ask TransactionId} (h : display helper = .shown ask) :
    helper.session.transaction = some ask.id := by
  unfold display at h
  split at h
  · cases h
    assumption
  · split at h <;> cases h

theorem transaction_of_asked {addon : EmojiPaletteAddon κ} {ask : Ask TransactionId} (h : asked addon = some ask) :
    addon.controller.transaction = some ask.id ∧ ask.stays = !addon.closeAfterSelection := by
  obtain ⟨transaction, htransaction, rfl⟩ := Option.map_eq_some_iff.mp h
  exact ⟨htransaction, rfl⟩

theorem asked_of_transaction {addon : EmojiPaletteAddon κ} {transaction : TransactionId}
    (h : addon.controller.transaction = some transaction) :
    asked addon = some ⟨transaction, !addon.closeAfterSelection⟩ := by
  rw [asked, h, Option.map_some]

theorem asked_eq_none_iff {addon : EmojiPaletteAddon κ} :
    asked addon = none ↔ addon.controller.transaction = none := Option.map_eq_none_iff

theorem connected_eq_true_iff {addon : EmojiPaletteAddon κ} :
    connected addon = true ↔ addon.session.state = .ready := decide_eq_true_iff

/-- A run of the addon seen from the handover. -/
theorem handover_runAddon [DecidableEq κ] (setup : Setup) (surroundings : Surroundings κ)
    (input : EmojiPaletteAddon.Input κ) (system : PaletteSystem κ) :
    handover (system.runAddon setup surroundings input) =
      let ran := EmojiPaletteAddon.step setup.installation surroundings input system.addon
      { handover system with
        asked := (said ran).1
        connected := connected ran.1
        requests := (handover system).requests ++ (said ran).2 } := by
  simp [handover, PaletteSystem.runAddon, said]

end System

end EmojiPalette
