import EmojiPalette.Addon.EmojiPaletteAddon
import EmojiPalette.Ui.PaletteWindow

/-!
# The addon and its helper

One addon and one helper on a bus that loses nothing and keeps the order of what each sends to the other. Neither restarts. The helper answers every frame, but only the answer to a call finds somebody who waits for it. Everything else is up to chance: which key or context event comes, where the pointer clicks, when a message arrives, and whether a call times out before its answer does.
-/

namespace EmojiPalette

open Ipc Trace Addon Ui

namespace System

open EmojiPaletteAddon (Input)

/-- What the two are installed with, and the addon's and the helper's name on the bus. The sequences of the catalog, which is generated, are plain text that fits into a frame. -/
structure Setup where
  installation : Installation
  qt : QtText
  addonName : Bytes
  helperName : Bytes
  addonName_ne_nil : addonName ≠ []
  sequence_fits : ∀ record ∈ installation.catalog.records, record.sequence ≠ [] ∧ TextWithin 128 record.sequence ∧
    isPlainText record.sequence = true

def Setup.helperInstallation (setup : Setup) : HelperInstallation := ⟨setup.installation.catalog, setup.qt⟩

def payloadOf (frame : Bytes) : Option Payload := (parse frame).envelope.map Envelope.payload

/-- A frame for the helper, and the number of the call if it is one. -/
structure HelperFrame where
  frame : Bytes
  serial : Option Nat
  deriving DecidableEq

inductive AddonMessage
  | reply (serial : Nat) (frame : Bytes)
  | signal (frame : Bytes)
  deriving DecidableEq

/-- `issued` are the transactions that have been active. -/
structure PaletteSystem (κ : Type) where
  addon : EmojiPaletteAddon κ
  helper : Helper PaletteWindow
  toHelper : List HelperFrame
  toAddon : List AddonMessage
  issued : List TransactionId

/-- What reaches the addon from elsewhere than the helper. -/
inductive Happening (κ : Type)
  | key (event : KeyEvent κ)
  | contextEvent (context : κ) (event : ContextEvent)
  | groupChanged (layout : Option Bytes)
  | configured (config : EmojiPaletteConfig) (layout : Option Bytes)
  | timedOut (serial : Nat)

def Happening.input {κ : Type} : Happening κ → Input κ
  | .key event => .key event
  | .contextEvent context event => .contextEvent context event
  | .groupChanged layout => .groupChanged layout
  | .configured config layout => .configured config layout
  | .timedOut serial => .reply serial [] .error

inductive Event (κ : Type)
  | addon (surroundings : Surroundings κ) (happening : Happening κ)
  | pointer (desktop : Desktop) (event : PaletteWindow.PointerEvent)
  | toHelper (desktop : Desktop)
  | toAddon (surroundings : Surroundings κ)

variable {κ : Type}

/-- The frames among the outputs of the addon. -/
def helperFrames (outputs : List (Output κ)) : List HelperFrame :=
  outputs.filterMap fun output =>
    match output with
    | .sent frame => some ⟨frame, none⟩
    | .called serial frame => some ⟨frame, some serial⟩
    | _ => none

/-- The signals among the effects of the helper. -/
def signals (effects : List Effect) : List AddonMessage :=
  effects.filterMap fun effect =>
    match effect with
    | .outgoingFrame frame => some (.signal frame)
    | _ => none

namespace PaletteSystem

variable [DecidableEq κ]

def runAddon (setup : Setup) (surroundings : Surroundings κ) (input : Input κ) (system : PaletteSystem κ) :
    PaletteSystem κ :=
  let ran := EmojiPaletteAddon.step setup.installation surroundings input system.addon
  { system with
    addon := ran.1
    toHelper := system.toHelper ++ helperFrames ran.2
    issued := ran.1.controller.transaction.toList ++ system.issued }

/-- A pointer finds the window only as long as it is visible. -/
def point (setup : Setup) (desktop : Desktop) (event : PaletteWindow.PointerEvent) (system : PaletteSystem κ) : PaletteSystem κ :=
  if system.helper.window.visible then
    let ran := Helper.runWindow (PaletteWindow.calls setup.helperInstallation desktop)
      (PaletteWindow.pointer setup.helperInstallation desktop event system.helper.window) system.helper
    { system with helper := ran.1, toAddon := system.toAddon ++ signals ran.2 }
  else system

/-- The signals a frame gives rise to go out before the answer to it. -/
def deliverToHelper (setup : Setup) (desktop : Desktop) (system : PaletteSystem κ) : PaletteSystem κ :=
  match system.toHelper with
  | [] => system
  | arrived :: rest =>
      let exchanged := Helper.exchange (PaletteWindow.calls setup.helperInstallation desktop) arrived.frame
        setup.addonName system.helper
      { system with
        helper := exchanged.helper
        toHelper := rest
        toAddon := system.toAddon ++
          (signals exchanged.effects ++ arrived.serial.toList.map fun serial => .reply serial exchanged.response) }

def deliverToAddon (setup : Setup) (surroundings : Surroundings κ) (system : PaletteSystem κ) : PaletteSystem κ :=
  match system.toAddon with
  | [] => system
  | .reply serial frame :: rest =>
      runAddon setup surroundings (.reply serial setup.helperName (.message (some frame)))
        { system with toAddon := rest }
  | .signal frame :: rest =>
      runAddon setup surroundings (.frame setup.helperName (some frame)) { system with toAddon := rest }

def step (setup : Setup) : Event κ → PaletteSystem κ → PaletteSystem κ
  | .addon surroundings happening => runAddon setup surroundings happening.input
  | .pointer desktop event => point setup desktop event
  | .toHelper desktop => deliverToHelper setup desktop
  | .toAddon surroundings => deliverToAddon setup surroundings

def initial (setup : Setup) (config : EmojiPaletteConfig) (layout : Option Bytes) (desktop : Desktop)
    (state : PersistentState) (cellSize : Int) : PaletteSystem κ where
  addon := .initial setup.installation config layout
  helper := ⟨.initial, .initial setup.helperInstallation desktop state cellSize⟩
  toHelper := []
  toAddon := []
  issued := []

end PaletteSystem

/-- Every frame is sent, and the transaction that is drawn is new. -/
structure Lossless (issued : List TransactionId) (surroundings : Surroundings κ) : Prop where
  sends : ∀ frame, surroundings.sends frame = true
  callIssued : surroundings.callIssued = true
  fresh : surroundings.transaction ∉ issued

/-- What the bus and the draw of transactions promise about an event. -/
def Promised (system : PaletteSystem κ) : Event κ → Prop
  | .addon surroundings _ => Lossless system.issued surroundings
  | .toAddon surroundings => Lossless system.issued surroundings
  | _ => True

/-- The two with nothing said yet, whatever they have loaded. -/
def Start (setup : Setup) (system : PaletteSystem κ) : Prop :=
  ∃ config layout desktop state cellSize, system = .initial setup config layout desktop state cellSize

end System

end EmojiPalette
