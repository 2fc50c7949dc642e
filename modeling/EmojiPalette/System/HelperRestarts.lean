import EmojiPalette.System.PaletteSystem

/-!
# A helper that comes and goes

The addon on a bus on which the helper can end at any moment and be started again, each time under a new name and with nothing of its session left. The bus keeps the order of what a helper sends and of the news that it is gone. What the addon sends goes to whichever helper runs when it is delivered; the bus keeps it while none runs, or drops it. With a helper that ends, what it has been given and has not read is lost.
-/

namespace EmojiPalette

open Ipc Trace Addon Ui

namespace System

open EmojiPaletteAddon (Input)

/-- What the bus brings the addon, with the name of the helper. -/
inductive BusMessage
  | reply (sender : Bytes) (serial : Nat) (frame : Bytes)
  | signal (sender frame : Bytes)
  | gained (owner : Bytes)
  | lost (owner : Bytes)
  deriving DecidableEq

/-- What a helper of this name sends. -/
def BusMessage.sentBy (sender : Bytes) : AddonMessage → BusMessage
  | .reply serial frame => .reply sender serial frame
  | .signal frame => .signal sender frame

/-- `issued` are the transactions that have been active, `serials` the calls, and `names` the helpers there have been. -/
structure RestartingSystem (κ : Type) where
  addon : EmojiPaletteAddon κ
  running : Option (Bytes × Helper PaletteWindow)
  toHelper : List HelperFrame
  toAddon : List BusMessage
  issued : List TransactionId
  serials : List Nat
  names : List Bytes

namespace RestartingSystem

inductive Event (κ : Type)
  | addon (surroundings : Surroundings κ) (happening : Happening κ)
  | pointer (desktop : Desktop) (event : PaletteWindow.PointerEvent)
  | toHelper (desktop : Desktop)
  | toAddon (surroundings : Surroundings κ)
  /-- A helper is started, with what it loads, and owns the service. -/
  | starts (name : Bytes) (desktop : Desktop) (state : PersistentState) (cellSize : Int)
  /-- The helper is gone, and so many frames with it. -/
  | ends (lost : Nat)
  /-- A frame is dropped that no helper could be started for. -/
  | drops

variable {κ : Type} [DecidableEq κ]

def runAddon (setup : Setup) (surroundings : Surroundings κ) (input : Input κ) (system : RestartingSystem κ) :
    RestartingSystem κ :=
  let ran := EmojiPaletteAddon.step setup.installation surroundings input system.addon
  { system with
    addon := ran.1
    toHelper := system.toHelper ++ helperFrames ran.2
    issued := ran.1.controller.transaction.toList ++ system.issued
    serials := (helperFrames ran.2).filterMap (·.serial) ++ system.serials }

def point (setup : Setup) (desktop : Desktop) (event : PaletteWindow.PointerEvent) (system : RestartingSystem κ) :
    RestartingSystem κ :=
  match system.running with
  | none => system
  | some (name, helper) =>
      if helper.window.visible then
        let ran := Helper.runWindow (PaletteWindow.calls setup.helperInstallation desktop)
          (PaletteWindow.pointer setup.helperInstallation desktop event helper.window) helper
        { system with
          running := some (name, ran.1)
          toAddon := system.toAddon ++ (signals ran.2).map (.sentBy name) }
      else system

def deliverToHelper (setup : Setup) (desktop : Desktop) (system : RestartingSystem κ) : RestartingSystem κ :=
  match system.running, system.toHelper with
  | some (name, helper), arrived :: rest =>
      let exchanged := Helper.exchange (PaletteWindow.calls setup.helperInstallation desktop) arrived.frame
        setup.addonName helper
      { system with
        running := some (name, exchanged.helper)
        toHelper := rest
        toAddon := system.toAddon ++ (signals exchanged.effects ++
          arrived.serial.toList.map fun serial => AddonMessage.reply serial exchanged.response).map (.sentBy name) }
  | _, _ => system

/-- What a message of the bus is to the addon. -/
def input : BusMessage → Input κ
  | .reply sender serial frame => .reply serial sender (.message (some frame))
  | .signal sender frame => .frame sender (some frame)
  | .gained owner => .ownerChanged [] owner
  | .lost owner => .ownerChanged owner []

def deliverToAddon (setup : Setup) (surroundings : Surroundings κ) (system : RestartingSystem κ) : RestartingSystem κ :=
  match system.toAddon with
  | [] => system
  | message :: rest => runAddon setup surroundings (input message) { system with toAddon := rest }

def start (setup : Setup) (name : Bytes) (desktop : Desktop) (state : PersistentState) (cellSize : Int)
    (system : RestartingSystem κ) : RestartingSystem κ :=
  { system with
    running := some (name, ⟨.initial, .initial setup.helperInstallation desktop state cellSize⟩)
    toAddon := system.toAddon ++ [.gained name]
    names := name :: system.names }

def finish (lost : Nat) (system : RestartingSystem κ) : RestartingSystem κ :=
  match system.running with
  | none => system
  | some (name, _) =>
      { system with running := none, toHelper := system.toHelper.drop lost, toAddon := system.toAddon ++ [.lost name] }

def step (setup : Setup) : Event κ → RestartingSystem κ → RestartingSystem κ
  | .addon surroundings happening => runAddon setup surroundings happening.input
  | .pointer desktop event => point setup desktop event
  | .toHelper desktop => deliverToHelper setup desktop
  | .toAddon surroundings => deliverToAddon setup surroundings
  | .starts name desktop state cellSize => start setup name desktop state cellSize
  | .ends lost => finish lost
  | .drops => fun system => { system with toHelper := system.toHelper.tail }

def initial (setup : Setup) (config : EmojiPaletteConfig) (layout : Option Bytes) : RestartingSystem κ where
  addon := .initial setup.installation config layout
  running := none
  toHelper := []
  toAddon := []
  issued := []
  serials := []
  names := []

/-- Every frame is sent, and the transaction and the number of the call that are drawn are new. -/
structure Lossless (system : RestartingSystem κ) (surroundings : Surroundings κ) : Prop where
  lossless : System.Lossless system.issued surroundings
  serial : surroundings.serial ∉ system.serials

/-- What the bus and the draws promise about an event. At most one helper owns the service, and the bus gives no name twice. -/
def Promised (system : RestartingSystem κ) : Event κ → Prop
  | .addon surroundings _ => Lossless system surroundings
  | .toAddon surroundings => Lossless system surroundings
  | .starts name _ _ _ => system.running = none ∧ name ≠ [] ∧ name ∉ system.names
  | .drops => system.running = none
  | _ => True

/-- No helper has been started yet. -/
def Start (setup : Setup) (system : RestartingSystem κ) : Prop := ∃ config layout, system = .initial setup config layout

end RestartingSystem

end System

end EmojiPalette
