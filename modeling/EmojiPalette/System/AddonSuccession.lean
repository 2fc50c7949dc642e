import EmojiPalette.System.PaletteSystem

/-!
# One addon after another

A helper that goes on running while Fcitx is started anew. An addon that goes says nothing, and each begins with nothing of the one before it, under its own name on the bus. The bus brings the helper what each addon has sent, in order, and behind it the news that the addon is gone, if the helper watches the addon when it goes. What the helper sends reaches only the addon that runs when it is sent.
-/

namespace EmojiPalette

open Ipc Trace Addon Ui

namespace System

open EmojiPaletteAddon (Input)

/-- What the bus brings the helper. -/
inductive Incoming
  | frame (sender : Bytes) (arrived : HelperFrame)
  | gone (owner : Bytes)
  deriving DecidableEq

/-- `name` is the name of the addon that runs, and `names` are those there have been. `watched` is the name that the helper's watcher is set to, empty if it is set to none. -/
structure AddonSuccession (κ : Type) where
  addon : EmojiPaletteAddon κ
  name : Bytes
  helper : Helper PaletteWindow
  watched : Bytes
  toHelper : List Incoming
  toAddon : List AddonMessage
  issued : List TransactionId
  names : List Bytes

/-- The watcher is set to every new owner of the session. -/
def watch (effects : List Effect) (watched : Bytes) : Bytes :=
  effects.foldl (fun watched effect =>
    match effect with
    | .peerChanged owner => owner
    | _ => watched) watched

namespace AddonSuccession

inductive Event (κ : Type)
  | addon (surroundings : Surroundings κ) (happening : Happening κ)
  | pointer (desktop : Desktop) (event : PaletteWindow.PointerEvent)
  | toHelper (desktop : Desktop)
  | toAddon (surroundings : Surroundings κ)
  /-- The addon is gone, and the next one is there. -/
  | succeeds (name : Bytes) (config : EmojiPaletteConfig) (layout : Option Bytes)

variable {κ : Type} [DecidableEq κ]

def runAddon (setup : Setup) (surroundings : Surroundings κ) (input : Input κ) (system : AddonSuccession κ) :
    AddonSuccession κ :=
  let ran := EmojiPaletteAddon.step setup.installation surroundings input system.addon
  { system with
    addon := ran.1
    toHelper := system.toHelper ++ (helperFrames ran.2).map (.frame system.name)
    issued := ran.1.controller.transaction.toList ++ system.issued }

def point (setup : Setup) (desktop : Desktop) (event : PaletteWindow.PointerEvent) (system : AddonSuccession κ) :
    AddonSuccession κ :=
  if system.helper.window.visible then
    let ran := Helper.runWindow (PaletteWindow.calls setup.helperInstallation desktop)
      (PaletteWindow.pointer setup.helperInstallation desktop event system.helper.window) system.helper
    { system with helper := ran.1, watched := watch ran.2 system.watched, toAddon := system.toAddon ++ signals ran.2 }
  else system

/-- The answer to a call goes to its sender. The news of an end comes to nothing if the watcher is set to somebody else by then. -/
def deliverToHelper (setup : Setup) (desktop : Desktop) (system : AddonSuccession κ) : AddonSuccession κ :=
  match system.toHelper with
  | [] => system
  | .gone owner :: rest =>
      if owner = system.watched then
        let ran := Helper.peerDisconnected (PaletteWindow.calls setup.helperInstallation desktop) owner system.helper
        { system with
          helper := ran.1
          watched := watch ran.2 system.watched
          toHelper := rest
          toAddon := system.toAddon ++ signals ran.2 }
      else { system with toHelper := rest }
  | .frame sender arrived :: rest =>
      let exchanged := Helper.exchange (PaletteWindow.calls setup.helperInstallation desktop) arrived.frame sender
        system.helper
      let answers := if sender = system.name then
        arrived.serial.toList.map fun serial => AddonMessage.reply serial exchanged.response else []
      { system with
        helper := exchanged.helper
        watched := watch exchanged.effects system.watched
        toHelper := rest
        toAddon := system.toAddon ++ (signals exchanged.effects ++ answers) }

def deliverToAddon (setup : Setup) (surroundings : Surroundings κ) (system : AddonSuccession κ) : AddonSuccession κ :=
  match system.toAddon with
  | [] => system
  | .reply serial frame :: rest =>
      runAddon setup surroundings (.reply serial setup.helperName (.message (some frame))) { system with toAddon := rest }
  | .signal frame :: rest =>
      runAddon setup surroundings (.frame setup.helperName (some frame)) { system with toAddon := rest }

def succeed (setup : Setup) (name : Bytes) (config : EmojiPaletteConfig) (layout : Option Bytes)
    (system : AddonSuccession κ) : AddonSuccession κ :=
  { system with
    addon := .initial setup.installation config layout
    name := name
    toHelper := system.toHelper ++ if system.watched = system.name then [.gone system.name] else []
    toAddon := []
    names := name :: system.names }

def step (setup : Setup) : Event κ → AddonSuccession κ → AddonSuccession κ
  | .addon surroundings happening => runAddon setup surroundings happening.input
  | .pointer desktop event => point setup desktop event
  | .toHelper desktop => deliverToHelper setup desktop
  | .toAddon surroundings => deliverToAddon setup surroundings
  | .succeeds name config layout => succeed setup name config layout

def initial (setup : Setup) (config : EmojiPaletteConfig) (layout : Option Bytes) (desktop : Desktop)
    (state : PersistentState) (cellSize : Int) : AddonSuccession κ where
  addon := .initial setup.installation config layout
  name := setup.addonName
  helper := ⟨.initial, .initial setup.helperInstallation desktop state cellSize⟩
  watched := []
  toHelper := []
  toAddon := []
  issued := []
  names := [setup.addonName]

/-- Every frame is sent, the transaction that is drawn is new, and the bus gives no name twice. -/
def Promised (system : AddonSuccession κ) : Event κ → Prop
  | .addon surroundings _ => Lossless system.issued surroundings
  | .toAddon surroundings => Lossless system.issued surroundings
  | .succeeds name _ _ => name ≠ [] ∧ name ∉ system.names
  | _ => True

/-- The first addon and the helper, with nothing said yet. -/
def Start (setup : Setup) (system : AddonSuccession κ) : Prop :=
  ∃ config layout desktop state cellSize, system = .initial setup config layout desktop state cellSize

end AddonSuccession

end System

end EmojiPalette
