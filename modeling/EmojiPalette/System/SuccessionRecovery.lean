import EmojiPalette.System.Opening
import EmojiPalette.System.SuccessionAgreement

/-!
# The next addon's palette opens

An addon that starts after another, its trigger, and the delivery of everything: the helper that has gone on running shows the palette of the new transaction. What earlier addons have left in the queue is read first, and what the helper says to it finds nobody who listens.
-/

namespace EmojiPalette

open Ipc Trace Addon Ui

namespace System

open EmojiPaletteAddon (Input)

namespace AddonSuccession

variable {κ : Type} {setup : Setup} {system : AddonSuccession κ}

def readAll (setup : Setup) (desktop : Desktop) : AddonSuccession κ → AddonSuccession κ :=
  Queue.drain toHelper (deliverToHelper setup desktop)

def hearAll [DecidableEq κ] (setup : Setup) (surroundings : Surroundings κ) : AddonSuccession κ → AddonSuccession κ :=
  Queue.drain toAddon (deliverToAddon setup surroundings)

/-! ### The two that run -/

/-- The addon of this name and the helper are the pair, and nothing is on its way but what they say to each other. -/
structure Pairs (name : Bytes) (system : AddonSuccession κ) (pair : PaletteSystem κ) : Prop where
  named : system.name = name
  addon : system.addon = pair.addon
  helper : system.helper = pair.helper
  toHelper : system.toHelper = pair.toHelper.map (.frame name)
  toAddon : system.toAddon = pair.toAddon

variable {pair : PaletteSystem κ} {name : Bytes}

theorem Pairs.deliverToHelper (setup : Setup) (hname : name ≠ []) (h : Pairs name system pair) (desktop : Desktop) :
    Pairs name (AddonSuccession.deliverToHelper setup desktop system)
      (PaletteSystem.deliverToHelper (setup.called name hname) desktop pair) := by
  rw [AddonSuccession.deliverToHelper, PaletteSystem.deliverToHelper, h.toHelper]
  cases pair.toHelper with
  | nil => exact h
  | cons arrived rest =>
      refine ⟨h.named, h.addon, congrArg (fun helper => (Helper.exchange _ _ _ helper).helper) h.helper, rfl, ?_⟩
      rw [List.map_cons]
      dsimp only
      rw [if_pos h.named.symm, h.toAddon, h.helper]
      rfl

theorem Pairs.readAll (setup : Setup) (hname : name ≠ []) (h : Pairs name system pair) (desktop : Desktop) :
    Pairs name (system.readAll setup desktop) (pair.readAll (setup.called name hname) desktop) := by
  refine Queue.drain_related (fun _ _ hpairs => hpairs.deliverToHelper setup hname desktop) ?_ h
  rw [h.toHelper, List.length_map]

variable [DecidableEq κ]

theorem Pairs.deliverToAddon (setup : Setup) (hname : name ≠ []) (h : Pairs name system pair)
    (surroundings : Surroundings κ) :
    Pairs name (AddonSuccession.deliverToAddon setup surroundings system)
      (PaletteSystem.deliverToAddon (setup.called name hname) surroundings pair) := by
  have hran : ∀ (input : Input κ) (rest : List AddonMessage),
      Pairs name (runAddon setup surroundings input { system with toAddon := rest })
        (PaletteSystem.runAddon (setup.called name hname) surroundings input { pair with toAddon := rest }) := by
    intro input rest
    simp only [runAddon, PaletteSystem.runAddon, h.addon, h.toHelper, h.named, ← List.map_append]
    exact ⟨rfl, rfl, h.helper, rfl, rfl⟩
  rw [AddonSuccession.deliverToAddon, h.toAddon, PaletteSystem.deliverToAddon]
  cases pair.toAddon with
  | nil => exact h
  | cons message rest =>
      cases message with
      | reply serial frame => exact hran _ rest
      | signal frame => exact hran _ rest

theorem Pairs.hearAll (setup : Setup) (hname : name ≠ []) (h : Pairs name system pair) (surroundings : Surroundings κ) :
    Pairs name (system.hearAll setup surroundings) (pair.hearAll (setup.called name hname) surroundings) :=
  Queue.drain_related (fun _ _ hpairs => hpairs.deliverToAddon setup hname surroundings) (congrArg List.length h.toAddon) h

/-! ### What earlier addons have left -/

/-- The helper has so much of it still to read, and has said nothing but what it says to all. -/
structure Leftover (addon : EmojiPaletteAddon κ) (name : Bytes) (incoming : List Incoming) (system : AddonSuccession κ) :
    Prop where
  addon : system.addon = addon
  named : system.name = name
  toHelper : system.toHelper = incoming
  signals : ∀ message ∈ system.toAddon, ∃ frame, message = AddonMessage.signal frame

omit [DecidableEq κ] in
theorem Leftover.deliverToHelper {addon : EmojiPaletteAddon κ} {incoming : Incoming} {rest : List Incoming}
    (h : Leftover addon name (incoming :: rest) system)
    (hother : ∀ sender arrived, incoming = .frame sender arrived → sender ≠ name) (desktop : Desktop) :
    Leftover addon name rest (AddonSuccession.deliverToHelper setup desktop system) := by
  have hsignals : ∀ effects, ∀ message ∈ system.toAddon ++ System.signals effects,
      ∃ frame, message = AddonMessage.signal frame :=
    fun effects message hmem => (List.mem_append.mp hmem).elim (h.signals message) signal_of_mem
  rw [AddonSuccession.deliverToHelper, h.toHelper]
  cases incoming with
  | gone owner =>
      dsimp only
      split
      · exact ⟨h.addon, h.named, rfl, hsignals _⟩
      · exact ⟨h.addon, h.named, rfl, h.signals⟩
  | frame sender arrived =>
      have hsender : sender ≠ system.name := h.named ▸ hother sender arrived rfl
      dsimp only
      rw [if_neg hsender, List.append_nil]
      exact ⟨h.addon, h.named, rfl, hsignals _⟩

end AddonSuccession

/-- An addon that starts after another opens its palette with its first trigger, once everything is delivered, whatever earlier addons have left open or on the way. -/
theorem opens_across_addons {κ : Type} [DecidableEq κ] (setup : Setup) (system : AddonSuccession κ) (name : Bytes)
    (config : EmojiPaletteConfig) (layout : Option Bytes) (first second : Surroundings κ) (event : KeyEvent κ)
    (desktop : Desktop)
    (h : Reachable (AddonSuccession.Start setup) AddonSuccession.Promised (AddonSuccession.step setup) system)
    (hnonempty : name ≠ []) (hfresh : name ∉ system.names)
    (htriggers : (EmojiPaletteAddon.initial setup.installation config layout : EmojiPaletteAddon κ).triggers
      setup.installation event = true)
    (hissued : first.callIssued = true) (hsends : ∀ frame, second.sends frame = true)
    (hfocused : second.contexts.focused event.context = true)
    (hcaret : InBounds (second.contexts.cursorRect event.context)) :
    let pressed := (system.succeed setup name config layout).runAddon setup first (.key event)
    let opened := ((pressed.readAll setup desktop).hearAll setup second).readAll setup desktop
    opened.addon.controller.transaction = some first.transaction ∧
      opened.addon.session.accepts setup.helperName = true ∧ opened.toHelper = [] ∧
      opened.helper.session.transaction = some first.transaction ∧ opened.helper.window.visible = true := by
  obtain ⟨hnamed, _⟩ := AddonSuccession.named_reachable h
  obtain ⟨hunready, hidle⟩ := initial_unready setup.installation config layout
  obtain ⟨addon, hstep, hactive, hcall, hsession⟩ := step_trigger hissued event hidle hunready htriggers
  let old := (system.succeed setup name config layout).toHelper
  let greeting : HelperFrame := ⟨(EmojiPaletteAddon.hello first).frame, some first.serial⟩
  have hother : ∀ incoming ∈ old, ∀ sender arrived, incoming = .frame sender arrived → sender ≠ name := by
    rintro _ hmem sender arrived rfl rfl
    rcases List.mem_append.mp hmem with hbefore | hnew
    · exact hfresh (hnamed.senders sender arrived hbefore)
    · split at hnew
      · cases List.mem_singleton.mp hnew
      · cases hnew
  have hpressed : AddonSuccession.Leftover addon name (old ++ [.frame name greeting])
      ((system.succeed setup name config layout).runAddon setup first (.key event)) := by
    have hran : EmojiPaletteAddon.step setup.installation first (.key event)
        (system.succeed setup name config layout).addon = (addon, _) := hstep
    rw [AddonSuccession.runAddon, hran]
    exact ⟨rfl, rfl, rfl, fun _ hmem => by cases hmem⟩
  -- The helper has read what is left over, and is one of a pair.
  have hread := Queue.iterate_deliver (AddonSuccession.deliverToHelper setup desktop)
    (AddonSuccession.Leftover addon name) (fun incoming hmem _ _ hleft => hleft.deliverToHelper (hother incoming hmem) desktop)
    hpressed
  dsimp only
  generalize (system.succeed setup name config layout).runAddon setup first (.key event) = pressed at *
  rw [AddonSuccession.readAll, Queue.drain_append hpressed.toHelper hread.toHelper]
  generalize (AddonSuccession.deliverToHelper setup desktop)^[old.length] pressed = left at *
  let pair : PaletteSystem κ := ⟨addon, left.helper, [greeting], left.toAddon, left.issued⟩
  have hpairs : AddonSuccession.Pairs name left pair := ⟨hread.named, hread.addon, rfl, hread.toHelper, rfl⟩
  have hopened := ((hpairs.readAll setup hnonempty desktop).hearAll setup hnonempty second).readAll setup hnonempty desktop
  have hwaits : PaletteSystem.Waiting pair.addon first.serial ([] ++ [greeting]) pair := by
    refine ⟨rfl, rfl, fun message hmem => ?_⟩
    obtain ⟨frame, rfl⟩ := hread.signals message hmem
    exact fun hserial => by cases hserial
  obtain ⟨hended, haccepts, hnothing, htransaction, hvisible⟩ :=
    PaletteSystem.opens_of_waiting (setup.called name hnonempty) desktop
      ⟨first.serial, event.context, first.transaction, first.nonce⟩ hwaits (fun _ hmem => by cases hmem) rfl hcall
      (fun hready => hunready (hsession ▸ hready)) hactive first.transaction_valid hsends hfocused hcaret
  rw [← hopened.addon] at hended haccepts
  rw [← hopened.helper] at htransaction hvisible
  exact ⟨hended, haccepts, hopened.toHelper.trans (congrArg _ hnothing), htransaction, hvisible⟩

/-- The palette of the addon that is gone is still open when the trigger is pressed. -/
theorem opens_leftOpen :
    let succeeded := (AddonSuccession.run AddonSuccession.opening).succeed oneEmoji [58, 52] ⟨[⟨0x2E, 64, 0⟩], true⟩ none
    let pressed := succeeded.runAddon oneEmoji second (.key ⟨(), ⟨0x2E, 64, 0⟩, ⟨0x2E, 64, 0⟩, false⟩)
    let opened := ((pressed.readAll oneEmoji desk).hearAll oneEmoji RestartingSystem.third).readAll oneEmoji desk
    opened.addon.controller.transaction = some second.transaction ∧
      opened.addon.session.accepts oneEmoji.helperName = true ∧ opened.toHelper = [] ∧
      opened.helper.session.transaction = some second.transaction ∧ opened.helper.window.visible = true :=
  opens_across_addons oneEmoji (AddonSuccession.run AddonSuccession.opening) [58, 52] ⟨[⟨0x2E, 64, 0⟩], true⟩ none second
    RestartingSystem.third ⟨(), ⟨0x2E, 64, 0⟩, ⟨0x2E, 64, 0⟩, false⟩ desk
    (AddonSuccession.reachable_run AddonSuccession.along_opening) (by decide) (by decide +kernel) (by decide +kernel) rfl
    (fun _ => rfl) rfl inBounds_zero

end System

end EmojiPalette
