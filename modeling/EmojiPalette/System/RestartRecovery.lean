import EmojiPalette.System.Opening
import EmojiPalette.System.RestartAgreement

/-!
# The palette opens again

A trigger that is pressed while no helper runs, and what follows once a helper is started and everything is delivered: the new helper shows the palette of the new transaction. What has been left on its way to an earlier helper goes to the new one first, and changes nothing: whatever the new one says to it finds nobody who waits for it.
-/

namespace EmojiPalette

open Ipc Trace Addon Ui

namespace System

open EmojiPaletteAddon (Input)

namespace RestartingSystem

variable {κ : Type} {setup : Setup} {system : RestartingSystem κ}

def readAll (setup : Setup) (desktop : Desktop) : RestartingSystem κ → RestartingSystem κ :=
  Queue.drain toHelper (deliverToHelper setup desktop)

def hearAll [DecidableEq κ] (setup : Setup) (surroundings : Surroundings κ) : RestartingSystem κ → RestartingSystem κ :=
  Queue.drain toAddon (deliverToAddon setup surroundings)

/-! ### The two that run -/

/-- The addon and the helper of this name are the pair, and nothing is on its way but what they say to each other, and this news before what the addon hears. -/
structure Pairs (name : Bytes) (news : List BusMessage) (system : RestartingSystem κ) (pair : PaletteSystem κ) : Prop where
  addon : system.addon = pair.addon
  running : system.running = some (name, pair.helper)
  toHelper : system.toHelper = pair.toHelper
  toAddon : system.toAddon = news ++ pair.toAddon.map (.sentBy name)

variable {pair : PaletteSystem κ} {name : Bytes} {news : List BusMessage}

theorem Pairs.deliverToHelper (setup : Setup) (h : Pairs name news system pair) (desktop : Desktop) :
    Pairs name news (RestartingSystem.deliverToHelper setup desktop system)
      (PaletteSystem.deliverToHelper (setup.named name) desktop pair) := by
  rw [RestartingSystem.deliverToHelper, PaletteSystem.deliverToHelper, h.running, h.toHelper]
  cases pair.toHelper with
  | nil => exact h
  | cons arrived rest =>
      refine ⟨h.addon, rfl, rfl, ?_⟩
      dsimp only
      rw [h.toAddon, List.append_assoc, ← List.map_append]
      rfl

theorem Pairs.readAll (setup : Setup) (h : Pairs name news system pair) (desktop : Desktop) :
    Pairs name news (system.readAll setup desktop) (pair.readAll (setup.named name) desktop) :=
  Queue.drain_related (fun _ _ hpairs => hpairs.deliverToHelper setup desktop) (congrArg List.length h.toHelper) h

variable [DecidableEq κ] {first : Surroundings κ}

theorem Pairs.deliverToAddon (setup : Setup) (h : Pairs name [] system pair) (surroundings : Surroundings κ) :
    Pairs name [] (RestartingSystem.deliverToAddon setup surroundings system)
      (PaletteSystem.deliverToAddon (setup.named name) surroundings pair) := by
  have hran : ∀ (input : Input κ) (rest : List AddonMessage),
      Pairs name [] (runAddon setup surroundings input { system with toAddon := rest.map (.sentBy name) })
        (PaletteSystem.runAddon (setup.named name) surroundings input { pair with toAddon := rest }) := by
    intro input rest
    simp only [runAddon, PaletteSystem.runAddon, h.addon, h.toHelper]
    exact ⟨rfl, h.running, rfl, rfl⟩
  rw [RestartingSystem.deliverToAddon, h.toAddon, List.nil_append, PaletteSystem.deliverToAddon]
  cases hmessages : pair.toAddon with
  | nil => exact h
  | cons message rest =>
      cases message with
      | reply serial frame => exact hran _ rest
      | signal frame => exact hran _ rest

theorem Pairs.hearAll (setup : Setup) (h : Pairs name [] system pair) (surroundings : Surroundings κ) :
    Pairs name [] (system.hearAll setup surroundings) (pair.hearAll (setup.named name) surroundings) := by
  refine Queue.drain_related (fun _ _ hpairs => hpairs.deliverToAddon setup surroundings) ?_ h
  rw [h.toAddon, List.nil_append, List.length_map]

theorem Pairs.hearAll_gained (setup : Setup) (hname : name ≠ []) (h : Pairs name [.gained name] system pair)
    (surroundings : Surroundings κ) :
    Pairs name [] (system.hearAll setup surroundings) (pair.hearAll (setup.named name) surroundings) := by
  have hmessages : system.toAddon = .gained name :: pair.toAddon.map (.sentBy name) := h.toAddon
  let heard : RestartingSystem κ := { system with
    toAddon := pair.toAddon.map (.sentBy name)
    issued := system.addon.controller.transaction.toList ++ system.issued }
  have hgained : RestartingSystem.deliverToAddon setup surroundings system = heard := by
    rw [RestartingSystem.deliverToAddon, hmessages]
    dsimp only [input]
    rw [runAddon, step_gained setup.installation surroundings hname]
    simp [helperFrames, heard]
  have hpairs : Pairs name [] heard pair := ⟨h.addon, h.running, h.toHelper, rfl⟩
  rw [RestartingSystem.hearAll, Queue.drain_cons hmessages (congrArg RestartingSystem.toAddon hgained), hgained]
  exact hpairs.hearAll setup surroundings

/-! ### From the press to the palette -/

/-- The trigger leaves a call behind, and its transaction waits. -/
theorem run_trigger (hissued : first.callIssued = true) (event : KeyEvent κ)
    (hidle : system.addon.controller.transaction = none) (hunready : system.addon.session.state ≠ .ready)
    (htriggers : system.addon.triggers setup.installation event = true) :
    let after := runAddon setup first (.key event) system
    after.addon.controller.transaction = some first.transaction ∧
      after.addon.pendingCall = some ⟨first.serial, event.context, first.transaction, first.nonce⟩ ∧
      after.addon.session.state ≠ .ready ∧
      after = { system with
        addon := after.addon
        toHelper := system.toHelper ++ [⟨(EmojiPaletteAddon.hello first).frame, some first.serial⟩]
        issued := after.issued
        serials := after.serials } := by
  obtain ⟨addon, hstep, hactive, hcall, hsession⟩ := step_trigger hissued event hidle hunready htriggers
  dsimp only
  unfold runAddon
  rw [hstep]
  exact ⟨hactive, hcall, fun hready => hunready (hsession ▸ hready), rfl⟩

end RestartingSystem

/-- A trigger that is pressed while no helper runs and all has been heard of those that ran opens the palette of the helper that is started then, once everything is delivered. -/
theorem opens_after_restart {κ : Type} [DecidableEq κ] (setup : Setup) (system : RestartingSystem κ)
    (first second : Surroundings κ) (event : KeyEvent κ) (name : Bytes) (desktop : Desktop) (state : PersistentState)
    (cellSize : Int)
    (h : Reachable (RestartingSystem.Start setup) RestartingSystem.Promised (RestartingSystem.step setup) system)
    (hnone : system.running = none) (hheard : system.toAddon = []) (hidle : system.addon.controller.transaction = none)
    (htriggers : system.addon.triggers setup.installation event = true) (hfirst : RestartingSystem.Lossless system first)
    (hname : name ≠ []) (hsends : ∀ frame, second.sends frame = true)
    (hfocused : second.contexts.focused event.context = true)
    (hcaret : InBounds (second.contexts.cursorRect event.context)) :
    let started := (system.runAddon setup first (.key event)).start setup name desktop state cellSize
    let opened := ((started.readAll setup desktop).hearAll setup second).readAll setup desktop
    opened.addon.controller.transaction = some first.transaction ∧ opened.addon.session.accepts name = true ∧
      opened.toHelper = [] ∧ ∃ helper, opened.running = some (name, helper) ∧
        helper.session.transaction = some first.transaction ∧ helper.window.visible = true := by
  have hwired := (RestartingSystem.wired_and_follows h).1
  have hunready : system.addon.session.state ≠ .ready := by
    intro hready
    obtain ⟨_, _, owner, _, _, hupheld⟩ := hwired.ready hready
    rw [RestartingSystem.owner, hnone, hheard] at hupheld
    rcases hupheld with ⟨hrunning, _⟩ | hlost
    · cases hrunning
    · cases hlost
  have hpressed : RestartingSystem.Wired (system.runAddon setup first (.key event)) := hwired.happening hfirst (.key event)
  obtain ⟨hactive, hcall, hwaiting, hafter⟩ :=
    RestartingSystem.run_trigger hfirst.lossless.callIssued event hidle hunready htriggers
  dsimp only
  generalize system.runAddon setup first (.key event) = pressed at *
  have hframes : pressed.toHelper = system.toHelper ++ [⟨(EmojiPaletteAddon.hello first).frame, some first.serial⟩] :=
    congrArg RestartingSystem.toHelper hafter
  have hmessages : pressed.toAddon = [] := (congrArg RestartingSystem.toAddon hafter).trans hheard
  have hdistinct := (List.nodup_append.mp hpressed.distinct).1
  rw [hframes, callsIn_append] at hdistinct
  have hstale : ∀ arrived ∈ system.toHelper, arrived.serial ≠ some first.serial := by
    intro arrived hmem hserial
    exact (List.nodup_append.mp hdistinct).2.2 first.serial (List.mem_filterMap.mpr ⟨arrived, hmem, hserial⟩)
      first.serial (List.mem_singleton_self _) rfl
  let helper : Helper PaletteWindow := ⟨.initial, .initial setup.helperInstallation desktop state cellSize⟩
  let pair : PaletteSystem κ := ⟨pressed.addon, helper, pressed.toHelper, [], pressed.issued⟩
  have hstarted : RestartingSystem.Pairs name [.gained name] (pressed.start setup name desktop state cellSize) pair := by
    refine ⟨rfl, rfl, rfl, ?_⟩
    rw [RestartingSystem.start, hmessages]
    rfl
  have hpairs := ((hstarted.readAll setup desktop).hearAll_gained setup hname second).readAll setup desktop
  have hwaits : PaletteSystem.Waiting pair.addon first.serial
      (system.toHelper ++ [⟨(EmojiPaletteAddon.hello first).frame, some first.serial⟩]) pair :=
    ⟨rfl, hframes, fun _ hmem => by cases hmem⟩
  obtain ⟨hended, haccepts, hnothing, htransaction, hvisible⟩ := PaletteSystem.opens_of_waiting (setup.named name) desktop
    ⟨first.serial, event.context, first.transaction, first.nonce⟩ hwaits hstale rfl hcall hwaiting hactive
    first.transaction_valid hsends hfocused hcaret
  rw [← hpairs.addon] at hended haccepts
  exact ⟨hended, haccepts, hpairs.toHelper.trans hnothing, _, hpairs.running, htransaction, hvisible⟩

/-! ### A run -/

namespace RestartingSystem

/-- The helper has ended, and the `Show` that it has not read is still on its way. -/
def ended : List (Event Unit) :=
  [.starts [58, 50] desk ⟨[], []⟩ 48, .addon first press, .toHelper desk, .toAddon second, .toAddon second, .ends 0,
    .toAddon second]

theorem along_ended : Along Promised (RestartingSystem.step oneEmoji) ended alone :=
  ⟨⟨rfl, by decide, by decide⟩, ⟨⟨fun _ => rfl, rfl, by decide +kernel⟩, by decide +kernel⟩, trivial,
    lossless_second (by decide +kernel) (by decide +kernel), lossless_second (by decide +kernel) (by decide +kernel), trivial,
    lossless_second (by decide +kernel) (by decide +kernel), trivial⟩

end RestartingSystem

theorem opens_ended :
    let pressed := (RestartingSystem.run RestartingSystem.ended).runAddon oneEmoji RestartingSystem.second
      (.key ⟨(), ⟨0x2E, 64, 0⟩, ⟨0x2E, 64, 0⟩, false⟩)
    let started := pressed.start oneEmoji [58, 51] desk ⟨[], []⟩ 48
    let opened := ((started.readAll oneEmoji desk).hearAll oneEmoji RestartingSystem.third).readAll oneEmoji desk
    opened.addon.controller.transaction = some RestartingSystem.second.transaction ∧
      opened.addon.session.accepts [58, 51] = true ∧ opened.toHelper = [] ∧ ∃ helper,
        opened.running = some ([58, 51], helper) ∧
          helper.session.transaction = some RestartingSystem.second.transaction ∧ helper.window.visible = true :=
  opens_after_restart oneEmoji (RestartingSystem.run RestartingSystem.ended) RestartingSystem.second RestartingSystem.third
    ⟨(), ⟨0x2E, 64, 0⟩, ⟨0x2E, 64, 0⟩, false⟩ [58, 51] desk ⟨[], []⟩ 48
    (RestartingSystem.reachable_run RestartingSystem.along_ended) rfl (by decide +kernel) (by decide +kernel)
    (by decide +kernel) (RestartingSystem.lossless_second (by decide +kernel) (by decide +kernel)) (by decide)
    (fun _ => rfl) rfl inBounds_zero

end System

end EmojiPalette
