import EmojiPalette.System.AddonSuccession
import EmojiPalette.System.HelperSide

/-!
# The watcher follows the owner

The helper's watcher is set to the owner of its session at any time, so the end of an owner is heard of and the end of anybody else is not. Whoever owns the session or has left something in the queue is an addon that the bus has named, and the next addon is none of them.
-/

namespace EmojiPalette

open Ipc Trace Addon Ui

namespace System

/-! ### The owner of the helper -/

@[simp]
theorem watch_outgoing (payload : Payload) (watched : Bytes) : watch (Helper.outgoing payload) watched = watched := by
  unfold Helper.outgoing
  cases serialize ⟨protocolVersion, payload⟩ <;> rfl

theorem watch_append (effects more : List Effect) (watched : Bytes) :
    watch (effects ++ more) watched = watch more (watch effects watched) := List.foldl_append

/-- No slot concerns the owner. -/
theorem owner_slot {ω : Type} (calls : WindowCalls ω) (signal : WindowSignal) (helper : Helper ω) :
    (Helper.slot calls signal helper).1.session.peerOwner = helper.session.peerOwner ∧
      ∀ watched, watch (Helper.slot calls signal helper).2 watched = watched := by
  cases signal with
  | selectionRequested sequence =>
      simp only [Helper.slot, Helper.selectionRequested]
      split
      · exact ⟨rfl, fun _ => rfl⟩
      · exact ⟨rfl, watch_outgoing _⟩
  | cancellationRequested reason =>
      simp only [Helper.slot, Helper.reset]
      split
      · exact ⟨rfl, watch_outgoing _⟩
      · exact ⟨rfl, fun _ => rfl⟩

theorem owner_runWindow {ω : Type} (calls : WindowCalls ω) (program : WindowProgram ω) (helper : Helper ω) :
    (Helper.runWindow calls program helper).1.session.peerOwner = helper.session.peerOwner ∧
      ∀ watched, watch (Helper.runWindow calls program helper).2 watched = watched := by
  induction program generalizing helper with
  | done window => exact ⟨rfl, fun _ => rfl⟩
  | emit window signal next ih =>
      obtain ⟨howner, hwatch⟩ := owner_slot calls signal { helper with window := window }
      obtain ⟨howner', hwatch'⟩ := ih (Helper.slot calls signal { helper with window := window }).1.window
        (Helper.slot calls signal { helper with window := window }).1
      refine ⟨howner'.trans howner, fun watched => ?_⟩
      -- The window's own step has no effects.
      have heffects : (Helper.runWindow calls (.emit window signal next) helper).2 =
          (Helper.slot calls signal { helper with window := window }).2 ++
            (Helper.runWindow calls (next (Helper.slot calls signal { helper with window := window }).1.window)
              (Helper.slot calls signal { helper with window := window }).1).2 := rfl
      rw [heffects, watch_append, hwatch, hwatch']

section

variable {calls : WindowCalls PaletteWindow} {sender frame : Bytes} {helper : Helper PaletteWindow}
  {exchange : Helper.Exchange PaletteWindow}

/-- A helper is left to its owner, or becomes the sender's. -/
theorem Exchanged.peerOwner (h : Exchanged calls sender frame helper exchange) :
    exchange.helper.session.peerOwner = helper.session.peerOwner ∨ exchange.helper.session.peerOwner = sender := by
  cases h with
  | welcomed =>
      refine Or.inr ?_
      by_cases howner : helper.session.peerOwner = sender
      · simp [Helper.answer, Helper.welcomePeer, howner]
      · simp [Helper.answer, Helper.welcomePeer, howner]
  | commanded =>
      rename_i value validator _ _ _
      exact Or.inl (owner_runWindow calls (calls.handleCommand value helper.window)
        ⟨{ helper.session with sequenceValidator := validator }, helper.window⟩).1
  | _ => exact Or.inl rfl

/-- The watcher stays with the owner. -/
theorem Exchanged.watched (h : Exchanged calls sender frame helper exchange) :
    watch exchange.effects helper.session.peerOwner = exchange.helper.session.peerOwner := by
  cases h with
  | welcomed =>
      by_cases howner : helper.session.peerOwner = sender
      · simp [Helper.answer, Helper.welcomePeer, howner, watch]
      · simp [Helper.answer, Helper.welcomePeer, Helper.reset, howner, watch]
  | commanded =>
      rename_i value validator _ _ _
      obtain ⟨howner, hwatch⟩ := owner_runWindow calls (calls.handleCommand value helper.window)
        ⟨{ helper.session with sequenceValidator := validator }, helper.window⟩
      exact (hwatch _).trans howner.symm
  | _ => rfl

end

namespace AddonSuccession

variable {κ : Type} {setup : Setup} {system : AddonSuccession κ}

/-- The news of the owner's end leaves the helper to nobody. -/
theorem deliverToHelper_gone (desktop : Desktop) (hwatched : system.watched = system.helper.session.peerOwner)
    {rest : List Incoming} (hframes : system.toHelper = .gone system.helper.session.peerOwner :: rest) :
    deliverToHelper setup desktop system =
      { system with helper := ⟨.initial, system.helper.window.hidePalette⟩, watched := [], toHelper := rest } := by
  have hran : Helper.peerDisconnected (PaletteWindow.calls setup.helperInstallation desktop) system.helper.session.peerOwner
      system.helper = (⟨.initial, system.helper.window.hidePalette⟩, [.peerChanged []]) := by
    rw [Helper.peerDisconnected, if_pos rfl]
    rfl
  rw [deliverToHelper, hframes]
  dsimp only
  rw [if_pos hwatched.symm, hran]
  exact congrArg (fun messages => { system with
    helper := ⟨.initial, system.helper.window.hidePalette⟩, watched := [], toHelper := rest, toAddon := messages })
      (List.append_nil _)

/-! ### Names -/

/-- Nobody is spoken of whom the bus has not named, and the watcher is set to the owner. -/
structure Named (system : AddonSuccession κ) : Prop where
  name : system.name ∈ system.names
  nonempty : [] ∉ system.names
  watched : system.watched = system.helper.session.peerOwner
  owner : system.helper.session.peerOwner ≠ [] → system.helper.session.peerOwner ∈ system.names
  senders : ∀ sender arrived, .frame sender arrived ∈ system.toHelper → sender ∈ system.names

theorem Named.peerOwner_ne (h : Named system) {name : Bytes} (hnonempty : name ≠ []) (hfresh : name ∉ system.names) :
    system.helper.session.peerOwner ≠ name := by
  rintro rfl
  exact hfresh (h.owner hnonempty)

theorem Named.name_ne_nil (h : Named system) : system.name ≠ [] := fun hempty => h.nonempty (hempty ▸ h.name)

theorem named_start (h : Start setup system) : Named system := by
  obtain ⟨config, layout, desktop, state, cellSize, rfl⟩ := h
  exact {
    name := List.mem_singleton.mpr rfl
    nonempty := fun hempty => setup.addonName_ne_nil (List.mem_singleton.mp hempty).symm
    watched := rfl
    owner := fun howner => absurd rfl howner
    senders := fun _ _ hmem => by cases hmem }

theorem Named.point (h : Named system) (desktop : Desktop) (event : PaletteWindow.PointerEvent) :
    Named (point setup desktop event system) := by
  unfold AddonSuccession.point
  split
  · obtain ⟨howner, hwatch⟩ := owner_runWindow (PaletteWindow.calls setup.helperInstallation desktop)
      (PaletteWindow.pointer setup.helperInstallation desktop event system.helper.window) system.helper
    exact { h with
      watched := (hwatch _).trans (h.watched.trans howner.symm)
      owner := fun hsome => by rw [howner] at hsome ⊢; exact h.owner hsome }
  · exact h

theorem Named.toHelper (h : Named system) (desktop : Desktop) : Named (deliverToHelper setup desktop system) := by
  cases hframes : system.toHelper with
  | nil =>
      rw [deliverToHelper, hframes]
      exact h
  | cons incoming rest =>
      have hrest : ∀ sender arrived, .frame sender arrived ∈ rest → sender ∈ system.names := fun sender arrived hmem =>
        h.senders sender arrived (hframes ▸ List.mem_cons_of_mem _ hmem)
      cases incoming with
      | gone owner =>
          by_cases howner : owner = system.helper.session.peerOwner
          · rw [howner] at hframes
            rw [deliverToHelper_gone desktop h.watched hframes]
            exact { h with watched := rfl, owner := fun hsome => absurd rfl hsome, senders := hrest }
          · rw [deliverToHelper, hframes]
            dsimp only
            rw [if_neg fun hwatched => howner (hwatched.trans h.watched)]
            exact { h with senders := hrest }
      | frame sender arrived =>
          have hsender : sender ∈ system.names := h.senders sender arrived (hframes ▸ List.mem_cons_self)
          have hexchanged := exchanged_exchange (PaletteWindow.calls setup.helperInstallation desktop)
            (fun hempty => h.nonempty (hempty ▸ hsender)) arrived.frame system.helper
          rw [deliverToHelper, hframes]
          refine { h with
            watched := ?_
            owner := fun hsome => ?_
            senders := hrest }
          · rw [h.watched]
            exact hexchanged.watched
          · rcases hexchanged.peerOwner with hsame | hnew
            · rw [hsame] at hsome ⊢
              exact h.owner hsome
            · rw [hnew]
              exact hsender

theorem Named.succeed (h : Named system) {name : Bytes} (hnonempty : name ≠ []) (config : EmojiPaletteConfig)
    (layout : Option Bytes) : Named (succeed setup name config layout system) :=
  { h with
    name := List.mem_cons_self
    nonempty := fun hempty => (List.mem_cons.mp hempty).elim (fun hname => hnonempty hname.symm) h.nonempty
    owner := fun howner => List.mem_cons_of_mem _ (h.owner howner)
    senders := fun sender arrived hmem => by
      rcases List.mem_append.mp hmem with hbefore | hnew
      · exact List.mem_cons_of_mem _ (h.senders sender arrived hbefore)
      · split at hnew
        · cases List.mem_singleton.mp hnew
        · cases hnew }

section

variable [DecidableEq κ]

theorem Named.ran (h : Named system) (input : EmojiPaletteAddon.Input κ) (messages : List AddonMessage) :
    Named (runAddon setup surroundings input { system with toAddon := messages }) :=
  { h with
    senders := fun sender arrived hmem => by
      rcases List.mem_append.mp hmem with hbefore | hnew
      · exact h.senders sender arrived hbefore
      · obtain ⟨_, _, hframe⟩ := List.mem_map.mp hnew
        cases hframe
        exact h.name }

theorem Named.step (h : Named system) {event : Event κ} (hpromised : Promised system event) :
    Named (step setup event system) := by
  cases event with
  | addon surroundings happening => exact h.ran happening.input system.toAddon
  | pointer desktop event => exact h.point desktop event
  | toHelper desktop => exact h.toHelper desktop
  | toAddon surroundings =>
      rw [AddonSuccession.step, deliverToAddon]
      split
      · exact h
      · exact h.ran _ _
      · exact h.ran _ _
  | succeeds name config layout => exact h.succeed hpromised.1 config layout

end

end AddonSuccession

end System

end EmojiPalette
