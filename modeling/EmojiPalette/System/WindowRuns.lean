import EmojiPalette.System.Ledger
import EmojiPalette.System.SearchAgreement
import EmojiPalette.Ui.ListedRecords

/-!
# The window in the system

What the events of the system do to the helper's window is what its own operations do: a `Show`, a hide, or a command or a pointer that runs until no slot is left. What holds of the window after every run of its own therefore holds in every state of the system, and what it has announced covers what has been chosen, and so what has been committed.
-/

namespace EmojiPalette

open Ipc Trace Addon Ui Handover

namespace System

open PaletteWindow (Fresh Moves Changes choices afterSlots)

/-! ### What an event does to the window -/

/-- What can become of the window in one event, and the choices it announces with it. -/
inductive Touched (installation : HelperInstallation) (before : PaletteWindow) : PaletteWindow → List Bytes → Prop
  | untouched : Touched installation before before []
  | shown (desktop : Desktop) (request : Show) :
      Touched installation before (before.showPalette installation desktop request) []
  | hidden : Touched installation before before.hidePalette []
  | commanded (desktop : Desktop) (command : Command) :
      Touched installation before (afterSlots (before.handleCommand installation desktop command))
        (choices (before.handleCommand installation desktop command))
  | pointed (desktop : Desktop) (event : PaletteWindow.PointerEvent) :
      Touched installation before (afterSlots (before.pointer installation desktop event))
        (choices (before.pointer installation desktop event))

theorem Touched.fresh {installation : HelperInstallation} {before after : PaletteWindow} {announced : List Bytes}
    (h : Touched installation before after announced) (hfresh : before.Fresh installation.catalog) :
    after.Fresh installation.catalog := by
  cases h with
  | untouched => exact hfresh
  | shown desktop request => exact hfresh.showPalette desktop request
  | hidden => exact hfresh.hidePalette
  | commanded desktop command => exact hfresh.handleCommand desktop command
  | pointed desktop event => exact hfresh.pointer desktop event

theorem Touched.moves {installation : HelperInstallation} {before after : PaletteWindow} {announced : List Bytes}
    (h : Touched installation before after announced) (hwithin : before.WithinCatalog installation.catalog) :
    Moves installation before after announced := by
  cases h with
  | untouched => exact PaletteWindow.moves_of_keeps hwithin (PaletteWindow.Keeps.refl _ before) rfl
  | shown desktop request => exact PaletteWindow.moves_operate hwithin (.showPalette desktop request)
  | hidden => exact PaletteWindow.moves_operate hwithin .hidePalette
  | commanded desktop command => exact PaletteWindow.moves_operate hwithin (.handleCommand desktop command)
  | pointed desktop event => exact PaletteWindow.moves_pointer hwithin desktop event

/-! ### The choices that go out -/

variable {setup : Setup} {desktop : Desktop} {helper : Helper PaletteWindow}

theorem selections_signal {payload : Payload} (hvalid : payload.Valid) :
    selections [.signal payload.frame] = match payload with
      | .selected value => [value]
      | _ => [] := by
  rw [selections]
  cases payload <;> simp [payloadOf_frame hvalid]

/-- A choice goes out only if it has been announced. -/
theorem selections_runWindow (h : Sound setup.installation.catalog helper) {program : WindowProgram PaletteWindow}
    (hdoes : PaletteWindow.Does setup.helperInstallation desktop helper.window program) :
    List.Sublist ((selections (signals (Helper.runWindow (PaletteWindow.calls setup.helperInstallation desktop) program
      helper).2)).map Selected.sequence) (choices program) := by
  cases hdoes with
  | nothing hkeeps => exact List.Sublist.slnil
  | chooses hkeeps hcatalog =>
      rename_i after sequence
      obtain ⟨record, hrecord, rfl⟩ := hcatalog h.withinCatalog
      obtain ⟨hnonempty, htext, hplain⟩ := setup.sequence_fits record hrecord
      rw [runWindow_chooseSequence, PaletteWindow.chooseSequence, choices, Helper.selectionRequested]
      cases htransaction : helper.session.transaction with
      | none => exact List.nil_sublist _
      | some transaction =>
          have hvalid : (Payload.selected ⟨transaction, setup.qt.fromUtf8 record.sequence⟩).Valid := by
            rw [setup.qt.fromUtf8_plain record.sequence hplain]
            exact ⟨(h.shown transaction htransaction).1, htext, hnonempty⟩
          dsimp only
          rw [signals_outgoing hvalid, selections_signal hvalid]
          exact (List.nil_sublist _).cons_cons _
  | cancels =>
      have hran : Helper.runWindow (PaletteWindow.calls setup.helperInstallation desktop)
          (.emit helper.window (.cancellationRequested .user) .done) helper =
            Helper.reset (PaletteWindow.calls setup.helperInstallation desktop) .user true helper := by
        simp [Helper.runWindow, Helper.slot, Helper.reset, Action.andThen]
      rw [hran]
      unfold Helper.reset
      cases htransaction : helper.session.transaction with
      | none => exact List.nil_sublist _
      | some transaction =>
          have hvalid : (Payload.cancelled ⟨transaction, .user⟩).Valid := (h.shown transaction htransaction).1
          dsimp only
          rw [signals_outgoing hvalid, selections_signal hvalid]
          exact List.nil_sublist _

/-- A frame touches the window, and the choices that go out with it were announced. -/
theorem touched_exchange (h : Sound setup.installation.catalog helper) (desktop : Desktop) (frame : Bytes) :
    let exchanged := Helper.exchange (PaletteWindow.calls setup.helperInstallation desktop) frame setup.addonName helper
    ∃ announced, Touched setup.helperInstallation helper.window exchanged.helper.window announced ∧
      List.Sublist ((selections (signals exchanged.effects)).map Selected.sequence) announced := by
  have hexchanged := exchanged_exchange (PaletteWindow.calls setup.helperInstallation desktop) setup.addonName_ne_nil
    frame helper
  dsimp only
  generalize Helper.exchange (PaletteWindow.calls setup.helperInstallation desktop) frame setup.addonName helper =
    exchanged at hexchanged
  cases hexchanged with
  | ignored => exact ⟨_, .untouched, List.Sublist.slnil⟩
  | pinged => exact ⟨_, .untouched, List.Sublist.slnil⟩
  | welcomed =>
      by_cases howner : helper.session.peerOwner = setup.addonName
      · simp only [Helper.answer, Helper.welcomePeer, howner, ne_eq, not_true_eq_false, if_false]
        exact ⟨_, .untouched, List.Sublist.slnil⟩
      · simp only [Helper.answer, Helper.welcomePeer, howner, ne_eq, not_false_eq_true, if_true]
        exact ⟨_, .hidden, List.Sublist.slnil⟩
  | shown => exact ⟨_, .shown desktop _, List.Sublist.slnil⟩
  | hidden => exact ⟨_, .hidden, List.Sublist.slnil⟩
  | commanded =>
      rename_i value validator _ _ _
      have hchosen := selections_runWindow (h.withValidator validator)
        (PaletteWindow.does_handleCommand desktop value helper.window)
      have hwindow : (Helper.executeCommand (PaletteWindow.calls setup.helperInstallation desktop) setup.addonName value
          validator helper).1.window = afterSlots (helper.window.handleCommand setup.helperInstallation desktop value) :=
        PaletteWindow.runWindow_window desktop _ _
      refine ⟨_, ?_, hchosen⟩
      rw [Helper.answer, hwindow]
      exact .commanded desktop value

/-! ### At the start -/

/-- The rows are the ones asked for, the state has come from the loaded one by what was announced, and that covers what was chosen. -/
structure Used {κ : Type} (setup : Setup) (loaded : PersistentState) (ledger : Ledger κ) : Prop where
  accounted : Accounted setup ledger
  fresh : ledger.system.helper.window.Fresh setup.installation.catalog
  moved : ∃ announced, Changes setup.helperInstallation loaded ledger.system.helper.window.state announced ∧
    List.Sublist (ledger.chosen.map Selected.sequence) announced

/-- The ledger before anything has happened to what was loaded. -/
def Ledger.initial {κ : Type} (setup : Setup) (config : EmojiPaletteConfig) (layout : Option Bytes) (desktop : Desktop)
    (loaded : PersistentState) (cellSize : Int) : Ledger κ :=
  ⟨.initial setup config layout desktop loaded cellSize, [], [], [], []⟩

theorem used_initial {κ : Type} (setup : Setup) (config : EmojiPaletteConfig) (layout : Option Bytes) (desktop : Desktop)
    (loaded : PersistentState) (cellSize : Int) :
    Used setup loaded (Ledger.initial (κ := κ) setup config layout desktop loaded cellSize) := by
  refine ⟨accounted_start ⟨⟨config, layout, desktop, loaded, cellSize, rfl⟩, rfl, rfl, rfl, rfl⟩,
    PaletteWindow.fresh_initial setup.helperInstallation desktop loaded cellSize, [], ?_, List.Sublist.slnil⟩
  have hloaded : (PaletteWindow.initial setup.helperInstallation desktop loaded cellSize).state = loaded :=
    PaletteWindow.setCategory_state desktop 2 _
  rw [Ledger.initial, PaletteSystem.initial, hloaded]
  exact Changes.refl setup.helperInstallation loaded

theorem exists_change_of_use {changes : List PersistentState.Operation} {use : Bytes × Int64}
    (h : use ∈ PersistentState.uses changes) : ∃ change ∈ changes, change.sequence = use.1 := by
  obtain ⟨change, hchange, huse⟩ := List.mem_filterMap.mp h
  cases change with
  | toggleFavorite sequence => cases huse
  | recordUse sequence timestamp =>
      cases huse
      exact ⟨_, hchange, rfl⟩

/-! ### One event -/

section

variable {κ : Type} [DecidableEq κ] {system : PaletteSystem κ} {event : Event κ}

theorem touched_step (h : Inv setup system) (event : Event κ) :
    ∃ announced, Touched setup.helperInstallation system.helper.window
        (PaletteSystem.step setup event system).helper.window announced ∧
      List.Sublist ((selections (signalling setup event system)).map Selected.sequence) announced := by
  cases event with
  | addon surroundings happening => exact ⟨_, .untouched, List.Sublist.slnil⟩
  | toAddon surroundings =>
      refine ⟨[], ?_, List.Sublist.slnil⟩
      have hwindow : (PaletteSystem.step setup (.toAddon surroundings) system).helper = system.helper := by
        rw [PaletteSystem.step, PaletteSystem.deliverToAddon]
        split <;> rfl
      rw [hwindow]
      exact .untouched
  | pointer desktop event =>
      rw [PaletteSystem.step, PaletteSystem.point, signalling]
      split
      · have hchosen := selections_runWindow h.helper (PaletteWindow.does_pointer desktop event system.helper.window)
        refine ⟨_, ?_, hchosen⟩
        dsimp only
        rw [PaletteWindow.runWindow_window]
        exact .pointed desktop event
      · exact ⟨_, .untouched, List.Sublist.slnil⟩
  | toHelper desktop =>
      rw [PaletteSystem.step, PaletteSystem.deliverToHelper, signalling]
      cases hframes : system.toHelper with
      | nil => exact ⟨_, .untouched, List.Sublist.slnil⟩
      | cons arrived rest => exact touched_exchange h.helper desktop arrived.frame

/-! ### Every run -/

theorem Used.step {loaded : PersistentState} {ledger : Ledger κ} (h : Used setup loaded ledger)
    (hpromised : Promised ledger.system event) : Used setup loaded (ledger.step setup event) := by
  obtain ⟨earlier, hchanges, hearlier⟩ := h.moved
  obtain ⟨announced, htouched, hannounced⟩ := touched_step h.accounted.inv event
  refine ⟨h.accounted.step hpromised, htouched.fresh h.fresh, earlier ++ announced, ?_, ?_⟩
  · exact hchanges.trans (htouched.moves h.accounted.inv.helper.withinCatalog).changes
  · rw [Ledger.step, List.map_append]
    exact hearlier.append hannounced

/-- In every run the state comes from the loaded one by uses and favorites of what the catalog has. Whatever has been committed was chosen before, and whatever was chosen is among the uses, all in their order. -/
theorem uses_accounted (setup : Setup) (config : EmojiPaletteConfig) (layout : Option Bytes) (desktop : Desktop)
    (loaded : PersistentState) (cellSize : Int) (ledger : Ledger κ)
    (h : Reachable (fun start => start = Ledger.initial setup config layout desktop loaded cellSize) Ledger.Promised
      (Ledger.step setup) ledger) :
    ∃ changes : List PersistentState.Operation,
      ledger.system.helper.window.state = PersistentState.run changes loaded ∧
      (∀ change ∈ changes, setup.installation.catalog.contains change.sequence = true) ∧
      List.Sublist (ledger.chosen.map Selected.sequence) ((PersistentState.uses changes).map Prod.fst) ∧
      List.Sublist (ledger.typed.map Typed.sequence) (ledger.chosen.map Selected.sequence) := by
  have hused : Used setup loaded ledger := by
    refine h.invariant (fun start hstart => ?_) fun _ _ hbefore hpromised => hbefore.step hpromised
    rw [hstart]
    exact used_initial setup config layout desktop loaded cellSize
  obtain ⟨announced, ⟨changes, hstate, hcatalog, hannounced⟩, hchosen⟩ := hused.moved
  refine ⟨changes, hstate, fun change hchange => EmojiCatalog.contains_iff.mpr (hcatalog change hchange), ?_, ?_⟩
  · have hsame : announced = (PersistentState.uses changes).map Prod.fst := by
      rw [hannounced]
      refine List.map_congr_left fun use huse => ?_
      obtain ⟨change, hchange, hused⟩ := exists_change_of_use huse
      obtain ⟨record, hrecord, hsequence⟩ := hcatalog change hchange
      have hplain := (setup.sequence_fits record hrecord).2.2
      rw [hsequence, hused] at hplain
      exact setup.qt.fromUtf8_plain use.1 hplain
    exact hsame ▸ hchosen
  · have htyped : ledger.typed.map Typed.sequence = (accepted ledger.settled).map Selected.sequence := by
      have hpairs := congrArg (List.map Prod.snd) hused.accounted.typed
      rwa [List.map_map, List.map_map] at hpairs
    rw [htyped, hused.accounted.chosen, List.map_append]
    exact ((accepted_sublist ledger.settled).map _).trans (List.sublist_append_left _ _)

end

/-- Two choices and two uses, and one text that was committed. -/
theorem uses_accounted_chosenTwice :
    ∃ changes : List PersistentState.Operation,
      (account chosenTwice).system.helper.window.state = PersistentState.run changes ⟨[], []⟩ ∧
      List.Sublist ((account chosenTwice).chosen.map Selected.sequence) ((PersistentState.uses changes).map Prod.fst) ∧
      List.Sublist ((account chosenTwice).typed.map Typed.sequence)
        ((account chosenTwice).chosen.map Selected.sequence) := by
  have hreachable : Reachable
      (fun start => start = Ledger.initial oneEmoji ⟨[⟨0x2E, 64, 0⟩], false⟩ none desk ⟨[], []⟩ 48) Ledger.Promised
      (Ledger.step oneEmoji) (account chosenTwice) := by
    refine Reachable.run chosenTwice (.start rfl) ?_
    exact ⟨⟨fun _ => rfl, rfl, by decide +kernel⟩, trivial, ⟨fun _ => rfl, rfl, by decide +kernel⟩, trivial, trivial,
      ⟨fun _ => rfl, rfl, by decide +kernel⟩, trivial, trivial, ⟨fun _ => rfl, rfl, by decide +kernel⟩,
      ⟨fun _ => rfl, rfl, by decide +kernel⟩, trivial⟩
  obtain ⟨changes, hstate, _, hchosen, htyped⟩ := uses_accounted oneEmoji _ _ _ _ _ _ hreachable
  exact ⟨changes, hstate, hchosen, htyped⟩

end System

end EmojiPalette
