import EmojiPalette.System.CommandOrder
import EmojiPalette.System.LeftOpen
import EmojiPalette.Ui.WindowQuery

/-!
# The typed text and the window

The text of a search is kept twice: the addon edits its copy at once, and the window filters by the text of the last command that it has executed. What a frame or the pointer does to the window's copy is said here, and which events can leave the two apart.
-/

namespace EmojiPalette

open Ipc Trace Addon Ui Handover

namespace System

open PaletteWindow (Does)

/-! ### Texts on their way -/

def searchTexts (given : List Command) : List Bytes :=
  given.filterMap fun command => if command.kind = .searchText then some command.text else none

def textsOf (transaction : TransactionId) (payloads : List Payload) : List Bytes :=
  searchTexts (commandsOf transaction (commands payloads))

/-- What the window will filter by when the texts have arrived. -/
def upcoming (texts : List Bytes) (query : Bytes) : Bytes := texts.getLast?.getD query

@[simp] theorem textsOf_append (transaction : TransactionId) (payloads more : List Payload) :
    textsOf transaction (payloads ++ more) = textsOf transaction payloads ++ textsOf transaction more := by
  rw [textsOf, commands_append, commandsOf_append, searchTexts, List.filterMap_append]
  rfl

theorem textsOf_of_no_command {payload : Payload} (h : commands [payload] = []) (transaction : TransactionId) :
    textsOf transaction [payload] = [] := by
  rw [textsOf, h]
  rfl

theorem textsOf_command (command : Command) (transaction : TransactionId) :
    textsOf transaction [.command command] =
      if command.transaction = transaction ∧ command.kind = .searchText then [command.text] else [] := by
  have hcommands : commands [.command command] = [command] := rfl
  rw [textsOf, hcommands, commandsOf_singleton]
  by_cases hsame : command.transaction = transaction
  · by_cases hkind : command.kind = .searchText
    · simp [hsame, hkind, searchTexts]
    · simp [hsame, hkind, searchTexts]
  · simp [hsame, searchTexts]

theorem upcoming_concat (texts : List Bytes) (text query : Bytes) : upcoming (texts ++ [text]) query = text := by
  simp [upcoming]

theorem upcoming_cons (text : Bytes) (texts : List Bytes) (query : Bytes) :
    upcoming (text :: texts) query = upcoming texts text := by
  rw [upcoming, upcoming, List.getLast?_cons]
  rfl

/-! ### Events that part the two copies -/

variable {κ : Type} {setup : Setup} {system : PaletteSystem κ}

def SelectedSent (transaction : TransactionId) (toAddon : List AddonMessage) : Prop :=
  ∃ frame, .signal frame ∈ toAddon ∧
    ∃ value, payloadOf frame = some (.selected value) ∧ value.transaction = transaction

/-- A key changes the text before the helper has agreed, or while a choice that does not close the palette is on its way. -/
def TypesUntimely (setup : Setup) (surroundings : Surroundings κ) (input : EmojiPaletteAddon.Input κ)
    (system : PaletteSystem κ) : Prop :=
  ∃ text, Routed setup.installation surroundings system.addon (.search text) input ∧ text ≠ system.addon.search ∧
    (system.addon.session.state ≠ .ready ∨ system.addon.closeAfterSelection = false ∧
      ∃ transaction, system.addon.controller.transaction = some transaction ∧ SelectedSent transaction system.toAddon)

/-- A key sends a command although the numbers of the transaction are used up. -/
def Overflows (setup : Setup) (surroundings : Surroundings κ) (input : EmojiPaletteAddon.Input κ)
    (system : PaletteSystem κ) : Prop :=
  ∃ route, Routed setup.installation surroundings system.addon route input ∧ route ≠ .ignore ∧
    system.addon.commandSequence = 0xFFFFFFFF

/-- A key makes the text one that may not come through a `QString` unchanged. -/
def TypesUnkept (setup : Setup) (surroundings : Surroundings κ) (input : EmojiPaletteAddon.Input κ)
    (system : PaletteSystem κ) : Prop :=
  ∃ text, Routed setup.installation surroundings system.addon (.search text) input ∧ isPlainText text = false

/-- Both hold the transaction, its choice does not close the palette, and a text is on its way that the window does not filter by yet. -/
def TextCrosses (system : PaletteSystem κ) : Prop :=
  ∃ transaction text, system.addon.controller.transaction = some transaction ∧
    system.helper.session.transaction = some transaction ∧ system.addon.closeAfterSelection = false ∧
    (textsOf transaction (told system.toHelper)).getLast? = some text ∧ text ≠ system.helper.window.query

/-- The `Show` of an active transaction that has no text yet, and no text follows it, finds a window that is open and filters by something. -/
def Reopens (value : Show) (rest : List HelperFrame) (system : PaletteSystem κ) : Prop :=
  system.addon.controller.transaction = some value.transaction ∧ system.addon.search = [] ∧
    textsOf value.transaction (told rest) = [] ∧ system.helper.window.visible = true ∧ system.helper.window.query ≠ []

/-- None of these happens with the event. -/
def Harmless (setup : Setup) (system : PaletteSystem κ) : Event κ → Prop
  | .addon surroundings happening =>
      ¬ TypesUntimely setup surroundings happening.input system ∧
        ¬ Overflows setup surroundings happening.input system ∧ ¬ TypesUnkept setup surroundings happening.input system
  | .pointer desktop event =>
      Chooses (PaletteWindow.pointer setup.helperInstallation desktop event system.helper.window) → ¬ TextCrosses system
  | .toHelper desktop =>
      ∀ arrived rest, system.toHelper = arrived :: rest →
        (CommandChooses setup desktop arrived.frame system.helper → ¬ TextCrosses system) ∧
          ∀ value, payloadOf arrived.frame = some (.show value) → ¬ Reopens value rest system
  | .toAddon _ => True

theorem selectedSent_iff {transaction : TransactionId} {messages : List AddonMessage} :
    SelectedSent transaction messages ↔ .chosen transaction ∈ answers messages := by
  rw [answers, List.mem_filterMap]
  constructor
  · intro h
    obtain ⟨frame, hmem, value, hframe, rfl⟩ := h
    refine ⟨.signal frame, hmem, ?_⟩
    dsimp only
    rw [hframe]
    rfl
  · intro h
    obtain ⟨message, hmem, hanswer⟩ := h
    cases message with
    | reply serial frame => cases hanswer
    | signal frame =>
        obtain ⟨payload, hframe, hpayload⟩ := Option.bind_eq_some_iff.mp hanswer
        cases payload with
        | selected value =>
            cases hpayload
            exact ⟨frame, hmem, value, hframe, rfl⟩
        | _ => cases hpayload

theorem showSent_iff_mem_shows {transaction : TransactionId} {frames : List HelperFrame} :
    ShowSent transaction frames ↔ transaction ∈ shows (told frames) := by
  rw [mem_shows_iff]
  constructor
  · intro h
    obtain ⟨arrived, hmem, value, hframe, hsame⟩ := h
    exact ⟨_, List.mem_filterMap.mpr ⟨arrived, hmem, hframe⟩, decide_eq_true hsame⟩
  · intro h
    obtain ⟨payload, hmem, hshow⟩ := h
    obtain ⟨arrived, harrived, hframe⟩ := List.mem_filterMap.mp hmem
    cases payload with
    | «show» value => exact ⟨arrived, harrived, value, hframe, of_decide_eq_true hshow⟩
    | _ => cases hshow

/-! ### What the pointer does to the window -/

variable {desktop : Desktop} {helper : Helper PaletteWindow}

theorem request_runWindow (helper : Helper PaletteWindow) {program : WindowProgram PaletteWindow}
    (hdoes : Does setup.helperInstallation desktop helper.window program) :
    (Helper.runWindow (PaletteWindow.calls setup.helperInstallation desktop) program helper).1.window.request =
      helper.window.request := by
  cases hdoes with
  | nothing hkeeps => exact hkeeps.request
  | chooses hkeeps hcatalog =>
      rename_i after sequence
      rw [runWindow_chooseSequence]
      have hchosen := (hkeeps.recordChoice desktop sequence).request
      dsimp only
      rw [closed]
      split
      · exact hchosen
      · exact hchosen
  | cancels => rfl

/-- The pointer leaves the query, and ends the transaction at most. -/
theorem pointer_keeps (setup : Setup) (desktop : Desktop) (event : PaletteWindow.PointerEvent)
    (helper : Helper PaletteWindow) :
    let ran := Helper.runWindow (PaletteWindow.calls setup.helperInstallation desktop)
      (PaletteWindow.pointer setup.helperInstallation desktop event helper.window) helper
    ran.1.window.query = helper.window.query ∧ ran.1.window.request = helper.window.request ∧
      (ran.1.session.transaction = none ∨ ran.1.session = helper.session) :=
  ⟨PaletteWindow.query_runWindow (PaletteWindow.keepsSearch_pointer desktop event helper.window) helper,
    request_runWindow helper (PaletteWindow.does_pointer desktop event helper.window), (hears_runWindow _ _ _).1⟩

theorem pointer_of_none (setup : Setup) (desktop : Desktop) (event : PaletteWindow.PointerEvent)
    (hnone : helper.session.transaction = none) (hstays : helper.window.request.closeAfterSelection = false) :
    let ran := Helper.runWindow (PaletteWindow.calls setup.helperInstallation desktop)
      (PaletteWindow.pointer setup.helperInstallation desktop event helper.window) helper
    ran.1.session.transaction = none ∧ ran.1.window.visible = helper.window.visible := by
  have hdoes : Does setup.helperInstallation desktop helper.window _ :=
    PaletteWindow.does_pointer desktop event helper.window
  generalize hprogram : PaletteWindow.pointer setup.helperInstallation desktop event helper.window = program at hdoes
  dsimp only
  cases hdoes with
  | nothing hkeeps => exact ⟨hnone, hkeeps.visible⟩
  | chooses hkeeps hcatalog =>
      rename_i after sequence
      have hchosen := hkeeps.recordChoice desktop sequence
      rw [runWindow_chooseSequence]
      dsimp only
      rw [closed, hchosen.request, hstays]
      refine ⟨?_, hchosen.visible⟩
      simp only [Helper.selectionRequested, hnone]
  | cancels => exact absurd hprogram (PaletteWindow.pointer_ne_cancel desktop event _ _ _ _)

/-! ### What a frame does to the window -/

section

variable {peer frame : Bytes} {payload : Payload}

/-- Only a `Show` changes a window without a transaction. -/
theorem exchange_of_no_transaction (setup : Setup) (desktop : Desktop) (hpeer : peer ≠ [])
    (hframe : payloadOf frame = some payload) (hbound : Bound peer helper.session)
    (hnone : helper.session.transaction = none) (hshow : shows [payload] = []) :
    let exchanged := Helper.exchange (PaletteWindow.calls setup.helperInstallation desktop) frame peer helper
    exchanged.helper.session.transaction = none ∧ exchanged.helper.window = helper.window := by
  have hexchanged := exchanged_exchange (PaletteWindow.calls setup.helperInstallation desktop) hpeer frame helper
  dsimp only
  generalize Helper.exchange (PaletteWindow.calls setup.helperInstallation desktop) frame peer helper = exchanged
    at hexchanged
  cases hexchanged with
  | ignored => exact ⟨hnone, rfl⟩
  | welcomed => simp [Helper.answer, Helper.welcomePeer, hbound.2, hnone]
  | shown hother =>
      obtain rfl := Option.some.inj (hframe.symm.trans hother)
      cases hshow
  | hidden _ _ hsome => cases hnone.symm.trans hsome
  | commanded _ hsome => cases hnone.symm.trans hsome
  | pinged => exact ⟨hnone, rfl⟩

/-- A frame that is no `Show` leaves what the window was asked for, and the query unless it carries a text. -/
theorem window_exchange (hpeer : peer ≠ []) (hframe : payloadOf frame = some payload) (hshow : shows [payload] = []) :
    let after := (Helper.exchange (PaletteWindow.calls setup.helperInstallation desktop) frame peer helper).helper.window
    after.request = helper.window.request ∧
      ((∀ command, payload = .command command → command.kind ≠ .searchText) → after.query = helper.window.query) := by
  have hexchanged := exchanged_exchange (PaletteWindow.calls setup.helperInstallation desktop) hpeer frame helper
  dsimp only
  generalize Helper.exchange (PaletteWindow.calls setup.helperInstallation desktop) frame peer helper = exchanged
    at hexchanged
  cases hexchanged with
  | ignored | pinged => exact ⟨rfl, fun _ => rfl⟩
  | welcomed =>
      by_cases howner : helper.session.peerOwner = peer
      · simp [Helper.answer, Helper.welcomePeer, howner]
      · simp only [Helper.answer, Helper.welcomePeer, howner, ne_eq, not_false_eq_true, if_true]
        exact ⟨rfl, fun _ => rfl⟩
  | shown hother =>
      obtain rfl := Option.some.inj (hframe.symm.trans hother)
      cases hshow
  | hidden => exact ⟨rfl, fun _ => rfl⟩
  | commanded hother =>
      rename_i value validator _ _
      obtain rfl := Option.some.inj (hframe.symm.trans hother)
      refine ⟨?_, fun htext => ?_⟩
      · exact request_runWindow ⟨{ helper.session with sequenceValidator := validator }, helper.window⟩
          (PaletteWindow.does_handleCommand desktop value helper.window)
      · exact PaletteWindow.query_runWindow (PaletteWindow.keepsSearch_handleCommand desktop (htext _ rfl) _) _

theorem window_exchange_other {command : Command} (hpeer : peer ≠ [])
    (hframe : payloadOf frame = some (.command command))
    (hother : helper.session.transaction ≠ some command.transaction) :
    (Helper.exchange (PaletteWindow.calls setup.helperInstallation desktop) frame peer helper).helper.window =
      helper.window := by
  have hexchanged := exchanged_exchange (PaletteWindow.calls setup.helperInstallation desktop) hpeer frame helper
  generalize Helper.exchange (PaletteWindow.calls setup.helperInstallation desktop) frame peer helper = exchanged
    at hexchanged
  cases hexchanged with
  | ignored => rfl
  | commanded hheard hheld =>
      cases hframe.symm.trans hheard
      exact absurd hheld hother
  | welcomed hheard | shown hheard | hidden hheard | pinged hheard => cases hframe.symm.trans hheard

theorem window_exchange_show {value : Show} (hpeer : peer ≠ []) (hframe : payloadOf frame = some (.show value))
    (hbound : Bound peer helper.session) :
    (Helper.exchange (PaletteWindow.calls setup.helperInstallation desktop) frame peer helper).helper.window =
      helper.window.showPalette setup.helperInstallation desktop value := by
  have hexchanged := exchanged_exchange (PaletteWindow.calls setup.helperInstallation desktop) hpeer frame helper
  generalize Helper.exchange (PaletteWindow.calls setup.helperInstallation desktop) frame peer helper = exchanged
    at hexchanged
  cases hexchanged with
  | ignored hshow => exact absurd hbound (hshow value hframe)
  | shown hother =>
      obtain rfl := Payload.show.inj (Option.some.inj (hframe.symm.trans hother))
      rfl
  | welcomed hother | hidden hother | commanded hother | pinged hother => cases hframe.symm.trans hother

/-- A plain text that is accepted is what the window filters by. -/
theorem query_exchange_searchText {command : Command} (hpeer : peer ≠ [])
    (hframe : payloadOf frame = some (.command command)) (hbound : Bound peer helper.session)
    (hkind : command.kind = .searchText) (hplain : isPlainText command.text = true)
    (hheld : helper.session.transaction = some command.transaction)
    (haccepts : (helper.session.sequenceValidator.accept command.transaction command.sequence).isSome = true) :
    (Helper.exchange (PaletteWindow.calls setup.helperInstallation desktop) frame peer helper).helper.window.query =
      command.text := by
  obtain ⟨validator, haccept⟩ := Option.isSome_iff_exists.mp haccepts
  obtain ⟨⟨version, heard⟩, hparsed, hheard⟩ := Option.map_eq_some_iff.mp hframe
  obtain rfl : heard = .command command := hheard
  have hexchange : Helper.exchange (PaletteWindow.calls setup.helperInstallation desktop) frame peer helper =
      Helper.answer (Helper.executeCommand (PaletteWindow.calls setup.helperInstallation desktop) peer command validator)
        (.pong ⟨command.sequence.toUInt64⟩) helper := by
    simp [Helper.exchange, Helper.exchangeBound, hpeer, hparsed, hbound.1, hbound.2, hheld, haccept]
  have hprogram : (PaletteWindow.calls setup.helperInstallation desktop).handleCommand command helper.window =
      .done (helper.window.updateSearch setup.helperInstallation desktop (setup.qt.fromUtf8 command.text)) := by
    simp only [PaletteWindow.calls, PaletteWindow.handleCommand, hkind]
    rfl
  rw [hexchange]
  simp only [Helper.answer, Helper.executeCommand, Action.andThen, hprogram, Helper.runWindow, Action.update_apply]
  rw [PaletteWindow.query_updateSearch, setup.qt.fromUtf8_plain _ hplain]

end

end System

end EmojiPalette
