import EmojiPalette.System.Agreement

/-!
# No palette is left open

A palette that stays open after a choice waits for the next `Show`. Three things can keep the `Show` from coming, and nothing else does. The context is lost while the choice is on its way, and the `Hide` finds no transaction to end. The choice is made while a `Hide` of its transaction is on its way, and the addon has nothing left to ask for. Or the addon refuses the choice, or cannot ask again after it, and says nothing at all. If a run avoids these, whatever is visible once everything has arrived is the addon's transaction.
-/

namespace EmojiPalette

open Ipc Trace Addon Ui Handover

namespace System

variable {κ : Type} {setup : Setup} {system : PaletteSystem κ}

/-! ### The condition -/

/-- The window is open, its choice is made, and no `Show` is on its way. -/
def Waiting (system : PaletteSystem κ) : Prop :=
  system.helper.window.visible = true ∧ system.helper.session.transaction = none ∧
    ∀ transaction, ¬ ShowSent transaction system.toHelper

/-- A choice would leave the window open although its transaction is about to be hidden. -/
def Doomed (system : PaletteSystem κ) : Prop :=
  system.helper.window.request.closeAfterSelection = false ∧
    (∃ transaction, system.helper.session.transaction = some transaction ∧ HideSent transaction system.toHelper) ∧
    ∀ transaction, ¬ ShowSent transaction system.toHelper

/-- The event neither takes the context from a palette that waits, nor makes a choice that is doomed, nor is it a choice that ends without a next `Show`. -/
def Heeded (setup : Setup) (system : PaletteSystem κ) : Event κ → Prop
  | .addon surroundings (.contextEvent context _) =>
      Waiting system → surroundings.contexts.get system.addon.origin ≠ some context
  | .addon _ _ => True
  | .pointer desktop event =>
      Chooses (PaletteWindow.pointer setup.helperInstallation desktop event system.helper.window) → ¬ Doomed system
  | .toHelper desktop =>
      ∀ arrived rest, system.toHelper = arrived :: rest → CommandChooses setup desktop arrived.frame system.helper →
        ¬ Doomed system
  | .toAddon surroundings =>
      Waiting system → ∀ frame rest value, system.toAddon = .signal frame :: rest →
        payloadOf frame = some (.selected value) → system.addon.controller.transaction = some value.transaction →
          Focused surroundings.contexts system.addon.origin ∧ Lasts surroundings.afterCommit system.addon.origin

/-- No message is on its way, and no call is pending. -/
structure Quiet (system : PaletteSystem κ) : Prop where
  toHelper : system.toHelper = []
  toAddon : system.toAddon = []
  pendingCall : system.addon.pendingCall = none

theorem no_show_iff {frames : List HelperFrame} :
    (∀ transaction, ¬ ShowSent transaction frames) ↔ ∀ ask, .begin ask ∉ requests frames := by
  constructor
  · intro h ask hask
    exact h ask.id (showSent_iff.mpr ⟨ask, hask, rfl⟩)
  · intro h transaction hshow
    obtain ⟨ask, hask, _⟩ := showSent_iff.mp hshow
    exact h ask hask

theorem display_eq_waiting_iff {helper : Helper PaletteWindow} :
    display helper = .waiting ↔ helper.window.visible = true ∧ helper.session.transaction = none := by
  cases htransaction : helper.session.transaction with
  | some transaction => simp [display_of_some htransaction]
  | none => simp [display_of_none htransaction]

theorem waiting_iff : Waiting system ↔ (handover system).settled = .waiting := by
  rw [State.settled, Display.settle_eq_waiting_iff, Waiting, no_show_iff, ← and_assoc]
  exact and_congr_left fun _ => display_eq_waiting_iff.symm

theorem settled_of_not_doomed {ask : Ask TransactionId} (hdoomed : ¬ Doomed system)
    (hshown : display system.helper = .shown ask) (hstays : ask.stays = true)
    (hno : ∀ other, .begin other ∉ (handover system).requests) : (handover system).settled ≠ .hidden := by
  intro hhidden
  have htransaction := transaction_of_shown hshown
  have hdisplay : (handover system).display = .shown ask := hshown
  rw [State.settled, hdisplay] at hhidden
  have hrevoke := Display.revoke_of_settle_eq_hidden hno hhidden
  refine hdoomed ⟨?_, ⟨ask.id, htransaction, hideSent_iff.mpr hrevoke⟩, no_show_iff.mpr hno⟩
  rw [display_of_some htransaction] at hshown
  rw [← Display.shown.inj hshown] at hstays
  simpa using hstays

theorem not_doomed_of_none (h : system.helper.session.transaction = none) : ¬ Doomed system := by
  intro h
  obtain ⟨_, ⟨transaction, hsome, _⟩, _⟩ := h
  cases h.symm.trans hsome

theorem not_doomed_of_nil (h : system.toHelper = []) : ¬ Doomed system := by
  intro h
  obtain ⟨_, ⟨transaction, _, arrived, hmem, _⟩, _⟩ := h
  rw [h] at hmem
  cases hmem

theorem chooses_of_acted {catalog : EmojiCatalog} {chooses : Prop} {before after : Display TransactionId}
    {messages : List AddonMessage} (h : Acted catalog chooses before after messages) {transaction : TransactionId}
    (hchosen : .chosen transaction ∈ answers messages) : chooses := by
  cases h with
  | nothing => cases hchosen
  | chose ask sequence hchooses => exact hchooses
  | cancelled ask reason _ _ hvalid =>
      rw [answers_signal (.cancelled ⟨ask.id, reason⟩) hvalid] at hchosen
      cases List.mem_singleton.mp hchosen
  | closed => cases hchosen

/-! ### Heeded choices -/

theorem length_answers_le (message : AddonMessage) (rest : List AddonMessage) :
    (answers rest).length ≤ (answers (message :: rest)).length :=
  ((List.sublist_cons_self message rest).filterMap _).length_le

/-- What the addon does is no answer. -/
theorem answers_runAddon [DecidableEq κ] (setup : Setup) (surroundings : Surroundings κ)
    (input : EmojiPaletteAddon.Input κ) (system : PaletteSystem κ) :
    (handover (system.runAddon setup surroundings input)).answers = answers system.toAddon := rfl

theorem length_answers_toAddon [DecidableEq κ] (setup : Setup) (surroundings : Surroundings κ)
    (system : PaletteSystem κ) :
    (handover (system.deliverToAddon setup surroundings)).answers.length ≤ (handover system).answers.length := by
  have hbefore : (handover system).answers = answers system.toAddon := rfl
  unfold PaletteSystem.deliverToAddon
  split
  · exact le_refl _
  · rename_i serial frame rest hmessages
    rw [answers_runAddon, hbefore, hmessages]
    exact length_answers_le _ rest
  · rename_i frame rest hmessages
    rw [answers_runAddon, hbefore, hmessages]
    exact length_answers_le _ rest

/-- A choice is made by the window that runs, and if it is heeded it is not doomed. -/
theorem heeded_choice [DecidableEq κ] (h : Inv setup system) {event : Event κ} (hheeded : Heeded setup system event)
    {transaction : TransactionId} (hchosen : (handover (PaletteSystem.step setup event system)).answers =
      (handover system).answers ++ [.chosen transaction]) : ¬ Doomed system := by
  have hlonger := congrArg List.length hchosen
  rw [List.length_append, List.length_singleton] at hlonger
  cases event with
  | addon surroundings happening =>
      rw [PaletteSystem.step, answers_runAddon] at hlonger
      exact absurd hlonger (Nat.ne_of_lt (Nat.lt_succ_self _))
  | toAddon surroundings =>
      have hshorter := length_answers_toAddon setup surroundings system
      rw [PaletteSystem.step] at hlonger
      omega
  | pointer desktop event =>
      rw [PaletteSystem.step, PaletteSystem.point] at hchosen hlonger
      by_cases hvisible : system.helper.window.visible = true
      · rw [if_pos hvisible, handover, answers_append] at hchosen
        have hacted := (acted_runWindow h.helper (PaletteWindow.does_pointer desktop event system.helper.window)).1
        have hanswers := List.append_cancel_left hchosen
        exact hheeded (chooses_of_acted hacted (List.mem_of_mem_head? (congrArg List.head? hanswers)))
      · rw [if_neg hvisible] at hlonger
        omega
  | toHelper desktop =>
      rw [PaletteSystem.step, PaletteSystem.deliverToHelper] at hchosen hlonger
      cases hframes : system.toHelper with
      | nil =>
          rw [hframes] at hlonger
          exact absurd hlonger (Nat.ne_of_lt (Nat.lt_succ_self _))
      | cons arrived rest =>
          rw [hframes] at hchosen
          dsimp only at hchosen
          rw [handover, answers_append, answers_append, answers_replies, List.append_nil] at hchosen
          have hanswers := List.append_cancel_left hchosen
          rcases h.exchanged desktop hframes with ⟨_, _, _, hnone⟩ | ⟨_, hacted⟩
          · rw [hnone] at hanswers
            cases hanswers
          · have hmem := List.mem_of_mem_head? (congrArg List.head? hanswers)
            exact hheeded arrived rest hframes (chooses_of_acted hacted hmem)

/-! ### While the palette waits -/

theorem asked_runAddon [DecidableEq κ] (setup : Setup) (surroundings : Surroundings κ)
    (input : EmojiPaletteAddon.Input κ) (system : PaletteSystem κ) :
    (handover (system.runAddon setup surroundings input)).asked =
      (said (EmojiPaletteAddon.step setup.installation surroundings input system.addon)).1 := rfl

/-- A ready session waits for no answer to a call. -/
theorem asked_reply (h : Inv setup system) {surroundings : Surroundings κ}
    (hsends : ∀ frame, surroundings.sends frame = true) (hconnected : connected system.addon = true) (serial : Nat)
    (sender : Bytes) (answer : Reply) :
    (said (EmojiPaletteAddon.reply surroundings serial sender answer system.addon)).1 = asked system.addon := by
  rcases said_reply hsends h.addon (fun hready => (h.peered hready).2) serial sender answer with
    ⟨hsaid, _⟩ | ⟨_, _, hfalse, _⟩
  · rw [hsaid]
  · cases hconnected.symm.trans hfalse

theorem asked_happening [DecidableEq κ] (h : Inv setup system) {surroundings : Surroundings κ}
    (hlossless : Lossless system.issued surroundings) {happening : Happening κ}
    (hheeded : Heeded setup system (.addon surroundings happening)) (hwaiting : Waiting system)
    (hconnected : connected system.addon = true) (hasked : asked system.addon ≠ none) :
    (handover (system.runAddon setup surroundings happening.input)).asked = asked system.addon := by
  rw [asked_runAddon]
  cases happening with
  | key event =>
      rcases said_keyEvent setup.installation hlossless.sends hlossless.callIssued h.addon event with
        hsaid | ⟨hnone, _⟩
      · exact congrArg Prod.fst hsaid
      · exact absurd hnone hasked
  | contextEvent context event =>
      rcases said_contextEvent hlossless.sends h.addon context event with hsaid | ⟨horigin, _⟩
      · exact congrArg Prod.fst hsaid
      · exact absurd horigin (hheeded hwaiting)
  | groupChanged layout => cases layout <;> rfl
  | configured config layout => cases layout <;> rfl
  | timedOut serial => exact asked_reply h hlossless.sends hconnected serial [] .error

/-- The choice the palette waits for is one the addon accepts, and then asks again. -/
theorem asked_frame (h : Inv setup system) (horderly : Orderly (handover system)) {surroundings : Surroundings κ}
    (hlossless : Lossless system.issued surroundings) (hheeded : Heeded setup system (.toAddon surroundings))
    (hwaiting : (handover system).settled = .waiting) {frame : Bytes} {rest : List AddonMessage}
    (hmessages : system.toAddon = .signal frame :: rest) :
    (said (EmojiPaletteAddon.receiveFrame setup.installation.catalog surroundings setup.helperName (some frame)
      system.addon)).1 ≠ none := by
  obtain ⟨ask, hasked, hstays, hchosen⟩ := horderly.awaited hwaiting
  have hconnected := h.silent.connected_of_answer hchosen
  have haccepts := (h.peered (connected_eq_true_iff.mp hconnected)).1
  have hmeant := h.meant frame (hmessages ▸ List.mem_cons_self)
  have hkept : asked system.addon ≠ none := by
    intro hnone
    cases hasked.symm.trans hnone
  cases hmeant with
  | selected value hvalid hcatalog =>
      rw [receiveFrame_of_accepts haccepts (.selected value) hvalid]
      by_cases hsame : system.addon.controller.transaction = some value.transaction
      · obtain ⟨hfocused, hlasts⟩ := hheeded (waiting_iff.mpr hwaiting) _ rest value hmessages
          (payloadOf_eq_some_iff.mpr ⟨hvalid, rfl⟩) hsame
        have hopen : system.addon.closeAfterSelection = false := by
          rw [(transaction_of_asked hasked).2] at hstays
          simpa using hstays
        have hvalidSelection : SelectionController.validSelection setup.installation.catalog value.sequence = true :=
          SelectionController.validSelection_iff.mpr
            ⟨List.length_pos_of_ne_nil hvalid.nonempty, hvalid.sequence.1, hvalid.sequence.2, hcatalog⟩
        rcases said_receiveSelected setup.installation.catalog hlossless.sends h.addon hsame with hsaid | ⟨_, hends⟩
        · rw [hsaid]
          exact Option.some_ne_none _
        · exact absurd hlasts (hends hopen hvalidSelection hfocused)
      · rw [said_receiveSelected_of_ne setup.installation.catalog hsame]
        exact hkept
  | cancelled value hvalid =>
      rw [receiveFrame_of_accepts haccepts (.cancelled value) hvalid, said_receiveCancelled hlossless.sends h.addon]
      by_cases hsame : system.addon.controller.transaction = some value.transaction
      · -- The transaction has been chosen, so it cannot have been cancelled too.
        have hid := Option.some.inj (hsame.symm.trans (transaction_of_asked hasked).1)
        have hcancelled : .cancelled value.transaction ∈ (handover system).answers := by
          rw [handover, hmessages, answers_signal (.cancelled value) hvalid]
          exact List.mem_cons_self
        cases horderly.eq_of_chosen hchosen hcancelled hid
      · rw [if_neg hsame]
        exact hkept

/-- While the palette waits, the addon keeps asking. -/
theorem heeded_asked [DecidableEq κ] (h : Inv setup system) (horderly : Orderly (handover system)) {event : Event κ}
    (hpromised : Promised system event) (hheeded : Heeded setup system event)
    (hwaiting : (handover system).settled = .waiting) :
    (handover (PaletteSystem.step setup event system)).asked ≠ none := by
  obtain ⟨ask, hasked, _, hchosen⟩ := horderly.awaited hwaiting
  have hconnected := h.silent.connected_of_answer hchosen
  have hkept : asked system.addon ≠ none := by
    intro hnone
    cases hasked.symm.trans hnone
  cases event with
  | addon surroundings happening =>
      rw [PaletteSystem.step, asked_happening h hpromised hheeded (waiting_iff.mpr hwaiting) hconnected hkept]
      exact hkept
  | pointer desktop event =>
      rw [PaletteSystem.step, PaletteSystem.point]
      split <;> exact hkept
  | toHelper desktop =>
      rw [PaletteSystem.step, PaletteSystem.deliverToHelper]
      split <;> exact hkept
  | toAddon surroundings =>
      rw [PaletteSystem.step, PaletteSystem.deliverToAddon]
      split
      · exact hkept
      · rw [asked_runAddon]
        have hsame := asked_reply h hpromised.sends hconnected
        exact fun hnone => hkept ((hsame _ _ _).symm.trans hnone)
      · rename_i frame rest hmessages
        rw [asked_runAddon]
        exact asked_frame h horderly hpromised hheeded hwaiting hmessages

/-! ### Every reachable state -/

theorem orderly_start (h : Start setup system) : Orderly (handover system) := by
  rw [handover_start h]
  exact orderly_of_unconnected (fun _ => ⟨rfl, rfl, rfl⟩) rfl

variable [DecidableEq κ]

theorem orderly_reachable
    (h : Reachable (Start setup) (fun system event => Promised system event ∧ Heeded setup system event)
      (PaletteSystem.step setup) system) : Inv setup system ∧ Orderly (handover system) := by
  induction h with
  | start hstart => exact ⟨inv_start hstart, orderly_start hstart⟩
  | step _ hallowed ih =>
      obtain ⟨hinv, horderly⟩ := ih
      obtain ⟨hpromised, hheeded⟩ := hallowed
      have hstep := step_event hinv hpromised
      refine ⟨hinv.step hpromised, horderly.step hstep (careful_of_step hstep ?_ ?_)⟩
      · intro ask hshown hchosen hstays hno
        exact settled_of_not_doomed (heeded_choice hinv hheeded hchosen) hshown hstays hno
      · exact heeded_asked hinv horderly hpromised hheeded

/-- In a run that avoids the three, a window that is visible when everything has arrived shows the addon's transaction. -/
theorem transaction_eq_of_quiet (setup : Setup) (system : PaletteSystem κ)
    (h : Reachable (Start setup) (fun system event => Promised system event ∧ Heeded setup system event)
      (PaletteSystem.step setup) system)
    (hquiet : Quiet system) (hvisible : system.helper.window.visible = true) :
    system.addon.controller.active = true ∧
      system.helper.session.transaction = system.addon.controller.transaction := by
  obtain ⟨_, horderly⟩ := orderly_reachable h
  have hrequests : (handover system).requests = [] := by rw [handover, hquiet.toHelper, requests_nil]
  have hanswers : (handover system).answers = [] := by rw [handover, hquiet.toAddon, answers_nil]
  have hdisplay : display system.helper ≠ .hidden := by
    cases htransaction : system.helper.session.transaction with
    | some transaction => simp [display_of_some htransaction]
    | none => simp [display_of_none htransaction, hvisible]
  obtain ⟨ask, hasked, hshown⟩ := horderly.shown_of_quiet hrequests hanswers hdisplay
  have htransaction := (transaction_of_asked hasked).1
  rw [transaction_of_shown hshown, SelectionController.active, htransaction]
  exact ⟨rfl, rfl⟩

theorem lossless_second {issued : List TransactionId} (h : second.transaction ∉ issued) : Lossless issued second :=
  ⟨fun _ => rfl, rfl, h⟩

/-- A choice that arrives while the context still has the focus, and the next `Show`. -/
def chosen : List (Event Unit) :=
  handshake ++ [.toHelper desk, .pointer desk (.cellClicked 0), .toAddon second, .toHelper desk]

/-- After the choice the palette shows the next transaction. -/
theorem transaction_eq_chosen :
    (run chosen).addon.controller.active = true ∧
      (run chosen).helper.session.transaction = (run chosen).addon.controller.transaction := by
  have hreachable : Reachable (Start oneEmoji) (fun system event => Promised system event ∧ Heeded oneEmoji system event)
      (PaletteSystem.step oneEmoji) (run chosen) := by
    refine reachable_run ⟨⟨⟨fun _ => rfl, rfl, by decide +kernel⟩, trivial⟩, ⟨trivial, fun _ _ _ _ => ?_⟩,
      ⟨lossless_second (by decide +kernel), fun hwaiting => ?_⟩, ⟨trivial, fun _ _ _ _ => ?_⟩, ⟨trivial, fun _ => ?_⟩,
      ⟨lossless_second (by decide +kernel), fun _ _ _ _ _ _ _ => ?_⟩, ⟨trivial, fun _ _ _ _ => ?_⟩, trivial⟩
    · exact not_doomed_of_none (by decide +kernel)
    · exact absurd hwaiting.1 (by decide +kernel)
    · exact not_doomed_of_none (by decide +kernel)
    · exact not_doomed_of_nil (by decide +kernel)
    · exact ⟨⟨(), by decide +kernel, by decide⟩, (), by decide +kernel, by decide, inBounds_zero⟩
    · exact not_doomed_of_none (by decide +kernel)
  have hquiet : Quiet (run chosen) := by
    constructor <;> decide +kernel
  exact transaction_eq_of_quiet oneEmoji _ hreachable hquiet (by decide +kernel)

/-- A choice and, before it arrives, the loss of the focus. -/
def crossed : List (Event Unit) :=
  handshake ++ [.toHelper desk, .pointer desk (.cellClicked 0), .addon second (.contextEvent () .focusOut),
    .toHelper desk, .toAddon second]

/-- The `Hide` finds no transaction and the choice no asker, and the window stays. -/
theorem transaction_ne_of_quiet :
    Reachable (Start oneEmoji) Promised (PaletteSystem.step oneEmoji) (run crossed) ∧ Quiet (run crossed) ∧
      (run crossed).helper.window.visible = true ∧
      ¬ ((run crossed).addon.controller.active = true ∧
        (run crossed).helper.session.transaction = (run crossed).addon.controller.transaction) := by
  refine ⟨reachable_run ⟨⟨fun _ => rfl, rfl, by decide +kernel⟩, trivial, lossless_second (by decide +kernel), trivial,
    trivial, lossless_second (by decide +kernel), trivial, lossless_second (by decide +kernel), trivial⟩,
    ⟨?_, ?_, ?_⟩, ?_, ?_⟩
  all_goals decide +kernel

end System

end EmojiPalette
