import EmojiPalette.System.TextsOnTheWay

/-!
# Both sides search for the same text

If no event parts the addon's text from the window's, the two agree once everything has arrived. Five kinds of events can part them: a key that changes the text before the helper has agreed or while a choice is on its way, a command whose number is used up, a text that does not come through a `QString` unchanged, a choice that a text crosses, and a `Show` without a text that finds a window with one.
-/

namespace EmojiPalette

open Ipc Trace Addon Ui Handover

namespace System

variable {κ : Type} {setup : Setup} {recorded : Recorded κ} {received : List Payload} {event : Event κ}

/-- The recorded run so far, with the text where it can be found and no number used up. -/
structure Synced (setup : Setup) (recorded : Recorded κ) (received : List Payload) : Prop where
  ordered : Ordered setup recorded received
  few : ∀ transaction, (commandsOf transaction (commands recorded.sent)).length < 2 ^ 32
  all : recorded.executed = recorded.reached
  agreed : Agreed (handover recorded.system)
  nodup : (handover recorded.system).live.Nodup
  plain : PlainTexts recorded.sent
  texts : ∀ transaction, recorded.system.addon.controller.transaction = some transaction →
    Texts recorded.system transaction

theorem synced_start (h : Recorded.Start setup recorded) : Synced setup recorded [] := by
  have hordered := ordered_start h
  obtain ⟨hstart, hsent, hreached, hexecuted⟩ := h
  have hhandover := handover_start hstart
  refine ⟨hordered, fun transaction => ?_, hexecuted.trans hreached.symm, fun hconnected => ?_, ?_, ?_,
    fun transaction hactive => ?_⟩
  · rw [hsent]
    exact Nat.two_pow_pos 32
  · rw [hhandover] at hconnected
    cases hconnected
  · rw [hhandover]
    exact List.nodup_nil
  · rw [hsent]
    exact plainTexts_of_no_commands rfl
  · have hnone := asked_eq_none_iff.mp (congrArg Handover.State.asked hhandover)
    cases hnone.symm.trans hactive

/-! ### One event -/

section

variable [DecidableEq κ]

/-- While no command is sent with the numbers used up, they are not used up. -/
theorem Synced.few_step (h : Synced setup recorded received) (hpromised : Promised recorded.system event)
    (hharmless : Harmless setup recorded.system event) (transaction : TransactionId) :
    (commandsOf transaction (commands (recorded.step setup event).sent)).length < 2 ^ 32 := by
  have hbefore := h.few transaction
  rw [Recorded.step, commands_append, commandsOf_append, List.length_append]
  cases hhandles : handles setup event recorded.system with
  | none =>
      rw [spoken, hhandles]
      exact hbefore
  | some handled =>
      have hoverflows := (hharmless.handled hhandles).2.1
      have hspeaks := h.ordered.inv.speaks hhandles hpromised
      generalize spoken setup event recorded.system = payloads at hspeaks
      cases hspeaks with
      | ends _ hhides =>
          rw [commands_of_hides hhides]
          exact hbefore
      | nothing | waits | begins | connects => exact hbefore
      | commands value route hrouted hroute hactive =>
          by_cases hsame : value.transaction = transaction
          · rw [show commands [.command value] = [value] from rfl, commandsOf_singleton, if_pos hsame]
            rw [hsame] at hactive
            have hcounter := h.ordered.numbered.counter transaction hactive
            have hroom : (commandsOf transaction (commands recorded.sent)).length ≠ 2 ^ 32 - 1 := by
              intro hfull
              rw [hfull] at hcounter
              refine hoverflows ⟨route, hrouted, ?_, hcounter⟩
              rw [hroute]
              split <;> simp
            rw [List.length_singleton]
            omega
          · rw [show commands [.command value] = [value] from rfl, commandsOf_singleton, if_neg hsame]
            exact hbefore

/-- While no key types a text that changes on its way, no such text is on its way. -/
theorem Synced.plain_step (h : Synced setup recorded received) (hpromised : Promised recorded.system event)
    (hharmless : Harmless setup recorded.system event) : PlainTexts (recorded.step setup event).sent := by
  rw [Recorded.step]
  refine plainTexts_append.mpr ⟨h.plain, ?_⟩
  cases hhandles : handles setup event recorded.system with
  | none =>
      rw [spoken, hhandles]
      exact plainTexts_of_no_commands rfl
  | some handled =>
      have hkept := (hharmless.handled hhandles).2.2
      have hspeaks := h.ordered.inv.speaks hhandles hpromised
      generalize spoken setup event recorded.system = payloads at hspeaks
      cases hspeaks with
      | ends _ hhides => exact plainTexts_of_no_commands (commands_of_hides hhides)
      | nothing | waits | begins | connects => exact plainTexts_of_no_commands rfl
      | commands value route hrouted hroute hactive =>
          intro command hcommand hkind
          obtain rfl := List.mem_singleton.mp hcommand
          rw [hroute, if_pos hkind] at hrouted
          by_contra hchanged
          exact hkept ⟨command.text, hrouted, Bool.eq_false_iff.mpr hchanged⟩

theorem Synced.plain_told (h : Synced setup recorded received) : PlainTexts (told recorded.system.toHelper) := by
  have hplain := h.plain
  rw [h.ordered.fifo] at hplain
  exact (plainTexts_append.mp hplain).2

theorem show_of_shows {payload : Payload} (h : shows [payload] ≠ []) : ∃ value, payload = .show value := by
  cases payload with
  | «show» value => exact ⟨value, rfl⟩
  | _ => exact absurd rfl h

theorem Synced.texts_arriving (h : Synced setup recorded received) {desktop : Desktop} {arrived : HelperFrame}
    (harriving : arriving event recorded.system = some (desktop, arrived))
    (hharmless : Harmless setup recorded.system (.toHelper desktop)) {transaction : TransactionId}
    (hactive : (PaletteSystem.step setup event recorded.system).addon.controller.transaction = some transaction) :
    Texts (PaletteSystem.step setup event recorded.system) transaction := by
  obtain ⟨hframes, haddon, _, hhelper, _⟩ := step_of_arriving setup harriving
  rw [haddon] at hactive
  have htexts := h.texts transaction hactive
  obtain ⟨hcrosses, hreopens⟩ := hharmless arrived _ hframes
  cases hframe : payloadOf arrived.frame with
  | none =>
      have hignored := exchange_of_none (PaletteWindow.calls setup.helperInstallation desktop) hframe setup.addonName
        recorded.system.helper
      refine htexts.same haddon ?_ ?_ ?_
      · rw [hhelper, hignored]
        rfl
      · rw [hframes, told_cons, hframe]
        rfl
      · rw [answers_of_arriving setup harriving, hignored]
        exact List.append_nil _
  | some payload =>
      by_cases hshow : shows [payload] = []
      · exact texts_arriving_other h.ordered h.few h.all h.agreed h.nodup harriving hcrosses hframe hshow hactive htexts
          h.plain_told
      · obtain ⟨value, rfl⟩ := show_of_shows hshow
        exact texts_arriving_show h.ordered harriving hframe (hreopens value hframe) hactive htexts

/-- The text of the transaction that is active after the event. -/
theorem Synced.texts_step (h : Synced setup recorded received) (hpromised : Promised recorded.system event)
    (hharmless : Harmless setup recorded.system event) {transaction : TransactionId}
    (hactive : (PaletteSystem.step setup event recorded.system).addon.controller.transaction = some transaction) :
    Texts (PaletteSystem.step setup event recorded.system) transaction := by
  cases hhandles : handles setup event recorded.system with
  | some handled =>
      exact texts_handles h.ordered hhandles hpromised (hharmless.handled hhandles).1 h.texts hactive
  | none =>
      cases event with
      | addon surroundings happening => cases hhandles
      | toAddon surroundings =>
          have hmessages : recorded.system.toAddon = [] :=
            List.head?_eq_none_iff.mp (Option.map_eq_none_iff.mp hhandles)
          rw [PaletteSystem.step, PaletteSystem.deliverToAddon, hmessages] at hactive ⊢
          exact h.texts transaction hactive
      | pointer desktop event =>
          have hbefore : recorded.system.addon.controller.transaction = some transaction := by
            rw [← hactive, PaletteSystem.step, PaletteSystem.point]
            split <;> rfl
          exact texts_pointer h.ordered h.agreed h.nodup hharmless hbefore (h.texts transaction hbefore)
      | toHelper desktop =>
          cases hframes : recorded.system.toHelper with
          | nil =>
              rw [PaletteSystem.step, PaletteSystem.deliverToHelper, hframes] at hactive ⊢
              exact h.texts transaction hactive
          | cons arrived rest =>
              have harriving : arriving (.toHelper desktop) recorded.system = some (desktop, arrived) := by
                rw [arriving, hframes]
                rfl
              exact h.texts_arriving harriving hharmless hactive

theorem Synced.step (h : Synced setup recorded received) (hpromised : Promised recorded.system event)
    (hharmless : Harmless setup recorded.system event) :
    ∃ more, Synced setup (recorded.step setup event) (received ++ more) := by
  have hstep := step_event h.ordered.inv hpromised
  obtain ⟨more, hordered⟩ := h.ordered.step hpromised
  refine ⟨more, hordered, h.few_step hpromised hharmless, ?_, h.agreed.step hstep,
    Silent.nodup_step h.ordered.inv.silent h.nodup hstep, h.plain_step hpromised hharmless,
    fun transaction hactive => ?_⟩
  · rw [Recorded.step, h.ordered.executing_eq_reaching h.few h.all event, h.all]
  · exact h.texts_step hpromised hharmless hactive

/-! ### Every run -/

theorem synced_reachable {system : PaletteSystem κ}
    (h : Reachable (Start setup) (fun system event => Promised system event ∧ Harmless setup system event)
      (PaletteSystem.step setup) system) :
    ∃ recorded received, recorded.system = system ∧ Synced setup recorded received := by
  induction h with
  | start hstart => exact ⟨⟨_, [], [], []⟩, [], rfl, synced_start ⟨hstart, rfl, rfl, rfl⟩⟩
  | step _ hallowed ih =>
      obtain ⟨recorded, received, rfl, hsynced⟩ := ih
      obtain ⟨more, hafter⟩ := hsynced.step hallowed.1 hallowed.2
      exact ⟨_, _, rfl, hafter⟩

/-- In a run that avoids the five, both search for the same text once everything has arrived. -/
theorem query_eq_search (setup : Setup) (system : PaletteSystem κ) (transaction : TransactionId)
    (h : Reachable (Start setup) (fun system event => Promised system event ∧ Harmless setup system event)
      (PaletteSystem.step setup) system)
    (hquiet : Quiet system) (hactive : system.addon.controller.transaction = some transaction)
    (hheld : system.helper.session.transaction = some transaction) :
    system.helper.window.query = system.addon.search := by
  obtain ⟨recorded, received, rfl, hsynced⟩ := synced_reachable h
  have hupcoming := (hsynced.texts transaction hactive).held hheld
  rwa [hquiet.toHelper] at hupcoming

end

/-! ### A run -/

theorem not_textCrosses_of_none {system : PaletteSystem κ} (h : system.helper.session.transaction = none) :
    ¬ TextCrosses system := by
  intro hcrosses
  obtain ⟨_, _, _, hheld, _⟩ := hcrosses
  cases h.symm.trans hheld

theorem not_reopens_of_nil {system : PaletteSystem κ} {value : Show} {rest : List HelperFrame}
    (h : system.helper.window.query = []) : ¬ Reopens value rest system := by
  intro hreopens
  obtain ⟨_, _, _, _, hquery⟩ := hreopens
  exact hquery h

theorem not_chooses_of_searchTexts {system : PaletteSystem κ} {arrived : HelperFrame} {rest : List HelperFrame}
    {desktop : Desktop} (h : ∀ command ∈ commands (told system.toHelper), command.kind = .searchText)
    (hframes : system.toHelper = arrived :: rest) : ¬ CommandChooses setup desktop arrived.frame system.helper := by
  intro hchooses
  obtain ⟨value, hframe, _, _, hchoice⟩ := hchooses
  have hkind : value.kind = .searchText := by
    apply h
    rw [hframes, told_cons, hframe]
    exact List.mem_cons_self
  rw [PaletteWindow.handleCommand, hkind] at hchoice
  exact hchoice

theorem harmless_calm {system : PaletteSystem κ} {surroundings : Surroundings κ} {happening : Happening κ}
    (hready : system.addon.session.state = .ready) (hnone : system.toAddon = [])
    (hsequence : system.addon.commandSequence ≠ 0xFFFFFFFF)
    (hplain : ∀ text, Routed setup.installation surroundings system.addon (.search text) happening.input →
      isPlainText text = true) :
    Harmless setup system (.addon surroundings happening) := by
  refine ⟨fun huntimely => ?_, fun hoverflows => ?_, fun hunkept => ?_⟩
  · obtain ⟨_, _, _, hstate | ⟨_, _, _, frame, hsent, _⟩⟩ := huntimely
    · exact hstate hready
    · rw [hnone] at hsent
      cases hsent
  · obtain ⟨_, _, _, hused⟩ := hoverflows
    exact hsequence hused
  · obtain ⟨text, hrouted, hchanged⟩ := hunkept
    exact Bool.false_ne_true (hchanged.symm.trans (hplain text hrouted))

theorem harmless_inactive {system : PaletteSystem κ} {surroundings : Surroundings κ} {happening : Happening κ}
    (h : system.addon.active = false) : Harmless setup system (.addon surroundings happening) := by
  have hrouted : ∀ route, ¬ Routed setup.installation surroundings system.addon route happening.input := by
    intro route hrouted
    cases happening with
    | key event => cases h.symm.trans hrouted.1
    | _ => exact hrouted
  refine ⟨fun huntimely => ?_, fun hoverflows => ?_, fun hunkept => ?_⟩
  · obtain ⟨_, hkey, _⟩ := huntimely
    exact hrouted _ hkey
  · obtain ⟨_, hkey, _⟩ := hoverflows
    exact hrouted _ hkey
  · obtain ⟨_, hkey, _⟩ := hunkept
    exact hrouted _ hkey

/-- A letter once the helper has agreed and the window is open. -/
def searched : List (Event Unit) := handshake ++ [.toHelper desk, .addon second letter, .toHelper desk]

/-- Both search for the letter. -/
theorem query_eq_searched :
    (run searched).addon.search = [0x61] ∧ (run searched).helper.window.query = (run searched).addon.search := by
  have hreachable : Reachable (Start oneEmoji) (fun system event => Promised system event ∧ Harmless oneEmoji system event)
      (PaletteSystem.step oneEmoji) (run searched) := by
    refine reachable_run ⟨⟨⟨fun _ => rfl, rfl, by decide +kernel⟩, harmless_inactive (by decide +kernel)⟩,
      ⟨trivial, fun _ _ _ => ⟨fun _ => ?_, fun _ _ => ?_⟩⟩, ⟨lossless_second (by decide +kernel), trivial⟩,
      ⟨trivial, fun _ _ _ => ⟨fun _ => ?_, fun _ _ => ?_⟩⟩, ⟨lossless_second (by decide +kernel), ?_⟩,
      ⟨trivial, fun _ _ hframes => ⟨fun hchooses => ?_, fun _ _ => ?_⟩⟩, trivial⟩
    · exact not_textCrosses_of_none (by decide +kernel)
    · exact not_reopens_of_nil (by decide +kernel)
    · exact not_textCrosses_of_none (by decide +kernel)
    · exact not_reopens_of_nil (by decide +kernel)
    · refine harmless_calm (by decide +kernel) (by decide +kernel) (by decide +kernel) fun text hrouted => ?_
      obtain ⟨_, _, hroute⟩ := hrouted
      have hletter : (run (handshake ++ [.toHelper desk])).addon.keyRouter.route oneEmoji.installation.fcitx
          ⟨0x61, 0, 0⟩ ⟨0x61, 0, 0⟩ false (run (handshake ++ [.toHelper desk])).addon.search = .search [0x61] := by
        decide +kernel
      obtain rfl := KeyRoute.search.inj (hletter.symm.trans hroute)
      decide +kernel
    · exact absurd hchooses (not_chooses_of_searchTexts (by decide +kernel) hframes)
    · exact not_reopens_of_nil (by decide +kernel)
  have hquiet : Quiet (run searched) := by
    constructor <;> decide +kernel
  exact ⟨by decide +kernel,
    query_eq_search oneEmoji _ first.transaction hreachable hquiet (by decide +kernel) (by decide +kernel)⟩

/-- A letter while the helper has not yet agreed. -/
def typedEarly : List (Event Unit) :=
  [.addon first press, .addon second letter, .toHelper desk, .toAddon second, .toHelper desk, .toHelper desk]

/-- The letter comes to a helper without a transaction, and the `Show` behind it brings none. -/
theorem query_ne_search :
    Reachable (Start oneEmoji) Promised (PaletteSystem.step oneEmoji) (run typedEarly) ∧ Quiet (run typedEarly) ∧
      (run typedEarly).addon.controller.transaction = some first.transaction ∧
      (run typedEarly).helper.session.transaction = some first.transaction ∧
      ¬ (run typedEarly).helper.window.query = (run typedEarly).addon.search := by
  refine ⟨reachable_run ⟨⟨fun _ => rfl, rfl, by decide +kernel⟩, lossless_second (by decide +kernel), trivial,
    lossless_second (by decide +kernel), trivial, trivial, trivial⟩, ⟨?_, ?_, ?_⟩, ?_, ?_, ?_⟩
  all_goals decide +kernel

end System

end EmojiPalette
