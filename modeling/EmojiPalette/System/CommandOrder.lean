import EmojiPalette.System.Hearing
import EmojiPalette.System.Numbering

/-!
# Every command is executed once, in order

While the helper holds a transaction, the number of the command that arrives is larger than that of the last one executed, whatever the two counters have been reset to before. So nothing is refused as stale, and what is executed is what was sent.
-/

namespace EmojiPalette

open Ipc Trace Addon Ui

namespace System

variable {κ : Type} {setup : Setup} {recorded : Recorded κ} {received : List Payload}

/-- What has been said has been received or is on its way. -/
structure Ordered (setup : Setup) (recorded : Recorded κ) (received : List Payload) : Prop where
  inv : Inv setup recorded.system
  fifo : recorded.sent = received ++ told recorded.system.toHelper
  showsOnce : ShowsOnce recorded.system.addon recorded.system.issued (shows recorded.sent)
  numbered : Numbered recorded.system.addon recorded.system.issued (commands recorded.sent)
  heard : Heard recorded.system.helper.session received recorded.reached recorded.executed

theorem ordered_start (h : Recorded.Start setup recorded) : Ordered setup recorded [] := by
  obtain ⟨hstart, hsent, hreached, hexecuted⟩ := h
  have hinv := inv_start hstart
  have hhandover := handover_start hstart
  have hnone : recorded.system.addon.controller.transaction = none :=
    asked_eq_none_iff.mp (congrArg Handover.State.asked hhandover)
  have hunheld : recorded.system.helper.session.transaction = none := by
    obtain ⟨config, layout, desktop, state, cellSize, hsystem⟩ := hstart
    rw [hsystem]
    rfl
  have hframes : recorded.system.toHelper = [] := by
    obtain ⟨config, layout, desktop, state, cellSize, hsystem⟩ := hstart
    rw [hsystem]
    rfl
  refine ⟨hinv, ?_, ?_, ?_, ?_⟩
  · rw [hsent, hframes]
    rfl
  · rw [hsent]
    refine ⟨List.nodup_nil, ?_, fun _ => rfl, fun hconnected => ?_⟩
    · intro transaction hmem
      cases hmem
    · cases hconnected.symm.trans (congrArg Handover.State.connected hhandover)
  · rw [hsent]
    refine ⟨?_, fun transaction => rfl, fun transaction hactive => ?_⟩
    · intro command hmem
      cases hmem
    · cases hnone.symm.trans hactive
  · rw [hreached, hexecuted]
    refine ⟨List.Sublist.refl [], fun transaction => List.nil_prefix, ?_, ?_, ?_⟩
    all_goals
      intro transaction hheld
      cases hunheld.symm.trans hheld

/-! ### The addon's events -/

theorem ne_ownerChanged_of_handles {event : Event κ} {surroundings : Surroundings κ} {input : EmojiPaletteAddon.Input κ}
    {system : PaletteSystem κ} (h : handles setup event system = some (surroundings, input)) (oldOwner newOwner : Bytes) :
    input ≠ .ownerChanged oldOwner newOwner := by
  cases event with
  | addon other happening =>
      cases h
      cases happening <;> simp [Happening.input]
  | toAddon other =>
      obtain ⟨message, _, hinput⟩ := Option.map_eq_some_iff.mp h
      cases hinput
      cases message <;> simp [incoming]
  | pointer desktop event => cases h
  | toHelper desktop => cases h

theorem lossless_of_handles {event : Event κ} {surroundings : Surroundings κ} {input : EmojiPaletteAddon.Input κ}
    {system : PaletteSystem κ} (h : handles setup event system = some (surroundings, input))
    (hpromised : Promised system event) : Lossless system.issued surroundings := by
  cases event with
  | addon other happening =>
      cases h
      exact hpromised
  | toAddon other =>
      obtain ⟨message, _, hinput⟩ := Option.map_eq_some_iff.mp h
      cases hinput
      exact hpromised
  | pointer desktop event => cases h
  | toHelper desktop => cases h

section

variable [DecidableEq κ]

/-- An event that the addon handles concerns the addon and what it says. -/
theorem step_of_handles {event : Event κ} {surroundings : Surroundings κ} {input : EmojiPaletteAddon.Input κ}
    {system : PaletteSystem κ} (h : handles setup event system = some (surroundings, input)) :
    let ran := EmojiPaletteAddon.step setup.installation surroundings input system.addon
    let after := PaletteSystem.step setup event system
    after.addon = ran.1 ∧ after.helper = system.helper ∧ after.toHelper = system.toHelper ++ helperFrames ran.2 ∧
      after.issued = ran.1.controller.transaction.toList ++ system.issued ∧ spoken setup event system = messages ran ∧
      arriving event system = none := by
  have hspoken : spoken setup event system =
      messages (EmojiPaletteAddon.step setup.installation surroundings input system.addon) := by
    rw [spoken, h]
    rfl
  cases event with
  | addon other happening =>
      cases h
      exact ⟨rfl, rfl, rfl, rfl, hspoken, rfl⟩
  | toAddon other =>
      obtain ⟨message, hmessage, hinput⟩ := Option.map_eq_some_iff.mp h
      obtain ⟨rest, hmessages⟩ : ∃ rest, system.toAddon = message :: rest := List.head?_eq_some_iff.mp hmessage
      cases hinput
      dsimp only
      rw [PaletteSystem.step, PaletteSystem.deliverToAddon, hmessages]
      cases message with
      | reply serial frame => exact ⟨rfl, rfl, rfl, rfl, hspoken, rfl⟩
      | signal frame => exact ⟨rfl, rfl, rfl, rfl, hspoken, rfl⟩
  | pointer desktop event => cases h
  | toHelper desktop => cases h

theorem Inv.speaks (h : Inv setup recorded.system) {event : Event κ} {surroundings : Surroundings κ}
    {input : EmojiPaletteAddon.Input κ} (hhandles : handles setup event recorded.system = some (surroundings, input))
    (hpromised : Promised recorded.system event) :
    Speaks setup.installation surroundings input recorded.system.addon
      (PaletteSystem.step setup event recorded.system).addon (spoken setup event recorded.system) := by
  obtain ⟨haddon, _, _, _, hspoken, _⟩ := step_of_handles hhandles
  have hlossless := lossless_of_handles hhandles hpromised
  rw [haddon, hspoken]
  exact speaks_step setup.installation hlossless.sends hlossless.callIssued h.addon (fun hready => (h.peered hready).2)
    (ne_ownerChanged_of_handles hhandles)

theorem Ordered.handles (h : Ordered setup recorded received) {event : Event κ} {surroundings : Surroundings κ}
    {input : EmojiPaletteAddon.Input κ}
    (hhandles : System.handles setup event recorded.system = some (surroundings, input))
    (hpromised : Promised recorded.system event) : Ordered setup (recorded.step setup event) received := by
  obtain ⟨haddon, hhelper, hframes, hissued, hspoken, harriving⟩ := step_of_handles hhandles
  have hspeaks := h.inv.speaks hhandles hpromised
  have hfresh := (lossless_of_handles hhandles hpromised).fresh
  have hconnected : connected recorded.system.addon = true →
      connected (PaletteSystem.step setup event recorded.system).addon = true :=
    (step_event h.inv hpromised).connected
  have hreached : reaching event recorded.system = [] := by rw [reaching, harriving]; rfl
  have hexecuted : executing setup event recorded.system = [] := by rw [executing, harriving]; rfl
  have hshows := h.showsOnce.speaks hspeaks hfresh hconnected
  have hnumbered := h.numbered.speaks hspeaks hfresh
  rw [haddon, ← hissued, ← haddon] at hshows hnumbered
  refine ⟨h.inv.step hpromised, ?_, ?_, ?_, ?_⟩
  · rw [Recorded.step, h.fifo, hframes, told_append, List.append_assoc, hspoken]
    rfl
  · rw [Recorded.step, shows_append]
    exact hshows
  · rw [Recorded.step, commands_append]
    exact hnumbered
  · rw [Recorded.step, hhelper, hreached, hexecuted, List.append_nil, List.append_nil]
    exact h.heard

end

/-! ### The helper's events -/

/-- A helper that holds a transaction, or is about to, has agreed with the addon. -/
theorem Ordered.bound (h : Ordered setup recorded received) {arrived : HelperFrame} {rest : List HelperFrame}
    (hframes : recorded.system.toHelper = arrived :: rest) {payload : Payload}
    (hframe : payloadOf arrived.frame = some payload)
    (hneeds : recorded.system.helper.session.transaction ≠ none ∨ shows [payload] ≠ []) :
    Bound setup.addonName recorded.system.helper.session := by
  refine h.inv.bound (Or.inl (connected_eq_true_iff.mp ?_))
  rcases hneeds with hsome | hshow
  · refine h.inv.silent.connected_of_display fun hhidden => hsome ?_
    by_contra hnone
    obtain ⟨transaction, htransaction⟩ := Option.ne_none_iff_exists'.mp hnone
    cases (display_of_some htransaction).symm.trans hhidden
  · by_contra hfalse
    have hnone := h.showsOnce.waiting (by simpa using hfalse)
    rw [h.fifo, hframes, told_cons, hframe, shows_append, List.append_eq_nil_iff] at hnone
    rw [Option.toList_some, shows_append, List.append_eq_nil_iff] at hnone
    exact hshow hnone.2.1

theorem Ordered.hears (h : Ordered setup recorded received) (desktop : Desktop) {arrived : HelperFrame}
    {rest : List HelperFrame} (hframes : recorded.system.toHelper = arrived :: rest) {payload : Payload}
    (hframe : payloadOf arrived.frame = some payload) :
    let exchanged := Helper.exchange (PaletteWindow.calls setup.helperInstallation desktop) arrived.frame setup.addonName
      recorded.system.helper
    Hears recorded.system.helper.session exchanged.helper.session payload (executedBy exchanged.effects) :=
  hears_exchange _ setup.addonName_ne_nil hframe (h.bound hframes hframe)

/-! ### The next number -/

/-- In a numbered list a command has the number of its place. -/
theorem sequence_of_numbered {before after : List Command} {command : Command}
    (h : (before ++ command :: after).map Command.sequence = numbers (before ++ command :: after).length) :
    command.sequence = UInt32.ofNat (before.length + 1) := by
  have hplace := congrArg (fun sequences => sequences[before.length]?) h
  simpa [numbers, List.getElem?_range] using hplace

theorem toNat_sequence {before after : List Command} {command : Command}
    (h : (before ++ command :: after).map Command.sequence = numbers (before ++ command :: after).length)
    (hfew : (before ++ command :: after).length < 2 ^ 32) : command.sequence.toNat = before.length + 1 := by
  rw [List.length_append, List.length_cons] at hfew
  rw [sequence_of_numbered h, UInt32.toNat_ofNat', Nat.mod_eq_of_lt (by omega)]

/-- A command that arrives while its transaction is held is the next, as long as the numbers are not used up. -/
theorem Ordered.accepts (h : Ordered setup recorded received)
    (hfew : ∀ transaction, (commandsOf transaction (commands recorded.sent)).length < 2 ^ 32)
    (hall : recorded.executed = recorded.reached) {arrived : HelperFrame} {rest : List HelperFrame}
    (hframes : recorded.system.toHelper = arrived :: rest) {command : Command}
    (hframe : payloadOf arrived.frame = some (.command command))
    (hheld : recorded.system.helper.session.transaction = some command.transaction) :
    (recorded.system.helper.session.sequenceValidator.accept command.transaction command.sequence).isSome = true := by
  have hlast := h.heard.validator _ hheld
  have hreached := h.heard.held _ hheld
  have hsuffix := commandsAfterShow_suffix command.transaction received
  rw [← hreached, ← hall] at hsuffix
  obtain ⟨earlier, hearlier⟩ := hsuffix
  have hsplit : commandsOf command.transaction (commands recorded.sent) =
      commandsOf command.transaction (commands received) ++
        command :: commandsOf command.transaction (commands (told rest)) := by
    have hfirst : commands (told (arrived :: rest)) = command :: commands (told rest) := by
      rw [told_cons, hframe]
      rfl
    rw [h.fifo, hframes, commands_append, commandsOf_append, hfirst]
    exact congrArg _ (List.filter_cons_of_pos (decide_eq_true rfl))
  have hnumbered := h.numbered.numbered command.transaction
  have hcount := hfew command.transaction
  rw [hsplit] at hnumbered hcount
  have hsequence := toNat_sequence hnumbered hcount
  refine Option.isSome_iff_exists.mpr ⟨_, SequenceValidator.accept_eq_some_iff.mpr ⟨?_, ?_, ?_, rfl⟩⟩
  · rw [hlast]
  · intro hzero
    rw [hzero] at hsequence
    cases hsequence
  · rw [hlast, UInt32.lt_iff_toNat_lt, hsequence]
    rcases List.eq_nil_or_concat' (commandsOf command.transaction recorded.executed) with hnone | ⟨older, last, hexecuted⟩
    · rw [hnone]
      exact Nat.succ_pos _
    -- The last command that was executed is the last that was received, and has the number before.
    · rw [hexecuted, ← List.append_assoc] at hearlier
      rw [← hearlier, List.append_assoc, List.singleton_append] at hnumbered hcount
      have hbefore := toNat_sequence hnumbered hcount
      rw [hexecuted, List.getLast?_append, List.getLast?_singleton, ← hearlier, List.length_append,
        List.length_singleton]
      exact Nat.lt_succ_of_le (le_of_eq hbefore)

section

variable [DecidableEq κ]

/-- An event without a frame for the helper changes nothing between the two. -/
theorem step_of_not_arriving {event : Event κ} {system : PaletteSystem κ} (hhandles : handles setup event system = none)
    (harriving : arriving event system = none) :
    let after := PaletteSystem.step setup event system
    after.addon = system.addon ∧ after.toHelper = system.toHelper ∧ after.issued = system.issued ∧
      (after.helper.session.transaction = none ∨ after.helper.session = system.helper.session) := by
  cases event with
  | addon surroundings happening => cases hhandles
  | toAddon surroundings =>
      have hmessages : system.toAddon = [] := List.head?_eq_none_iff.mp (Option.map_eq_none_iff.mp hhandles)
      simp [PaletteSystem.step, PaletteSystem.deliverToAddon, hmessages]
  | toHelper desktop =>
      have hframes : system.toHelper = [] := List.head?_eq_none_iff.mp (Option.map_eq_none_iff.mp harriving)
      simp [PaletteSystem.step, PaletteSystem.deliverToHelper, hframes]
  | pointer desktop event =>
      dsimp only
      rw [PaletteSystem.step, PaletteSystem.point]
      split
      · exact ⟨rfl, rfl, rfl, (hears_runWindow _ _ _).1⟩
      · exact ⟨rfl, rfl, rfl, Or.inr rfl⟩

theorem Ordered.silent (h : Ordered setup recorded received) {event : Event κ}
    (hpromised : Promised recorded.system event) (hhandles : System.handles setup event recorded.system = none)
    (harriving : arriving event recorded.system = none) : Ordered setup (recorded.step setup event) received := by
  obtain ⟨haddon, hframes, hissued, hsession⟩ := step_of_not_arriving hhandles harriving
  have hspoken : spoken setup event recorded.system = [] := by rw [spoken, hhandles]; rfl
  have hreached : reaching event recorded.system = [] := by rw [reaching, harriving]; rfl
  have hexecuted : executing setup event recorded.system = [] := by rw [executing, harriving]; rfl
  refine ⟨h.inv.step hpromised, ?_, ?_, ?_, ?_⟩
  · rw [Recorded.step, hframes, hspoken, List.append_nil]
    exact h.fifo
  · rw [Recorded.step, haddon, hissued, hspoken, List.append_nil]
    exact h.showsOnce
  · rw [Recorded.step, haddon, hissued, hspoken, List.append_nil]
    exact h.numbered
  · rw [Recorded.step, hreached, hexecuted, List.append_nil, List.append_nil]
    apply h.heard.continues
    rcases hsession with hnone | hsame
    · exact Or.inl hnone
    · exact Or.inr (by rw [hsame]; exact ⟨rfl, rfl⟩)

/-- An event that brings a frame to the helper concerns the helper and what it hears. -/
theorem step_of_arriving (setup : Setup) {event : Event κ} {desktop : Desktop} {arrived : HelperFrame}
    {system : PaletteSystem κ} (h : arriving event system = some (desktop, arrived)) :
    let exchanged := Helper.exchange (PaletteWindow.calls setup.helperInstallation desktop) arrived.frame setup.addonName
      system.helper
    let after := PaletteSystem.step setup event system
    system.toHelper = arrived :: after.toHelper ∧ after.addon = system.addon ∧ after.issued = system.issued ∧
      after.helper = exchanged.helper ∧ spoken setup event system = [] ∧
      reaching event system = heldCommands system.helper.session (told [arrived]) ∧
      executing setup event system = executedBy exchanged.effects := by
  have hreaching : reaching event system = heldCommands system.helper.session (told [arrived]) := by
    rw [reaching, h]
    rfl
  have hexecuting : executing setup event system = executedBy (Helper.exchange
      (PaletteWindow.calls setup.helperInstallation desktop) arrived.frame setup.addonName system.helper).effects := by
    rw [executing, h]
    rfl
  cases event with
  | addon surroundings happening => cases h
  | toAddon surroundings => cases h
  | pointer desktop event => cases h
  | toHelper other =>
      obtain ⟨_, hhead, hsame⟩ := Option.map_eq_some_iff.mp h
      cases hsame
      obtain ⟨rest, hframes⟩ := List.head?_eq_some_iff.mp hhead
      dsimp only
      rw [hreaching, hexecuting, PaletteSystem.step, PaletteSystem.deliverToHelper, hframes]
      exact ⟨rfl, rfl, rfl, rfl, rfl, rfl, rfl⟩

theorem Ordered.arriving (h : Ordered setup recorded received) {event : Event κ}
    (hpromised : Promised recorded.system event) {desktop : Desktop} {arrived : HelperFrame}
    (harriving : System.arriving event recorded.system = some (desktop, arrived)) :
    Ordered setup (recorded.step setup event) (received ++ (payloadOf arrived.frame).toList) := by
  obtain ⟨hframes, haddon, hissued, hhelper, hspoken, hreached, hexecuted⟩ := step_of_arriving setup harriving
  refine ⟨h.inv.step hpromised, ?_, ?_, ?_, ?_⟩
  · rw [Recorded.step, hspoken, List.append_nil, h.fifo, hframes, told_cons, List.append_assoc]
  · rw [Recorded.step, haddon, hissued, hspoken, List.append_nil]
    exact h.showsOnce
  · rw [Recorded.step, haddon, hissued, hspoken, List.append_nil]
    exact h.numbered
  · rw [Recorded.step, hhelper, hreached, hexecuted]
    have htold : told [arrived] = (payloadOf arrived.frame).toList := by rw [told_cons, told_nil, List.append_nil]
    rw [htold]
    cases hframe : payloadOf arrived.frame with
    | none =>
        rw [exchange_of_none _ hframe, Option.toList_none, List.append_nil]
        have hnothing : heldCommands recorded.system.helper.session [] = [] := rfl
        rw [hnothing, List.append_nil]
        simpa [Helper.ignore, executedBy] using h.heard
    | some payload =>
        refine h.heard.hears (h.hears desktop hframes hframe) fun value hvalue hmem => ?_
        -- The `Show` is among what was sent, and so is what was received before it.
        have hnodup := h.showsOnce.nodup
        rw [h.fifo, hframes, told_cons, hframe, hvalue, shows_append] at hnodup
        exact (List.nodup_append.mp hnodup).2.2 _ hmem _ List.mem_cons_self rfl

theorem Ordered.step (h : Ordered setup recorded received) {event : Event κ} (hpromised : Promised recorded.system event) :
    ∃ more, Ordered setup (recorded.step setup event) (received ++ more) := by
  cases hhandles : System.handles setup event recorded.system with
  | some handled => exact ⟨[], (List.append_nil received).symm ▸ h.handles hhandles hpromised⟩
  | none =>
      cases harriving : System.arriving event recorded.system with
      | none => exact ⟨[], (List.append_nil received).symm ▸ h.silent hpromised hhandles harriving⟩
      | some arrival => exact ⟨_, h.arriving hpromised harriving⟩

/-! ### Every run -/

theorem ordered_reachable (h : Reachable (Recorded.Start setup) Recorded.Promised (Recorded.step setup) recorded) :
    ∃ received, Ordered setup recorded received := by
  induction h with
  | start hstart => exact ⟨[], ordered_start hstart⟩
  | step _ hpromised ih =>
      obtain ⟨received, hordered⟩ := ih
      obtain ⟨more, hafter⟩ := hordered.step hpromised
      exact ⟨received ++ more, hafter⟩

/-- What an event makes the helper execute is what reaches it in its transaction. -/
theorem Ordered.executing_eq_reaching (h : Ordered setup recorded received)
    (hfew : ∀ transaction, (commandsOf transaction (commands recorded.sent)).length < 2 ^ 32)
    (hall : recorded.executed = recorded.reached) (event : Event κ) :
    executing setup event recorded.system = reaching event recorded.system := by
  cases harriving : System.arriving event recorded.system with
  | none => rw [executing, reaching, harriving, Option.map_none, Option.map_none]
  | some arrival =>
      obtain ⟨desktop, arrived⟩ := arrival
      obtain ⟨hframes, _, _, _, _, hreached, hexecuted⟩ := step_of_arriving setup harriving
      rw [hreached, hexecuted, told_cons, told_nil, List.append_nil]
      cases hframe : payloadOf arrived.frame with
      | none =>
          rw [exchange_of_none _ hframe]
          rfl
      | some payload =>
          apply (h.hears desktop hframes hframe).executed
          intro command hcommand hheld
          exact h.accepts hfew hall hframes (hcommand ▸ hframe) hheld

theorem executed_eq_reached (h : Reachable (Recorded.Start setup) Recorded.Promised (Recorded.step setup) recorded)
    (hfew : ∀ transaction, (commandsOf transaction (commands recorded.sent)).length < 2 ^ 32) :
    recorded.executed = recorded.reached := by
  induction h with
  | start hstart => exact hstart.2.2.2.trans hstart.2.2.1.symm
  | @step before event hreachable _ ih =>
      have hbefore : ∀ transaction, (commandsOf transaction (commands before.sent)).length < 2 ^ 32 := by
        intro transaction
        refine lt_of_le_of_lt ?_ (hfew transaction)
        rw [Recorded.step, commands_append, commandsOf_append, List.length_append]
        exact Nat.le_add_right _ _
      have hall := ih hbefore
      obtain ⟨received, hordered⟩ := ordered_reachable hreachable
      rw [Recorded.step, hordered.executing_eq_reaching hbefore hall event, hall]

/-- A command that finds its transaction is never stale, what has reached the helper in a transaction has been executed in its order and is the beginning of what was sent after the `Show`, and nothing is on its way twice. -/
theorem commands_in_order (setup : Setup) (recorded : Recorded κ)
    (h : Reachable (Recorded.Start setup) Recorded.Promised (Recorded.step setup) recorded)
    (hfew : ∀ transaction, (commandsOf transaction (commands recorded.sent)).length < 2 ^ 32) :
    (∀ arrived rest command, recorded.system.toHelper = arrived :: rest →
      payloadOf arrived.frame = some (.command command) →
      recorded.system.helper.session.transaction = some command.transaction →
      (recorded.system.helper.session.sequenceValidator.accept command.transaction command.sequence).isSome = true) ∧
    recorded.executed = recorded.reached ∧
    (∀ transaction, commandsOf transaction recorded.executed <+: commandsAfterShow transaction recorded.sent ∧
      (recorded.system.helper.session.transaction = some transaction → commandsAfterShow transaction recorded.sent =
        commandsOf transaction recorded.executed ++
          commandsOf transaction (commands (told recorded.system.toHelper)))) ∧
    ((commands recorded.sent).map fun command => (command.transaction, command.sequence)).Nodup := by
  have hall := executed_eq_reached h hfew
  obtain ⟨received, hordered⟩ := ordered_reachable h
  refine ⟨fun arrived rest command hframes hframe hheld => hordered.accepts hfew hall hframes hframe hheld, hall,
    fun transaction => ⟨?_, fun hheld => ?_⟩, hordered.numbered.nodup hfew⟩
  · rw [hall, hordered.fifo]
    exact (hordered.heard.arrived transaction).trans (commandsAfterShow_grows transaction received _)
  · rw [hall, hordered.heard.held transaction hheld, hordered.fifo,
      commandsAfterShow_append (hordered.heard.shown transaction hheld)]

end

/-! ### A run -/

def letter : Happening Unit := .key ⟨(), ⟨0x61, 0, 0⟩, ⟨0x61, 0, 0⟩, false⟩

/-- A letter while the handshake is under way, and one after it. -/
def typed : List (Event Unit) :=
  [.addon first press, .addon second letter, .toHelper desk, .toAddon second, .addon second letter, .toHelper desk,
    .toHelper desk, .toHelper desk]

def record (events : List (Event Unit)) : Recorded Unit :=
  events.foldl (fun recorded event => recorded.step oneEmoji event) ⟨opened, [], [], []⟩

/-- The first command comes too early for the helper, and the second is executed. -/
theorem commands_in_order_typed :
    (record typed).executed = (record typed).reached ∧
      (record typed).executed.map Command.sequence = [2] ∧
      ((commands (record typed).sent).map fun command => (command.transaction, command.sequence)).Nodup := by
  have hreachable : Reachable (Recorded.Start oneEmoji) Recorded.Promised (Recorded.step oneEmoji) (record typed) := by
    refine Reachable.run typed (.start ⟨⟨_, _, _, _, _, rfl⟩, rfl, rfl, rfl⟩) ?_
    exact ⟨⟨fun _ => rfl, rfl, by decide +kernel⟩, ⟨fun _ => rfl, rfl, by decide +kernel⟩, trivial,
      ⟨fun _ => rfl, rfl, by decide +kernel⟩, ⟨fun _ => rfl, rfl, by decide +kernel⟩, trivial, trivial, trivial, trivial⟩
  have hfew : ∀ transaction, (commandsOf transaction (commands (record typed).sent)).length < 2 ^ 32 := by
    intro transaction
    refine lt_of_le_of_lt (List.length_filter_le _ _) ?_
    decide +kernel
  obtain ⟨_, hall, _, hnodup⟩ := commands_in_order oneEmoji _ hreachable hfew
  exact ⟨hall, by decide +kernel, hnodup⟩

end System

end EmojiPalette
