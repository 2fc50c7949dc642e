import EmojiPalette.System.Recording

/-!
# What the helper makes of a message

The session of the helper, seen by the messages it gets: a `Show` begins its transaction anew, a command that the validator accepts is executed, and nothing else is. What the window does meanwhile can only end the transaction.
-/

namespace EmojiPalette

open Ipc Trace Addon Ui

namespace System

variable {ω : Type} {calls : WindowCalls ω} {sender frame : Bytes} {helper : Helper ω}

/-- The session goes on with its transaction, or without one. -/
def Continues (validator : SequenceValidator) (before after : PaletteSession) : Prop :=
  after.transaction = none ∨ after.transaction = before.transaction ∧ after.sequenceValidator = validator

theorem Continues.refl (session : PaletteSession) : Continues session.sequenceValidator session session :=
  Or.inr ⟨rfl, rfl⟩

/-- What becomes of the session with a message, and the commands that are executed with it. -/
inductive Hears (before after : PaletteSession) : Payload → List Command → Prop
  | begins (value : Show) (htransaction : after.transaction = some value.transaction)
      (hvalidator : after.sequenceValidator = .begin value.transaction) : Hears before after (.show value) []
  | executes (value : Command) (validator : SequenceValidator) (hactive : before.transaction = some value.transaction)
      (haccept : before.sequenceValidator.accept value.transaction value.sequence = some validator)
      (hafter : Continues validator before after) : Hears before after (.command value) [value]
  | refuses (value : Command) (hrefused : before.transaction = some value.transaction →
        before.sequenceValidator.accept value.transaction value.sequence = none)
      (hafter : after = before) : Hears before after (.command value) []
  | other {payload : Payload} (hshow : shows [payload] = []) (hcommand : commands [payload] = [])
      (hafter : Continues before.sequenceValidator before after) : Hears before after payload []

/-- If nothing of the transaction is refused, what is executed is what is heard of it. -/
theorem Hears.executed {before after : PaletteSession} {payload : Payload} {ran : List Command}
    (h : Hears before after payload ran)
    (haccepts : ∀ command, payload = .command command → before.transaction = some command.transaction →
      (before.sequenceValidator.accept command.transaction command.sequence).isSome = true) :
    ran = heldCommands before [payload] := by
  cases h with
  | begins => rfl
  | executes value _ hactive =>
      have hheld : heldCommands before [.command value] = [value] := List.filter_cons_of_pos (decide_eq_true hactive)
      exact hheld.symm
  | refuses value hrefused =>
      refine (List.filter_eq_nil_iff.mpr fun command hmem hheld => ?_).symm
      obtain rfl : command = value := List.mem_singleton.mp hmem
      have hactive := of_decide_eq_true hheld
      have haccepted := haccepts command rfl hactive
      rw [hrefused hactive] at haccepted
      cases haccepted
  | other _ hcommand =>
      rw [heldCommands, hcommand]
      rfl

theorem Hears.begun {before after : PaletteSession} {value : Show} {ran : List Command}
    (h : Hears before after (.show value) ran) : after.transaction = some value.transaction := by
  cases h with
  | begins _ htransaction => exact htransaction
  | other hshow => cases hshow

/-- Only a `Show` gives the session a transaction. -/
theorem Hears.held {before after : PaletteSession} {payload : Payload} {ran : List Command}
    (h : Hears before after payload ran) (hshow : shows [payload] = []) {transaction : TransactionId}
    (hheld : after.transaction = some transaction) : before.transaction = some transaction := by
  have hkept : ∀ {validator : SequenceValidator}, Continues validator before after →
      before.transaction = some transaction := by
    intro validator hafter
    rcases hafter with hnone | ⟨hsame, _⟩
    · cases hnone.symm.trans hheld
    · exact hsame ▸ hheld
  cases h with
  | begins => cases hshow
  | executes _ _ _ _ hafter => exact hkept hafter
  | refuses _ _ hafter => exact hafter ▸ hheld
  | other _ _ hafter => exact hkept hafter

/-! ### The window runs -/

@[simp] theorem executedBy_append (effects more : List Effect) :
    executedBy (effects ++ more) = executedBy effects ++ executedBy more := List.filterMap_append

theorem executedBy_outgoing (payload : Payload) : executedBy (Helper.outgoing payload) = [] := by
  rw [Helper.outgoing]
  cases serialize ⟨protocolVersion, payload⟩ <;> rfl

theorem hears_slot (calls : WindowCalls ω) (signal : WindowSignal) (helper : Helper ω) :
    let ran := Helper.slot calls signal helper
    (ran.1.session.transaction = none ∨ ran.1.session = helper.session) ∧ executedBy ran.2 = [] := by
  dsimp only
  cases signal with
  | selectionRequested sequence =>
      simp only [Helper.slot, Helper.selectionRequested]
      split
      · exact ⟨Or.inr rfl, rfl⟩
      · exact ⟨Or.inl rfl, executedBy_outgoing _⟩
  | cancellationRequested reason =>
      refine ⟨Or.inl rfl, ?_⟩
      simp only [Helper.slot, Helper.reset]
      split
      · exact executedBy_outgoing _
      · rfl

/-- Whatever the window raises ends the transaction at most, and executes nothing. -/
theorem hears_runWindow (calls : WindowCalls ω) (program : WindowProgram ω) (helper : Helper ω) :
    let ran := Helper.runWindow calls program helper
    (ran.1.session.transaction = none ∨ ran.1.session = helper.session) ∧ executedBy ran.2 = [] := by
  induction program generalizing helper with
  | done window => exact ⟨Or.inr rfl, rfl⟩
  | emit window signal next ih =>
      obtain ⟨hslot, hslotEffects⟩ := hears_slot calls signal { helper with window := window }
      simp only [Helper.runWindow, Action.andThen, Action.update_apply, List.nil_append, executedBy_append]
      obtain ⟨hnext, hnextEffects⟩ := ih (Helper.slot calls signal { helper with window := window }).1.window
        (Helper.slot calls signal { helper with window := window }).1
      refine ⟨?_, by rw [hslotEffects, hnextEffects]; rfl⟩
      rcases hnext with hnone | hsame
      · exact Or.inl hnone
      · rwa [hsame]

/-! ### Exchanges -/

theorem hears_exchangeBound (calls : WindowCalls ω) (sender : Bytes) (payload : Payload) (helper : Helper ω) :
    let exchanged := Helper.exchangeBound calls sender payload helper
    Hears helper.session exchanged.helper.session payload (executedBy exchanged.effects) := by
  dsimp only
  cases payload with
  | «show» value => exact .begins value rfl rfl
  | command value =>
      simp only [Helper.exchangeBound]
      split
      · rename_i hother
        exact .refuses value (fun hsame => absurd hsame hother) rfl
      rename_i hsame
      cases haccept : helper.session.sequenceValidator.accept value.transaction value.sequence with
      | none => exact .refuses value (fun _ => haccept) rfl
      | some validator =>
          have hran := hears_runWindow calls (calls.handleCommand value helper.window)
            ⟨{ helper.session with sequenceValidator := validator }, helper.window⟩
          simp only [Helper.answer, Helper.executeCommand, Action.andThen, executedBy_append]
          rw [hran.2, List.append_nil]
          refine .executes value validator (not_not.mp hsame) haccept ?_
          rcases hran.1 with hnone | hkept
          · exact Or.inl hnone
          · rw [hkept]
            exact Or.inr ⟨rfl, rfl⟩
  | hide value =>
      simp only [Helper.exchangeBound]
      split
      · exact .other rfl rfl (Continues.refl _)
      · exact .other rfl rfl (Or.inl rfl)
  | _ => exact .other rfl rfl (Continues.refl _)

/-- A session that holds a transaction, or gets one, has agreed with the sender before. -/
theorem hears_exchange (calls : WindowCalls ω) (hsender : sender ≠ []) {payload : Payload}
    (hframe : payloadOf frame = some payload)
    (hbound : helper.session.transaction ≠ none ∨ shows [payload] ≠ [] → Bound sender helper.session) :
    let exchanged := Helper.exchange calls frame sender helper
    Hears helper.session exchanged.helper.session payload (executedBy exchanged.effects) := by
  obtain ⟨⟨version, heard⟩, hparsed, hheard⟩ := Option.map_eq_some_iff.mp hframe
  obtain rfl : heard = payload := hheard
  have hempty : sender.isEmpty = false := by simpa using hsender
  dsimp only
  unfold Helper.exchange
  rw [hempty, hparsed]
  have hrest : let exchanged := if !helper.session.negotiated || sender ≠ helper.session.peerOwner then
        Helper.ignore helper else Helper.exchangeBound calls sender heard helper
      Hears helper.session exchanged.helper.session heard (executedBy exchanged.effects) := by
    dsimp only
    split
    · rename_i hrefused
      have hunbound : ¬ Bound sender helper.session := by
        intro h
        obtain ⟨hnegotiated, howner⟩ := h
        simp [hnegotiated, howner] at hrefused
      have hnone : helper.session.transaction = none := by
        by_contra hsome
        exact hunbound (hbound (Or.inl hsome))
      cases heard with
      | «show» value => exact absurd (hbound (Or.inr (by simp [shows]))) hunbound
      | command value =>
          refine .refuses value (fun hsame => ?_) rfl
          cases hnone.symm.trans hsame
      | _ => exact .other rfl rfl (Continues.refl _)
    · exact hears_exchangeBound calls sender heard helper
  cases heard with
  | hello hello =>
      dsimp only
      cases negotiate hello Helper.supportedCapabilities with
      | none => exact .other rfl rfl (Continues.refl _)
      | some welcome =>
          by_cases howner : helper.session.peerOwner = sender
          · simp only [Helper.answer, Helper.welcomePeer, howner, ne_eq, not_true_eq_false, if_false]
            exact .other rfl rfl (Or.inr ⟨rfl, rfl⟩)
          · simp only [Helper.answer, Helper.welcomePeer, howner, ne_eq, not_false_eq_true, if_true]
            exact .other rfl rfl (Or.inl rfl)
  | _ => exact hrest

/-- A frame that says nothing is ignored. -/
theorem exchange_of_none (calls : WindowCalls ω) (hframe : payloadOf frame = none) (sender : Bytes) (helper : Helper ω) :
    Helper.exchange calls frame sender helper = Helper.ignore helper := by
  have hparsed := Option.map_eq_none_iff.mp hframe
  unfold Helper.exchange
  rw [hparsed]
  split <;> rfl

/-! ### What has been heard -/

/-- A transaction that is held has been shown. All its commands since then have reached the session, and the last that was executed is the one the validator remembers. -/
structure Heard (session : PaletteSession) (received : List Payload) (reached executed : List Command) : Prop where
  sublist : executed.Sublist reached
  arrived : ∀ transaction, commandsOf transaction reached <+: commandsAfterShow transaction received
  shown : ∀ transaction, session.transaction = some transaction → transaction ∈ shows received
  held : ∀ transaction, session.transaction = some transaction →
    commandsOf transaction reached = commandsAfterShow transaction received
  validator : ∀ transaction, session.transaction = some transaction → session.sequenceValidator =
    ⟨some transaction, ((commandsOf transaction executed).getLast?.map Command.sequence).getD 0⟩

theorem commandsOf_heldCommands {session : PaletteSession} {transaction : TransactionId}
    (h : session.transaction = some transaction) (payloads : List Payload) :
    commandsOf transaction (heldCommands session payloads) = commandsOf transaction (commands payloads) := by
  rw [commandsOf, commandsOf, heldCommands, List.filter_filter, h]
  refine List.filter_congr fun command _ => ?_
  by_cases hsame : command.transaction = transaction
  · simp [hsame]
  · simp [hsame]

theorem commandsOf_heldCommands_of_ne {session : PaletteSession} {transaction : TransactionId}
    (h : session.transaction ≠ some transaction) (payloads : List Payload) :
    commandsOf transaction (heldCommands session payloads) = [] := by
  refine commandsOf_of_forall fun command hmem hsame => h ?_
  have hheld := of_decide_eq_true (List.mem_filter.mp hmem).2
  rw [hheld, hsame]

section

variable {before after : PaletteSession} {received : List Payload} {reached executed ran : List Command} {payload : Payload}

/-- A transaction that has not been shown has had no command reach the session. -/
theorem Heard.commandsOf_executed (h : Heard before received reached executed) {transaction : TransactionId}
    (hnew : transaction ∉ shows received) : commandsOf transaction executed = [] := by
  have hprefix := h.arrived transaction
  rw [commandsAfterShow_of_notMem hnew] at hprefix
  have hsublist : List.Sublist (commandsOf transaction executed) (commandsOf transaction reached) := h.sublist.filter _
  rw [List.prefix_nil.mp hprefix] at hsublist
  exact List.sublist_nil.mp hsublist

theorem Heard.continues (h : Heard before received reached executed)
    (hafter : Continues before.sequenceValidator before after) : Heard after received reached executed := by
  have hkept : ∀ transaction, after.transaction = some transaction → before.transaction = some transaction ∧
      after.sequenceValidator = before.sequenceValidator := by
    intro transaction hsome
    rcases hafter with hnone | ⟨hsame, hvalidator⟩
    · cases hnone.symm.trans hsome
    · exact ⟨hsame ▸ hsome, hvalidator⟩
  refine ⟨h.sublist, h.arrived, fun transaction hsome => ?_, fun transaction hsome => ?_, fun transaction hsome => ?_⟩
  · exact h.shown transaction (hkept transaction hsome).1
  · exact h.held transaction (hkept transaction hsome).1
  · rw [(hkept transaction hsome).2]
    exact h.validator transaction (hkept transaction hsome).1

/-- All that reaches a session comes after the `Show` of the transaction. -/
theorem Heard.held_append (h : Heard before received reached executed) {transaction : TransactionId}
    (hsome : before.transaction = some transaction) (payload : Payload) :
    commandsOf transaction (reached ++ heldCommands before [payload]) =
      commandsAfterShow transaction (received ++ [payload]) := by
  rw [commandsOf_append, commandsOf_heldCommands hsome, h.held transaction hsome,
    commandsAfterShow_append (h.shown transaction hsome)]

theorem Heard.reached_append (h : Heard before received reached executed) (transaction : TransactionId)
    (payload : Payload) : commandsOf transaction (reached ++ heldCommands before [payload]) <+:
      commandsAfterShow transaction (received ++ [payload]) := by
  by_cases hsome : before.transaction = some transaction
  · rw [h.held_append hsome]
  · rw [commandsOf_append, commandsOf_heldCommands_of_ne hsome, List.append_nil]
    exact (h.arrived transaction).trans (commandsAfterShow_grows transaction received [payload])

theorem mem_shows_append {transaction : TransactionId} (h : transaction ∈ shows received) (more : List Payload) :
    transaction ∈ shows (received ++ more) := by
  rw [shows_append]
  exact List.mem_append_left _ h

theorem Heard.hears (h : Heard before received reached executed) (hhears : Hears before after payload ran)
    (hnew : ∀ value, payload = .show value → value.transaction ∉ shows received) :
    Heard after (received ++ [payload]) (reached ++ heldCommands before [payload]) (executed ++ ran) := by
  have hreached := fun transaction => h.reached_append transaction payload
  cases hhears with
  | begins value htransaction hvalidator =>
      have hunseen := hnew value rfl
      have hsame : ∀ transaction, after.transaction = some transaction → transaction = value.transaction :=
        fun transaction hsome => Option.some.inj (hsome.symm.trans htransaction)
      rw [List.append_nil]
      refine ⟨h.sublist.trans (List.sublist_append_left _ _), hreached, fun transaction hsome => ?_,
        fun transaction hsome => ?_, fun transaction hsome => ?_⟩
      · rw [hsame transaction hsome, shows_append]
        exact List.mem_append_right _ List.mem_cons_self
      · have hprefix := hreached transaction
        rw [hsame transaction hsome, commandsAfterShow_show hunseen] at hprefix ⊢
        exact List.prefix_nil.mp hprefix
      · rw [hsame transaction hsome, h.commandsOf_executed hunseen, hvalidator]
        rfl
  | executes value validator hactive haccept hafter =>
      have hheld : heldCommands before [.command value] = [value] :=
        List.filter_cons_of_pos (decide_eq_true hactive)
      have hkept : ∀ transaction, after.transaction = some transaction → transaction = value.transaction ∧
          before.transaction = some transaction ∧ after.sequenceValidator = validator := by
        intro transaction hsome
        rcases hafter with hnone | ⟨hsame, hvalidator⟩
        · cases hnone.symm.trans hsome
        · rw [hsame] at hsome
          exact ⟨Option.some.inj (hsome.symm.trans hactive), hsome, hvalidator⟩
      refine ⟨hheld ▸ h.sublist.append (List.Sublist.refl _), hreached, fun transaction hsome => ?_,
        fun transaction hsome => ?_, fun transaction hsome => ?_⟩
      · exact mem_shows_append (h.shown transaction (hkept transaction hsome).2.1) _
      · exact h.held_append (hkept transaction hsome).2.1 _
      · obtain ⟨rfl, _, hvalidator⟩ := hkept transaction hsome
        rw [hvalidator, (SequenceValidator.accept_eq_some_iff.mp haccept).2.2.2, commandsOf_append,
          commandsOf_singleton, if_pos rfl, List.getLast?_append, List.getLast?_singleton]
        rfl
  | refuses value _ hsame =>
      rw [List.append_nil, hsame]
      refine ⟨h.sublist.trans (List.sublist_append_left _ _), hreached, fun transaction hsome => ?_,
        fun transaction hsome => h.held_append hsome _, h.validator⟩
      exact mem_shows_append (h.shown transaction hsome) _
  | other hshow hcommand hafter =>
      have hkept : Heard before (received ++ [payload]) (reached ++ heldCommands before [payload]) (executed ++ []) := by
        rw [List.append_nil]
        refine ⟨h.sublist.trans (List.sublist_append_left _ _), hreached, fun transaction hsome => ?_,
          fun transaction hsome => h.held_append hsome _, h.validator⟩
        exact mem_shows_append (h.shown transaction hsome) _
      exact hkept.continues hafter

end

end System

end EmojiPalette
