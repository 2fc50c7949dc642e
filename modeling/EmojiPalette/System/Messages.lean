import EmojiPalette.System.AddonSide

/-!
# What the addon says

Every handler of the addon, seen by the messages it sends while every frame is taken. It says at most one thing: a `Hello` for a transaction that has to wait, the `Show` of a transaction, or the next command of it. With the message goes what becomes of the transaction, of the number of its last command and of the search text.
-/

namespace EmojiPalette

open Ipc Trace Addon Ui

namespace System

open EmojiPaletteAddon (WellFormed valid_of_transaction cancel sendEnvelope sendShow sendCommand)

variable {κ : Type} {addon : EmojiPaletteAddon κ} {surroundings : Surroundings κ}

/-- What the frames say. -/
def told (frames : List HelperFrame) : List Payload := frames.filterMap fun arrived => payloadOf arrived.frame

@[simp] theorem told_nil : told [] = [] := rfl

@[simp] theorem told_append (frames more : List HelperFrame) : told (frames ++ more) = told frames ++ told more :=
  List.filterMap_append

theorem told_cons (arrived : HelperFrame) (rest : List HelperFrame) :
    told (arrived :: rest) = (payloadOf arrived.frame).toList ++ told rest := by
  rw [told, List.filterMap_cons]
  cases payloadOf arrived.frame <;> rfl

/-- What a handler of the addon says to the helper. -/
def messages (ran : EmojiPaletteAddon κ × List (Output κ)) : List Payload := told (helperFrames ran.2)

@[simp] theorem messages_andThen (first second : AddonAction κ) (addon : EmojiPaletteAddon κ) :
    messages (first.andThen second addon) = messages (first addon) ++ messages (second (first addon).1) := by
  simp [messages]

/-- A message that is sent is heard as it was meant. -/
theorem messages_sent {payload : Payload} (hvalid : payload.Valid) (addon : EmojiPaletteAddon κ) :
    messages (addon, [(.sent payload.frame : Output κ)]) = [payload] := by
  have hframes : helperFrames [(.sent payload.frame : Output κ)] = [⟨payload.frame, none⟩] := rfl
  rw [messages, hframes, told_cons, payloadOf_frame hvalid]
  rfl

theorem messages_sendEnvelope {payload : Payload} (hsends : ∀ frame, surroundings.sends frame = true)
    (hvalid : payload.Valid) (addon : EmojiPaletteAddon κ) :
    (sendEnvelope surroundings payload addon).1 = addon ∧
      messages (sendEnvelope surroundings payload addon) = [payload] := by
  rw [EmojiPaletteAddon.sendEnvelope_of_delivers ⟨(Payload.valid_iff.mp hvalid).1, hsends _⟩]
  exact ⟨rfl, messages_sent hvalid addon⟩

/-- The input is the choice that answers the transaction. -/
def Chosen (transaction : TransactionId) : EmojiPaletteAddon.Input κ → Prop
  | .frame _ (some frame) => ∃ value, payloadOf frame = some (.selected value) ∧ value.transaction = transaction
  | _ => False

/-- The input is a key that the active transaction takes on this route. -/
def Routed (installation : Installation) (surroundings : Surroundings κ) (addon : EmojiPaletteAddon κ)
    (route : KeyRoute) : EmojiPaletteAddon.Input κ → Prop
  | .key event => addon.active = true ∧ surroundings.contexts.get addon.origin = some event.context ∧
      addon.keyRouter.route installation.fcitx event.key event.origKey event.isRelease addon.search = route
  | _ => False

/-- What a handler says, and what becomes of the transaction with it. -/
inductive Speaks (installation : Installation) (surroundings : Surroundings κ) (input : EmojiPaletteAddon.Input κ)
    (before after : EmojiPaletteAddon κ) : List Payload → Prop
  | nothing (htransaction : after.controller.transaction = before.controller.transaction)
      (hsequence : after.commandSequence = before.commandSequence) (hsearch : after.search = before.search)
      (hcloses : after.closeAfterSelection = before.closeAfterSelection) (hconnected : connected after = connected before) :
      Speaks installation surroundings input before after []
  /-- The transaction is over, if there was one. -/
  | ends {payloads : List Payload} (hnone : after.controller.transaction = none)
      (hhides : ∀ payload ∈ payloads, ∃ value, payload = .hide value) :
      Speaks installation surroundings input before after payloads
  | waits (hello : Hello) (hnone : before.controller.transaction = none)
      (htransaction : after.controller.transaction = some surroundings.transaction)
      (hsequence : after.commandSequence = 0) (hsearch : after.search = [])
      (hconnected : connected after = false) : Speaks installation surroundings input before after [.hello hello]
  /-- A new transaction. If it follows a choice, it goes on with the text. -/
  | begins (value : Show) (hfresh : value.transaction = surroundings.transaction)
      (htransaction : after.controller.transaction = some value.transaction) (hsequence : after.commandSequence = 0)
      (hsearch : before.controller.transaction = none → after.search = [])
      (hchosen : ∀ transaction, before.controller.transaction = some transaction →
        Chosen transaction input ∧ before.closeAfterSelection = false ∧ after.search = before.search)
      (hbefore : connected before = true) (hconnected : connected after = true) :
      Speaks installation surroundings input before after [.show value]
  /-- The transaction that has waited for the helper. -/
  | connects (value : Show) (hactive : before.controller.transaction = some value.transaction)
      (htransaction : after.controller.transaction = some value.transaction)
      (hsequence : after.commandSequence = before.commandSequence) (hsearch : after.search = before.search)
      (hbefore : connected before = false) (hconnected : connected after = true) :
      Speaks installation surroundings input before after [.show value]
  | commands (value : Command) (route : KeyRoute) (hrouted : Routed installation surroundings before route input)
      (hroute : route = if value.kind = .searchText then .search value.text else .command value.kind)
      (hactive : before.controller.transaction = some value.transaction)
      (htransaction : after.controller.transaction = some value.transaction)
      (hnumber : value.sequence = before.commandSequence + 1) (hsequence : after.commandSequence = value.sequence)
      (hsearch : after.search = if value.kind = .searchText then value.text else before.search)
      (hcloses : after.closeAfterSelection = before.closeAfterSelection) (hconnected : connected after = connected before) :
      Speaks installation surroundings input before after [.command value]

section

variable {installation : Installation} {input : EmojiPaletteAddon.Input κ}

/-! ### Ending -/

theorem speaks_cancel (hsends : ∀ frame, surroundings.sends frame = true)
    (h : ∀ transaction, addon.controller.transaction = some transaction → transaction.Valid) (reason : CancelReason)
    (notifyHelper : Bool) (before : EmojiPaletteAddon κ) :
    Speaks installation surroundings input before (cancel surroundings reason notifyHelper addon).1
      (messages (cancel surroundings reason notifyHelper addon)) := by
  rw [EmojiPaletteAddon.cancel_of_delivers fun transaction htransaction => ⟨h transaction htransaction, hsends _⟩]
  refine .ends rfl ?_
  cases htransaction : addon.controller.transaction with
  | none => simp [messages, helperFrames]
  | some transaction =>
      have hvalid : (Payload.hide ⟨transaction, reason⟩).Valid := h transaction htransaction
      split
      · intro payload hmem
        rw [Option.toList_some, List.map_singleton, messages_sent hvalid, List.mem_singleton] at hmem
        exact ⟨_, hmem⟩
      · simp [messages, helperFrames]

/-! ### The next command -/

theorem speaks_sendCommand (hsends : ∀ frame, surroundings.sends frame = true) (h : addon.WellFormed)
    (kind : CommandKind) {text : Bytes} (htext : TextWithin 256 text) (hkind : kind ≠ .searchText → text = [])
    {transaction : TransactionId} (htransaction : addon.controller.transaction = some transaction)
    {before : EmojiPaletteAddon κ}
    (hrouted : Routed installation surroundings before (if kind = .searchText then .search text else .command kind) input)
    (hbefore : ({ before with search := addon.search } : EmojiPaletteAddon κ) = addon)
    (hsearch : addon.search = if kind = .searchText then text else before.search) :
    Speaks installation surroundings input before (sendCommand surroundings kind text addon).1
      (messages (sendCommand surroundings kind text addon)) := by
  have hcommand : (Payload.command ⟨transaction, addon.commandSequence + 1, kind, text⟩).Valid :=
    ⟨valid_of_transaction h htransaction, htext, hkind⟩
  unfold EmojiPaletteAddon.sendCommand
  rw [htransaction]
  dsimp only
  obtain ⟨hafter, hmessages⟩ := messages_sendEnvelope hsends hcommand { addon with
    commandSequence := addon.commandSequence + 1 }
  rw [hafter, hmessages]
  rw [← hbefore] at htransaction ⊢
  exact .commands _ _ hrouted rfl htransaction htransaction rfl rfl hsearch rfl rfl

theorem speaks_handleActiveKey [DecidableEq κ] (hsends : ∀ frame, surroundings.sends frame = true)
    (h : addon.WellFormed) (event : KeyEvent κ) :
    let ran := EmojiPaletteAddon.handleActiveKey installation surroundings event addon
    Speaks installation surroundings (.key event) addon ran.1 (messages ran) := by
  dsimp only
  unfold EmojiPaletteAddon.handleActiveKey
  split
  · exact .nothing rfl rfl rfl rfl rfl
  rename_i hfiltered
  simp only [Bool.or_eq_true, Bool.not_eq_true', decide_eq_true_eq, not_or, Bool.not_eq_false, not_not] at hfiltered
  obtain ⟨hactive, horigin⟩ := hfiltered
  obtain ⟨transaction, htransaction⟩ : ∃ transaction, addon.controller.transaction = some transaction :=
    Option.isSome_iff_exists.mp hactive
  rw [messages_andThen, Action.andThen_fst, Action.emit_apply]
  cases hroute : addon.keyRouter.route installation.fcitx event.key event.origKey event.isRelease addon.search with
  | ignore => exact .nothing rfl rfl rfl rfl rfl
  | command command =>
      have hkind := ActiveKeyRouter.route_ne_searchText hroute
      refine speaks_sendCommand hsends h command EmojiPaletteAddon.textWithin_nil (fun _ => rfl) htransaction
        ⟨hactive, horigin, ?_⟩ rfl ?_
      · rw [hroute, if_neg hkind]
      · rw [if_neg hkind]
  | search text =>
      have htext := ActiveKeyRouter.textWithin_of_route h.search hroute
      rw [EmojiPaletteAddon.followRoute, messages_andThen, Action.andThen_fst, Action.update_apply]
      exact speaks_sendCommand hsends (h.withSearch htext) .searchText htext (fun hne => absurd rfl hne) htransaction
        ⟨hactive, horigin, hroute⟩ rfl rfl

/-! ### A transaction and its `Show` -/

/-- The `Show` of the transaction is sent, or cannot be written and ends it. -/
theorem messages_sendShow (hsends : ∀ frame, surroundings.sends frame = true) (contexts : Contexts κ) (context : κ)
    {transaction : TransactionId} (hvalid : transaction.Valid) (addon : EmojiPaletteAddon κ) :
    let ran := sendShow surroundings contexts context transaction addon
    (ran.1 = addon ∧ ∃ value : Show, value.transaction = transaction ∧ messages ran = [.show value]) ∨
      ran.1.controller.transaction = none ∧ messages ran = [] := by
  dsimp only
  rcases sendShow_cases hsends contexts context hvalid addon with
    ⟨_, value, hshow, hsame, _, hsent⟩ | ⟨_, reason, hrefused⟩
  · rw [hsent]
    exact Or.inl ⟨rfl, value, hsame, messages_sent hshow addon⟩
  · rw [hrefused]
    exact Or.inr ⟨rfl, rfl⟩

theorem speaks_show (hsends : ∀ frame, surroundings.sends frame = true) (hissued : surroundings.callIssued = true)
    (hnone : addon.controller.transaction = none) (context : κ) :
    let ran := EmojiPaletteAddon.show surroundings context addon
    Speaks installation surroundings input addon ran.1 (messages ran) := by
  have hcancel : messages (cancel surroundings .user true addon) = [] := by
    unfold EmojiPaletteAddon.cancel
    rw [hnone]
    rfl
  obtain ⟨reason, hcleared⟩ := EmojiPaletteAddon.cancel_fst surroundings .user true addon
  dsimp only
  rw [EmojiPaletteAddon.show, messages_andThen, Action.andThen_fst, hcancel, List.nil_append, messages_andThen,
    Action.andThen_fst, Action.update_apply, hcleared]
  have hnothing : messages ((EmojiPaletteAddon.started surroundings context (addon.cleared reason), []) :
      EmojiPaletteAddon κ × List (Output κ)) = [] := rfl
  rw [hnothing, List.nil_append, EmojiPaletteAddon.sendShowOrNegotiate]
  by_cases hready : addon.session.state = .ready
  · have hstate : (EmojiPaletteAddon.started surroundings context (addon.cleared reason)).session.state = .ready :=
      hready
    rw [if_pos hstate]
    rcases messages_sendShow hsends surroundings.contexts context surroundings.transaction_valid
        (EmojiPaletteAddon.started surroundings context (addon.cleared reason)) with
      ⟨hafter, value, hvalue, hmessages⟩ | ⟨hended, hmessages⟩
    · rw [hafter, hmessages]
      refine .begins value hvalue (congrArg some hvalue.symm) rfl (fun _ => rfl) (fun transaction hsome => ?_)
        (decide_eq_true hready) (decide_eq_true hready)
      cases hnone.symm.trans hsome
    · rw [hmessages]
      exact .ends hended (by simp)
  · have hstate : (EmojiPaletteAddon.started surroundings context (addon.cleared reason)).session.state ≠ .ready :=
      hready
    rw [if_neg hstate, EmojiPaletteAddon.negotiate_apply, if_pos hissued]
    have hcalled : messages (({ EmojiPaletteAddon.started surroundings context (addon.cleared reason) with
        pendingCall := some ⟨surroundings.serial, context, surroundings.transaction, surroundings.nonce⟩ },
        [.called surroundings.serial (EmojiPaletteAddon.hello surroundings).frame]) :
          EmojiPaletteAddon κ × List (Output κ)) = [EmojiPaletteAddon.hello surroundings] := by
      have hframes : helperFrames [(.called surroundings.serial (EmojiPaletteAddon.hello surroundings).frame : Output κ)] =
          [⟨(EmojiPaletteAddon.hello surroundings).frame, some surroundings.serial⟩] := rfl
      rw [messages, hframes, told_cons, payloadOf_frame (valid_hello surroundings)]
      rfl
    rw [hcalled]
    exact .waits _ hnone rfl rfl rfl (decide_eq_false hready)

theorem speaks_keyEvent [DecidableEq κ] (hsends : ∀ frame, surroundings.sends frame = true)
    (hissued : surroundings.callIssued = true) (h : addon.WellFormed) (event : KeyEvent κ) :
    let ran := EmojiPaletteAddon.keyEvent installation surroundings event addon
    Speaks installation surroundings (.key event) addon ran.1 (messages ran) := by
  dsimp only
  unfold EmojiPaletteAddon.keyEvent
  split
  · exact speaks_handleActiveKey hsends h event
  rename_i hinactive
  split
  · have hnone : addon.controller.transaction = none := by
      simpa [EmojiPaletteAddon.active, SelectionController.active] using hinactive
    rw [messages_andThen, Action.andThen_fst, Action.emit_apply]
    have hfiltered : messages (((EmojiPaletteAddon.show surroundings event.context addon).1, [.filtered]) :
        EmojiPaletteAddon κ × List (Output κ)) = [] := rfl
    rw [hfiltered, List.append_nil]
    exact speaks_show hsends hissued hnone event.context
  · exact .nothing rfl rfl rfl rfl rfl

theorem speaks_contextEvent [DecidableEq κ] (hsends : ∀ frame, surroundings.sends frame = true) (h : addon.WellFormed)
    (context : κ) (event : ContextEvent) :
    let ran := EmojiPaletteAddon.contextEvent surroundings context event addon
    Speaks installation surroundings input addon ran.1 (messages ran) := by
  dsimp only
  unfold EmojiPaletteAddon.contextEvent
  split
  · exact speaks_cancel hsends (fun _ => valid_of_transaction h) _ _ _
  · exact .nothing rfl rfl rfl rfl rfl

/-! ### The negotiation's answer -/

theorem speaks_receiveWelcome (hsends : ∀ frame, surroundings.sends frame = true) (h : addon.WellFormed)
    {call : PendingCall κ} (sender : Bytes) (welcome : Welcome)
    (htransaction : addon.controller.transaction = some call.transaction) (hconnected : connected addon = false)
    {before : EmojiPaletteAddon κ} (hbefore : { addon with pendingCall := before.pendingCall } = before) :
    let ran := EmojiPaletteAddon.receiveWelcome surroundings call sender welcome addon
    Speaks installation surroundings input before ran.1 (messages ran) := by
  dsimp only
  unfold EmojiPaletteAddon.receiveWelcome
  dsimp only
  have hvalid : ∀ transaction, addon.controller.transaction = some transaction → transaction.Valid :=
    fun _ => valid_of_transaction h
  split
  · exact speaks_cancel hsends (by exact hvalid) _ _ _
  rename_i haccepted
  split
  · exact speaks_cancel hsends (by exact hvalid) _ _ _
  rw [PeerSession.acceptWelcome_ready (by simpa using haccepted)]
  rcases messages_sendShow hsends surroundings.contexts call.context (valid_of_transaction h htransaction)
      { addon with session := { (addon.session.begin sender call.nonce addonCapabilities).1 with
        state := .ready, version := some protocolVersion } } with
    ⟨hafter, value, hvalue, hmessages⟩ | ⟨hended, hmessages⟩
  · rw [hafter, hmessages, ← hbefore]
    exact .connects value (htransaction.trans (congrArg some hvalue.symm))
      (htransaction.trans (congrArg some hvalue.symm)) rfl rfl hconnected rfl
  · rw [hmessages]
    exact .ends hended (by simp)

theorem speaks_reply (hsends : ∀ frame, surroundings.sends frame = true) (h : addon.WellFormed)
    (hcalled : addon.session.state = .ready → addon.pendingCall = none) (serial : Nat) (sender : Bytes)
    (answer : Reply) :
    let ran := EmojiPaletteAddon.reply surroundings serial sender answer addon
    Speaks installation surroundings input addon ran.1 (messages ran) := by
  dsimp only
  unfold EmojiPaletteAddon.reply
  cases hcall : addon.pendingCall with
  | none => exact .nothing rfl rfl rfl rfl rfl
  | some call =>
      have hconnected : connected addon = false := by
        refine decide_eq_false fun hready => ?_
        cases hcall.symm.trans (hcalled hready)
      dsimp only
      split
      · unfold EmojiPaletteAddon.receiveReply
        split
        · exact .nothing rfl rfl rfl rfl rfl
        rename_i hsame
        have hvalid : ∀ transaction, addon.controller.transaction = some transaction → transaction.Valid :=
          fun _ => valid_of_transaction h
        split
        · exact speaks_cancel hsends (by exact hvalid) _ _ _
        · exact speaks_cancel hsends (by exact hvalid) _ _ _
        split
        · have hanswered : ({ addon with pendingCall := none } : EmojiPaletteAddon κ).WellFormed := h.congr rfl rfl rfl
          exact speaks_receiveWelcome hsends hanswered sender _ (not_not.mp hsame) hconnected rfl
        · exact speaks_cancel hsends (by exact hvalid) _ _ _
      · exact .nothing rfl rfl rfl rfl rfl

/-! ### Frames of the helper -/

theorem speaks_receiveSelected (catalog : EmojiCatalog) (hsends : ∀ frame, surroundings.sends frame = true)
    (hready : connected addon = true) {selected : Selected} (hchosen : Chosen selected.transaction input) :
    let ran := EmojiPaletteAddon.receiveSelected catalog surroundings selected addon
    Speaks installation surroundings input addon ran.1 (messages ran) := by
  dsimp only
  unfold EmojiPaletteAddon.receiveSelected
  have hended : ∀ transaction, (none : Option TransactionId) = some transaction → transaction.Valid := by
    intro transaction hsome
    cases hsome
  rcases SelectionController.select_cases catalog surroundings.contexts.targets selected addon.controller with
    ⟨target, htransaction, _, _, _, _, hselect⟩ | ⟨result, hresult, _, hselect⟩ |
    ⟨_, _, _, hresult, _, _, _, hselect⟩
  · rw [hselect]
    have hcommitted : ∀ ran : EmojiPaletteAddon κ × List (Output κ), messages (ran.1,
        ((some (target, selected.sequence)).toList.map fun commit => Output.committed commit.1 commit.2) ++ ran.2) =
          messages ran := fun _ => rfl
    dsimp only
    rw [hcommitted]
    unfold EmojiPaletteAddon.afterCommit
    split
    · exact .ends rfl (by simp [messages, helperFrames])
    rename_i hstays
    split
    · exact speaks_cancel hsends (by exact hended) _ _ _
    split
    · rename_i context _ _
      rcases messages_sendShow hsends surroundings.afterCommit context surroundings.transaction_valid
          { addon with controller := .begin surroundings.transaction context, commandSequence := 0 } with
        ⟨hafter, value, hvalue, hmessages⟩ | ⟨hnone, hmessages⟩
      · rw [hafter, hmessages]
        refine .begins value hvalue (congrArg some hvalue.symm) rfl (fun hnone => ?_) (fun transaction hsome => ?_) hready
          hready
        · cases hnone.symm.trans htransaction
        · obtain rfl := Option.some.inj (htransaction.symm.trans hsome)
          exact ⟨hchosen, by simpa using hstays, rfl⟩
      · rw [hmessages]
        exact .ends hnone (by simp)
    · exact speaks_cancel hsends (by exact hended) _ _ _
  · rcases hresult with rfl | rfl <;> rw [hselect] <;> exact .nothing rfl rfl rfl rfl rfl
  · rcases hresult with rfl | rfl | rfl <;> rw [hselect] <;> exact speaks_cancel hsends (by exact hended) _ _ _

theorem speaks_receiveFrame (catalog : EmojiCatalog) (hsends : ∀ frame, surroundings.sends frame = true)
    (h : addon.WellFormed) (sender : Bytes) (content : Option Bytes) :
    let ran := EmojiPaletteAddon.receiveFrame catalog surroundings sender content addon
    Speaks installation surroundings (.frame sender content) addon ran.1 (messages ran) := by
  have hvalid : ∀ transaction, addon.controller.transaction = some transaction → transaction.Valid :=
    fun _ => valid_of_transaction h
  dsimp only
  unfold EmojiPaletteAddon.receiveFrame
  split
  · exact .nothing rfl rfl rfl rfl rfl
  rename_i haccepts
  have hready : connected addon = true := by
    simp only [Bool.not_eq_true', Bool.not_eq_false, PeerSession.accepts, Bool.and_eq_true] at haccepts
    exact haccepts.1
  split
  · exact speaks_cancel hsends hvalid _ _ _
  split
  · exact speaks_cancel hsends hvalid _ _ _
  rename_i frame _ envelope hparsed
  split
  · rename_i selected hselected
    refine speaks_receiveSelected catalog hsends hready ⟨selected, ?_, rfl⟩
    rw [payloadOf, hparsed, Option.map_some, hselected]
  · unfold EmojiPaletteAddon.receiveCancelled
    split
    · exact speaks_cancel hsends hvalid _ _ _
    · exact .nothing rfl rfl rfl rfl rfl
  · exact .nothing rfl rfl rfl rfl rfl

end

/-! ### All handlers -/

theorem speaks_step [DecidableEq κ] (installation : Installation) (hsends : ∀ frame, surroundings.sends frame = true)
    (hissued : surroundings.callIssued = true) (h : addon.WellFormed)
    (hcalled : addon.session.state = .ready → addon.pendingCall = none) {input : EmojiPaletteAddon.Input κ}
    (hinput : ∀ oldOwner newOwner, input ≠ .ownerChanged oldOwner newOwner) :
    let ran := EmojiPaletteAddon.step installation surroundings input addon
    Speaks installation surroundings input addon ran.1 (messages ran) := by
  cases input with
  | key event => exact speaks_keyEvent hsends hissued h event
  | contextEvent context event => exact speaks_contextEvent hsends h context event
  | groupChanged layout => cases layout <;> exact .nothing rfl rfl rfl rfl rfl
  | configured config layout => cases layout <;> exact .nothing rfl rfl rfl rfl rfl
  | ownerChanged oldOwner newOwner => exact absurd rfl (hinput oldOwner newOwner)
  | reply serial sender answer => exact speaks_reply hsends h hcalled serial sender answer
  | frame sender content => exact speaks_receiveFrame installation.catalog hsends h sender content

end System

end EmojiPalette
