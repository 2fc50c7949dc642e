import EmojiPalette.Ui.PaletteSession

/-!
# What the helper's session does, over whole runs

Every command handed to the window and every frame sent out is justified by what came before it in the trace: by the latest binding of an owner, and by the latest `Show` with nothing after it that would speak against it. One lemma for each part of the session says that it keeps this; the pairwise statements about a whole run follow from the justifications alone.
-/

namespace EmojiPalette

open Ipc Trace

namespace Ui

namespace Effect

def IsShown : Effect → Prop
  | .shown _ _ => True
  | _ => False

def IsPeerChanged : Effect → Prop
  | .peerChanged _ => True
  | _ => False

def transaction : Effect → Option TransactionId
  | .shown _ request => some request.transaction
  | _ => none

end Effect

/-- The transactions of the `Show` frames processed, in order. -/
def shownTransactions (log : List Effect) : List TransactionId := log.filterMap Effect.transaction

/-- The frame is a `Selected` or a `Cancelled` of this transaction. -/
def Terminal (frame : Bytes) (transaction : TransactionId) : Prop :=
  ∃ payload, parse frame = ⟨some ⟨protocolVersion, payload⟩, .none⟩ ∧
    ((∃ sequence, payload = .selected ⟨transaction, sequence⟩) ∨
      ∃ reason, payload = .cancelled ⟨transaction, reason⟩)

/-- The latest binding in the trace is to this owner. -/
def Bound (log : List Effect) (owner : Bytes) : Prop := ∃ newer, Since Effect.IsPeerChanged log (.peerChanged owner) newer

/-- The latest `Show` is of this transaction, no frame has gone out since, and no command since has a number above the last. -/
def Current (log : List Effect) (transaction : TransactionId) (lastSequence : UInt32) : Prop :=
  ∃ owner request newer, Since Effect.IsShown log (.shown owner request) newer ∧ request.transaction = transaction ∧
    (∀ frame, .outgoingFrame frame ∉ newer) ∧ ∀ sender command, .commanded sender command ∈ newer →
      command.sequence ≤ lastSequence

/-- Why an effect may happen. -/
def EffectReason (before : List Effect) : Effect → Prop
  | .commanded sender command =>
      Bound before sender ∧ ∃ owner request newer, Since Effect.IsShown before (.shown owner request) newer ∧
        command.transaction = request.transaction ∧ command.sequence ≠ 0 ∧
        (∀ frame, .outgoingFrame frame ∉ newer) ∧
        ∀ other earlier, .commanded other earlier ∈ newer → earlier.sequence < command.sequence
  | .outgoingFrame frame =>
      ∃ owner request newer, Since Effect.IsShown before (.shown owner request) newer ∧
        Terminal frame request.transaction ∧ ∀ other, .outgoingFrame other ∉ newer
  | _ => True

theorem Bound.snoc {log : List Effect} {owner : Bytes} {effect : Effect} (h : Bound log owner)
    (heffect : ¬ effect.IsPeerChanged) : Bound (log ++ [effect]) owner := by
  obtain ⟨newer, hnewer⟩ := h
  exact ⟨_, hnewer.snoc heffect⟩

namespace Helper

variable {ω : Type}

/-- The session's fields agree with the trace, and everything in the trace had its reason. -/
structure TraceInv (helper : Helper ω) (log : List Effect) : Prop where
  justified : Justified EffectReason log
  bound : helper.session.peerOwner ≠ [] → Bound log helper.session.peerOwner
  current : ∀ transaction, helper.session.transaction = some transaction →
    helper.session.sequenceValidator.transaction = some transaction ∧
      Current log transaction helper.session.sequenceValidator.lastSequence

/-! ### The parts of a step -/

/-- The invariant does not look at the window, and cares less about a session without a transaction. -/
theorem TraceInv.clear {helper : Helper ω} {log : List Effect} (h : TraceInv helper log) (window : ω) :
    TraceInv ⟨helper.session.clear, window⟩ log where
  justified := h.justified
  bound := h.bound
  current := fun _ htransaction => by cases htransaction

theorem TraceInv.setWindow {helper : Helper ω} {log : List Effect} (h : TraceInv helper log) (window : ω) :
    TraceInv { helper with window := window } log := ⟨h.justified, h.bound, h.current⟩

theorem terminal_of_outgoing {payload : Payload} {frame : Bytes} {transaction : TransactionId}
    (hframe : serialize ⟨protocolVersion, payload⟩ = some frame)
    (hpayload : (∃ sequence, payload = .selected ⟨transaction, sequence⟩) ∨
      ∃ reason, payload = .cancelled ⟨transaction, reason⟩) : Terminal frame transaction := by
  refine ⟨payload, parse_of_serialize hframe ?_, hpayload⟩
  rcases hpayload with ⟨_, rfl⟩ | ⟨_, rfl⟩ <;> trivial

/-- The end of a transaction: its terminal frame may go out, and the transaction is gone. -/
theorem TraceInv.terminate {helper : Helper ω} {log : List Effect} (h : TraceInv helper log)
    {transaction : TransactionId} (htransaction : helper.session.transaction = some transaction) {payload : Payload}
    (hpayload : (∃ sequence, payload = .selected ⟨transaction, sequence⟩) ∨
      ∃ reason, payload = .cancelled ⟨transaction, reason⟩) (window : ω) :
    TraceInv ⟨helper.session.clear, window⟩ (log ++ outgoing payload) := by
  have hclear := h.clear window
  unfold outgoing
  cases hframe : serialize ⟨protocolVersion, payload⟩ with
  | none => simpa using hclear
  | some frame =>
      obtain ⟨_, owner, request, newer, hsince, rfl, hquiet, _⟩ := h.current transaction htransaction
      exact {
        justified := hclear.justified.snoc
          ⟨owner, request, newer, hsince, terminal_of_outgoing hframe hpayload, hquiet⟩
        bound := fun howner => (hclear.bound howner).snoc id
        current := fun _ hnone => by cases hnone }

theorem preserves_reset (calls : WindowCalls ω) (reason : CancelReason) (notify : Bool) :
    Action.Preserves TraceInv (reset calls reason notify) := by
  intro helper log h
  unfold reset
  dsimp only
  split
  · rename_i transaction htransaction
    exact h.terminate htransaction (Or.inr ⟨reason, rfl⟩) _
  · simpa using h.clear _

theorem preserves_selectionRequested (sequence : Bytes) :
    Action.Preserves (TraceInv (ω := ω)) (selectionRequested sequence) := by
  intro helper log h
  unfold selectionRequested
  split
  · simpa using h
  · rename_i transaction htransaction
    exact h.terminate htransaction (Or.inl ⟨sequence, rfl⟩) _

theorem preserves_slot (calls : WindowCalls ω) (signal : WindowSignal) :
    Action.Preserves TraceInv (slot calls signal) := by
  cases signal with
  | selectionRequested sequence => exact preserves_selectionRequested sequence
  | cancellationRequested reason => exact preserves_reset calls reason true

theorem preserves_runWindow (calls : WindowCalls ω) (program : WindowProgram ω) :
    Action.Preserves TraceInv (runWindow calls program) := by
  induction program with
  | done window => exact Action.Preserves.update fun _ _ h => h.setWindow window
  | emit window signal next ih =>
      refine (Action.Preserves.update fun _ _ h => h.setWindow window).andThen
        ((preserves_slot calls signal).andThen fun helper log h => ih helper.window helper log h)

theorem preserves_bind (sender : Bytes) : Action.Preserves (TraceInv (ω := ω)) fun helper =>
    ({ helper with session := { helper.session with peerOwner := sender } }, [.peerChanged sender]) := by
  intro helper log h
  exact {
    justified := h.justified.snoc trivial
    bound := fun _ => ⟨[], since_snoc_self _ _ _⟩
    current := fun transaction htransaction => by
      obtain ⟨hvalidator, owner, request, newer, hsince, heq, hquiet, horder⟩ := h.current transaction htransaction
      refine ⟨hvalidator, owner, request, _, hsince.snoc id, heq, fun frame hframe => ?_, fun other command hcommand => ?_⟩
      · exact hquiet frame (by simpa using hframe)
      · exact horder other command (by simpa using hcommand) }

theorem preserves_welcomePeer (calls : WindowCalls ω) (sender : Bytes) :
    Action.Preserves TraceInv (welcomePeer calls sender) := by
  intro helper log h
  unfold welcomePeer
  dsimp only
  split
  · have hbound := (preserves_reset calls .helperDisconnected false).andThen (preserves_bind sender) helper log h
    exact ⟨hbound.justified, hbound.bound, hbound.current⟩
  · rw [List.append_nil]
    exact ⟨h.justified, h.bound, h.current⟩

theorem preserves_beginShow (calls : WindowCalls ω) (sender : Bytes) (request : Show) :
    Action.Preserves TraceInv (beginShow calls sender request) := by
  intro helper log h
  exact {
    justified := h.justified.snoc trivial
    bound := fun howner => (h.bound howner).snoc id
    current := fun transaction htransaction => by
      cases htransaction
      exact ⟨rfl, sender, request, [], since_snoc_self _ _ _, rfl, by simp, by simp⟩ }

/-- A command of the bound owner that the validator accepts is justified, and becomes the last of its transaction. -/
theorem TraceInv.command {helper : Helper ω} {log : List Effect} (h : TraceInv helper log) {command : Command}
    {validator : SequenceValidator} (howner : helper.session.peerOwner ≠ [])
    (htransaction : helper.session.transaction = some command.transaction)
    (haccept : helper.session.sequenceValidator.accept command.transaction command.sequence = some validator) :
    TraceInv { helper with session := { helper.session with sequenceValidator := validator } }
      (log ++ [.commanded helper.session.peerOwner command]) := by
  obtain ⟨_, hnonzero, hlater, rfl⟩ := SequenceValidator.accept_eq_some_iff.mp haccept
  obtain ⟨_, owner, request, newer, hsince, heq, hquiet, horder⟩ := h.current _ htransaction
  exact {
    justified := h.justified.snoc ⟨h.bound howner, owner, request, newer, hsince, heq.symm, hnonzero, hquiet,
      fun other earlier hearlier => UInt32.lt_of_le_of_lt (horder other earlier hearlier) hlater⟩
    bound := fun howner => (h.bound howner).snoc id
    current := fun transaction hcurrent => by
      obtain rfl := Option.some.inj (hcurrent.symm.trans htransaction)
      refine ⟨rfl, owner, request, _, hsince.snoc id, heq, fun frame hframe => ?_, fun other earlier hearlier => ?_⟩
      · exact hquiet frame (by simpa using hframe)
      · rcases List.mem_append.mp hearlier with hearlier | hearlier
        · exact UInt32.le_of_lt (UInt32.lt_of_le_of_lt (horder other earlier hearlier) hlater)
        · cases List.mem_singleton.mp hearlier
          exact UInt32.le_refl _ }

/-- What the two halves of an exchange keep. -/
def Exchange.Keeps (exchange : Exchange ω) (log : List Effect) : Prop :=
  TraceInv exchange.helper (log ++ exchange.effects)

theorem keeps_ignore {helper : Helper ω} {log : List Effect} (h : TraceInv helper log) :
    (ignore helper).Keeps log := by
  simpa [Exchange.Keeps, ignore] using h

theorem keeps_exchangeBound (calls : WindowCalls ω) {sender : Bytes} (payload : Payload) {helper : Helper ω}
    {log : List Effect} (h : TraceInv helper log) (hsender : sender ≠ []) (howner : sender = helper.session.peerOwner) :
    (exchangeBound calls sender payload helper).Keeps log := by
  subst howner
  unfold exchangeBound
  split
  · exact preserves_beginShow calls _ _ helper log h
  · rename_i command
    split
    · exact keeps_ignore h
    · rename_i htransaction
      split
      · exact keeps_ignore h
      · rename_i validator haccept
        have hcommand := h.command hsender (not_not.mp htransaction) haccept
        have hrun := preserves_runWindow calls (calls.handleCommand command helper.window) _ _ hcommand
        simpa [Exchange.Keeps, answer, executeCommand] using hrun
  · rename_i hide
    split
    · exact keeps_ignore h
    · exact preserves_reset calls hide.reason false helper log h
  · simpa [Exchange.Keeps, answer] using h
  · exact keeps_ignore h

theorem keeps_exchange (calls : WindowCalls ω) (frame sender : Bytes) {helper : Helper ω} {log : List Effect}
    (h : TraceInv helper log) : (exchange calls frame sender helper).Keeps log := by
  unfold exchange
  split
  · exact keeps_ignore h
  rename_i hsender
  split
  · exact keeps_ignore h
  split
  · split
    · exact keeps_ignore h
    · exact preserves_welcomePeer calls sender helper log h
  · split
    · exact keeps_ignore h
    · rename_i hbound
      simp only [Bool.or_eq_true, decide_eq_true_eq, not_or, not_not] at hbound
      exact keeps_exchangeBound calls _ h (by simpa using hsender) hbound.2

theorem preserves_peerDisconnected (calls : WindowCalls ω) (owner : Bytes) :
    Action.Preserves TraceInv (peerDisconnected calls owner) := by
  intro helper log h
  unfold peerDisconnected
  split
  · have hbound := (preserves_reset calls .helperDisconnected false).andThen (preserves_bind []) helper log h
    exact ⟨hbound.justified, hbound.bound, hbound.current⟩
  · simpa using h

theorem preserves_step (calls : WindowCalls ω) (input : Input ω) : Action.Preserves TraceInv (step calls input) := by
  cases input with
  | exchange frame sender => exact fun helper log h => keeps_exchange calls frame sender h
  | peerDisconnected owner => exact preserves_peerDisconnected calls owner
  | pointer program => exact fun helper log h => preserves_runWindow calls (program helper.window) helper log h

theorem traceInv_run (calls : WindowCalls ω) (inputs : List (Input ω)) (window : ω) :
    TraceInv (run calls inputs window).1 (run calls inputs window).2 :=
  Action.Preserves.run (preserves_step calls) inputs
    ⟨justified_nil _, fun h => absurd rfl h, fun _ h => by cases h⟩

/-! ### Pairs of effects -/

end Helper

/-- Two effects justified by `Show` frames, the first of which is not newer than the second's, belong to different transactions. -/
theorem transaction_ne_of_justified {before between after : List Effect} {first second : Effect}
    (hfresh : (shownTransactions (before ++ first :: (between ++ second :: after))).Nodup)
    {owner owner' : Bytes} {request request' : Show} {newer newer' : List Effect}
    (hfirst : Since Effect.IsShown before (.shown owner request) newer)
    (hsecond : Since Effect.IsShown (before ++ first :: between) (.shown owner' request') newer')
    (hnot : first ∉ newer') (hshown : ¬ first.IsShown) : request.transaction ≠ request'.transaction := by
  have hne : first ≠ .shown owner' request' := by
    rintro rfl
    exact hshown trivial
  have hbefore : request.transaction ∈ shownTransactions before := by
    obtain ⟨older, rfl, _⟩ := hfirst
    simp [shownTransactions, Effect.transaction]
  have hbetween : request'.transaction ∈ shownTransactions (first :: (between ++ second :: after)) := by
    have hmem := hsecond.mem_of_notMem hne hnot
    exact List.mem_filterMap.mpr ⟨.shown owner' request', by simp [hmem], rfl⟩
  rw [shownTransactions, List.filterMap_append] at hfresh
  exact (List.nodup_append.mp hfresh).2.2 _ hbefore _ hbetween

theorem Terminal.unique {frame : Bytes} {transaction transaction' : TransactionId} (h : Terminal frame transaction)
    (h' : Terminal frame transaction') : transaction = transaction' := by
  obtain ⟨payload, hparse, hpayload⟩ := h
  obtain ⟨payload', hparse', hpayload'⟩ := h'
  rw [hparse] at hparse'
  cases hparse'
  rcases hpayload with ⟨_, rfl⟩ | ⟨_, rfl⟩ <;> rcases hpayload' with ⟨_, heq⟩ | ⟨_, heq⟩ <;> cases heq <;> rfl

namespace Helper

variable {ω : Type}

/-- Over a run in which no transaction is shown twice: every effect has its reason, no command is executed twice, no transaction ends twice, and no command of a transaction follows its end. -/
theorem effects_of_run (calls : WindowCalls ω) (inputs : List (Input ω)) (window : ω)
    (hfresh : (shownTransactions (run calls inputs window).2).Nodup) :
    Justified EffectReason (run calls inputs window).2 ∧
      (∀ before between after sender sender' command command',
        (run calls inputs window).2 =
          before ++ .commanded sender command :: (between ++ .commanded sender' command' :: after) →
        (command.transaction, command.sequence) ≠ (command'.transaction, command'.sequence)) ∧
      (∀ before between after frame frame' transaction transaction',
        (run calls inputs window).2 = before ++ .outgoingFrame frame :: (between ++ .outgoingFrame frame' :: after) →
        Terminal frame transaction → Terminal frame' transaction' → transaction ≠ transaction') ∧
      (∀ before between after frame transaction sender command,
        (run calls inputs window).2 = before ++ .outgoingFrame frame :: (between ++ .commanded sender command :: after) →
        Terminal frame transaction → command.transaction ≠ transaction) := by
  have hjustified := (traceInv_run calls inputs window).justified
  have hboth : ∀ {before between after : List Effect} {first second : Effect},
      (run calls inputs window).2 = before ++ first :: (between ++ second :: after) →
        EffectReason before first ∧ EffectReason (before ++ first :: between) second ∧
          (shownTransactions (before ++ first :: (between ++ second :: after))).Nodup := by
    intro before between after first second hlog
    exact ⟨hjustified before first _ hlog, hjustified (before ++ first :: between) second after (by simpa using hlog),
      hlog ▸ hfresh⟩
  refine ⟨hjustified, ?_, ?_, ?_⟩
  · intro before between after sender sender' command command' hlog heq
    obtain ⟨⟨_, _, request, _, hsince, hof, _⟩, ⟨_, _, request', newer', hsince', hof', _, _, horder⟩, hnodup⟩ := hboth hlog
    by_cases hmem : Effect.commanded sender command ∈ newer'
    · have hless := horder sender command hmem
      rw [(Prod.mk.inj heq).2] at hless
      exact UInt32.lt_irrefl _ hless
    · refine transaction_ne_of_justified hnodup hsince hsince' hmem id ?_
      rw [← hof, ← hof', (Prod.mk.inj heq).1]
  · intro before between after frame frame' transaction transaction' hlog hterminal hterminal'
    obtain ⟨⟨_, request, _, hsince, hof, _⟩, ⟨_, request', newer', hsince', hof', hquiet⟩, hnodup⟩ := hboth hlog
    rw [hterminal.unique hof, hterminal'.unique hof']
    exact transaction_ne_of_justified hnodup hsince hsince' (hquiet frame) id
  · intro before between after frame transaction sender command hlog hterminal
    obtain ⟨⟨_, request, _, hsince, hof, _⟩, ⟨_, _, request', newer', hsince', hof', _, hquiet, _⟩, hnodup⟩ := hboth hlog
    rw [hterminal.unique hof, hof', ne_comm]
    exact transaction_ne_of_justified hnodup hsince hsince' (hquiet frame) id

/-- A handshake, a `Show`, a command that selects, and the same command again. -/
theorem effects_of_run_select :
    Justified EffectReason (run ⟨fun _ window => window, id, fun _ window => .emit window (.selectionRequested [97]) .done⟩
      ([.hello ⟨1, 1, 7, 0⟩, .show ⟨⟨List.replicate 16 1, rfl⟩, ⟨0, 0, 0, 0⟩, ⟨0, 0, 0, 0⟩, .english, 100, true⟩,
        .command ⟨⟨List.replicate 16 1, rfl⟩, 1, .select, []⟩,
        .command ⟨⟨List.replicate 16 1, rfl⟩, 1, .select, []⟩].map fun payload =>
          .exchange (response payload) [58, 49]) ()).2 :=
  (effects_of_run _ _ _ (by decide +kernel)).1

end Helper

end Ui

end EmojiPalette
