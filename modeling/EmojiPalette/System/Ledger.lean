import EmojiPalette.Addon.Commits
import EmojiPalette.System.CommandOrder

/-!
# Every choice is accounted for

The system together with what has become of the choices that were made in the helper's window: the choices that have been sent, those that have arrived at the addon, each with whether it was awaited, what the addon has committed, and which context each transaction has been active for.

A choice is awaited when its transaction is the active one and the context of the transaction lives and has the focus. What was awaited is committed, and nothing else is. Since an identifier that has been answered is never under way again, no transaction is chosen for twice.
-/

namespace EmojiPalette

open Ipc Trace Addon Ui Handover

namespace System

open EmojiPaletteAddon (awaited)

/-! ### The ledger -/

/-- A text that was committed, with the transaction that was active. -/
structure Typed (κ : Type) where
  transaction : Option TransactionId
  context : κ
  sequence : Bytes
  deriving DecidableEq

/-- Newest last, except for `held`. -/
structure Ledger (κ : Type) where
  system : PaletteSystem κ
  chosen : List Selected
  settled : List (Selected × Bool)
  typed : List (Typed κ)
  held : List (TransactionId × κ)

def selections (messages : List AddonMessage) : List Selected :=
  messages.filterMap fun message =>
    match message with
    | .signal frame => (payloadOf frame).bind fun payload =>
        match payload with
        | .selected value => some value
        | _ => none
    | .reply _ _ => none

variable {κ : Type}

/-- The signals that an event makes the helper send. -/
def signalling (setup : Setup) : Event κ → PaletteSystem κ → List AddonMessage
  | .pointer desktop event, system =>
      if system.helper.window.visible then
        signals (Helper.runWindow (PaletteWindow.calls setup.helperInstallation desktop)
          (PaletteWindow.pointer setup.helperInstallation desktop event system.helper.window) system.helper).2
      else []
  | .toHelper desktop, system =>
      (system.toHelper.head?.map fun arrived => signals (Helper.exchange
        (PaletteWindow.calls setup.helperInstallation desktop) arrived.frame setup.addonName system.helper).effects).getD []
  | .addon _ _, _ => []
  | .toAddon _, _ => []

/-- The choice that an event brings to the addon, if it brings one. -/
def settling : Event κ → PaletteSystem κ → List (Selected × Bool)
  | .toAddon surroundings, system =>
      (selections (system.toAddon.take 1)).map fun value => (value, awaited surroundings value system.addon)
  | .addon _ _, _ => []
  | .pointer _ _, _ => []
  | .toHelper _, _ => []

/-- What an event makes the addon commit. -/
def typing [DecidableEq κ] (setup : Setup) (event : Event κ) (system : PaletteSystem κ) : List (Typed κ) :=
  ((handles setup event system).map fun handled =>
    (commits (EmojiPaletteAddon.step setup.installation handled.1 handled.2 system.addon).2).map fun commit =>
      ⟨system.addon.controller.transaction, commit.1, commit.2⟩).getD []

def holding (controller : SelectionController κ) : Option (TransactionId × κ) :=
  controller.transaction.bind fun transaction => controller.target.map fun context => (transaction, context)

namespace Ledger

def step [DecidableEq κ] (setup : Setup) (event : Event κ) (ledger : Ledger κ) : Ledger κ where
  system := PaletteSystem.step setup event ledger.system
  chosen := ledger.chosen ++ selections (signalling setup event ledger.system)
  settled := ledger.settled ++ settling event ledger.system
  typed := ledger.typed ++ typing setup event ledger.system
  held := (holding (PaletteSystem.step setup event ledger.system).addon.controller).toList ++ ledger.held

def Promised (ledger : Ledger κ) (event : Event κ) : Prop := System.Promised ledger.system event

def Start (setup : Setup) (ledger : Ledger κ) : Prop :=
  System.Start setup ledger.system ∧ ledger.chosen = [] ∧ ledger.settled = [] ∧ ledger.typed = [] ∧ ledger.held = []

end Ledger

def accepted (settled : List (Selected × Bool)) : List Selected := (settled.filter Prod.snd).map Prod.fst

/-! ### Lists of choices -/

@[simp] theorem selections_nil : selections [] = [] := rfl

@[simp] theorem selections_append (messages more : List AddonMessage) :
    selections (messages ++ more) = selections messages ++ selections more := List.filterMap_append

@[simp] theorem selections_replies (serials : List Nat) (frame : Bytes) :
    selections (serials.map fun serial => .reply serial frame) = [] := by
  induction serials with
  | nil => rfl
  | cons serial rest ih => exact ih

theorem selections_cons (message : AddonMessage) (rest : List AddonMessage) :
    selections (message :: rest) = selections [message] ++ selections rest := selections_append [message] rest

@[simp] theorem accepted_append (settled more : List (Selected × Bool)) :
    accepted (settled ++ more) = accepted settled ++ accepted more := by
  rw [accepted, List.filter_append, List.map_append]
  rfl

theorem selections_sublist (messages : List AddonMessage) :
    List.Sublist ((selections messages).map Selected.transaction) ((answers messages).map Answer.id) := by
  induction messages with
  | nil => exact List.Sublist.slnil
  | cons message rest ih =>
      rw [selections_cons, List.map_append]
      cases message with
      | reply serial frame => exact ih
      | signal frame =>
          have hanswers : answers (.signal frame :: rest) = answers [.signal frame] ++ answers rest :=
            answers_append [.signal frame] rest
          rw [hanswers, List.map_append]
          refine List.Sublist.append ?_ ih
          cases hframe : payloadOf frame with
          | none => simp [selections, hframe]
          | some payload => cases payload <;> simp [selections, answers, answer, Answer.id, hframe]

theorem accepted_sublist (settled : List (Selected × Bool)) : List.Sublist (accepted settled) (settled.map Prod.fst) :=
  (List.filter_sublist).map Prod.fst

/-! ### What the addon says to a choice -/

/-- Whatever comes of a choice, its transaction is not asked for again. -/
theorem said_choice (catalog : EmojiCatalog) {surroundings : Surroundings κ} {addon : EmojiPaletteAddon κ}
    (hsends : ∀ frame, surroundings.sends frame = true) (h : addon.WellFormed) {selected : Selected}
    (hfresh : surroundings.transaction ≠ selected.transaction) :
    let ran := EmojiPaletteAddon.receiveSelected catalog surroundings selected addon
    selected.transaction ∉ begun (said ran).2 ∧ ran.1.controller.transaction ≠ some selected.transaction := by
  dsimp only
  by_cases hsame : addon.controller.transaction = some selected.transaction
  · rcases said_receiveSelected catalog hsends h hsame with hsaid | ⟨hsaid, _⟩
    · have hasked := transaction_of_asked (congrArg Prod.fst hsaid)
      rw [hsaid, hasked.1]
      refine ⟨fun hmem => ?_, fun hactive => hfresh (Option.some.inj hactive)⟩
      exact hfresh (List.mem_singleton.mp hmem).symm
    · have hnone := asked_eq_none_iff.mp (congrArg Prod.fst hsaid)
      rw [hsaid, hnone]
      exact ⟨List.not_mem_nil, by simp⟩
  · have hsaid : said (EmojiPaletteAddon.receiveSelected catalog surroundings selected addon) = (asked addon, []) :=
      said_receiveSelected_of_ne catalog hsame
    rw [hsaid]
    refine ⟨List.not_mem_nil, fun hactive => hsame ?_⟩
    have hasked : asked addon = _ := (congrArg Prod.fst hsaid).symm.trans (asked_of_transaction hactive)
    exact (transaction_of_asked hasked).1

/-! ### One event -/

section

variable [DecidableEq κ] {setup : Setup} {system : PaletteSystem κ} {event : Event κ}

/-- No choice is lost, repeated or overtaken between the two. -/
theorem selections_step (setup : Setup) (event : Event κ) (system : PaletteSystem κ) :
    (settling event system).map Prod.fst ++ selections (PaletteSystem.step setup event system).toAddon =
      selections system.toAddon ++ selections (signalling setup event system) := by
  cases event with
  | addon surroundings happening => exact (List.append_nil _).symm
  | pointer desktop event =>
      rw [PaletteSystem.step, PaletteSystem.point, signalling, settling]
      split
      · exact selections_append _ _
      · exact (List.append_nil _).symm
  | toHelper desktop =>
      rw [PaletteSystem.step, PaletteSystem.deliverToHelper, signalling, settling]
      cases hframes : system.toHelper with
      | nil => exact (List.append_nil _).symm
      | cons arrived rest =>
          dsimp only
          rw [selections_append, selections_append, selections_replies, List.append_nil]
          rfl
  | toAddon surroundings =>
      have hsame : (settling (.toAddon surroundings) system).map Prod.fst = selections (system.toAddon.take 1) := by
        rw [settling, List.map_map]
        exact List.map_id _
      have hnothing : signalling setup (.toAddon surroundings) system = [] := rfl
      rw [hsame, hnothing, selections_nil, List.append_nil, PaletteSystem.step, PaletteSystem.deliverToAddon]
      cases hmessages : system.toAddon with
      | nil => exact congrArg selections hmessages
      | cons message rest =>
          rw [selections_cons message rest]
          cases message <;> rfl

theorem step_of_not_handled (h : handles setup event system = none) :
    (PaletteSystem.step setup event system).addon = system.addon ∧
      (PaletteSystem.step setup event system).issued = system.issued := by
  cases event with
  | addon surroundings happening => cases h
  | pointer desktop event =>
      rw [PaletteSystem.step, PaletteSystem.point]
      split <;> exact ⟨rfl, rfl⟩
  | toHelper desktop =>
      rw [PaletteSystem.step, PaletteSystem.deliverToHelper]
      split <;> exact ⟨rfl, rfl⟩
  | toAddon surroundings =>
      have hmessages : system.toAddon = [] := List.head?_eq_none_iff.mp (Option.map_eq_none_iff.mp h)
      simp [PaletteSystem.step, PaletteSystem.deliverToAddon, hmessages]

/-- The active transaction stays, ends, or gives way to one that has not been active before. -/
theorem holding_step (setup : Setup) (hpromised : Promised system event) :
    let after := (PaletteSystem.step setup event system).addon.controller
    after = system.addon.controller ∨ after.transaction = none ∨
      ∃ transaction context, after = .begin transaction context ∧ transaction ∉ system.issued := by
  dsimp only
  cases hhandles : handles setup event system with
  | none =>
      rw [(step_of_not_handled hhandles).1]
      exact Or.inl rfl
  | some handled =>
      rw [(step_of_handles hhandles).1]
      rcases EmojiPaletteAddon.controller_step setup.installation handled.1 handled.2 system.addon with
        hsame | hnone | ⟨context, hbegun⟩
      · exact Or.inl hsame
      · exact Or.inr (Or.inl hnone)
      · exact Or.inr (Or.inr ⟨_, context, hbegun, (lossless_of_handles hhandles hpromised).fresh⟩)

/-- A transaction that is over does not come back. -/
theorem over_step (h : Inv setup system) (hpromised : Promised system event) {transaction : TransactionId}
    (hissued : transaction ∈ system.issued) (hlive : transaction ∉ (handover system).live)
    (hactive : system.addon.controller.transaction ≠ some transaction) :
    let after := PaletteSystem.step setup event system
    transaction ∈ after.issued ∧ transaction ∉ (handover after).live ∧
      after.addon.controller.transaction ≠ some transaction := by
  have hafter : (PaletteSystem.step setup event system).addon.controller.transaction ≠ some transaction := by
    rcases holding_step setup hpromised with hsame | hnone | ⟨other, context, hbegun, hfresh⟩
    · rw [hsame]
      exact hactive
    · rw [hnone]
      simp
    · rw [hbegun]
      rintro hother
      obtain rfl := Option.some.inj hother
      exact hfresh hissued
  refine ⟨?_, fun hmem => ?_, hafter⟩
  · cases hhandles : handles setup event system with
    | none => rwa [(step_of_not_handled hhandles).2]
    | some handled =>
        rw [(step_of_handles hhandles).2.2.2.1]
        exact List.mem_append_right _ hissued
  · rcases (step_event h hpromised).mem_live hmem with hbefore | ⟨ask, hasked, rfl⟩
    · exact hlive hbefore
    · exact hafter (transaction_of_asked hasked).1

/-! ### A choice that arrives -/

/-- What an event settles: nothing, or one choice that was under way, and it is committed if it was awaited. -/
inductive Settles (setup : Setup) (event : Event κ) (system : PaletteSystem κ) : Prop
  | nothing (hsettling : settling event system = []) (htyping : typing setup event system = [])
  | choice (value : Selected) (awaits : Bool) (hsettling : settling event system = [(value, awaits)])
      (hlive : value.transaction ∈ (handover system).live)
      (hover : value.transaction ∉ (handover (PaletteSystem.step setup event system)).live)
      (hactive : (PaletteSystem.step setup event system).addon.controller.transaction ≠ some value.transaction)
      (htyping : (awaits = false ∧ typing setup event system = []) ∨
        awaits = true ∧ ∃ context, holding system.addon.controller = some (value.transaction, context) ∧
          setup.installation.catalog.contains value.sequence = true ∧
          typing setup event system = [⟨some value.transaction, context, value.sequence⟩])

theorem settles_selected (h : Inv setup system) (hnodup : (handover system).live.Nodup) {surroundings : Surroundings κ}
    (hlossless : Lossless system.issued surroundings) {value : Selected} {rest : List AddonMessage}
    (hmessages : system.toAddon = .signal (Payload.selected value).frame :: rest) (hvalid : value.Valid)
    (hcatalog : setup.installation.catalog.contains value.sequence = true) :
    Settles setup (.toAddon surroundings) system := by
  have hanswers : (handover system).answers = .chosen value.transaction :: answers rest := by
    rw [handover, hmessages]
    exact answers_signal (.selected value) hvalid rest
  have haccepts := (h.peered (connected_eq_true_iff.mp
    (h.silent.connected_of_answer (hanswers ▸ List.mem_cons_self)))).1
  have hreceived : EmojiPaletteAddon.step setup.installation surroundings
      (.frame setup.helperName (some (Payload.selected value).frame)) system.addon =
        EmojiPaletteAddon.receiveSelected setup.installation.catalog surroundings value system.addon :=
    receiveFrame_of_accepts haccepts (.selected value) hvalid
  have hlive : value.transaction ∈ (handover system).live :=
    mem_live.mpr (Or.inr (Or.inr (by rw [hanswers]; exact List.mem_cons_self)))
  have hfresh : surroundings.transaction ≠ value.transaction := by
    intro hsame
    exact hlossless.fresh (hsame ▸ h.issued _ (Or.inl hlive))
  obtain ⟨hbegun, hactive⟩ := said_choice setup.installation.catalog hlossless.sends h.addon hfresh
  have hafter : PaletteSystem.step setup (.toAddon surroundings) system = PaletteSystem.runAddon setup surroundings
      (.frame setup.helperName (some (Payload.selected value).frame)) { system with toAddon := rest } := by
    rw [PaletteSystem.step, PaletteSystem.deliverToAddon, hmessages]
  have hselections : selections (system.toAddon.take 1) = [value] := by
    rw [hmessages, List.take_succ_cons, List.take_zero, selections]
    simp [payloadOf_frame (show (Payload.selected value).Valid from hvalid)]
  have htyping : typing setup (.toAddon surroundings) system =
      (system.addon.controller.select setup.installation.catalog surroundings.contexts.targets value).commit.toList.map
        fun commit => ⟨system.addon.controller.transaction, commit.1, commit.2⟩ := by
    rw [← EmojiPaletteAddon.commits_receiveSelected, ← hreceived, typing, handles, hmessages]
    rfl
  refine .choice value (awaited surroundings value system.addon) ?_ hlive ?_ ?_ ?_
  · rw [settling, hselections]
    rfl
  · rw [hafter, handover_runAddon, mem_live]
    dsimp only
    rw [hreceived, begun_append, List.mem_append]
    rw [State.live, hanswers, List.map_cons, ← List.append_assoc, List.nodup_middle, List.nodup_cons] at hnodup
    have hother := hnodup.1
    simp only [List.mem_append, not_or] at hother
    rintro ((hrequested | hsaid) | hshown | hanswered)
    · exact hother.1.1 hrequested
    · exact hbegun hsaid
    · exact hother.1.2 hshown
    · exact hother.2 hanswered
  · rw [hafter, PaletteSystem.runAddon]
    dsimp only
    rw [hreceived]
    exact hactive
  · rw [htyping]
    have hchoice : SelectionController.validSelection setup.installation.catalog value.sequence = true :=
      SelectionController.validSelection_iff.mpr
        ⟨List.length_pos_iff.mpr hvalid.nonempty, hvalid.sequence.1, hvalid.sequence.2, hcatalog⟩
    rcases EmojiPaletteAddon.select_of_valid surroundings system.addon hchoice with
      ⟨context, htarget, htransaction, hawaited, hcommit⟩ | ⟨hawaited, hcommit⟩
    · refine Or.inr ⟨hawaited, context, ?_, hcatalog, ?_⟩
      · rw [holding, htransaction, htarget]
        rfl
      · rw [hcommit, htransaction]
        rfl
    · rw [hcommit]
      exact Or.inl ⟨hawaited, rfl⟩

theorem settles_step (h : Inv setup system) (hnodup : (handover system).live.Nodup)
    (hpromised : Promised system event) : Settles setup event system := by
  cases event with
  | addon surroundings happening =>
      refine .nothing rfl ?_
      rw [typing, handles, Option.map_some, EmojiPaletteAddon.commits_step_of_ne]
      · rfl
      · intro sender content
        cases happening <;> simp [Happening.input]
  | pointer desktop event => exact .nothing rfl rfl
  | toHelper desktop => exact .nothing rfl rfl
  | toAddon surroundings =>
      cases hmessages : system.toAddon with
      | nil => exact .nothing (by rw [settling, hmessages]; rfl) (by rw [typing, handles, hmessages]; rfl)
      | cons message rest =>
          cases message with
          | reply serial frame =>
              refine .nothing (by rw [settling, hmessages]; rfl) ?_
              rw [typing, handles, hmessages, List.head?_cons, Option.map_some, Option.map_some,
                EmojiPaletteAddon.commits_step_of_ne]
              · rfl
              · intro sender content hsame
                cases hsame
          | signal frame =>
              cases h.meant frame (hmessages ▸ List.mem_cons_self) with
              | selected value hvalid hcatalog =>
                  exact settles_selected h hnodup hpromised hmessages hvalid hcatalog
              | cancelled value hvalid =>
                  have hanswers : (handover system).answers = .cancelled value.transaction :: answers rest := by
                    rw [handover, hmessages]
                    exact answers_signal (.cancelled value) hvalid rest
                  have haccepts := (h.peered (connected_eq_true_iff.mp
                    (h.silent.connected_of_answer (hanswers ▸ List.mem_cons_self)))).1
                  have hreceived : EmojiPaletteAddon.step setup.installation surroundings
                      (.frame setup.helperName (some (Payload.cancelled value).frame)) system.addon =
                        EmojiPaletteAddon.receiveCancelled surroundings value system.addon :=
                    receiveFrame_of_accepts haccepts (.cancelled value) hvalid
                  refine .nothing ?_ ?_
                  · rw [settling, hmessages, List.take_succ_cons, List.take_zero, selections]
                    simp [payloadOf_frame (show (Payload.cancelled value).Valid from hvalid)]
                  · rw [typing, handles, hmessages, List.head?_cons, Option.map_some, Option.map_some, incoming, hreceived,
                      EmojiPaletteAddon.commits_receiveCancelled]
                    rfl

end

/-! ### Every run -/

/-- Every choice that has arrived is over, and every text was committed for the one transaction that was active for its context. -/
structure Accounted (setup : Setup) (ledger : Ledger κ) : Prop where
  inv : Inv setup ledger.system
  live : (handover ledger.system).live.Nodup
  chosen : ledger.chosen = ledger.settled.map Prod.fst ++ selections ledger.system.toAddon
  gone : ∀ settled ∈ ledger.settled, settled.1.transaction ∈ ledger.system.issued ∧
    settled.1.transaction ∉ (handover ledger.system).live ∧
      ledger.system.addon.controller.transaction ≠ some settled.1.transaction
  nodup : (ledger.settled.map fun settled => settled.1.transaction).Nodup
  typed : ledger.typed.map (fun typed => (typed.transaction, typed.sequence)) =
    (accepted ledger.settled).map fun value => (some value.transaction, value.sequence)
  known : ∀ typed ∈ ledger.typed, setup.installation.catalog.contains typed.sequence = true ∧
    ∃ transaction, typed.transaction = some transaction ∧ (transaction, typed.context) ∈ ledger.held
  holds : ∀ held, holding ledger.system.addon.controller = some held → held ∈ ledger.held
  issued : ∀ held ∈ ledger.held, held.1 ∈ ledger.system.issued
  functional : ∀ transaction context other, (transaction, context) ∈ ledger.held → (transaction, other) ∈ ledger.held →
    context = other

theorem accounted_start {setup : Setup} {ledger : Ledger κ} (h : Ledger.Start setup ledger) : Accounted setup ledger := by
  obtain ⟨system, chosen, settled, typed, held⟩ := ledger
  obtain ⟨hstart, rfl, rfl, rfl, rfl⟩ := h
  dsimp only at hstart
  have hinv := inv_start hstart
  have hhandover := handover_start hstart
  have hnone : system.addon.controller.transaction = none := asked_eq_none_iff.mp (congrArg State.asked hhandover)
  have hempty : system.toAddon = [] := by
    obtain ⟨config, layout, desktop, state, cellSize, rfl⟩ := hstart
    rfl
  refine ⟨hinv, ?_, ?_, by simp, List.nodup_nil, rfl, by simp, fun held hheld => ?_, by simp, by simp⟩
  · rw [hhandover]
    exact List.nodup_nil
  · dsimp only
    rw [hempty]
    rfl
  · rw [holding, hnone] at hheld
    cases hheld

section

variable [DecidableEq κ] {setup : Setup} {event : Event κ}

/-- What is held grows by a pair that is there already, or by one whose transaction is new. -/
theorem Accounted.held_step {ledger : Ledger κ} (h : Accounted setup ledger) (hpromised : Promised ledger.system event) :
    (∀ held ∈ ledger.held, held ∈ (ledger.step setup event).held) ∧
      ∀ held ∈ (ledger.step setup event).held, held ∈ ledger.held ∨
        holding (PaletteSystem.step setup event ledger.system).addon.controller = some held ∧
          held.1 ∉ ledger.system.issued := by
  refine ⟨fun held hheld => List.mem_append_right _ hheld, fun held hheld => ?_⟩
  rcases List.mem_append.mp hheld with hnow | hbefore
  · have hnow : holding (PaletteSystem.step setup event ledger.system).addon.controller = some held :=
      Option.mem_toList.mp hnow
    rcases holding_step setup hpromised with hsame | hnone | ⟨transaction, context, hbegun, hfresh⟩
    · exact Or.inl (h.holds held (hsame ▸ hnow))
    · rw [holding, hnone] at hnow
      cases hnow
    · refine Or.inr ⟨hnow, ?_⟩
      rw [hbegun] at hnow
      cases hnow
      exact hfresh
  · exact Or.inl hbefore

theorem Accounted.step {ledger : Ledger κ} (h : Accounted setup ledger) (hpromised : Promised ledger.system event) :
    Accounted setup (ledger.step setup event) := by
  have hinv := h.inv.step hpromised
  have hover : ∀ settled ∈ ledger.settled, _ := fun settled hmem => over_step h.inv hpromised
    (h.gone settled hmem).1 (h.gone settled hmem).2.1 (h.gone settled hmem).2.2
  obtain ⟨hgrows, hheld⟩ := h.held_step hpromised
  have hkept : ∀ typed ∈ ledger.typed, setup.installation.catalog.contains typed.sequence = true ∧
      ∃ transaction, typed.transaction = some transaction ∧ (transaction, typed.context) ∈ (ledger.step setup event).held := by
    intro typed hmem
    obtain ⟨hcatalog, transaction, htransaction, hpair⟩ := h.known typed hmem
    exact ⟨hcatalog, transaction, htransaction, hgrows _ hpair⟩
  have hsettles := settles_step h.inv h.live hpromised
  have hqueue := selections_step setup event ledger.system
  refine ⟨hinv, Silent.nodup_step h.inv.silent h.live (step_event h.inv hpromised), ?_, ?_, ?_, ?_, ?_,
    fun held hnow => List.mem_append_left _ (Option.mem_toList.mpr hnow), ?_, ?_⟩
  · rw [Ledger.step, h.chosen, List.append_assoc, ← hqueue, List.map_append, List.append_assoc]
  · intro settled hmem
    rcases List.mem_append.mp hmem with hbefore | hnow
    · exact hover settled hbefore
    · cases hsettles with
      | nothing hsettling =>
          rw [hsettling] at hnow
          cases hnow
      | choice value awaits hsettling hlive hgone hactive =>
          rw [hsettling] at hnow
          rw [List.mem_singleton.mp hnow]
          refine ⟨?_, hgone, hactive⟩
          have hissued := h.inv.issued _ (Or.inl hlive)
          cases hhandles : handles setup event ledger.system with
          | none => rwa [Ledger.step, (step_of_not_handled hhandles).2]
          | some handled =>
              rw [Ledger.step, (step_of_handles hhandles).2.2.2.1]
              exact List.mem_append_right _ hissued
  · rw [Ledger.step, List.map_append]
    cases hsettles with
    | nothing hsettling =>
        rw [hsettling, List.map_nil, List.append_nil]
        exact h.nodup
    | choice value awaits hsettling hlive =>
        rw [hsettling, List.map_singleton, List.nodup_append]
        refine ⟨h.nodup, List.nodup_singleton _, fun transaction hbefore other hnow hsame => ?_⟩
        obtain ⟨settled, hmem, rfl⟩ := List.mem_map.mp hbefore
        rw [List.mem_singleton.mp hnow] at hsame
        exact (h.gone settled hmem).2.1 (hsame ▸ hlive)
  · rw [Ledger.step, List.map_append, accepted_append, List.map_append, h.typed]
    congr 1
    cases hsettles with
    | nothing hsettling htyping =>
        rw [hsettling, htyping]
        rfl
    | choice value awaits hsettling _ _ _ htyping =>
        rw [hsettling]
        rcases htyping with ⟨rfl, htyping⟩ | ⟨rfl, context, _, _, htyping⟩
        · rw [htyping]
          rfl
        · rw [htyping]
          rfl
  · intro typed hmem
    rcases List.mem_append.mp hmem with hbefore | hnow
    · exact hkept typed hbefore
    · cases hsettles with
      | nothing _ htyping =>
          rw [htyping] at hnow
          cases hnow
      | choice value awaits _ _ _ _ htyping =>
          rcases htyping with ⟨_, htyping⟩ | ⟨_, context, hholding, hcatalog, htyping⟩
          · rw [htyping] at hnow
            cases hnow
          · rw [htyping] at hnow
            rw [List.mem_singleton.mp hnow]
            exact ⟨hcatalog, _, rfl, hgrows _ (h.holds _ hholding)⟩
  · intro held hmem
    rcases hheld held hmem with hbefore | ⟨hnow, _⟩
    · cases hhandles : handles setup event ledger.system with
      | none =>
          rw [Ledger.step, (step_of_not_handled hhandles).2]
          exact h.issued held hbefore
      | some handled =>
          rw [Ledger.step, (step_of_handles hhandles).2.2.2.1]
          exact List.mem_append_right _ (h.issued held hbefore)
    · obtain ⟨transaction, htransaction, hpair⟩ := Option.bind_eq_some_iff.mp hnow
      obtain ⟨context, _, rfl⟩ := Option.map_eq_some_iff.mp hpair
      exact hinv.issued transaction (Or.inr htransaction)
  · intro transaction context other hcontext hother
    rcases hheld _ hcontext with hcontext | ⟨hcontext, hnew⟩
    · rcases hheld _ hother with hother | ⟨_, hnew⟩
      · exact h.functional transaction context other hcontext hother
      · exact absurd (h.issued _ hcontext) hnew
    · rcases hheld _ hother with hother | ⟨hother, _⟩
      · exact absurd (h.issued _ hother) hnew
      · exact congrArg Prod.snd (Option.some.inj (hcontext.symm.trans hother))

/-- In every run, the choices made so far are the ones that have arrived and the ones on their way, no two for one transaction. What has been committed is what was awaited, in its order, and each text of the catalog went to the one context its transaction was ever active for. -/
theorem choices_accounted (setup : Setup) (ledger : Ledger κ)
    (h : Reachable (Ledger.Start setup) Ledger.Promised (Ledger.step setup) ledger) :
    ledger.chosen = ledger.settled.map Prod.fst ++ selections ledger.system.toAddon ∧
    (ledger.chosen.map Selected.transaction).Nodup ∧
    ledger.typed.map (fun typed => (typed.transaction, typed.sequence)) =
      (accepted ledger.settled).map (fun value => (some value.transaction, value.sequence)) ∧
    ∀ typed ∈ ledger.typed, setup.installation.catalog.contains typed.sequence = true ∧
      ∃ transaction, typed.transaction = some transaction ∧
        ∀ context, (transaction, context) ∈ ledger.held ↔ context = typed.context := by
  have haccounted : Accounted setup ledger :=
    h.invariant (fun _ => accounted_start) fun _ _ hbefore hpromised => hbefore.step hpromised
  refine ⟨haccounted.chosen, ?_, haccounted.typed, fun typed hmem => ?_⟩
  · rw [haccounted.chosen, List.map_append, List.map_map, List.nodup_append]
    have hanswers : List.Sublist ((selections ledger.system.toAddon).map Selected.transaction)
        (handover ledger.system).live :=
      (selections_sublist ledger.system.toAddon).trans
        ((List.sublist_append_right _ _).trans (List.sublist_append_right _ _))
    refine ⟨haccounted.nodup, haccounted.live.sublist hanswers, fun transaction harrived other hcoming hsame => ?_⟩
    obtain ⟨settled, hsettled, rfl⟩ := List.mem_map.mp harrived
    rw [← hsame] at hcoming
    exact (haccounted.gone settled hsettled).2.1 (hanswers.subset hcoming)
  · obtain ⟨hcatalog, transaction, htransaction, hheld⟩ := haccounted.known typed hmem
    refine ⟨hcatalog, transaction, htransaction, fun context => ⟨fun hcontext => ?_, fun hcontext => hcontext ▸ hheld⟩⟩
    exact haccounted.functional transaction context typed.context hcontext hheld

end

/-! ### A run -/

def third : Surroundings Unit := EmojiPaletteAddon.calm ⟨List.replicate 16 7, rfl⟩ (by decide)

/-- A choice, another for the transaction that follows, and the loss of the focus before that one arrives. -/
def chosenTwice : List (Event Unit) :=
  handshake ++ [.toHelper desk, .pointer desk (.cellClicked 0), .toAddon second, .toHelper desk,
    .pointer desk (.cellClicked 0), .addon third (.contextEvent () .focusOut), .toAddon third]

def account (events : List (Event Unit)) : Ledger Unit :=
  events.foldl (fun ledger event => ledger.step oneEmoji event) ⟨opened, [], [], [], []⟩

/-- Two are chosen, and one is committed. -/
theorem choices_accounted_chosenTwice :
    ((account chosenTwice).chosen.map Selected.transaction).Nodup ∧
      (account chosenTwice).settled.map Prod.snd = [true, false] ∧
      (account chosenTwice).typed.map (fun typed => (typed.transaction, typed.sequence)) =
        (accepted (account chosenTwice).settled).map fun value => (some value.transaction, value.sequence) := by
  have hreachable : Reachable (Ledger.Start oneEmoji) Ledger.Promised (Ledger.step oneEmoji) (account chosenTwice) := by
    refine Reachable.run chosenTwice (.start ⟨⟨_, _, _, _, _, rfl⟩, rfl, rfl, rfl, rfl⟩) ?_
    exact ⟨⟨fun _ => rfl, rfl, by decide +kernel⟩, trivial, ⟨fun _ => rfl, rfl, by decide +kernel⟩, trivial, trivial,
      ⟨fun _ => rfl, rfl, by decide +kernel⟩, trivial, trivial, ⟨fun _ => rfl, rfl, by decide +kernel⟩,
      ⟨fun _ => rfl, rfl, by decide +kernel⟩, trivial⟩
  obtain ⟨_, hnodup, htyped, _⟩ := choices_accounted oneEmoji _ hreachable
  exact ⟨hnodup, by decide +kernel, htyped⟩

end System

end EmojiPalette
