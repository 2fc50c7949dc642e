import EmojiPalette.System.Agreement
import EmojiPalette.System.Messages

/-!
# What has been said and heard

The system together with what has happened between the two: the messages the addon has sent to the helper, the commands that have reached the helper while it held their transaction, and the commands that its window has been given.

The addon numbers the commands of a transaction from one on, whatever its counter has been reset to in between, and shows no transaction twice. The helper's validator knows the number of the last command that was executed since the `Show`. Between the two stands the queue, which neither loses nor reorders.
-/

namespace EmojiPalette

open Ipc Trace Addon Ui

namespace System

/-! ### Messages -/

/-- The transactions that are shown. -/
def shows (payloads : List Payload) : List TransactionId :=
  payloads.filterMap fun payload =>
    match payload with
    | .show value => some value.transaction
    | _ => none

def commands (payloads : List Payload) : List Command :=
  payloads.filterMap fun payload =>
    match payload with
    | .command value => some value
    | _ => none

/-- The commands of one transaction. -/
def commandsOf (transaction : TransactionId) (given : List Command) : List Command :=
  given.filter fun command => command.transaction = transaction

def isShow (transaction : TransactionId) : Payload → Bool
  | .show value => value.transaction = transaction
  | _ => false

/-- The commands of the transaction that come after its `Show`. -/
def commandsAfterShow (transaction : TransactionId) (payloads : List Payload) : List Command :=
  commandsOf transaction (commands (afterFirst (isShow transaction) payloads))

/-! ### The recorded system -/

structure Recorded (κ : Type) where
  system : PaletteSystem κ
  sent : List Payload
  reached : List Command
  executed : List Command

variable {κ : Type}

/-- What the addon makes of a message that has arrived. -/
def incoming (setup : Setup) : AddonMessage → EmojiPaletteAddon.Input κ
  | .reply serial frame => .reply serial setup.helperName (.message (some frame))
  | .signal frame => .frame setup.helperName (some frame)

/-- What an event brings to the addon. -/
def handles (setup : Setup) : Event κ → PaletteSystem κ → Option (Surroundings κ × EmojiPaletteAddon.Input κ)
  | .addon surroundings happening, _ => some (surroundings, happening.input)
  | .toAddon surroundings, system => system.toAddon.head?.map fun message => (surroundings, incoming setup message)
  | _, _ => none

def spoken [DecidableEq κ] (setup : Setup) (event : Event κ) (system : PaletteSystem κ) : List Payload :=
  ((handles setup event system).map fun handled =>
    messages (EmojiPaletteAddon.step setup.installation handled.1 handled.2 system.addon)).getD []

/-- The frame that an event brings to the helper. -/
def arriving : Event κ → PaletteSystem κ → Option (Desktop × HelperFrame)
  | .toHelper desktop, system => system.toHelper.head?.map fun arrived => (desktop, arrived)
  | _, _ => none

/-- The commands whose transaction the session holds. -/
def heldCommands (session : PaletteSession) (payloads : List Payload) : List Command :=
  (commands payloads).filter fun command => session.transaction = some command.transaction

def reaching (event : Event κ) (system : PaletteSystem κ) : List Command :=
  ((arriving event system).map fun arrival => heldCommands system.helper.session (told [arrival.2])).getD []

/-- The commands among the effects of the helper. -/
def executedBy (effects : List Effect) : List Command :=
  effects.filterMap fun effect =>
    match effect with
    | .commanded _ command => some command
    | _ => none

def executing (setup : Setup) (event : Event κ) (system : PaletteSystem κ) : List Command :=
  ((arriving event system).map fun arrival => executedBy (Helper.exchange
    (PaletteWindow.calls setup.helperInstallation arrival.1) arrival.2.frame setup.addonName system.helper).effects).getD []

namespace Recorded

def step [DecidableEq κ] (setup : Setup) (event : Event κ) (recorded : Recorded κ) : Recorded κ where
  system := PaletteSystem.step setup event recorded.system
  sent := recorded.sent ++ spoken setup event recorded.system
  reached := recorded.reached ++ reaching event recorded.system
  executed := recorded.executed ++ executing setup event recorded.system

def Promised (recorded : Recorded κ) (event : Event κ) : Prop := System.Promised recorded.system event

/-- Nothing has been said yet. -/
def Start (setup : Setup) (recorded : Recorded κ) : Prop :=
  System.Start setup recorded.system ∧ recorded.sent = [] ∧ recorded.reached = [] ∧ recorded.executed = []

end Recorded

/-! ### Lists of messages -/

@[simp] theorem shows_append (payloads more : List Payload) : shows (payloads ++ more) = shows payloads ++ shows more :=
  List.filterMap_append

@[simp] theorem commands_append (payloads more : List Payload) :
    commands (payloads ++ more) = commands payloads ++ commands more := List.filterMap_append

@[simp] theorem commandsOf_append (transaction : TransactionId) (given more : List Command) :
    commandsOf transaction (given ++ more) = commandsOf transaction given ++ commandsOf transaction more :=
  List.filter_append given more

theorem mem_shows_iff {transaction : TransactionId} {payloads : List Payload} :
    transaction ∈ shows payloads ↔ ∃ payload ∈ payloads, isShow transaction payload = true := by
  rw [shows, List.mem_filterMap]
  constructor
  · intro h
    obtain ⟨payload, hmem, hshow⟩ := h
    refine ⟨payload, hmem, ?_⟩
    cases payload with
    | «show» value => exact decide_eq_true (Option.some.inj hshow)
    | _ => cases hshow
  · intro h
    obtain ⟨payload, hmem, hshow⟩ := h
    refine ⟨payload, hmem, ?_⟩
    cases payload with
    | «show» value => exact congrArg some (of_decide_eq_true hshow)
    | _ => cases hshow

theorem isShow_of_notMem {transaction : TransactionId} {payloads : List Payload} (h : transaction ∉ shows payloads) :
    ∀ payload ∈ payloads, isShow transaction payload = false := by
  intro payload hmem
  by_contra hshow
  exact h (mem_shows_iff.mpr ⟨payload, hmem, by simpa using hshow⟩)

theorem commandsAfterShow_of_notMem {transaction : TransactionId} {payloads : List Payload}
    (h : transaction ∉ shows payloads) : commandsAfterShow transaction payloads = [] := by
  rw [commandsAfterShow, afterFirst_of_none (isShow_of_notMem h)]
  rfl

theorem commandsAfterShow_append {transaction : TransactionId} {payloads : List Payload}
    (h : transaction ∈ shows payloads) (more : List Payload) : commandsAfterShow transaction (payloads ++ more) =
      commandsAfterShow transaction payloads ++ commandsOf transaction (commands more) := by
  rw [commandsAfterShow, afterFirst_append_of_mem (mem_shows_iff.mp h), commands_append, commandsOf_append]
  rfl

/-- With its `Show`, a transaction has no commands yet. -/
theorem commandsAfterShow_show {value : Show} {payloads : List Payload} (h : value.transaction ∉ shows payloads) :
    commandsAfterShow value.transaction (payloads ++ [.show value]) = [] := by
  rw [commandsAfterShow, afterFirst_append_of_none (isShow_of_notMem h), afterFirst, isShow, if_pos (by simp)]
  rfl

/-- Whatever is sent later, the commands so far stay the first. -/
theorem commandsAfterShow_grows (transaction : TransactionId) (payloads more : List Payload) :
    commandsAfterShow transaction payloads <+: commandsAfterShow transaction (payloads ++ more) := by
  by_cases hshown : transaction ∈ shows payloads
  · rw [commandsAfterShow_append hshown]
    exact List.prefix_append _ _
  · rw [commandsAfterShow_of_notMem hshown]
    exact List.nil_prefix

theorem commandsAfterShow_suffix (transaction : TransactionId) (payloads : List Payload) :
    commandsAfterShow transaction payloads <:+ commandsOf transaction (commands payloads) := by
  have hsuffix := afterFirst_suffix (isShow transaction) payloads
  exact (hsuffix.filterMap _).filter _

theorem commandsOf_of_forall {transaction : TransactionId} {given : List Command}
    (h : ∀ command ∈ given, command.transaction ≠ transaction) : commandsOf transaction given = [] :=
  List.filter_eq_nil_iff.mpr fun command hmem => by simpa using h command hmem

theorem commandsOf_singleton (command : Command) (transaction : TransactionId) :
    commandsOf transaction [command] = if command.transaction = transaction then [command] else [] := by
  by_cases hsame : command.transaction = transaction
  · rw [if_pos hsame, commandsOf, List.filter_cons_of_pos (by simpa using hsame)]
    rfl
  · rw [if_neg hsame]
    exact commandsOf_of_forall fun other hmem => List.mem_singleton.mp hmem ▸ hsame

end System

end EmojiPalette
