import EmojiPalette.System.Refinement

/-!
# Both sides mean the same transaction

While the addon swallows the keys of a transaction, somebody can end it: the helper has the transaction, or will have it, or has already said how it ended.
-/

namespace EmojiPalette

open Ipc Trace Addon Ui Handover

namespace System

/-! ### Frames on their way -/

def ShowSent (transaction : TransactionId) (frames : List HelperFrame) : Prop :=
  ∃ arrived ∈ frames, ∃ value, payloadOf arrived.frame = some (.show value) ∧ value.transaction = transaction

def HideSent (transaction : TransactionId) (frames : List HelperFrame) : Prop :=
  ∃ arrived ∈ frames, ∃ value, payloadOf arrived.frame = some (.hide value) ∧ value.transaction = transaction

/-- The transaction's `Selected` or `Cancelled`. -/
def AnswerSent (transaction : TransactionId) (messages : List AddonMessage) : Prop :=
  ∃ frame, .signal frame ∈ messages ∧
    ((∃ value, payloadOf frame = some (.selected value) ∧ value.transaction = transaction) ∨
      ∃ value, payloadOf frame = some (.cancelled value) ∧ value.transaction = transaction)

theorem showSent_iff {transaction : TransactionId} {frames : List HelperFrame} :
    ShowSent transaction frames ↔ ∃ ask, .begin ask ∈ requests frames ∧ ask.id = transaction := by
  constructor
  · intro h
    obtain ⟨arrived, hmem, value, hframe, rfl⟩ := h
    refine ⟨⟨value.transaction, !value.closeAfterSelection⟩, List.mem_filterMap.mpr ⟨arrived, hmem, ?_⟩, rfl⟩
    rw [hframe]
    rfl
  · intro h
    obtain ⟨ask, hask, rfl⟩ := h
    obtain ⟨arrived, hmem, hrequest⟩ := List.mem_filterMap.mp hask
    obtain ⟨payload, hframe, hpayload⟩ := Option.bind_eq_some_iff.mp hrequest
    cases payload with
    | «show» value =>
        cases hpayload
        exact ⟨arrived, hmem, value, hframe, rfl⟩
    | _ => cases hpayload

theorem hideSent_iff {transaction : TransactionId} {frames : List HelperFrame} :
    HideSent transaction frames ↔ .revoke transaction ∈ requests frames := by
  constructor
  · intro h
    obtain ⟨arrived, hmem, value, hframe, rfl⟩ := h
    refine List.mem_filterMap.mpr ⟨arrived, hmem, ?_⟩
    rw [hframe]
    rfl
  · intro hrevoke
    obtain ⟨arrived, hmem, hrequest⟩ := List.mem_filterMap.mp hrevoke
    obtain ⟨payload, hframe, hpayload⟩ := Option.bind_eq_some_iff.mp hrequest
    cases payload with
    | hide value =>
        cases hpayload
        exact ⟨arrived, hmem, value, hframe, rfl⟩
    | _ => cases hpayload

theorem answerSent_of_mem {answer : Answer TransactionId} {messages : List AddonMessage} (h : answer ∈ answers messages) :
    AnswerSent answer.id messages := by
  obtain ⟨message, hmem, hanswer⟩ := List.mem_filterMap.mp h
  cases message with
  | reply serial frame => cases hanswer
  | signal frame =>
      obtain ⟨payload, hframe, hpayload⟩ := Option.bind_eq_some_iff.mp hanswer
      cases payload with
      | selected value =>
          cases hpayload
          exact ⟨frame, hmem, Or.inl ⟨value, hframe, rfl⟩⟩
      | cancelled value =>
          cases hpayload
          exact ⟨frame, hmem, Or.inr ⟨value, hframe, rfl⟩⟩
      | _ => cases hpayload

/-! ### Every reachable state -/

variable {κ : Type} [DecidableEq κ] {setup : Setup} {system : PaletteSystem κ}

theorem inv_reachable (h : Reachable (Start setup) Promised (PaletteSystem.step setup) system) : Inv setup system :=
  h.invariant (fun _ => inv_start) fun _ _ hinv => hinv.step

theorem agreed_reachable (h : Reachable (Start setup) Promised (PaletteSystem.step setup) system) :
    Agreed (handover system) := by
  induction h with
  | start hstart =>
      intro hconnected
      rw [handover_start hstart] at hconnected
      cases hconnected
  | step hreachable hpromised ih => exact ih.step (step_event (inv_reachable hreachable) hpromised)

/-- An active transaction of a ready session is the helper's, or its `Show` or its answer is on the way. -/
theorem agreement (setup : Setup) (system : PaletteSystem κ) (transaction : TransactionId)
    (h : Reachable (Start setup) Promised (PaletteSystem.step setup) system)
    (hactive : system.addon.controller.transaction = some transaction)
    (hready : system.addon.session.state = .ready) :
    system.helper.session.transaction = some transaction ∨ ShowSent transaction system.toHelper ∨
      AnswerSent transaction system.toAddon := by
  have hasked := asked_of_transaction hactive
  rcases agreed_reachable h (connected_eq_true_iff.mpr hready) _ hasked with hsettled | ⟨answer, hanswer, hid⟩
  · rcases Display.shown_or_begin_of_settle hsettled with hshown | hbegin
    · exact Or.inl (transaction_of_shown hshown)
    · exact Or.inr (Or.inl (showSent_iff.mpr ⟨_, hbegin, rfl⟩))
  · have hsent := answerSent_of_mem hanswer
    rw [hid] at hsent
    exact Or.inr (Or.inr hsent)

/-! ### A run -/

/-- A setup whose catalog holds one emoji. -/
def oneEmoji : Setup where
  installation :=
    ⟨⟨[⟨[0xF0, 0x9F, 0x98, 0x80], .smileysEmotion, [], fun _ => ⟨[], []⟩, []⟩]⟩, asciiKeys,
      ⟨true, fun _ _ => none, id, id⟩⟩
  qt := .dropMark
  addonName := [58, 49]
  helperName := [58, 50]
  addonName_ne_nil := by simp
  sequence_fits := by
    intro record hrecord
    rw [List.mem_singleton.mp hrecord]
    exact ⟨by simp, ⟨by decide, by decide⟩, by decide⟩

def desk : Desktop := ⟨0, 400, 300, 4⟩

/-- The start with a palette that stays open after a choice. -/
def opened : PaletteSystem Unit := .initial oneEmoji ⟨[⟨0x2E, 64, 0⟩], false⟩ none desk ⟨[], []⟩ 48

def press : Happening Unit := .key ⟨(), ⟨0x2E, 64, 0⟩, ⟨0x2E, 64, 0⟩, false⟩

/-- Two draws of a transaction where everything else is calm. -/
def first : Surroundings Unit := EmojiPaletteAddon.calm ⟨List.replicate 16 3, rfl⟩ (by decide)
def second : Surroundings Unit := EmojiPaletteAddon.calm ⟨List.replicate 16 5, rfl⟩ (by decide)

def run (events : List (Event Unit)) : PaletteSystem Unit :=
  events.foldl (fun system event => PaletteSystem.step oneEmoji event system) opened

theorem reachable_run {allowed : PaletteSystem Unit → Event Unit → Prop} {events : List (Event Unit)}
    (h : Along allowed (PaletteSystem.step oneEmoji) events opened) :
    Reachable (Start oneEmoji) allowed (PaletteSystem.step oneEmoji) (run events) :=
  .run events (.start ⟨_, _, _, _, _, rfl⟩) h

/-- The trigger and the handshake. -/
def handshake : List (Event Unit) := [.addon first press, .toHelper desk, .toAddon second]

/-- After the handshake the `Show` is on its way. -/
theorem agreement_handshake :
    (run handshake).addon.controller.transaction = some first.transaction ∧
      (run handshake).addon.session.state = .ready ∧
      ((run handshake).helper.session.transaction = some first.transaction ∨
        ShowSent first.transaction (run handshake).toHelper ∨ AnswerSent first.transaction (run handshake).toAddon) := by
  have hreachable : Reachable (Start oneEmoji) Promised (PaletteSystem.step oneEmoji) (run handshake) :=
    reachable_run ⟨⟨fun _ => rfl, rfl, by decide +kernel⟩, trivial, ⟨fun _ => rfl, rfl, by decide +kernel⟩, trivial⟩
  have hactive : (run handshake).addon.controller.transaction = some first.transaction := by decide +kernel
  have hready : (run handshake).addon.session.state = .ready := by decide +kernel
  exact ⟨hactive, hready, agreement oneEmoji _ _ hreachable hactive hready⟩

end System

end EmojiPalette
