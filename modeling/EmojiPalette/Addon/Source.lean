import EmojiPalette.Addon.Outcomes

/-!
# The context of the active transaction

Whatever the handlers run through, the transaction that is active has one context: the one its text would go to is the one whose keys are filtered. An addon without a transaction has neither. The search text is always one that a command can carry.
-/

namespace EmojiPalette

open Ipc Trace

namespace Addon

namespace EmojiPaletteAddon

variable {κ : Type}

/-- The transaction that is active with its context, or neither. -/
inductive Source (addon : EmojiPaletteAddon κ) : Prop
  | idle (htransaction : addon.controller.transaction = none) (horigin : addon.origin = none)
  | active (transaction : TransactionId) (context : κ) (htransaction : addon.controller.transaction = some transaction)
      (htarget : addon.controller.target = some context) (horigin : addon.origin = some context)
      (hvalid : transaction.Valid)

structure WellFormed (addon : EmojiPaletteAddon κ) : Prop where
  source : Source addon
  search : TextWithin 256 addon.search

theorem textWithin_nil : TextWithin 256 [] := ⟨by simp, rfl⟩

theorem wellFormed_cleared (reason : CancelReason) (addon : EmojiPaletteAddon κ) :
    (addon.cleared reason).WellFormed :=
  ⟨.idle rfl rfl, textWithin_nil⟩

/-- A change that leaves the transaction, its context and the search text alone. -/
theorem WellFormed.congr {before after : EmojiPaletteAddon κ} (h : before.WellFormed)
    (hcontroller : after.controller = before.controller) (horigin : after.origin = before.origin)
    (hsearch : after.search = before.search) : after.WellFormed := by
  refine ⟨?_, hsearch ▸ h.search⟩
  cases h.source with
  | idle htransaction hnone => exact .idle (hcontroller ▸ htransaction) (horigin ▸ hnone)
  | active transaction context htransaction htarget hsome hvalid =>
      exact .active transaction context (hcontroller ▸ htransaction) (hcontroller ▸ htarget) (horigin ▸ hsome) hvalid

theorem WellFormed.withSearch {addon : EmojiPaletteAddon κ} (h : addon.WellFormed) {text : Bytes}
    (htext : TextWithin 256 text) : ({ addon with search := text } : EmojiPaletteAddon κ).WellFormed := by
  refine ⟨?_, htext⟩
  cases h.source with
  | idle htransaction hnone => exact .idle htransaction hnone
  | active transaction context htransaction htarget hsome hvalid =>
      exact .active transaction context htransaction htarget hsome hvalid

theorem valid_of_transaction {addon : EmojiPaletteAddon κ} (h : addon.WellFormed) {transaction : TransactionId}
    (htransaction : addon.controller.transaction = some transaction) : transaction.Valid := by
  cases h.source with
  | idle hnone => cases hnone.symm.trans htransaction
  | active other _ hsome _ _ hvalid =>
      cases hsome.symm.trans htransaction
      exact hvalid

theorem Becomes.wellFormed {surroundings : Surroundings κ} {before after : EmojiPaletteAddon κ}
    (h : Becomes surroundings before after) (hbefore : before.WellFormed) : after.WellFormed := by
  cases h with
  | same => exact hbefore
  | ended reason => exact wellFormed_cleared reason before
  | typed text sequence htext => exact (hbefore.withSearch (htext hbefore.search)).congr rfl rfl rfl
  | closed => exact ⟨.idle rfl rfl, hbefore.search⟩
  | continued context horigin =>
      exact ⟨.active surroundings.transaction context rfl rfl horigin surroundings.transaction_valid, hbefore.search⟩

theorem WellFormed.step [DecidableEq κ] {addon : EmojiPaletteAddon κ} (h : addon.WellFormed)
    (installation : Installation) (surroundings : Surroundings κ) (input : Input κ) :
    (EmojiPaletteAddon.step installation surroundings input addon).1.WellFormed := by
  have houtcome := outcome_step installation surroundings input addon
  generalize (EmojiPaletteAddon.step installation surroundings input addon).1 = after at houtcome
  cases houtcome with
  | becomes hbecomes => exact hbecomes.wellFormed h
  | begins event =>
      exact ⟨.active surroundings.transaction event.context rfl rfl rfl surroundings.transaction_valid, textWithin_nil⟩
  | fails event reason => exact wellFormed_cleared reason _
  | reloads => exact h.congr rfl rfl rfl
  | reconnects session pendingCall _ hbecomes => exact hbecomes.wellFormed (h.congr rfl rfl rfl)

theorem wellFormed_initial (installation : Installation) (config : EmojiPaletteConfig) (layout : Option Bytes) :
    (initial installation config layout : EmojiPaletteAddon κ).WellFormed := by
  cases layout <;> exact ⟨.idle rfl rfl, textWithin_nil⟩

end EmojiPaletteAddon

end Addon

end EmojiPalette
