import EmojiPalette.System.Recording

/-!
# The numbers of the commands

What the addon has said, in every run: it shows no transaction twice, and it numbers the commands of each from one on, whatever the counter has been reset to in between. The counter counts up to 2^32, and the numbers are as it counts.
-/

namespace EmojiPalette

open Ipc Trace Addon Ui

namespace System

variable {κ : Type} {setup : Setup}

/-- The first numbers of a transaction. They start again once they are used up. -/
def numbers (count : Nat) : List UInt32 := (List.range count).map fun index => UInt32.ofNat (index + 1)

theorem numbers_succ (count : Nat) : numbers (count + 1) = numbers count ++ [UInt32.ofNat (count + 1)] := by
  simp [numbers, List.range_succ]

/-- No transaction is shown twice, and none before the helper is there. The one that is active was shown last. -/
structure ShowsOnce (addon : EmojiPaletteAddon κ) (issued shown : List TransactionId) : Prop where
  nodup : shown.Nodup
  issued : ∀ transaction ∈ shown, transaction ∈ issued
  waiting : connected addon = false → shown = []
  latest : connected addon = true → ∀ transaction, addon.controller.transaction = some transaction →
    shown.getLast? = some transaction

/-- The commands of a transaction are numbered one after another, and the counter of the active one goes on from there. -/
structure Numbered (addon : EmojiPaletteAddon κ) (issued : List TransactionId) (given : List Command) : Prop where
  issued : ∀ command ∈ given, command.transaction ∈ issued
  numbered : ∀ transaction, (commandsOf transaction given).map Command.sequence =
    numbers (commandsOf transaction given).length
  counter : ∀ transaction, addon.controller.transaction = some transaction →
    addon.commandSequence = UInt32.ofNat (commandsOf transaction given).length

section

variable {installation : Installation} {surroundings : Surroundings κ} {input : EmojiPaletteAddon.Input κ}
  {before after : EmojiPaletteAddon κ} {issued shown : List TransactionId}
  {given : List Command} {payloads : List Payload}

theorem shows_of_hides (h : ∀ payload ∈ payloads, ∃ value, payload = .hide value) : shows payloads = [] := by
  refine List.filterMap_eq_nil_iff.mpr fun payload hmem => ?_
  obtain ⟨value, rfl⟩ := h payload hmem
  rfl

theorem commands_of_hides (h : ∀ payload ∈ payloads, ∃ value, payload = .hide value) : commands payloads = [] := by
  refine List.filterMap_eq_nil_iff.mpr fun payload hmem => ?_
  obtain ⟨value, rfl⟩ := h payload hmem
  rfl

theorem ShowsOnce.add (h : ShowsOnce before issued shown) {transaction : TransactionId} (hnew : transaction ∉ shown)
    (htransaction : after.controller.transaction = some transaction) (hconnected : connected after = true) :
    ShowsOnce after (after.controller.transaction.toList ++ issued) (shown ++ [transaction]) := by
  refine ⟨?_, fun other hmem => ?_, fun hfalse => ?_, fun _ other hother => ?_⟩
  · rw [List.nodup_append_comm]
    exact List.nodup_cons.mpr ⟨hnew, h.nodup⟩
  · rcases List.mem_append.mp hmem with hbefore | hlast
    · exact List.mem_append_right _ (h.issued other hbefore)
    · rw [List.mem_singleton.mp hlast, htransaction]
      exact List.mem_cons_self
  · cases hconnected.symm.trans hfalse
  · rw [List.getLast?_append, List.getLast?_singleton, ← hother, htransaction]
    rfl

theorem ShowsOnce.keep (h : ShowsOnce before issued shown) (hwaiting : connected after = false → connected before = false)
    (hlatest : connected after = true → ∀ transaction, after.controller.transaction = some transaction →
      connected before = true ∧ before.controller.transaction = some transaction) :
    ShowsOnce after (after.controller.transaction.toList ++ issued) shown := by
  refine ⟨h.nodup, fun other hmem => List.mem_append_right _ (h.issued other hmem), fun hfalse => ?_,
    fun htrue other hother => ?_⟩
  · exact h.waiting (hwaiting hfalse)
  · obtain ⟨hconnected, hactive⟩ := hlatest htrue other hother
    exact h.latest hconnected other hactive

theorem ShowsOnce.speaks (h : ShowsOnce before issued shown)
    (hspeaks : Speaks installation surroundings input before after payloads)
    (hfresh : surroundings.transaction ∉ issued) (hkept : connected before = true → connected after = true) :
    ShowsOnce after (after.controller.transaction.toList ++ issued) (shown ++ shows payloads) := by
  have hwaiting : connected after = false → connected before = false := by
    intro hfalse
    by_contra hbefore
    cases (hkept (by simpa using hbefore)).symm.trans hfalse
  cases hspeaks with
  | nothing htransaction _ _ _ hconnected =>
      rw [show shows [] = [] from rfl, List.append_nil]
      exact h.keep hwaiting fun htrue other hother => ⟨hconnected ▸ htrue, htransaction ▸ hother⟩
  | ends hnone hhides =>
      rw [shows_of_hides hhides, List.append_nil]
      refine h.keep hwaiting fun _ other hother => ?_
      cases hnone.symm.trans hother
  | waits hello _ _ _ _ hconnected =>
      rw [show shows [.hello hello] = [] from rfl, List.append_nil]
      refine h.keep hwaiting fun htrue => ?_
      cases hconnected.symm.trans htrue
  | begins value hvalue htransaction _ _ _ _ hconnected =>
      exact h.add (fun hmem => hfresh (hvalue ▸ h.issued _ hmem)) htransaction hconnected
  | connects value _ htransaction _ _ hbefore hconnected =>
      refine h.add (fun hmem => ?_) htransaction hconnected
      rw [h.waiting hbefore] at hmem
      cases hmem
  | commands value _ _ _ hactive htransaction _ _ _ _ hconnected =>
      rw [show shows [.command value] = [] from rfl, List.append_nil]
      exact h.keep hwaiting fun htrue other hother => ⟨hconnected ▸ htrue, hactive.trans (htransaction ▸ hother)⟩

theorem Numbered.commandsOf_fresh (h : Numbered before issued given) {transaction : TransactionId}
    (hfresh : transaction ∉ issued) : commandsOf transaction given = [] :=
  commandsOf_of_forall fun command hmem hsame => hfresh (hsame ▸ h.issued command hmem)

theorem Numbered.keep (h : Numbered before issued given)
    (hcounter : ∀ transaction, after.controller.transaction = some transaction →
      after.commandSequence = UInt32.ofNat (commandsOf transaction given).length) :
    Numbered after (after.controller.transaction.toList ++ issued) given :=
  ⟨fun command hmem => List.mem_append_right _ (h.issued command hmem), h.numbered, hcounter⟩

theorem Numbered.add (h : Numbered before issued given) {command : Command}
    (hactive : before.controller.transaction = some command.transaction)
    (htransaction : after.controller.transaction = some command.transaction)
    (hnumber : command.sequence = before.commandSequence + 1) (hsequence : after.commandSequence = command.sequence) :
    Numbered after (after.controller.transaction.toList ++ issued) (given ++ [command]) := by
  have hnext : command.sequence = UInt32.ofNat ((commandsOf command.transaction given).length + 1) := by
    rw [hnumber, h.counter _ hactive, UInt32.ofNat_add]
    rfl
  refine ⟨fun other hmem => ?_, fun transaction => ?_, fun transaction hsame => ?_⟩
  · rcases List.mem_append.mp hmem with hbefore | hlast
    · exact List.mem_append_right _ (h.issued other hbefore)
    · rw [List.mem_singleton.mp hlast, htransaction]
      exact List.mem_cons_self
  · rw [commandsOf_append, commandsOf_singleton]
    by_cases hsame : command.transaction = transaction
    · rw [if_pos hsame, List.map_append, h.numbered, List.length_append, List.length_singleton, numbers_succ,
        List.map_singleton, hnext, hsame]
    · rw [if_neg hsame, List.append_nil]
      exact h.numbered transaction
  · obtain rfl := Option.some.inj (htransaction.symm.trans hsame)
    rw [commandsOf_append, commandsOf_singleton, if_pos rfl, List.length_append, List.length_singleton, hsequence, hnext]

theorem Numbered.speaks (h : Numbered before issued given)
    (hspeaks : Speaks installation surroundings input before after payloads)
    (hfresh : surroundings.transaction ∉ issued) :
    Numbered after (after.controller.transaction.toList ++ issued) (given ++ commands payloads) := by
  have hnew : ∀ transaction, transaction = surroundings.transaction → after.commandSequence = 0 →
      after.commandSequence = UInt32.ofNat (commandsOf transaction given).length := by
    intro transaction hsame hzero
    rw [hsame, h.commandsOf_fresh hfresh, hzero]
    rfl
  cases hspeaks with
  | nothing htransaction hsequence =>
      rw [show commands [] = [] from rfl, List.append_nil]
      exact h.keep fun transaction hsame => hsequence.trans (h.counter transaction (htransaction ▸ hsame))
  | ends hnone hhides =>
      rw [commands_of_hides hhides, List.append_nil]
      refine h.keep fun transaction hsame => ?_
      cases hnone.symm.trans hsame
  | waits hello _ htransaction hsequence =>
      rw [show commands [.hello hello] = [] from rfl, List.append_nil]
      exact h.keep fun transaction hsame => hnew _ (Option.some.inj (hsame.symm.trans htransaction)) hsequence
  | begins value hvalue htransaction hsequence =>
      rw [show commands [.show value] = [] from rfl, List.append_nil]
      refine h.keep fun transaction hsame => hnew _ ?_ hsequence
      exact (Option.some.inj (hsame.symm.trans htransaction)).trans hvalue
  | connects value hactive htransaction hsequence =>
      rw [show commands [.show value] = [] from rfl, List.append_nil]
      exact h.keep fun transaction hsame =>
        hsequence.trans (h.counter transaction (hactive.trans (htransaction.symm.trans hsame)))
  | commands value _ _ _ hactive htransaction hnumber hsequence => exact h.add hactive htransaction hnumber hsequence

end

/-- No two commands of the same transaction have the same number. -/
theorem Numbered.nodup {addon : EmojiPaletteAddon κ} {issued : List TransactionId} {given : List Command}
    (h : Numbered addon issued given) (hfew : ∀ transaction, (commandsOf transaction given).length < 2 ^ 32) :
    (given.map fun command => (command.transaction, command.sequence)).Nodup := by
  rw [List.Nodup, List.pairwise_map, List.pairwise_iff_forall_sublist]
  intro first second hsublist heq
  obtain ⟨hsame, hsequence⟩ := Prod.mk.inj heq
  have hpair : [first, second].Sublist (commandsOf second.transaction given) := by
    have hkept : commandsOf second.transaction [first, second] = [first, second] := by simp [commandsOf, hsame]
    rw [← hkept]
    exact hsublist.filter _
  have hnumbers : (numbers (commandsOf second.transaction given).length).Nodup := by
    have hcount := hfew second.transaction
    refine (List.nodup_map_iff_inj_on List.nodup_range).mpr fun left hleft right hright hnumber => ?_
    have hvalues := congrArg UInt32.toNat hnumber
    rw [List.mem_range] at hleft hright
    rw [UInt32.toNat_ofNat', UInt32.toNat_ofNat', Nat.mod_eq_of_lt (by omega), Nat.mod_eq_of_lt (by omega)] at hvalues
    omega
  rw [← h.numbered] at hnumbers
  have hdistinct := hnumbers.sublist (hpair.map Command.sequence)
  simp [hsequence] at hdistinct

end System

end EmojiPalette
