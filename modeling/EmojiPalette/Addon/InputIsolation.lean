import EmojiPalette.Addon.KeyboardGrab
import EmojiPalette.Addon.Source

/-!
# Whose input is taken

Between two handlers, which contexts live is known: a context does not go away without the event that says so. An active transaction then has a context that still lives, the one its text would go to, and its events alone are the addon's business.
-/

namespace EmojiPalette

open Ipc Trace

namespace Addon

namespace EmojiPaletteAddon

variable {κ : Type}

def Input.context : Input κ → Option κ
  | .key event => some event.context
  | .contextEvent context _ => some context
  | _ => none

def Input.destroys [DecidableEq κ] (context : κ) : Input κ → Bool
  | .contextEvent destroyed .destroyed => destroyed = context
  | _ => false

/-- The addon and the contexts that live, between two handlers. -/
structure Boundary (κ : Type) where
  addon : EmojiPaletteAddon κ
  alive : κ → Bool

namespace Boundary

def origin (boundary : Boundary κ) : Option κ := boundary.addon.origin.filter boundary.alive

/-- What lives goes on living until its event, a commit destroys nothing, and events come from contexts that live. -/
def Allowed (boundary : Boundary κ) (event : Surroundings κ × Input κ) : Prop :=
  (∀ context, boundary.alive context = true → event.1.contexts.alive context = true) ∧
    (∀ context, event.1.contexts.alive context = true → event.1.afterCommit.alive context = true) ∧
    ∀ context, event.2.context = some context → event.1.contexts.alive context = true

def next [DecidableEq κ] (installation : Installation) (event : Surroundings κ × Input κ) (boundary : Boundary κ) :
    Boundary κ :=
  ⟨handle installation event boundary.addon,
    fun context => event.1.afterCommit.alive context && !event.2.destroys context⟩

/-- The boundaries of any run, whatever the configuration and the contexts at its start. -/
def Reached [DecidableEq κ] (installation : Installation) (boundary : Boundary κ) : Prop :=
  Reachable (fun start => ∃ config layout, start.addon = .initial installation config layout) Allowed
    (next installation) boundary

end Boundary

/-! ### Where the origin comes from -/

/-- The reference is as before, or it has been given up. -/
def OriginKept (before after : EmojiPaletteAddon κ) : Prop := after.origin = none ∨ after.origin = before.origin

theorem Becomes.origin {surroundings : Surroundings κ} {before after : EmojiPaletteAddon κ}
    (h : Becomes surroundings before after) : OriginKept before after := by
  cases h with
  | same | typed | continued => exact Or.inr rfl
  | ended | closed => exact Or.inl rfl

/-- A handler gives the origin up, leaves it, or takes the context of the key it handles. -/
theorem step_origin [DecidableEq κ] (installation : Installation) (surroundings : Surroundings κ) (input : Input κ)
    (addon : EmojiPaletteAddon κ) :
    OriginKept addon (step installation surroundings input addon).1 ∨
      ∃ event, input = .key event ∧ (step installation surroundings input addon).1.origin = some event.context := by
  have houtcome := outcome_step installation surroundings input addon
  generalize (step installation surroundings input addon).1 = after at houtcome
  cases houtcome with
  | becomes hbecomes => exact Or.inl hbecomes.origin
  | begins event => exact Or.inr ⟨event, rfl, rfl⟩
  | fails => exact Or.inl (Or.inl rfl)
  | reloads => exact Or.inl (Or.inr rfl)
  | reconnects session pendingCall _ hbecomes => exact Or.inl hbecomes.origin

/-! ### At every boundary -/

/-- The transaction's context lives as long as the transaction. -/
structure Boundary.Inv (boundary : Boundary κ) : Prop where
  wellFormed : boundary.addon.WellFormed
  alive : ∀ context, boundary.addon.origin = some context → boundary.alive context = true

theorem origin_contextEvent [DecidableEq κ] {surroundings : Surroundings κ} {context : κ} {addon : EmojiPaletteAddon κ}
    (event : ContextEvent) (halive : surroundings.contexts.alive context = true) :
    (contextEvent surroundings context event addon).1.origin ≠ some context := by
  unfold contextEvent
  split
  · obtain ⟨other, hcleared⟩ := cancel_fst surroundings event.reason true addon
    rw [hcleared]
    exact fun hnone => by cases hnone
  · rename_i hother
    intro horigin
    have horigin : addon.origin = some context := horigin
    exact hother (by rw [horigin, Contexts.get, Option.filter_some, if_pos halive])

theorem Boundary.Inv.next [DecidableEq κ] {installation : Installation} {event : Surroundings κ × Input κ}
    {boundary : Boundary κ} (h : boundary.Inv) (hallowed : boundary.Allowed event) :
    (boundary.next installation event).Inv := by
  obtain ⟨surroundings, input⟩ := event
  obtain ⟨hlives, hspares, hfrom⟩ := hallowed
  refine ⟨h.wellFormed.step installation surroundings input, fun context horigin => ?_⟩
  have halive : surroundings.contexts.alive context = true := by
    rcases step_origin installation surroundings input boundary.addon with (hnone | hsame) | ⟨key, rfl, hkey⟩
    · exact absurd (hnone.symm.trans horigin) (by simp)
    · exact hlives context (h.alive context (hsame.symm.trans horigin))
    · obtain rfl : key.context = context := Option.some.inj (hkey.symm.trans horigin)
      exact hfrom key.context rfl
  have hkept : input.destroys context = false := by
    cases hdestroys : input.destroys context with
    | false => rfl
    | true =>
        cases input with
        | contextEvent destroyed event =>
            cases event with
            | destroyed =>
                obtain rfl : destroyed = context := by simpa [Input.destroys] using hdestroys
                exact absurd horigin (origin_contextEvent .destroyed halive)
            | _ => cases hdestroys
        | _ => cases hdestroys
  have hspared : surroundings.afterCommit.alive context = true := hspares context halive
  simp [Boundary.next, hspared, hkept]

theorem Boundary.Reached.inv [DecidableEq κ] {installation : Installation} {boundary : Boundary κ}
    (h : boundary.Reached installation) : boundary.Inv := by
  refine Reachable.invariant (s := boundary) ?_ ?_ h
  · intro start hstart
    obtain ⟨config, layout, haddon⟩ := hstart
    have hwellFormed := wellFormed_initial (κ := κ) installation config layout
    refine ⟨haddon ▸ hwellFormed, fun context horigin => ?_⟩
    rw [haddon] at horigin
    cases layout <;> cases horigin
  · exact fun _ _ hinv hallowed => hinv.next hallowed

theorem Boundary.Inv.origin_eq {boundary : Boundary κ} (h : boundary.Inv) : boundary.origin = boundary.addon.origin := by
  unfold Boundary.origin
  cases horigin : boundary.addon.origin with
  | none => rfl
  | some context => rw [Option.filter_some, if_pos (h.alive context horigin)]

theorem Boundary.Inv.get_eq {boundary : Boundary κ} (h : boundary.Inv) {event : Surroundings κ × Input κ}
    (hallowed : boundary.Allowed event) : event.1.contexts.get boundary.addon.origin = boundary.origin := by
  rw [h.origin_eq, Contexts.get]
  cases horigin : boundary.addon.origin with
  | none => rfl
  | some context => rw [Option.filter_some, if_pos (hallowed.1 context (h.alive context horigin))]

theorem active_iff_origin {addon : EmojiPaletteAddon κ} (h : addon.WellFormed) :
    (addon.active = true ↔ ∃ context, addon.origin = some context) ∧
      (addon.active = true → addon.origin = addon.controller.target) := by
  cases h.source with
  | idle htransaction horigin => simp [active, SelectionController.active, htransaction, horigin]
  | active transaction context htransaction htarget horigin =>
      simp [active, SelectionController.active, htransaction, htarget, horigin]

theorem filtered_mem_keyEvent_iff [DecidableEq κ] {installation : Installation} {surroundings : Surroundings κ}
    {event : KeyEvent κ} {addon : EmojiPaletteAddon κ} :
    .filtered ∈ (keyEvent installation surroundings event addon).2 ↔
      if addon.active = true then surroundings.contexts.get addon.origin = some event.context
      else addon.triggers installation event = true := by
  unfold keyEvent
  by_cases hactive : addon.active = true
  · rw [if_pos hactive, if_pos hactive, handleActiveKey]
    by_cases hown : surroundings.contexts.get addon.origin = some event.context
    · rw [if_neg (by simp [hactive, hown])]
      exact iff_of_true (by simp) hown
    · rw [if_pos (by simp [hown])]
      exact iff_of_false (by simp) hown
  · rw [if_neg hactive, if_neg hactive]
    by_cases htriggers : addon.triggers installation event = true
    · rw [if_pos htriggers]
      exact iff_of_true (by simp) htriggers
    · rw [if_neg htriggers]
      exact iff_of_false (by simp) htriggers

/-- The trigger is a press that matches a shortcut, or as it came in a physical one. -/
theorem triggers_iff {installation : Installation} {event : KeyEvent κ} {addon : EmojiPaletteAddon κ} :
    addon.triggers installation event = true ↔ event.isRelease = false ∧
      (installation.fcitx.checkKeyList event.key addon.shortcutMatcher.shortcuts = true ∨
        installation.fcitx.checkKeyList event.origKey addon.shortcutMatcher.physicalShortcuts = true) := by
  rw [triggers, ShortcutMatcher.matches, Bool.and_eq_true, Bool.or_eq_true, Bool.not_eq_true']

/-- An event of another context changes nothing, one of the transaction's own ends it. -/
theorem active_contextEvent_iff [DecidableEq κ] {surroundings : Surroundings κ} {context : κ} {event : ContextEvent}
    {addon : EmojiPaletteAddon κ} (hactive : addon.active = true) :
    (contextEvent surroundings context event addon).1.active = false ↔
      surroundings.contexts.get addon.origin = some context := by
  unfold contextEvent
  split
  · rename_i hown
    obtain ⟨other, hcleared⟩ := cancel_fst surroundings event.reason true addon
    rw [hcleared]
    exact iff_of_true rfl hown
  · rename_i hother
    exact iff_of_false (by simp [hactive]) hother

/-- Input isolation: which keys are taken, and which context events end the transaction, at every boundary of every run. -/
theorem input_isolation [DecidableEq κ] (installation : Installation) (boundary : Boundary κ)
    (h : boundary.Reached installation) :
    (boundary.addon.active = true ↔ ∃ context, boundary.origin = some context) ∧
      (boundary.addon.active = true → boundary.origin = boundary.addon.controller.target) ∧
      (∀ surroundings event, boundary.Allowed (surroundings, .key event) →
        let filtered := Output.filtered ∈ (step installation surroundings (.key event) boundary.addon).2
        (boundary.addon.active = true → (filtered ↔ boundary.origin = some event.context)) ∧
        (boundary.addon.active = false → (filtered ↔ event.isRelease = false ∧
          (installation.fcitx.checkKeyList event.key boundary.addon.shortcutMatcher.shortcuts = true ∨
            installation.fcitx.checkKeyList event.origKey boundary.addon.shortcutMatcher.physicalShortcuts = true)))) ∧
      ∀ surroundings context event, boundary.Allowed (surroundings, .contextEvent context event) →
        boundary.addon.active = true →
        ((step installation surroundings (.contextEvent context event) boundary.addon).1.active = false ↔
          boundary.origin = some context) := by
  have hinv := h.inv
  obtain ⟨hactive, htarget⟩ := active_iff_origin hinv.wellFormed
  refine ⟨?_, ?_, fun surroundings event hallowed => ⟨fun hyes => ?_, fun hno => ?_⟩,
    fun surroundings context event hallowed hyes => ?_⟩
  · rw [hinv.origin_eq]
    exact hactive
  · rw [hinv.origin_eq]
    exact htarget
  · rw [step, filtered_mem_keyEvent_iff, if_pos hyes, hinv.get_eq hallowed]
  · rw [step, filtered_mem_keyEvent_iff, if_neg (by simp [hno]), triggers_iff]
  · rw [step, active_contextEvent_iff hyes, hinv.get_eq hallowed]

/-- The trigger pressed in one of two contexts, both alive throughout: it is taken when pressed, and only then. -/
theorem input_isolation_trigger :
    let installation : Installation := ⟨⟨[]⟩, asciiKeys, ⟨true, fun _ _ => none, id, id⟩⟩
    let surroundings : Surroundings Bool := calm ⟨List.replicate 16 1, rfl⟩ (by decide)
    let trigger : Input Bool := .key ⟨true, ⟨0x2E, 64, 0⟩, ⟨0x2E, 64, 0⟩, false⟩
    let pressed := Boundary.next installation (surroundings, trigger) ⟨initial installation .default none, fun _ => true⟩
    .filtered ∈ (step installation surroundings trigger (initial installation .default none)).2 ∧
      .filtered ∉ (step installation surroundings (.key ⟨true, ⟨0x2E, 64, 0⟩, ⟨0x2E, 64, 0⟩, true⟩)
        (initial installation .default none)).2 ∧
      pressed.origin = some true ∧
      .filtered ∈ (step installation surroundings (.key ⟨true, ⟨0x61, 0, 0⟩, ⟨0x61, 0, 0⟩, true⟩) pressed.addon).2 ∧
      .filtered ∉ (step installation surroundings (.key ⟨false, ⟨0x61, 0, 0⟩, ⟨0x61, 0, 0⟩, true⟩) pressed.addon).2 := by
  intro installation surroundings trigger pressed
  have hstart : Boundary.Reached (κ := Bool) installation ⟨initial installation .default none, fun _ => true⟩ :=
    .start ⟨.default, none, rfl⟩
  have hreached : pressed.Reached installation := .step hstart ⟨fun _ _ => rfl, fun _ _ => rfl, fun _ _ => rfl⟩
  have hactive : pressed.addon.active = true := by decide +kernel
  have horigin : pressed.origin = some true := by decide +kernel
  obtain ⟨_, _, htriggers, _⟩ := input_isolation installation _ hstart
  obtain ⟨_, _, hkeys, _⟩ := input_isolation installation pressed hreached
  have hallowed : ∀ event, pressed.Allowed (surroundings, .key event) :=
    fun event => ⟨fun _ _ => rfl, fun _ _ => rfl, fun _ _ => rfl⟩
  have hidle : (initial (κ := Bool) installation .default none).active = false := by decide +kernel
  refine ⟨?_, ?_, horigin, ?_, ?_⟩
  · exact ((htriggers surroundings _ (hallowed _)).2 hidle).mpr ⟨rfl, by decide +kernel⟩
  · rw [(htriggers surroundings _ (hallowed _)).2 hidle]
    exact fun h => nomatch h.1
  · exact ((hkeys surroundings _ (hallowed _)).1 hactive).mpr horigin
  · rw [(hkeys surroundings _ (hallowed _)).1 hactive, horigin]
    simp

end EmojiPaletteAddon

end Addon

end EmojiPalette
