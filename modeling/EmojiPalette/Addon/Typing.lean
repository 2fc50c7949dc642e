import EmojiPalette.Addon.Source

/-!
# Typing a search text

What a key means does not depend on what has been typed, only on the key and the router; what has been typed decides no more than whether a character still fits. So a run of keys edits a list of characters, and the search text is its encoding all along. Every command of such a run can be written and reads back as it was, and the addon never ends a transaction over a command it could not write.
-/

namespace EmojiPalette

open Ipc Trace

namespace Addon

structure KeyPress where
  key : Key
  origKey : Key
  isRelease : Bool

/-- What a key press or release means while a selection is active. -/
inductive Keystroke
  | nothing
  | command (kind : CommandKind)
  | backspace
  | printable (codepoint : Nat)

def Keystroke.edit (points : List Nat) : Keystroke → List Nat
  | .nothing => points
  | .command _ => points
  | .backspace => points.dropLast
  | .printable codepoint =>
      if (encodeUtf8 (points ++ [codepoint])).length ≤ maximumSearchSize then points ++ [codepoint] else points

def Keystroke.route (points : List Nat) : Keystroke → KeyRoute
  | .nothing => .ignore
  | .command kind => .command kind
  | .backspace => .search (encodeUtf8 points.dropLast)
  | .printable codepoint =>
      if (encodeUtf8 (points ++ [codepoint])).length ≤ maximumSearchSize then
        .search (encodeUtf8 (points ++ [codepoint]))
      else .ignore

/-- The kind and the text of the command that `handleActiveKey` sends for a route. -/
def KeyRoute.sends : KeyRoute → Option (CommandKind × Bytes)
  | .ignore => none
  | .command kind => some (kind, [])
  | .search text => some (.searchText, text)

namespace ActiveKeyRouter

/-- The checks of the router in their order. A printable keysym that stands for no scalar value has no text. -/
def keystroke (fcitx : FcitxKeys) (router : ActiveKeyRouter) (press : KeyPress) : Keystroke :=
  if press.isRelease then .nothing
  else if fcitx.check press.key keyEscape 0 then .command .cancel
  else if fcitx.check press.key keyReturn 0 || fcitx.check press.key keyKeypadEnter 0 ||
      fcitx.check press.key keySpace 0 then
    .command .select
  else if router.favoriteChord.matches fcitx press.key press.origKey then .command .toggleFavorite
  else if router.variantsChord.matches fcitx press.key press.origKey then .command .showVariants
  else match navigationCommand fcitx press.key with
    | some command => .command command
    | none =>
        if fcitx.check press.key keyBackSpace 0 then .backspace
        else if isPrintable fcitx press.key && isScalar (fcitx.keySymToUnicode press.key.sym).toNat then
          .printable (fcitx.keySymToUnicode press.key.sym).toNat
        else .nothing

def routePress (fcitx : FcitxKeys) (router : ActiveKeyRouter) (press : KeyPress) (search : Bytes) : KeyRoute :=
  router.route fcitx press.key press.origKey press.isRelease search

/-- The search text as `handleActiveKey` carries it from one key to the next. -/
def typed (fcitx : FcitxKeys) (router : ActiveKeyRouter) (search : Bytes) (press : KeyPress) : Bytes :=
  match router.routePress fcitx press search with
  | .search text => text
  | _ => search

end ActiveKeyRouter

/-! ### One key -/

/-- What has been typed: characters, and their encoding in bounds. -/
structure Typed (points : List Nat) (search : Bytes) : Prop where
  scalars : ∀ codepoint ∈ points, isScalar codepoint = true
  encoded : search = encodeUtf8 points
  bounded : search.length ≤ 256

variable {fcitx : FcitxKeys} {router : ActiveKeyRouter} {press : KeyPress} {points : List Nat} {search : Bytes}

theorem Typed.textWithin (h : Typed points search) : TextWithin 256 search :=
  ⟨h.bounded, h.encoded ▸ isValidUtf8_encodeUtf8 points⟩

theorem typed_nil : Typed [] [] := ⟨by simp, rfl, Nat.zero_le _⟩

theorem Typed.decodeUtf8 (h : Typed points search) : decodeUtf8 search = some points :=
  h.encoded ▸ decodeUtf8_encodeUtf8 h.scalars

theorem Typed.dropLastCharacter (h : Typed points search) : dropLastCharacter search = encodeUtf8 points.dropLast := by
  rw [Addon.dropLastCharacter, h.decodeUtf8]
  cases points with
  | nil => exact h.encoded
  | cons codepoint rest => rfl

theorem Typed.routePrintable (h : Typed points search)
    (hprintable : isPrintable fcitx press.key = true) :
    ActiveKeyRouter.routePrintable fcitx press.key search =
      if isScalar (fcitx.keySymToUnicode press.key.sym).toNat = true ∧
          (encodeUtf8 (points ++ [(fcitx.keySymToUnicode press.key.sym).toNat])).length ≤ maximumSearchSize then
        .search (encodeUtf8 (points ++ [(fcitx.keySymToUnicode press.key.sym).toNat]))
      else .ignore := by
  have hlow : 0x20 ≤ fcitx.keySymToUnicode press.key.sym := by
    simp only [isPrintable, Bool.and_eq_true, decide_eq_true_eq] at hprintable
    exact hprintable.1.1.2
  rw [ActiveKeyRouter.routePrintable, fcitx.keySymToUTF8_eq _ hlow]
  by_cases hscalar : isScalar (fcitx.keySymToUnicode press.key.sym).toNat = true
  · have hone : encodeUtf8 [(fcitx.keySymToUnicode press.key.sym).toNat] =
        encodeCodepoint (fcitx.keySymToUnicode press.key.sym).toNat := by
      rw [encodeUtf8_eq (by simpa using hscalar), List.flatMap_singleton]
    have hboth : encodeUtf8 (points ++ [(fcitx.keySymToUnicode press.key.sym).toNat]) =
        search ++ encodeCodepoint (fcitx.keySymToUnicode press.key.sym).toNat := by
      rw [encodeUtf8_eq (by simpa [or_imp, forall_and] using ⟨h.scalars, hscalar⟩), List.flatMap_append,
        List.flatMap_singleton, h.encoded, encodeUtf8_eq h.scalars]
    rw [hone, hboth, List.length_append]
    simp [hscalar, encodeCodepoint_ne_nil]
  · have hnone : encodeUtf8 [(fcitx.keySymToUnicode press.key.sym).toNat] = [] := by
      rw [encodeUtf8, if_neg (by simpa using hscalar)]
    rw [hnone]
    simp [hscalar]

theorem Typed.routePress (h : Typed points search) (router : ActiveKeyRouter) (press : KeyPress) :
    router.routePress fcitx press search = (router.keystroke fcitx press).route points := by
  rw [ActiveKeyRouter.routePress, ActiveKeyRouter.route, ActiveKeyRouter.keystroke]
  by_cases hrelease : press.isRelease = true
  · rw [if_pos hrelease, if_pos hrelease, Keystroke.route]
  rw [if_neg hrelease, if_neg hrelease]
  by_cases hescape : fcitx.check press.key keyEscape 0 = true
  · rw [if_pos hescape, if_pos hescape, Keystroke.route]
  rw [if_neg hescape, if_neg hescape]
  by_cases hselect : (fcitx.check press.key keyReturn 0 || fcitx.check press.key keyKeypadEnter 0 ||
      fcitx.check press.key keySpace 0) = true
  · rw [if_pos hselect, if_pos hselect, Keystroke.route]
  rw [if_neg hselect, if_neg hselect]
  by_cases hfavorite : router.favoriteChord.matches fcitx press.key press.origKey = true
  · rw [if_pos hfavorite, if_pos hfavorite, Keystroke.route]
  rw [if_neg hfavorite, if_neg hfavorite]
  by_cases hvariants : router.variantsChord.matches fcitx press.key press.origKey = true
  · rw [if_pos hvariants, if_pos hvariants, Keystroke.route]
  rw [if_neg hvariants, if_neg hvariants]
  cases navigationCommand fcitx press.key with
  | some command => rfl
  | none =>
      simp only
      by_cases hbackspace : fcitx.check press.key keyBackSpace 0 = true
      · rw [if_pos hbackspace, if_pos hbackspace, h.dropLastCharacter, Keystroke.route]
      rw [if_neg hbackspace, if_neg hbackspace]
      by_cases hprintable : isPrintable fcitx press.key = true
      · rw [if_pos hprintable, h.routePrintable hprintable, hprintable, Bool.true_and]
        by_cases hscalar : isScalar (fcitx.keySymToUnicode press.key.sym).toNat = true
        · simp only [hscalar, if_true, true_and, Keystroke.route]
        · rw [if_neg fun hboth => hscalar hboth.1, if_neg hscalar, Keystroke.route]
      · rw [if_neg hprintable, if_neg (by simp [hprintable]), Keystroke.route]

theorem scalar_of_keystroke {codepoint : Nat} (h : router.keystroke fcitx press = .printable codepoint) :
    isScalar codepoint = true := by
  unfold ActiveKeyRouter.keystroke at h
  split_ifs at h with _ _ _ _ _ _ hprintable
  · split at h <;> cases h
  · split at h
    · cases h
    · obtain rfl := Keystroke.printable.inj h
      exact (Bool.and_eq_true_iff.mp hprintable).2
  · split at h <;> cases h

/-- The text after one key is the encoding of the characters after it. -/
theorem Typed.step (h : Typed points search) (fcitx : FcitxKeys) (router : ActiveKeyRouter) (press : KeyPress) :
    Typed ((router.keystroke fcitx press).edit points) (router.typed fcitx search press) := by
  rw [ActiveKeyRouter.typed, h.routePress]
  cases hkeystroke : router.keystroke fcitx press with
  | nothing => exact h
  | command command => exact h
  | backspace =>
      have hsub : ∀ codepoint ∈ points.dropLast, isScalar codepoint = true :=
        fun codepoint hmem => h.scalars codepoint (List.dropLast_subset points hmem)
      exact ⟨hsub, rfl, le_trans (length_encodeUtf8_dropLast_le h.decodeUtf8) h.bounded⟩
  | printable codepoint =>
      rw [Keystroke.edit, Keystroke.route]
      by_cases hfits : (encodeUtf8 (points ++ [codepoint])).length ≤ maximumSearchSize
      · rw [if_pos hfits, if_pos hfits]
        refine ⟨?_, rfl, hfits⟩
        have hscalar := scalar_of_keystroke hkeystroke
        exact List.forall_mem_append.mpr ⟨h.scalars, by simpa using hscalar⟩
      · rw [if_neg hfits, if_neg hfits]
        exact h

theorem typed_run (fcitx : FcitxKeys) (router : ActiveKeyRouter) (presses : List KeyPress) :
    Typed (presses.foldl (fun points press => (router.keystroke fcitx press).edit points) [])
      (presses.foldl (router.typed fcitx) []) := by
  have hall : ∀ {points search}, Typed points search →
      Typed (presses.foldl (fun points press => (router.keystroke fcitx press).edit points) points)
        (presses.foldl (router.typed fcitx) search) := by
    induction presses with
    | nil => exact id
    | cons press rest ih => exact fun h => ih (h.step fcitx router press)
  exact hall typed_nil

/-! ### Commands of a run -/

/-- A route of typed text asks for a command that can be written. -/
theorem Typed.writable (h : Typed points search) {router : ActiveKeyRouter} {press : KeyPress} {kind : CommandKind}
    {text : Bytes} (hsends : (router.routePress fcitx press search).sends = some (kind, text)) :
    TextWithin 256 text ∧ (kind ≠ .searchText → text = []) := by
  cases hroute : router.routePress fcitx press search with
  | ignore =>
      rw [hroute] at hsends
      cases hsends
  | command command =>
      rw [hroute] at hsends
      obtain ⟨rfl, rfl⟩ := Prod.mk.inj (Option.some.inj hsends)
      exact ⟨EmojiPaletteAddon.textWithin_nil, fun _ => rfl⟩
  | search edited =>
      rw [hroute] at hsends
      obtain ⟨rfl, rfl⟩ := Prod.mk.inj (Option.some.inj hsends)
      have htyped := h.step fcitx router press
      rw [ActiveKeyRouter.typed, hroute] at htyped
      exact ⟨htyped.textWithin, fun hkind => absurd rfl hkind⟩

namespace EmojiPaletteAddon

variable {κ : Type} {surroundings : Surroundings κ}

theorem sendEnvelope_of_writable {payload : Payload} (h : payload.Writable) (addon : EmojiPaletteAddon κ) :
    (sendEnvelope surroundings payload addon).1 =
      if surroundings.sends payload.frame then addon else addon.cleared .helperDisconnected := by
  rw [sendEnvelope, serialize_payload h]
  cases hsends : surroundings.sends payload.frame with
  | true => simp [hsends]
  | false => simp [hsends, clear]

/-- A command that can be written leaves the transaction, unless the bus refuses its frame. -/
theorem sendCommand_fst {addon : EmojiPaletteAddon κ} {transaction : TransactionId}
    (htransaction : addon.controller.transaction = some transaction) (hvalid : transaction.Valid) {kind : CommandKind}
    {text : Bytes} (htext : TextWithin 256 text) (honly : kind ≠ .searchText → text = []) :
    (sendCommand surroundings kind text addon).1 = { addon with commandSequence := addon.commandSequence + 1 } ∨
      ((sendCommand surroundings kind text addon).1 = addon.cleared .helperDisconnected ∧
        ∃ frame, surroundings.sends frame = false) := by
  have hwritable : (Payload.command ⟨transaction, addon.commandSequence + 1, kind, text⟩).Writable :=
    ⟨hvalid, htext, honly⟩
  simp only [sendCommand, htransaction]
  rw [sendEnvelope_of_writable hwritable]
  by_cases hsends : surroundings.sends
      (Payload.command ⟨transaction, addon.commandSequence + 1, kind, text⟩).frame = true
  · exact Or.inl (if_pos hsends)
  · refine Or.inr ⟨if_neg hsends, _, Bool.not_eq_true _ ▸ hsends⟩

/-- A key typed into an addon with a transaction edits its text; only a bus that refuses the frame ends the transaction. -/
theorem handleActiveKey_fst [DecidableEq κ] (installation : Installation) (surroundings : Surroundings κ)
    (event : KeyEvent κ) {addon : EmojiPaletteAddon κ} {transaction : TransactionId} {points : List Nat}
    (htransaction : addon.controller.transaction = some transaction) (hvalid : transaction.Valid)
    (htyped : Typed points addon.search) :
    let after := (handleActiveKey installation surroundings event addon).1
    let typed := addon.keyRouter.typed installation.fcitx addon.search ⟨event.key, event.origKey, event.isRelease⟩
    after = addon ∨ (∃ sequence, after = { addon with search := typed, commandSequence := sequence }) ∨
      (after = addon.cleared .helperDisconnected ∧ ∃ frame, surroundings.sends frame = false) := by
  simp only [handleActiveKey]
  by_cases hother : (!addon.active || surroundings.contexts.get addon.origin ≠ some event.context) = true
  · rw [if_pos hother]
    exact Or.inl rfl
  rw [if_neg hother, Action.andThen_fst, Action.emit_apply]
  have hstep := htyped.step installation.fcitx addon.keyRouter ⟨event.key, event.origKey, event.isRelease⟩
  rw [ActiveKeyRouter.typed, ActiveKeyRouter.routePress] at hstep ⊢
  cases hroute : addon.keyRouter.route installation.fcitx event.key event.origKey event.isRelease addon.search with
  | ignore => exact Or.inl rfl
  | command command =>
      rcases sendCommand_fst htransaction hvalid textWithin_nil
        (fun _ => rfl : command ≠ .searchText → ([] : Bytes) = []) with hsent | hended
      · exact Or.inr (Or.inl ⟨_, hsent⟩)
      · exact Or.inr (Or.inr hended)
  | search text =>
      simp only [hroute] at hstep
      have hcurrent : ({ addon with search := text } : EmojiPaletteAddon κ).controller.transaction = some transaction :=
        htransaction
      rcases sendCommand_fst hcurrent hvalid hstep.textWithin
        (fun hkind => absurd rfl hkind : CommandKind.searchText ≠ .searchText → text = []) with hsent | hended
      · exact Or.inr (Or.inl ⟨_, hsent⟩)
      · exact Or.inr (Or.inr hended)

end EmojiPaletteAddon

/-- A run of keys from the empty text edits a list of characters. The search text is always its encoding, valid and in bounds; every command of a key with a transaction can be written and reads back unchanged; and the addon goes on with the edited text, unless the bus refuses a frame. -/
theorem typing_run (fcitx : FcitxKeys) (router : ActiveKeyRouter) (presses : List KeyPress) :
    let points := presses.foldl (fun points press => (router.keystroke fcitx press).edit points) []
    let search := presses.foldl (router.typed fcitx) []
    (search.length ≤ 256 ∧ isValidUtf8 search = true) ∧
    ((∀ codepoint ∈ points, isScalar codepoint = true) ∧ search = encodeUtf8 points) ∧
    (∀ press transaction sequence kind text, transaction ≠ TransactionId.zero →
      (router.routePress fcitx press search).sends = some (kind, text) →
      let envelope : Envelope := ⟨protocolVersion, .command ⟨transaction, sequence, kind, text⟩⟩
      ∃ frame, serialize envelope = some frame ∧ parse frame = ⟨some envelope, .none⟩) ∧
    (∀ {κ : Type} [DecidableEq κ] (installation : Installation) (surroundings : Surroundings κ) (event : KeyEvent κ)
      (addon : EmojiPaletteAddon κ) (transaction : TransactionId), transaction ≠ .zero → installation.fcitx = fcitx →
      addon.keyRouter = router → addon.search = search → addon.controller.transaction = some transaction →
      let press : KeyPress := ⟨event.key, event.origKey, event.isRelease⟩
      let after := (addon.handleActiveKey installation surroundings event).1
      after = addon ∨
        (∃ sequence, after = { addon with search := router.typed fcitx search press, commandSequence := sequence }) ∨
        (after = addon.cleared .helperDisconnected ∧ ∃ frame, surroundings.sends frame = false)) := by
  have htyped := typed_run fcitx router presses
  refine ⟨htyped.textWithin, ⟨htyped.scalars, htyped.encoded⟩, ?_, ?_⟩
  · intro press transaction sequence kind text htransaction hsends
    have hvalid : (Payload.command ⟨transaction, sequence, kind, text⟩).Valid :=
      ⟨htransaction, (htyped.writable hsends).1, (htyped.writable hsends).2⟩
    refine ⟨_, serialize_payload hvalid, ?_⟩
    exact parse_eq_iff.mpr ⟨⟨rfl, hvalid⟩, rfl⟩
  · intro κ _ installation surroundings event addon transaction hvalid hfcitx hrouter hsearch htransaction
    subst hfcitx hrouter
    have hown : Typed _ addon.search := hsearch ▸ htyped
    have hafter := EmojiPaletteAddon.handleActiveKey_fst installation surroundings event htransaction hvalid hown
    rw [hsearch] at hafter
    exact hafter

/-- Two letters, and the second taken away again. -/
theorem typing_run_backspace :
    let router := ActiveKeyRouter.initial asciiKeys ⟨true, fun _ _ => none, id, id⟩
    let presses := [(0x61 : UInt32), 0x62, keyBackSpace].map fun sym => KeyPress.mk ⟨sym, 0, 0⟩ ⟨sym, 0, 0⟩ false
    let search := presses.foldl (router.typed asciiKeys) []
    search = [0x61] ∧ search.length ≤ 256 ∧ isValidUtf8 search = true := by
  intro router presses search
  exact ⟨by decide +kernel, (typing_run asciiKeys router presses).1⟩

end Addon

end EmojiPalette
