import EmojiPalette.Addon.KeyRouter
import Mathlib.Data.Finset.Sort
import Mathlib.Order.Interval.Finset.Nat

/-!
# The physical shortcuts, computed from scratch

A matcher keeps the physical keys of its shortcuts in a list that its two setters renew, and `setLayout` leaves the list alone where the layout stays. The list is stated here without the loops and without a history: from the layout and the shortcuts set last, with the keycodes of a keymap as a sorted set. Any calls in any order leave that list, unless no keymap was to be had at all: then there is none, not even for shortcuts that name a keycode themselves.

The loop over the keycodes counts up in the machine's own integers and stops at the last keycode only, so it is written once more with a bound on its turns.
-/

namespace EmojiPalette

namespace Addon

def maximumInt : Nat := 2 ^ 31 - 1

namespace Keymap

def Carries (keymap : Keymap) (sym : UInt32) (code : Nat) : Prop :=
  ∃ levels ∈ keymap.symbols (UInt32.ofNat code), ∃ symbols ∈ levels, sym ∈ symbols

instance (keymap : Keymap) (sym : UInt32) : DecidablePred (keymap.Carries sym) := fun code =>
  inferInstanceAs (Decidable (∃ levels ∈ keymap.symbols (UInt32.ofNat code), ∃ symbols ∈ levels, sym ∈ symbols))

/-- Every keycode that carries the keysym and can be named, ascending and once each. -/
def carriers (keymap : Keymap) (sym : UInt32) : List Nat :=
  ((Finset.Icc keymap.minimumCode.toNat keymap.maximumCode.toNat).filter fun code =>
    keymap.Carries sym code ∧ code ≤ maximumInt).sort

variable {keymap : Keymap}

theorem found_iff {shortcut : Key} {code : Nat} :
    keymap.found shortcut (UInt32.ofNat code) = true ↔ keymap.Carries shortcut.sym code := by
  simp only [found, Carries, List.any_eq_true, List.contains_iff_mem]

theorem filter_codes (shortcut : Key) :
    (keymap.codes.filter fun code => keymap.found shortcut code && code.toNat ≤ 2 ^ 31 - 1)
      = (keymap.carriers shortcut.sym).map UInt32.ofNat := by
  have hordered : keymap.minimumCode.toNat ≤ keymap.maximumCode.toNat := keymap.ordered
  rw [codes, List.filter_map]
  refine congrArg (List.map UInt32.ofNat) ?_
  set visited := List.range' keymap.minimumCode.toNat
    (keymap.maximumCode.toNat + 1 - keymap.minimumCode.toNat) with hvisited
  have hmem : ∀ code, code ∈ visited ↔ keymap.minimumCode.toNat ≤ code ∧ code ≤ keymap.maximumCode.toNat := by
    intro code
    rw [hvisited, List.mem_range'_1]
    omega
  have hascending : visited.Pairwise (· < ·) := List.pairwise_lt_range'
  have hset : (visited.filter ((fun code => keymap.found shortcut code && code.toNat ≤ 2 ^ 31 - 1) ∘
      UInt32.ofNat)).toFinset = (Finset.Icc keymap.minimumCode.toNat keymap.maximumCode.toNat).filter
        fun code => keymap.Carries shortcut.sym code ∧ code ≤ maximumInt := by
    ext code
    rw [List.mem_toFinset, List.mem_filter, hmem, Finset.mem_filter, Finset.mem_Icc]
    refine and_congr_right fun hcode => ?_
    have hsmall : (UInt32.ofNat code).toNat = code :=
      UInt32.toNat_ofNat_of_lt' (lt_of_le_of_lt hcode.2 keymap.maximumCode.toNat_lt)
    rw [Function.comp_apply, Bool.and_eq_true, decide_eq_true_eq, hsmall, found_iff, maximumInt]
  rw [carriers, ← hset]
  have hsorted := hascending.filter fun code => keymap.found shortcut (UInt32.ofNat code) &&
    (UInt32.ofNat code).toNat ≤ 2 ^ 31 - 1
  exact ((List.toFinset_sort (· ≤ ·) (hsorted.imp ne_of_lt)).mpr (hsorted.imp le_of_lt)).symm

end Keymap

/-! ### The loop over the keycodes -/

section Loop

variable (fcitx : FcitxKeys) (xkb : Xkb) (keymap : Keymap) (shortcut : Key)

/-- One turn of the loop: the keys of this keycode, if it carries the keysym and can be named. -/
def appendKeycode (appended : List Key × Bool) (code : UInt32) : List Key × Bool :=
  if keymap.found shortcut code && code.toNat ≤ 2 ^ 31 - 1 then
    (appended.1 ++ ShortcutMatcher.keycodeShortcuts fcitx xkb shortcut code, true)
  else appended

/-- The loop of `appendKeycodes` from a keycode on; none when it has not ended after so many turns. -/
def appendLoop : Nat → UInt32 → List Key × Bool → Option (List Key × Bool)
  | 0, _, _ => none
  | turns + 1, code, appended =>
      let appended := appendKeycode fcitx xkb keymap shortcut appended code
      if code = keymap.maximumCode then some appended else appendLoop turns (code + 1) appended

/-- The loop visits the keycodes up to the last, and ends there. -/
theorem appendLoop_eq {left turns : Nat} {code : UInt32} (hleft : code.toNat + left = keymap.maximumCode.toNat)
    (hturns : left < turns) (appended : List Key × Bool) :
    appendLoop fcitx xkb keymap shortcut turns code appended =
      some (((List.range' code.toNat (left + 1)).map UInt32.ofNat).foldl (appendKeycode fcitx xkb keymap shortcut)
        appended) := by
  obtain ⟨turns, rfl⟩ := Nat.exists_eq_add_one_of_ne_zero (Nat.ne_zero_of_lt hturns)
  have hlast := keymap.maximumCode.toNat_lt
  induction left generalizing turns code appended with
  | zero =>
      have hcode : code = keymap.maximumCode := UInt32.toNat_inj.mp hleft
      rw [appendLoop, if_pos hcode, List.range'_succ, List.map_cons, UInt32.ofNat_toNat]
      rfl
  | succ left ih =>
      have hne : code ≠ keymap.maximumCode := by
        rintro rfl
        omega
      have hnext : (code + 1).toNat = code.toNat + 1 := by
        rw [UInt32.toNat_add, UInt32.toNat_one, Nat.mod_eq_of_lt (by omega)]
      obtain ⟨turns, rfl⟩ := Nat.exists_eq_add_one_of_ne_zero (Nat.ne_zero_of_lt (Nat.lt_of_succ_lt_succ hturns))
      have hvisited : List.range' code.toNat (left + 1 + 1) = code.toNat :: List.range' (code.toNat + 1) (left + 1) :=
        List.range'_succ
      rw [appendLoop, if_neg hne, ih (by omega) _ turns (by omega), hnext, hvisited, List.map_cons,
        UInt32.ofNat_toNat, List.foldl_cons]

theorem foldl_appendKeycode (codes : List UInt32) (appended : List Key × Bool) :
    codes.foldl (appendKeycode fcitx xkb keymap shortcut) appended =
      (appended.1 ++ (codes.filter fun code => keymap.found shortcut code && code.toNat ≤ 2 ^ 31 - 1).flatMap
          (ShortcutMatcher.keycodeShortcuts fcitx xkb shortcut),
        appended.2 || !(codes.filter fun code => keymap.found shortcut code && code.toNat ≤ 2 ^ 31 - 1).isEmpty) := by
  induction codes generalizing appended with
  | nil => simp
  | cons code rest ih =>
      rw [List.foldl_cons, ih, appendKeycode, List.filter_cons]
      split
      · rw [List.flatMap_cons, List.append_assoc, Bool.true_or, List.isEmpty_cons, Bool.not_false, Bool.or_true]
      · rfl

/-- With turns enough the loop ends in what `appendKeycodes` yields. -/
theorem appendLoop_eq_appendKeycodes {turns : Nat}
    (hturns : keymap.maximumCode.toNat - keymap.minimumCode.toNat < turns) (physicalShortcuts : List Key) :
    appendLoop fcitx xkb keymap shortcut turns keymap.minimumCode (physicalShortcuts, false)
      = some (ShortcutMatcher.appendKeycodes fcitx xkb (some keymap) shortcut physicalShortcuts) := by
  have hordered : keymap.minimumCode.toNat ≤ keymap.maximumCode.toNat := keymap.ordered
  rw [appendLoop_eq fcitx xkb keymap shortcut (Nat.add_sub_of_le hordered) hturns, foldl_appendKeycode,
    ShortcutMatcher.appendKeycodes, Keymap.codes, Nat.sub_add_comm hordered, Bool.false_or]

end Loop

/-! ### The list from scratch -/

/-- The name and the variant of a layout: what is before and after the first hyphen, and `us` for no name. -/
def configuredLayout (layout : Bytes) : Bytes × Bytes :=
  (if (splitLayout layout).1 = [] then usLayout else (splitLayout layout).1, (splitLayout layout).2)

/-- The first hyphen parts the name from the variant. -/
theorem splitLayout_spec (layout : Bytes) :
    45 ∉ (splitLayout layout).1 ∧
      ((45 ∉ layout ∧ splitLayout layout = (layout, [])) ∨
        layout = (splitLayout layout).1 ++ 45 :: (splitLayout layout).2) := by
  induction layout with
  | nil => exact ⟨by simp [splitLayout], .inl ⟨by simp, rfl⟩⟩
  | cons byte rest ih =>
      by_cases hbyte : byte = 45
      · subst hbyte
        exact ⟨by simp [splitLayout], .inr rfl⟩
      · have hsplit : splitLayout (byte :: rest) = (byte :: (splitLayout rest).1, (splitLayout rest).2) := by
          simp [splitLayout, hbyte]
        obtain ⟨hname, hcases⟩ := ih
        rw [hsplit]
        refine ⟨List.not_mem_cons_of_ne_of_not_mem (Ne.symm hbyte) hname, ?_⟩
        obtain ⟨hrest, hwhole⟩ | hparts := hcases
        · exact .inl ⟨List.not_mem_cons_of_ne_of_not_mem (Ne.symm hbyte) hrest, by rw [hwhole]⟩
        · exact .inr (congrArg (byte :: ·) hparts)

section Scratch

variable (xkb : Xkb) (layout : Bytes)

def configuredKeymap : Option Keymap := createKeymap xkb (configuredLayout layout).1 (configuredLayout layout).2

def fallbackKeymap : Option Keymap :=
  if (configuredLayout layout).1 = usLayout then none else createKeymap xkb usLayout []

def carriersOf (keymap : Option Keymap) (sym : UInt32) : List Nat :=
  match keymap with
  | some keymap => keymap.carriers sym
  | none => []

/-- The keycodes of a keysym: those of the configured keymap, or else of the fallback. -/
def scratchKeycodes (sym : UInt32) : List Nat :=
  if carriersOf (configuredKeymap xkb layout) sym = [] then carriersOf (fallbackKeymap xkb layout) sym
  else carriersOf (configuredKeymap xkb layout) sym

/-- The keysym is a letter of two cases, and the shortcut does not ask for `Shift` already. -/
def TakesShift (shortcut : Key) : Prop :=
  xkb.toLower shortcut.sym ≠ xkb.toUpper shortcut.sym ∧ shortcut.states.toNat.testBit 0 = false

instance (shortcut : Key) : Decidable (TakesShift xkb shortcut) := inferInstanceAs (Decidable (_ ∧ _))

/-- The keys a shortcut is bound to on one keycode. -/
def scratchBindings (fcitx : FcitxKeys) (shortcut : Key) (code : Nat) : List Key :=
  if TakesShift xkb shortcut then
    [fcitx.fromKeyCode (Int32.ofNat code) shortcut.states,
      fcitx.fromKeyCode (Int32.ofNat code) (shortcut.states ||| shift)]
  else [fcitx.fromKeyCode (Int32.ofNat code) shortcut.states]

theorem mem_scratchBindings {fcitx : FcitxKeys} (shortcut : Key) (code : Nat) :
    fcitx.fromKeyCode (Int32.ofNat code) shortcut.states ∈ scratchBindings xkb fcitx shortcut code := by
  rw [scratchBindings]
  split_ifs <;> exact List.mem_cons_self

/-- For each shortcut in order: itself where it names a keycode, else its bindings on all keycodes of its keysym. -/
def scratchShortcuts (fcitx : FcitxKeys) (shortcuts : List Key) : List Key :=
  shortcuts.flatMap fun shortcut =>
    if shortcut.code ≠ 0 then [shortcut]
    else (scratchKeycodes xkb layout shortcut.sym).flatMap (scratchBindings xkb fcitx shortcut)

end Scratch

/-! ### The rebuilt list -/

section Rebuild

variable {fcitx : FcitxKeys} {xkb : Xkb}

theorem and_shift_eq_zero_iff (states : UInt32) : states &&& shift = 0 ↔ states.toNat.testBit 0 = false := by
  rw [shift, ← UInt32.toNat_inj, UInt32.toNat_and, UInt32.toNat_one, Nat.and_one_is_mod, UInt32.toNat_zero,
    Nat.testBit_zero, decide_eq_false_iff_not]
  omega

/-- What the source binds on a keycode that an int can hold. -/
theorem keycodeShortcuts_eq (shortcut : Key) {code : Nat} (hcode : code ≤ maximumInt) :
    ShortcutMatcher.keycodeShortcuts fcitx xkb shortcut (UInt32.ofNat code) = scratchBindings xkb fcitx shortcut code := by
  have hsmall : (UInt32.ofNat code).toNat = code :=
    UInt32.toNat_ofNat_of_lt' (lt_of_le_of_lt hcode (by decide))
  have hiff : xkb.toLower shortcut.sym ≠ xkb.toUpper shortcut.sym ∧ shortcut.states &&& shift = 0 ↔
      TakesShift xkb shortcut := and_congr_right fun _ => and_shift_eq_zero_iff shortcut.states
  rw [ShortcutMatcher.keycodeShortcuts, hsmall, scratchBindings]
  by_cases htakes : TakesShift xkb shortcut
  · rw [if_pos (hiff.mpr htakes), if_pos htakes]
  · rw [if_neg (mt hiff.mp htakes), if_neg htakes]

theorem le_maximumInt_of_mem {keymap : Keymap} {sym : UInt32} {code : Nat} (h : code ∈ keymap.carriers sym) :
    code ≤ maximumInt :=
  (Finset.mem_filter.mp ((Finset.mem_sort (· ≤ ·)).mp h)).2.2

theorem appendKeycodes_eq (keymap : Option Keymap) (shortcut : Key) (physicalShortcuts : List Key) :
    ShortcutMatcher.appendKeycodes fcitx xkb keymap shortcut physicalShortcuts =
      (physicalShortcuts ++ (carriersOf keymap shortcut.sym).flatMap (scratchBindings xkb fcitx shortcut),
        !(carriersOf keymap shortcut.sym).isEmpty) := by
  cases keymap with
  | none => simp [ShortcutMatcher.appendKeycodes, carriersOf]
  | some keymap =>
      have hbound : (keymap.carriers shortcut.sym).flatMap
          (fun code => ShortcutMatcher.keycodeShortcuts fcitx xkb shortcut (UInt32.ofNat code)) =
            (keymap.carriers shortcut.sym).flatMap (scratchBindings xkb fcitx shortcut) :=
        List.flatMap_congr fun code hcode => keycodeShortcuts_eq shortcut (le_maximumInt_of_mem hcode)
      rw [ShortcutMatcher.appendKeycodes, Keymap.filter_codes, List.flatMap_map, hbound, List.isEmpty_map]
      rfl

theorem appendShortcut_eq (keymap fallback : Option Keymap) (physicalShortcuts : List Key) (shortcut : Key) :
    ShortcutMatcher.appendShortcut fcitx xkb keymap fallback physicalShortcuts shortcut =
      physicalShortcuts ++
        if shortcut.code ≠ 0 then [shortcut]
        else (if carriersOf keymap shortcut.sym = [] then carriersOf fallback shortcut.sym
            else carriersOf keymap shortcut.sym).flatMap (scratchBindings xkb fcitx shortcut) := by
  unfold ShortcutMatcher.appendShortcut
  split
  · rfl
  · rw [appendKeycodes_eq]
    by_cases hempty : carriersOf keymap shortcut.sym = []
    · dsimp only
      rw [hempty, List.isEmpty_nil, Bool.not_true, if_neg Bool.false_ne_true, if_pos rfl, List.flatMap_nil,
        List.append_nil, appendKeycodes_eq]
    · dsimp only
      rw [if_neg hempty, if_pos (by simpa using hempty)]

/-- Some keymap of the two was to be had. -/
def Compiles (xkb : Xkb) (layout : Bytes) : Prop :=
  (configuredKeymap xkb layout).isSome = true ∨ (fallbackKeymap xkb layout).isSome = true

instance (xkb : Xkb) (layout : Bytes) : Decidable (Compiles xkb layout) :=
  inferInstanceAs (Decidable (_ ∨ _))

/-- The list a matcher should have, whatever happened to it before. -/
def expectedShortcuts (fcitx : FcitxKeys) (xkb : Xkb) (layout : Bytes) (shortcuts : List Key) : List Key :=
  if Compiles xkb layout then scratchShortcuts xkb layout fcitx shortcuts else []

theorem rebuildPhysicalShortcuts_eq (hcontext : xkb.context = true) {layout : Bytes}
    {matcher : ShortcutMatcher} (hlayout : (matcher.layout, matcher.variant) = configuredLayout layout) :
    matcher.rebuildPhysicalShortcuts fcitx xkb =
      { matcher with physicalShortcuts := expectedShortcuts fcitx xkb layout matcher.shortcuts } := by
  have hname : matcher.layout = (configuredLayout layout).1 := congrArg Prod.fst hlayout
  have hvariant : matcher.variant = (configuredLayout layout).2 := congrArg Prod.snd hlayout
  have hkeymap : createKeymap xkb matcher.layout matcher.variant = configuredKeymap xkb layout := by
    rw [configuredKeymap, hname, hvariant]
  have hfallback : (if matcher.layout = usLayout then none else createKeymap xkb usLayout []) =
      fallbackKeymap xkb layout := by
    rw [fallbackKeymap, hname]
  have hfold : matcher.shortcuts.foldl
      (ShortcutMatcher.appendShortcut fcitx xkb (configuredKeymap xkb layout) (fallbackKeymap xkb layout)) [] =
        scratchShortcuts xkb layout fcitx matcher.shortcuts := by
    rw [scratchShortcuts, List.flatMap_eq_foldl]
    congr 1
    funext physicalShortcuts shortcut
    exact appendShortcut_eq _ _ physicalShortcuts shortcut
  rw [ShortcutMatcher.rebuildPhysicalShortcuts, hkeymap, hfallback, hfold, hcontext, expectedShortcuts]
  congr 1
  by_cases hcompiles : Compiles xkb layout
  · rw [if_pos hcompiles]
    cases hshortcuts : matcher.shortcuts with
    | nil => rfl
    | cons shortcut rest =>
        refine if_neg ?_
        obtain hsome | hsome := hcompiles <;> simp [Option.isNone_eq_false_iff.mpr hsome]
  · rw [if_neg hcompiles]
    refine if_pos ?_
    obtain ⟨hnone, hnoFallback⟩ := not_or.mp hcompiles
    rw [Option.not_isSome_iff_eq_none.mp hnone, Option.not_isSome_iff_eq_none.mp hnoFallback, Option.isNone_none,
      Bool.and_true, Bool.or_true]

/-! ### Calls in any order -/

inductive MatcherCall
  | setLayout (layout : Bytes)
  | setShortcuts (shortcuts : List Key)

namespace MatcherCall

def apply (fcitx : FcitxKeys) (xkb : Xkb) (matcher : ShortcutMatcher) : MatcherCall → ShortcutMatcher
  | .setLayout layout => matcher.setLayout fcitx xkb layout
  | .setShortcuts shortcuts => matcher.setShortcuts fcitx xkb shortcuts

/-- A matcher constructed with a layout, after the calls. -/
def run (fcitx : FcitxKeys) (xkb : Xkb) (layout : Bytes) (calls : List MatcherCall) : ShortcutMatcher :=
  calls.foldl (apply fcitx xkb) (ShortcutMatcher.setLayout fcitx xkb layout ⟨[], [], [], []⟩)

def lastLayout (layout : Bytes) (calls : List MatcherCall) : Bytes :=
  calls.foldl (fun last call => match call with
    | .setLayout layout => layout
    | .setShortcuts _ => last) layout

/-- The shortcuts set last, none at first. -/
def lastShortcuts (shortcuts : List Key) (calls : List MatcherCall) : List Key :=
  calls.foldl (fun last call => match call with
    | .setLayout _ => last
    | .setShortcuts shortcuts => shortcuts) shortcuts

end MatcherCall

/-- The matcher holds the layout and the shortcuts, and the list they should have. -/
structure UpToDate (fcitx : FcitxKeys) (xkb : Xkb) (layout : Bytes) (shortcuts : List Key) (matcher : ShortcutMatcher) :
    Prop where
  held : (matcher.layout, matcher.variant) = configuredLayout layout
  heldShortcuts : matcher.shortcuts = shortcuts
  list : matcher.physicalShortcuts = expectedShortcuts fcitx xkb layout shortcuts

theorem expectedShortcuts_nil (layout : Bytes) : expectedShortcuts fcitx xkb layout [] = [] := ite_self _

/-- The list depends on the layout by its name and its variant only. -/
theorem expectedShortcuts_congr {layout other : Bytes} (h : configuredLayout layout = configuredLayout other)
    (shortcuts : List Key) :
    expectedShortcuts fcitx xkb layout shortcuts = expectedShortcuts fcitx xkb other shortcuts := by
  have hkeymap : configuredKeymap xkb layout = configuredKeymap xkb other := by
    rw [configuredKeymap, configuredKeymap, h]
  have hfallback : fallbackKeymap xkb layout = fallbackKeymap xkb other := by
    rw [fallbackKeymap, fallbackKeymap, h]
  have hkeycodes : scratchKeycodes xkb layout = scratchKeycodes xkb other := by
    funext sym
    rw [scratchKeycodes, scratchKeycodes, hkeymap, hfallback]
  rw [expectedShortcuts, expectedShortcuts, scratchShortcuts, scratchShortcuts, hkeycodes]
  refine if_congr ?_ rfl rfl
  rw [Compiles, Compiles, hkeymap, hfallback]

theorem setLayout_eq (layout : Bytes) (matcher : ShortcutMatcher) :
    matcher.setLayout fcitx xkb layout =
      if (matcher.layout, matcher.variant) = configuredLayout layout then matcher
      else ({ matcher with layout := (configuredLayout layout).1, variant := (configuredLayout layout).2 } :
        ShortcutMatcher).rebuildPhysicalShortcuts fcitx xkb := by
  have hname : (if (splitLayout layout).1.isEmpty then usLayout else (splitLayout layout).1)
      = (configuredLayout layout).1 := if_congr List.isEmpty_iff rfl rfl
  rw [ShortcutMatcher.setLayout, hname]
  refine if_congr ?_ rfl rfl
  rw [Prod.ext_iff]
  rfl

theorem upToDate_rebuild (hcontext : xkb.context = true) {layout : Bytes}
    {matcher : ShortcutMatcher} (hlayout : (matcher.layout, matcher.variant) = configuredLayout layout) :
    UpToDate fcitx xkb layout matcher.shortcuts (matcher.rebuildPhysicalShortcuts fcitx xkb) := by
  rw [rebuildPhysicalShortcuts_eq hcontext hlayout]
  exact ⟨hlayout, rfl, rfl⟩

/-- Where `setLayout` leaves the list alone, it has to be the right one already. -/
theorem upToDate_setLayout (hcontext : xkb.context = true) (layout : Bytes)
    {matcher : ShortcutMatcher}
    (hlist : (matcher.layout, matcher.variant) = configuredLayout layout →
      matcher.physicalShortcuts = expectedShortcuts fcitx xkb layout matcher.shortcuts) :
    UpToDate fcitx xkb layout matcher.shortcuts (matcher.setLayout fcitx xkb layout) := by
  rw [setLayout_eq]
  split
  · rename_i hsame
    exact ⟨hsame, rfl, hlist hsame⟩
  · let renamed : ShortcutMatcher :=
      { matcher with layout := (configuredLayout layout).1, variant := (configuredLayout layout).2 }
    have hrenamed : (renamed.layout, renamed.variant) = configuredLayout layout := rfl
    exact upToDate_rebuild hcontext hrenamed

theorem UpToDate.apply (hcontext : xkb.context = true) {layout : Bytes} {shortcuts : List Key}
    {matcher : ShortcutMatcher} (h : UpToDate fcitx xkb layout shortcuts matcher) (call : MatcherCall) :
    UpToDate fcitx xkb (MatcherCall.lastLayout layout [call]) (MatcherCall.lastShortcuts shortcuts [call])
      (call.apply fcitx xkb matcher) := by
  cases call with
  | setLayout other =>
      -- The early return leaves a list made for the same name and variant.
      have hsame : (matcher.layout, matcher.variant) = configuredLayout other →
          matcher.physicalShortcuts = expectedShortcuts fcitx xkb other matcher.shortcuts := fun hsame => by
        rw [h.list, h.heldShortcuts, expectedShortcuts_congr (h.held.symm.trans hsame)]
      have hlayout := upToDate_setLayout hcontext other hsame
      rwa [h.heldShortcuts] at hlayout
  | setShortcuts other =>
      let given : ShortcutMatcher := { matcher with shortcuts := other }
      have hgiven : (given.layout, given.variant) = configuredLayout layout := h.held
      exact upToDate_rebuild hcontext hgiven

theorem UpToDate.run (hcontext : xkb.context = true) (calls : List MatcherCall) {layout : Bytes}
    {shortcuts : List Key} {matcher : ShortcutMatcher} (h : UpToDate fcitx xkb layout shortcuts matcher) :
    UpToDate fcitx xkb (MatcherCall.lastLayout layout calls) (MatcherCall.lastShortcuts shortcuts calls)
      (calls.foldl (MatcherCall.apply fcitx xkb) matcher) := by
  induction calls generalizing layout shortcuts matcher with
  | nil => exact h
  | cons call rest ih => exact ih (h.apply hcontext call)

theorem upToDate_run (hcontext : xkb.context = true) (layout : Bytes) (calls : List MatcherCall) :
    UpToDate fcitx xkb (MatcherCall.lastLayout layout calls) (MatcherCall.lastShortcuts [] calls)
      (MatcherCall.run fcitx xkb layout calls) := by
  let empty : ShortcutMatcher := ⟨[], [], [], []⟩
  have hempty : empty.physicalShortcuts = expectedShortcuts fcitx xkb layout empty.shortcuts :=
    (expectedShortcuts_nil layout).symm
  exact (upToDate_setLayout hcontext layout fun _ => hempty).run hcontext calls

end Rebuild

/-! ### The list after any calls -/

/-- A keymap with one key, which carries the keysyms on one level. -/
def oneKey (symbols : List UInt32) : Keymap :=
  ⟨8, 255, by decide, fun code => if code = 52 then [[symbols]] else []⟩

/-- The layout `us` with the Latin letter z on its key, and its variant `rus` with a Cyrillic one there. No other layout compiles. -/
def phoneticXkb : Xkb where
  context := true
  keymap layout variant :=
    if layout ≠ usLayout then none
    else if variant = none then some (oneKey [122])
    else if variant = some [114, 117, 115] then some (oneKey [1754])
    else none
  toLower sym := sym
  toUpper sym := if sym = 122 then 90 else sym

/-- Whatever is called and in whatever order, the physical shortcuts are those computed from scratch from the layout and the shortcuts set last, and none where neither keymap compiles. The layout is split at its first hyphen, and the loop over the keycodes ends in what it is said to yield. -/
theorem physicalShortcuts_from_scratch (fcitx : FcitxKeys) {xkb : Xkb} (hcontext : xkb.context = true) (layout : Bytes)
    (calls : List MatcherCall) :
    (MatcherCall.run fcitx xkb layout calls).physicalShortcuts =
        (if Compiles xkb (MatcherCall.lastLayout layout calls) then
          scratchShortcuts xkb (MatcherCall.lastLayout layout calls) fcitx (MatcherCall.lastShortcuts [] calls)
        else []) ∧
      (∀ layout, 45 ∉ (splitLayout layout).1 ∧
        ((45 ∉ layout ∧ splitLayout layout = (layout, [])) ∨
          layout = (splitLayout layout).1 ++ 45 :: (splitLayout layout).2)) ∧
      ∀ (keymap : Keymap) shortcut physicalShortcuts turns,
        keymap.maximumCode.toNat - keymap.minimumCode.toNat < turns →
        appendLoop fcitx xkb keymap shortcut turns keymap.minimumCode (physicalShortcuts, false) =
          some (ShortcutMatcher.appendKeycodes fcitx xkb (some keymap) shortcut physicalShortcuts) :=
  ⟨(upToDate_run hcontext layout calls).list, splitLayout_spec, fun keymap shortcut physicalShortcuts _ hturns =>
    appendLoop_eq_appendKeycodes fcitx xkb keymap shortcut hturns physicalShortcuts⟩

/-- Two layouts, the letter z and a shortcut that asks for Shift: the first is bound with Shift and without, the second once. -/
theorem physicalShortcuts_from_scratch_phonetic :
    phoneticXkb.context = true ∧
      (MatcherCall.run asciiKeys phoneticXkb usLayout
          [.setLayout (usLayout ++ 45 :: [114, 117, 115]), .setShortcuts [⟨122, 64, 0⟩, ⟨122, 65, 0⟩],
            .setLayout usLayout]).physicalShortcuts
        = [asciiKeys.fromKeyCode 52 64, asciiKeys.fromKeyCode 52 65, asciiKeys.fromKeyCode 52 65] := by
  refine ⟨rfl, ?_⟩
  rw [(physicalShortcuts_from_scratch asciiKeys rfl usLayout _).1, if_pos (by decide)]
  decide +kernel

/-- A shortcut that names its keycode is lost with a variant of `us` that does not compile, although plain `us` does. -/
theorem physicalShortcuts_lose_keycode :
    ¬ ∀ (fcitx : FcitxKeys) (xkb : Xkb), xkb.context = true → (createKeymap xkb usLayout []).isSome = true →
      (∀ layout variant keymap, xkb.keymap layout variant = some keymap → keymap.maximumCode.toNat ≤ maximumInt) →
      ∀ (layout : Bytes) (calls : List MatcherCall), (MatcherCall.run fcitx xkb layout calls).physicalShortcuts =
        scratchShortcuts xkb (MatcherCall.lastLayout layout calls) fcitx (MatcherCall.lastShortcuts [] calls) := by
  intro h
  have hrange : ∀ layout variant keymap, phoneticXkb.keymap layout variant = some keymap →
      keymap.maximumCode.toNat ≤ maximumInt := by
    intro layout variant keymap hkeymap
    unfold phoneticXkb at hkeymap
    dsimp only at hkeymap
    split_ifs at hkeymap
    all_goals
      obtain rfl := Option.some.inj hkeymap
      decide
  have hlost := h asciiKeys phoneticXkb rfl rfl hrange (usLayout ++ [45, 120]) [.setShortcuts [⟨0, 64, 38⟩]]
  exact absurd hlost (by decide +kernel)

/-! ### The fallback -/

/-- Some key that can be named carries the keysym. -/
def Keymap.Binds (keymap : Keymap) (sym : UInt32) : Prop := ∃ code, code ∈ keymap.carriers sym

theorem carriersOf_eq_nil_iff {keymap : Option Keymap} {sym : UInt32} :
    carriersOf keymap sym = [] ↔ ¬ ∃ compiled, keymap = some compiled ∧ compiled.Binds sym := by
  cases keymap with
  | none => simp [carriersOf]
  | some compiled =>
      rw [carriersOf, List.eq_nil_iff_forall_not_mem, ← not_exists]
      exact not_congr ⟨fun h => ⟨compiled, rfl, h⟩, fun h => by obtain ⟨_, heq, h⟩ := h; exact Option.some.inj heq ▸ h⟩

section Fallback

variable {fcitx : FcitxKeys} {xkb : Xkb} {us : Keymap}

theorem scratchKeycodes_ne_nil_iff (hus : createKeymap xkb usLayout [] = some us) {layout : Bytes} {sym : UInt32} :
    scratchKeycodes xkb layout sym ≠ [] ↔
      (∃ keymap, configuredKeymap xkb layout = some keymap ∧ keymap.Binds sym) ∨
        ((configuredLayout layout).1 ≠ usLayout ∧ us.Binds sym) := by
  have hfallback : carriersOf (fallbackKeymap xkb layout) sym ≠ [] ↔
      (configuredLayout layout).1 ≠ usLayout ∧ us.Binds sym := by
    rw [Ne, carriersOf_eq_nil_iff, not_not, fallbackKeymap, hus]
    by_cases hname : (configuredLayout layout).1 = usLayout <;> simp [hname]
  rw [scratchKeycodes]
  by_cases hconfigured : carriersOf (configuredKeymap xkb layout) sym = []
  · rw [if_pos hconfigured, hfallback, or_iff_right (carriersOf_eq_nil_iff.mp hconfigured)]
  · rw [if_neg hconfigured]
    exact iff_of_true hconfigured (.inl (not_not.mp fun h => hconfigured (carriersOf_eq_nil_iff.mpr h)))

theorem compiles_of_carrier {layout : Bytes} {sym : UInt32} {code : Nat} (h : code ∈ scratchKeycodes xkb layout sym) :
    Compiles xkb layout := by
  by_contra hnone
  obtain ⟨hconfigured, hfallback⟩ := not_or.mp hnone
  rw [scratchKeycodes, Option.not_isSome_iff_eq_none.mp hconfigured, Option.not_isSome_iff_eq_none.mp hfallback] at h
  cases h

/-- A shortcut given by a keysym works on some physical key, after whatever calls, exactly if the configured keymap binds the keysym, or the layout is not named `us` and plain `us` binds it. -/
theorem us_fallback_iff (hcontext : xkb.context = true) (hus : createKeymap xkb usLayout [] = some us) (layout : Bytes)
    (shortcut : Key) (hcode : shortcut.code = 0) :
    (∀ (first : Bytes) (calls : List MatcherCall), MatcherCall.lastLayout first calls = layout →
        shortcut ∈ MatcherCall.lastShortcuts [] calls →
        ∃ code, fcitx.fromKeyCode code shortcut.states ∈ (MatcherCall.run fcitx xkb first calls).physicalShortcuts) ↔
      (∃ keymap, configuredKeymap xkb layout = some keymap ∧ keymap.Binds shortcut.sym) ∨
        ((configuredLayout layout).1 ≠ usLayout ∧ us.Binds shortcut.sym) := by
  rw [← scratchKeycodes_ne_nil_iff hus]
  constructor
  · intro h hnone
    obtain ⟨code, hmem⟩ := h layout [.setShortcuts [shortcut]] rfl List.mem_cons_self
    have hlist : expectedShortcuts fcitx xkb layout [shortcut] = [] := by
      rw [expectedShortcuts, scratchShortcuts, List.flatMap_singleton, if_neg (not_not.mpr hcode), hnone,
        List.flatMap_nil, ite_self]
    rw [(upToDate_run hcontext layout [.setShortcuts [shortcut]]).list] at hmem
    exact List.not_mem_nil (hlist ▸ hmem)
  · intro hsome first calls hlayout hshortcut
    obtain ⟨code, hcarrier⟩ := List.exists_mem_of_ne_nil _ hsome
    refine ⟨Int32.ofNat code, ?_⟩
    rw [(upToDate_run hcontext first calls).list, hlayout, expectedShortcuts, if_pos (compiles_of_carrier hcarrier)]
    refine List.mem_flatMap.mpr ⟨shortcut, hshortcut, ?_⟩
    rw [if_neg (not_not.mpr hcode)]
    exact List.mem_flatMap.mpr ⟨code, hcarrier, mem_scratchBindings xkb shortcut code⟩

theorem us_fallback_iff_phonetic :
    phoneticXkb.context = true ∧ createKeymap phoneticXkb usLayout [] = some (oneKey [122]) ∧
      (⟨122, 64, 0⟩ : Key).code = 0 ∧
      ∀ (first : Bytes) (calls : List MatcherCall), MatcherCall.lastLayout first calls = [114, 117] →
        ⟨122, 64, 0⟩ ∈ MatcherCall.lastShortcuts [] calls →
        ∃ code, asciiKeys.fromKeyCode code 64 ∈
          (MatcherCall.run asciiKeys phoneticXkb first calls).physicalShortcuts := by
  have hus : createKeymap phoneticXkb usLayout [] = some (oneKey [122]) := rfl
  exact ⟨rfl, hus, rfl, (us_fallback_iff rfl hus [114, 117] ⟨122, 64, 0⟩ rfl).mpr
    (.inr ⟨by decide, 52, by decide +kernel⟩)⟩

/-- With the phonetic variant of `us` the letter z is on no key, and nothing falls back to plain `us`, which has it. -/
theorem us_fallback_missing_phonetic :
    ¬ ∀ (fcitx : FcitxKeys) (xkb : Xkb) (us : Keymap), xkb.context = true → createKeymap xkb usLayout [] = some us →
      ∀ (layout : Bytes) (shortcut : Key), shortcut.code = 0 → us.Binds shortcut.sym →
        ∀ (first : Bytes) (calls : List MatcherCall), MatcherCall.lastLayout first calls = layout →
          shortcut ∈ MatcherCall.lastShortcuts [] calls →
          ∃ code, fcitx.fromKeyCode code shortcut.states ∈
            (MatcherCall.run fcitx xkb first calls).physicalShortcuts := by
  intro h
  have hlist : (MatcherCall.run asciiKeys phoneticXkb (usLayout ++ [45, 114, 117, 115])
      [.setShortcuts [⟨122, 64, 0⟩]]).physicalShortcuts = [] := by
    decide +kernel
  obtain ⟨code, hmem⟩ := h asciiKeys phoneticXkb (oneKey [122]) rfl rfl (usLayout ++ [45, 114, 117, 115])
    ⟨122, 64, 0⟩ rfl ⟨52, by decide +kernel⟩ (usLayout ++ [45, 114, 117, 115]) [.setShortcuts [⟨122, 64, 0⟩]] rfl
    List.mem_cons_self
  rw [hlist] at hmem
  cases hmem

end Fallback

end Addon

end EmojiPalette
