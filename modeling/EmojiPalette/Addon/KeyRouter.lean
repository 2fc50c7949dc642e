import EmojiPalette.Addon.ShortcutMatcher
import EmojiPalette.Ipc.Layout

/-!
# Keys of an active selection

Every key that comes while a selection is active is consumed. The router says what it does: nothing, a command for the palette, or a new search text. A search text the router makes is always one that a command can carry.
-/

namespace EmojiPalette

open Ipc

namespace Addon

/-! ### Keysyms -/

def keySpace : UInt32 := 0x20
def keyD : UInt32 := 0x44
def keyV : UInt32 := 0x56
def keyBackSpace : UInt32 := 0xFF08
def keyTab : UInt32 := 0xFF09
def keyReturn : UInt32 := 0xFF0D
def keyEscape : UInt32 := 0xFF1B
def keyHome : UInt32 := 0xFF50
def keyLeft : UInt32 := 0xFF51
def keyUp : UInt32 := 0xFF52
def keyRight : UInt32 := 0xFF53
def keyDown : UInt32 := 0xFF54
def keyPageUp : UInt32 := 0xFF55
def keyPageDown : UInt32 := 0xFF56
def keyEnd : UInt32 := 0xFF57
def keyKeypadEnter : UInt32 := 0xFF8D

/-! ### Routes -/

inductive KeyRoute
  | ignore
  | command (command : CommandKind)
  | search (text : Bytes)
  deriving DecidableEq

structure ActiveKeyRouter where
  favoriteChord : ShortcutMatcher
  variantsChord : ShortcutMatcher
  deriving DecidableEq

def isPrintable (fcitx : FcitxKeys) (key : Key) : Bool :=
  let unicode := fcitx.keySymToUnicode key.sym
  key.states = 0 && unicode ≥ 0x20 && unicode ≠ 0x7F && (unicode < 0x80 || unicode > 0x9F)

/-- The navigation keys in the order they are tried. -/
def navigationKeys : List ((UInt32 × UInt32) × CommandKind) :=
  [((keyLeft, 0), .left), ((keyRight, 0), .right), ((keyUp, 0), .up), ((keyDown, 0), .down), ((keyHome, 0), .home),
    ((keyEnd, 0), .end), ((keyPageUp, 0), .pageUp), ((keyPageDown, 0), .pageDown), ((keyTab, 0), .nextCategory),
    ((keyTab, shift), .previousCategory)]

def navigationCommand (fcitx : FcitxKeys) (key : Key) : Option CommandKind :=
  (navigationKeys.find? fun entry => fcitx.check key entry.1.1 entry.1.2).map (·.2)

/-- The text without its last character. A text that cannot be decoded stays as it is. -/
def dropLastCharacter (search : Bytes) : Bytes :=
  match decodeUtf8 search with
  | some codepoints => if codepoints.isEmpty then search else encodeUtf8 codepoints.dropLast
  | none => search

namespace ActiveKeyRouter

/-- A router as it is constructed: `Control+D` for favorites and `Control+V` for variants. -/
def initial (fcitx : FcitxKeys) (xkb : Xkb) : ActiveKeyRouter where
  favoriteChord := (ShortcutMatcher.initial fcitx xkb).setShortcuts fcitx xkb [⟨keyD, ctrl, 0⟩]
  variantsChord := (ShortcutMatcher.initial fcitx xkb).setShortcuts fcitx xkb [⟨keyV, ctrl, 0⟩]

def setLayout (fcitx : FcitxKeys) (xkb : Xkb) (layout : Bytes) (router : ActiveKeyRouter) : ActiveKeyRouter where
  favoriteChord := router.favoriteChord.setLayout fcitx xkb layout
  variantsChord := router.variantsChord.setLayout fcitx xkb layout

/-- What a printable key does: its text is appended as long as the whole stays in bounds. -/
def routePrintable (fcitx : FcitxKeys) (key : Key) (search : Bytes) : KeyRoute :=
  let text := fcitx.keySymToUTF8 key.sym
  if !text.isEmpty && search.length + text.length ≤ maximumSearchSize then .search (search ++ text) else .ignore

def route (fcitx : FcitxKeys) (key originalKey : Key) (isRelease : Bool) (search : Bytes)
    (router : ActiveKeyRouter) : KeyRoute :=
  if isRelease then .ignore
  else if fcitx.check key keyEscape 0 then .command .cancel
  else if fcitx.check key keyReturn 0 || fcitx.check key keyKeypadEnter 0 || fcitx.check key keySpace 0 then
    .command .select
  else if router.favoriteChord.matches fcitx key originalKey then .command .toggleFavorite
  else if router.variantsChord.matches fcitx key originalKey then .command .showVariants
  else match navigationCommand fcitx key with
    | some command => .command command
    | none =>
        if fcitx.check key keyBackSpace 0 then .search (dropLastCharacter search)
        else if isPrintable fcitx key then routePrintable fcitx key search
        else .ignore

end ActiveKeyRouter

/-! ### Search texts -/

theorem textWithin_dropLastCharacter {search : Bytes} (h : TextWithin 256 search) :
    TextWithin 256 (dropLastCharacter search) := by
  unfold dropLastCharacter
  cases hdecode : decodeUtf8 search with
  | none => exact h
  | some codepoints =>
      by_cases hempty : codepoints.isEmpty = true
      · simpa only [if_pos hempty] using h
      · simp only [if_neg hempty]
        exact ⟨(length_encodeUtf8_dropLast_le hdecode).trans h.1, isValidUtf8_encodeUtf8 _⟩

theorem isValidUtf8_of_isPrintable {fcitx : FcitxKeys} {key : Key} (h : isPrintable fcitx key = true) :
    isValidUtf8 (fcitx.keySymToUTF8 key.sym) = true := by
  simp only [isPrintable, Bool.and_eq_true, decide_eq_true_eq] at h
  rw [fcitx.keySymToUTF8_eq key.sym h.1.1.2]
  exact isValidUtf8_encodeUtf8 _

theorem navigationCommand_ne {fcitx : FcitxKeys} {key : Key} {command : CommandKind}
    (h : navigationCommand fcitx key = some command) : command ≠ .searchText := by
  obtain ⟨entry, hentry, rfl⟩ := Option.map_eq_some_iff.mp h
  have hall : ∀ entry ∈ navigationKeys, entry.2 ≠ .searchText := by decide
  exact hall entry (List.mem_of_find?_eq_some hentry)

namespace ActiveKeyRouter

/-- What a key can do: nothing, a command other than the one that carries text, a search text one character shorter, or what a printable key does. -/
theorem route_cases (fcitx : FcitxKeys) (key originalKey : Key) (isRelease : Bool) (search : Bytes)
    (router : ActiveKeyRouter) :
    router.route fcitx key originalKey isRelease search = .ignore ∨
    (∃ command, command ≠ .searchText ∧ router.route fcitx key originalKey isRelease search = .command command) ∨
    router.route fcitx key originalKey isRelease search = .search (dropLastCharacter search) ∨
    (isPrintable fcitx key = true ∧
      router.route fcitx key originalKey isRelease search = routePrintable fcitx key search) := by
  unfold route
  split
  · exact Or.inl rfl
  split
  · exact Or.inr (Or.inl ⟨_, by decide, rfl⟩)
  split
  · exact Or.inr (Or.inl ⟨_, by decide, rfl⟩)
  split
  · exact Or.inr (Or.inl ⟨_, by decide, rfl⟩)
  split
  · exact Or.inr (Or.inl ⟨_, by decide, rfl⟩)
  split
  · rename_i command hcommand
    exact Or.inr (Or.inl ⟨command, navigationCommand_ne hcommand, rfl⟩)
  split
  · exact Or.inr (Or.inr (Or.inl rfl))
  split
  · rename_i hprintable
    exact Or.inr (Or.inr (Or.inr ⟨hprintable, rfl⟩))
  · exact Or.inl rfl

theorem textWithin_of_routePrintable {fcitx : FcitxKeys} {key : Key} {search text : Bytes}
    (hsearch : TextWithin 256 search) (hprintable : isPrintable fcitx key = true)
    (h : routePrintable fcitx key search = .search text) : TextWithin 256 text := by
  unfold routePrintable at h
  by_cases hfits : (!(fcitx.keySymToUTF8 key.sym).isEmpty &&
      search.length + (fcitx.keySymToUTF8 key.sym).length ≤ maximumSearchSize) = true
  · rw [if_pos hfits] at h
    have hlength := of_decide_eq_true (Bool.and_eq_true_iff.mp hfits).2
    cases h
    refine ⟨?_, isValidUtf8_append hsearch.2 (isValidUtf8_of_isPrintable hprintable)⟩
    rw [List.length_append]
    exact hlength
  · rw [if_neg hfits] at h
    cases h

/-- What the router does to a search text keeps it one that a command can carry. -/
theorem textWithin_of_route {fcitx : FcitxKeys} {key originalKey : Key} {isRelease : Bool} {search text : Bytes}
    {router : ActiveKeyRouter} (hsearch : TextWithin 256 search)
    (h : router.route fcitx key originalKey isRelease search = .search text) : TextWithin 256 text := by
  rcases route_cases fcitx key originalKey isRelease search router with
    hroute | ⟨command, _, hroute⟩ | hroute | ⟨hprintable, hroute⟩
  · rw [hroute] at h
    cases h
  · rw [hroute] at h
    cases h
  · rw [hroute] at h
    cases h
    exact textWithin_dropLastCharacter hsearch
  · rw [hroute] at h
    exact textWithin_of_routePrintable hsearch hprintable h

/-- No route is the command that carries text. -/
theorem route_ne_searchText {fcitx : FcitxKeys} {key originalKey : Key} {isRelease : Bool} {search : Bytes}
    {router : ActiveKeyRouter} {command : CommandKind}
    (h : router.route fcitx key originalKey isRelease search = .command command) : command ≠ .searchText := by
  rcases route_cases fcitx key originalKey isRelease search router with
    hroute | ⟨other, hother, hroute⟩ | hroute | ⟨_, hroute⟩
  · rw [hroute] at h
    cases h
  · rw [hroute] at h
    cases h
    exact hother
  · rw [hroute] at h
    cases h
  · rw [hroute, routePrintable] at h
    split at h <;> cases h

end ActiveKeyRouter

/-- Keys whose keysyms are ASCII characters or stand for no character. -/
def asciiKeys : FcitxKeys where
  check key sym states := key.sym = sym && key.states = states
  checkKeyList key keys := keys.any fun other =>
    other.states = key.states && if other.code = 0 then other.sym = key.sym else other.code = key.code
  fromKeyCode code states := ⟨0, states, code⟩
  keySymToUnicode sym := if sym < 0x80 then sym else 0
  keySymToUTF8 sym := if sym < 0x80 then encodeUtf8 [sym.toNat] else []
  keySymToUTF8_eq sym h := by
    by_cases hsym : sym < 0x80
    · simp [hsym]
    · simp [hsym] at h

end Addon

end EmojiPalette
