import EmojiPalette.Core.Utf8

/-!
# Shortcuts

A shortcut is matched by the keysym of a key, or by the physical key that carries the shortcut's keysym in the configured layout. What Fcitx makes of a key and what xkbcommon makes of a layout are parameters.
-/

namespace EmojiPalette

namespace Addon

/-- A keysym, the modifiers held with it, and a keycode, which is 0 where the key is not a physical one. -/
structure Key where
  sym : UInt32
  states : UInt32
  code : Int32
  deriving DecidableEq

/-- `KeyState::Shift` and `KeyState::Ctrl`. -/
def shift : UInt32 := 1
def ctrl : UInt32 := 4

/-- What Fcitx answers about keys. The text of a keysym that stands for a printable character is that character's UTF-8. -/
structure FcitxKeys where
  check : Key → UInt32 → UInt32 → Bool
  checkKeyList : Key → List Key → Bool
  fromKeyCode : Int32 → UInt32 → Key
  keySymToUnicode : UInt32 → UInt32
  keySymToUTF8 : UInt32 → Bytes
  keySymToUTF8_eq : ∀ sym, 0x20 ≤ keySymToUnicode sym → keySymToUTF8 sym = encodeUtf8 [(keySymToUnicode sym).toNat]

/-- A compiled keymap: the keycodes it knows, and for each of them its layouts, the levels of each layout and the keysyms of each level. -/
structure Keymap where
  minimumCode : UInt32
  maximumCode : UInt32
  ordered : minimumCode ≤ maximumCode
  symbols : UInt32 → List (List (List UInt32))

/-- What xkbcommon answers. A context may not be had at all, and a layout may not compile. -/
structure Xkb where
  context : Bool
  keymap : Bytes → Option Bytes → Option Keymap
  toLower : UInt32 → UInt32
  toUpper : UInt32 → UInt32

structure ShortcutMatcher where
  layout : Bytes
  variant : Bytes
  shortcuts : List Key
  physicalShortcuts : List Key
  deriving DecidableEq

def usLayout : Bytes := [117, 115]

/-- The name before the first hyphen, and the variant after it. -/
def splitLayout (layout : Bytes) : Bytes × Bytes :=
  (layout.takeWhile (· ≠ 45), (layout.dropWhile (· ≠ 45)).tail)

def createKeymap (xkb : Xkb) (layout variant : Bytes) : Option Keymap :=
  xkb.keymap layout (if variant.isEmpty then none else some variant)

namespace Keymap

def codes (keymap : Keymap) : List UInt32 :=
  (List.range' keymap.minimumCode.toNat (keymap.maximumCode.toNat + 1 - keymap.minimumCode.toNat)).map UInt32.ofNat

def found (keymap : Keymap) (shortcut : Key) (code : UInt32) : Bool :=
  (keymap.symbols code).any fun levels => levels.any fun symbols => symbols.contains shortcut.sym

end Keymap

namespace ShortcutMatcher

/-- The physical shortcuts of one key: with `Shift` as well for a letter whose shortcut does not ask for it. -/
def keycodeShortcuts (fcitx : FcitxKeys) (xkb : Xkb) (shortcut : Key) (code : UInt32) : List Key :=
  let keycode := Int32.ofNat code.toNat
  fcitx.fromKeyCode keycode shortcut.states ::
    if xkb.toLower shortcut.sym ≠ xkb.toUpper shortcut.sym ∧ shortcut.states &&& shift = 0 then
      [fcitx.fromKeyCode keycode (shortcut.states ||| shift)]
    else []

/-- The physical shortcuts the keymap has for the shortcut, and whether there is one. -/
def appendKeycodes (fcitx : FcitxKeys) (xkb : Xkb) (keymap : Option Keymap) (shortcut : Key)
    (physicalShortcuts : List Key) : List Key × Bool :=
  match keymap with
  | none => (physicalShortcuts, false)
  | some keymap =>
      let matched := keymap.codes.filter fun code => keymap.found shortcut code && code.toNat ≤ 2 ^ 31 - 1
      (physicalShortcuts ++ matched.flatMap (keycodeShortcuts fcitx xkb shortcut), !matched.isEmpty)

/-- One shortcut of the list: as it is if it is a physical key already, else from the keymap, else from the fallback. -/
def appendShortcut (fcitx : FcitxKeys) (xkb : Xkb) (keymap fallback : Option Keymap) (physicalShortcuts : List Key)
    (shortcut : Key) : List Key :=
  if shortcut.code ≠ 0 then physicalShortcuts ++ [shortcut]
  else
    let appended := appendKeycodes fcitx xkb keymap shortcut physicalShortcuts
    if appended.2 then appended.1 else (appendKeycodes fcitx xkb fallback shortcut appended.1).1

def rebuildPhysicalShortcuts (fcitx : FcitxKeys) (xkb : Xkb) (matcher : ShortcutMatcher) : ShortcutMatcher :=
  let keymap := createKeymap xkb matcher.layout matcher.variant
  let fallback := if matcher.layout = usLayout then none else createKeymap xkb usLayout []
  { matcher with
    physicalShortcuts :=
      if matcher.shortcuts.isEmpty || !xkb.context || (keymap.isNone && fallback.isNone) then []
      else matcher.shortcuts.foldl (appendShortcut fcitx xkb keymap fallback) [] }

def setLayout (fcitx : FcitxKeys) (xkb : Xkb) (layout : Bytes) (matcher : ShortcutMatcher) : ShortcutMatcher :=
  let name := if (splitLayout layout).1.isEmpty then usLayout else (splitLayout layout).1
  let variant := (splitLayout layout).2
  if matcher.layout = name ∧ matcher.variant = variant then matcher
  else rebuildPhysicalShortcuts fcitx xkb { matcher with layout := name, variant := variant }

def setShortcuts (fcitx : FcitxKeys) (xkb : Xkb) (shortcuts : List Key) (matcher : ShortcutMatcher) :
    ShortcutMatcher :=
  rebuildPhysicalShortcuts fcitx xkb { matcher with shortcuts := shortcuts }

def initial (fcitx : FcitxKeys) (xkb : Xkb) : ShortcutMatcher := setLayout fcitx xkb usLayout ⟨[], [], [], []⟩

def «matches» (fcitx : FcitxKeys) (key originalKey : Key) (matcher : ShortcutMatcher) : Bool :=
  fcitx.checkKeyList key matcher.shortcuts || fcitx.checkKeyList originalKey matcher.physicalShortcuts

end ShortcutMatcher

end Addon

end EmojiPalette
