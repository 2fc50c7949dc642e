import EmojiPalette.Core.Geometry
import EmojiPalette.Model.Catalog

/-!
# The protocol's envelopes

The nine messages the addon and the helper exchange, and the functions that write and read their frames. `serialize` and `parse` keep separate checks of each message, as the source does: neither is defined through the other, and nothing here presumes that they agree.

An enumeration of the source may hold any number of its underlying type, and the writer casts it to a byte as it is. So the writer is written over raw envelopes, with numbers in these fields. What the reader yields, and all that the addon and the helper ever send, has named values there.
-/

namespace EmojiPalette

open Cursor

namespace Ipc

def protocolVersion : UInt16 := 1
def maximumFrameSize : Nat := 64 * 1024
def maximumSearchSize : Nat := 256
def maximumSelectionSize : Nat := 128

structure TransactionId where
  bytes : Bytes
  size : bytes.length = 16
  deriving DecidableEq

namespace TransactionId

/-- The identifier no transaction has. -/
def zero : TransactionId := ⟨List.replicate 16 0, rfl⟩

def ofBytes (bytes : Bytes) : Option TransactionId := if h : bytes.length = 16 then some ⟨bytes, h⟩ else none

end TransactionId

inductive CommandKind
  | left
  | right
  | up
  | down
  | home
  | end
  | pageUp
  | pageDown
  | previousCategory
  | nextCategory
  | select
  | cancel
  | searchText
  | toggleFavorite
  | showVariants
  deriving DecidableEq

instance : Enumeration CommandKind where
  all := [.left, .right, .up, .down, .home, .end, .pageUp, .pageDown, .previousCategory, .nextCategory, .select,
    .cancel, .searchText, .toggleFavorite, .showVariants]
  nodup := by decide
  complete := by
    intro value
    cases value <;> decide
  few := by decide

inductive CancelReason
  | user
  | focusLost
  | contextReset
  | contextDestroyed
  | inputMethodChanged
  | helperDisconnected
  | timeout
  | protocolError
  deriving DecidableEq

instance : Enumeration CancelReason where
  all := [.user, .focusLost, .contextReset, .contextDestroyed, .inputMethodChanged, .helperDisconnected, .timeout,
    .protocolError]
  nodup := by decide
  complete := by
    intro value
    cases value <;> decide
  few := by decide

structure Hello where
  minimumVersion : UInt16
  maximumVersion : UInt16
  nonce : UInt64
  capabilities : UInt32
  deriving DecidableEq

structure Welcome where
  selectedVersion : UInt16
  nonce : UInt64
  capabilities : UInt32
  deriving DecidableEq

structure Show where
  transaction : TransactionId
  caret : Rect
  screen : Rect
  locale : Locale
  scalePercent : UInt16
  closeAfterSelection : Bool
  deriving DecidableEq

structure Command where
  transaction : TransactionId
  sequence : UInt32
  kind : CommandKind
  text : Bytes
  deriving DecidableEq

structure Hide where
  transaction : TransactionId
  reason : CancelReason
  deriving DecidableEq

structure Selected where
  transaction : TransactionId
  sequence : Bytes
  deriving DecidableEq

structure Cancelled where
  transaction : TransactionId
  reason : CancelReason
  deriving DecidableEq

structure Ping where
  nonce : UInt64
  deriving DecidableEq

structure Pong where
  nonce : UInt64
  deriving DecidableEq

inductive Payload
  | hello (value : Hello)
  | welcome (value : Welcome)
  | show (value : Show)
  | command (value : Command)
  | hide (value : Hide)
  | selected (value : Selected)
  | cancelled (value : Cancelled)
  | ping (value : Ping)
  | pong (value : Pong)
  deriving DecidableEq

structure Envelope where
  version : UInt16
  payload : Payload
  deriving DecidableEq

/-! ### Raw envelopes -/

namespace Raw

structure Show where
  transaction : TransactionId
  caret : Rect
  screen : Rect
  locale : Int32
  scalePercent : UInt16
  closeAfterSelection : Bool
  deriving DecidableEq

structure Command where
  transaction : TransactionId
  sequence : UInt32
  kind : UInt8
  text : Bytes
  deriving DecidableEq

structure Hide where
  transaction : TransactionId
  reason : UInt8
  deriving DecidableEq

structure Cancelled where
  transaction : TransactionId
  reason : UInt8
  deriving DecidableEq

inductive Payload
  | hello (value : Hello)
  | welcome (value : Welcome)
  | show (value : Show)
  | command (value : Command)
  | hide (value : Hide)
  | selected (value : Selected)
  | cancelled (value : Cancelled)
  | ping (value : Ping)
  | pong (value : Pong)
  deriving DecidableEq

structure Envelope where
  version : UInt16
  payload : Payload
  deriving DecidableEq

end Raw

/-- The number of a locale. -/
def localeValue (locale : Locale) : Int32 := Int32.ofNat (code locale).toNat

/-- A payload with the numbers of its named values. -/
def Payload.raw : Payload → Raw.Payload
  | .hello value => .hello value
  | .welcome value => .welcome value
  | .show value =>
      .show ⟨value.transaction, value.caret, value.screen, localeValue value.locale, value.scalePercent,
        value.closeAfterSelection⟩
  | .command value => .command ⟨value.transaction, value.sequence, code value.kind, value.text⟩
  | .hide value => .hide ⟨value.transaction, code value.reason⟩
  | .selected value => .selected value
  | .cancelled value => .cancelled ⟨value.transaction, code value.reason⟩
  | .ping value => .ping value
  | .pong value => .pong value

def Envelope.raw (envelope : Envelope) : Raw.Envelope := ⟨envelope.version, envelope.payload.raw⟩

/-! ### Results and message types -/

inductive ProtocolError
  | none
  | frameTooSmall
  | frameTooLarge
  | invalidMagic
  | unsupportedVersion
  | unknownMessageType
  | invalidReservedBits
  | sizeMismatch
  | malformedPayload
  | invalidUtf8
  | valueOutOfRange
  deriving DecidableEq

structure ParseResult where
  envelope : Option Envelope
  error : ProtocolError
  deriving DecidableEq

inductive MessageType
  | hello
  | welcome
  | show
  | command
  | hide
  | selected
  | cancelled
  | ping
  | pong
  deriving DecidableEq

namespace MessageType

def code : MessageType → UInt8
  | .hello => 1
  | .welcome => 2
  | .show => 3
  | .command => 4
  | .hide => 5
  | .selected => 6
  | .cancelled => 7
  | .ping => 8
  | .pong => 9

/-- The type a byte names: `none` outside the range from `Hello` to `Pong`. -/
def ofCode (byte : UInt8) : Option MessageType :=
  [hello, .welcome, .show, .command, .hide, .selected, .cancelled, .ping, .pong].find? fun type => type.code = byte

end MessageType

def magic : Bytes := [69, 80, 65, 76]
def headerSize : Nat := 12

/-! ### Checks of the fields -/

def validRectangle (value : Rect) : Bool :=
  let coordinateLimit : Int32 := 1000000
  let dimensionLimit : Int32 := 32768
  value.x ≥ -coordinateLimit && value.x ≤ coordinateLimit &&
    value.y ≥ -coordinateLimit && value.y ≤ coordinateLimit && value.width ≥ 0 &&
    value.width ≤ dimensionLimit && value.height ≥ 0 && value.height ≤ dimensionLimit

def validTransaction (value : TransactionId) : Bool := value.bytes.any fun byte => byte != 0

def Raw.messageType : Raw.Payload → MessageType
  | .hello _ => .hello
  | .welcome _ => .welcome
  | .show _ => .show
  | .command _ => .command
  | .hide _ => .hide
  | .selected _ => .selected
  | .cancelled _ => .cancelled
  | .ping _ => .ping
  | .pong _ => .pong

def messageType (payload : Payload) : MessageType := Raw.messageType payload.raw

/-! ### Writing -/

namespace Writer

def text (value : Bytes) (maximum : Nat) : Option Bytes :=
  if value.length > maximum || value.length > 65535 || !isValidUtf8 value then none
  else some (integerBytes (UInt16.ofNat value.length) ++ value)

def rectangle (value : Rect) : Bytes :=
  integerBytes value.x ++ integerBytes value.y ++ integerBytes value.width ++ integerBytes value.height

def boolean (value : Bool) : UInt8 := if value then 1 else 0

end Writer

namespace Raw

def writePayload : Payload → Option Bytes
  | .hello value =>
      some (integerBytes value.minimumVersion ++ integerBytes value.maximumVersion ++ integerBytes value.nonce ++
        integerBytes value.capabilities)
  | .welcome value =>
      some (integerBytes value.selectedVersion ++ integerBytes value.nonce ++ integerBytes value.capabilities)
  | .show value =>
      if !validTransaction value.transaction || !validRectangle value.caret || !validRectangle value.screen ||
          value.scalePercent < 50 || value.scalePercent > 400 then none
      else some (value.transaction.bytes ++ Writer.rectangle value.caret ++ Writer.rectangle value.screen ++
        integerBytes value.locale.toUInt32.toUInt8 ++ integerBytes value.scalePercent ++
        integerBytes (Writer.boolean value.closeAfterSelection))
  | .command value =>
      if !validTransaction value.transaction || (value.kind ≠ code CommandKind.searchText && !value.text.isEmpty) then
        none
      else (Writer.text value.text maximumSearchSize).map fun text =>
        value.transaction.bytes ++ integerBytes value.sequence ++ integerBytes value.kind ++ text
  | .selected value =>
      if !validTransaction value.transaction || value.sequence.isEmpty then none
      else (Writer.text value.sequence maximumSelectionSize).map fun text => value.transaction.bytes ++ text
  | .hide value =>
      if !validTransaction value.transaction then none
      else some (value.transaction.bytes ++ integerBytes value.reason)
  | .cancelled value =>
      if !validTransaction value.transaction then none
      else some (value.transaction.bytes ++ integerBytes value.reason)
  | .ping value => some (integerBytes value.nonce)
  | .pong value => some (integerBytes value.nonce)

def serialize (envelope : Envelope) : Option Bytes :=
  if envelope.version ≠ protocolVersion then none
  else match writePayload envelope.payload with
    | some payload =>
        if payload.length > maximumFrameSize - headerSize then none
        else some (magic ++ integerBytes envelope.version ++ integerBytes (messageType envelope.payload).code ++
          integerBytes (0 : UInt8) ++ integerBytes (UInt32.ofNat payload.length) ++ payload)
    | none => none

end Raw

/-- `serialize` of an envelope with named values. -/
def serialize (envelope : Envelope) : Option Bytes := Raw.serialize envelope.raw

/-! ### Reading -/

namespace Reader

def transaction : Reader ProtocolError (Option TransactionId) := do
  let bytes ← take 16
  return bytes.bind TransactionId.ofBytes

def text (maximum : Nat) : Reader ProtocolError (Option Bytes) := do
  let size ← integer UInt16
  match size with
  | none => fail .valueOutOfRange
  | some size =>
      if size.toNat > maximum then fail .valueOutOfRange
      else do
        let result ← take size.toNat
        match result with
        | none => fail .valueOutOfRange
        | some result => if isValidUtf8 result then return some result else fail .invalidUtf8

def rectangle : Reader ProtocolError (Option Rect) := do
  let x ← integer Int32
  let y ← integer Int32
  let width ← integer Int32
  let height ← integer Int32
  match x, y, width, height with
  | some x, some y, some width, some height => return some ⟨x, y, width, height⟩
  | _, _, _, _ => return none

end Reader

def readHello : Reader ProtocolError (Option Hello) := do
  let minimum ← integer UInt16
  let maximum ← integer UInt16
  let nonce ← integer UInt64
  let capabilities ← integer UInt32
  match minimum, maximum, nonce, capabilities with
  | some minimum, some maximum, some nonce, some capabilities =>
      if minimum = 0 || minimum > maximum then return none
      else return some ⟨minimum, maximum, nonce, capabilities⟩
  | _, _, _, _ => return none

def readWelcome : Reader ProtocolError (Option Welcome) := do
  let selected ← integer UInt16
  let nonce ← integer UInt64
  let capabilities ← integer UInt32
  match selected, nonce, capabilities with
  | some selected, some nonce, some capabilities =>
      if selected = 0 then return none else return some ⟨selected, nonce, capabilities⟩
  | _, _, _ => return none

def readShow : Reader ProtocolError (Option Show) := do
  let transaction ← Reader.transaction
  let caret ← Reader.rectangle
  let screen ← Reader.rectangle
  let locale ← integer UInt8
  let scale ← integer UInt16
  let close ← integer UInt8
  match transaction, caret, screen, locale, scale, close with
  | some transaction, some caret, some screen, some locale, some scale, some close =>
      match ofCode locale with
      | some locale =>
          if !validTransaction transaction || !validRectangle caret || !validRectangle screen || scale < 50 ||
              scale > 400 || close > 1 then fail .valueOutOfRange
          else return some ⟨transaction, caret, screen, locale, scale, close = 1⟩
      | none => fail .valueOutOfRange
  | _, _, _, _, _, _ => fail .valueOutOfRange

def readCommand : Reader ProtocolError (Option Command) := do
  let transaction ← Reader.transaction
  let sequence ← integer UInt32
  let kind ← integer UInt8
  let text ← Reader.text maximumSearchSize
  match transaction, sequence, kind, text with
  | some transaction, some sequence, some kind, some text =>
      match ofCode kind with
      | some kind =>
          if !validTransaction transaction || (kind ≠ .searchText && !text.isEmpty) then return none
          else return some ⟨transaction, sequence, kind, text⟩
      | none => return none
  | _, _, _, _ => return none

/-- The one branch for `Hide` and `Cancelled`. -/
def readEnded : Reader ProtocolError (Option (TransactionId × CancelReason)) := do
  let transaction ← Reader.transaction
  let reason ← integer UInt8
  match transaction, reason with
  | some transaction, some reason =>
      match ofCode reason with
      | some reason => if !validTransaction transaction then return none else return some (transaction, reason)
      | none => return none
  | _, _ => return none

def readSelected : Reader ProtocolError (Option Selected) := do
  let transaction ← Reader.transaction
  let sequence ← Reader.text maximumSelectionSize
  match transaction, sequence with
  | some transaction, some sequence =>
      if !validTransaction transaction || sequence.isEmpty then return none else return some ⟨transaction, sequence⟩
  | _, _ => return none

def readPayload : MessageType → Reader ProtocolError (Option Payload)
  | .hello => return (← readHello).map .hello
  | .welcome => return (← readWelcome).map .welcome
  | .show => return (← readShow).map .show
  | .command => return (← readCommand).map .command
  | .hide => return (← readEnded).map fun (transaction, reason) => .hide ⟨transaction, reason⟩
  | .cancelled => return (← readEnded).map fun (transaction, reason) => .cancelled ⟨transaction, reason⟩
  | .selected => return (← readSelected).map .selected
  | .ping => return (← integer UInt64).map fun nonce => .ping ⟨nonce⟩
  | .pong => return (← integer UInt64).map fun nonce => .pong ⟨nonce⟩

/-- The header's fields after the magic. -/
def readHeader : Reader ProtocolError (Option UInt16 × Option UInt8 × Option UInt8 × Option UInt32) := do
  let version ← integer UInt16
  let rawType ← integer UInt8
  let reserved ← integer UInt8
  let payloadSize ← integer UInt32
  return (version, rawType, reserved, payloadSize)

/-- The end of `parse`: the payload behind a header that passed. -/
def parsePayload (type : MessageType) (bytes : Bytes) : ParseResult :=
  let (value, payload) := readPayload type ⟨bytes, 0, .malformedPayload⟩
  match value with
  | some value => if payload.remaining ≠ 0 then ⟨none, payload.error⟩ else ⟨some ⟨protocolVersion, value⟩, .none⟩
  | none => ⟨none, payload.error⟩

def parse (frame : Bytes) : ParseResult :=
  if frame.length < headerSize then ⟨none, .frameTooSmall⟩
  else if frame.length > maximumFrameSize then ⟨none, .frameTooLarge⟩
  else if frame.take magic.length ≠ magic then ⟨none, .invalidMagic⟩
  else
    let (version, rawType, reserved, payloadSize) := (readHeader ⟨frame.drop magic.length, 0, .none⟩).1
    if version ≠ some protocolVersion then ⟨none, .unsupportedVersion⟩
    else match rawType.bind MessageType.ofCode with
      | none => ⟨none, .unknownMessageType⟩
      | some type =>
          if reserved ≠ some 0 then ⟨none, .invalidReservedBits⟩
          else if payloadSize.map UInt32.toNat ≠ some (frame.length - headerSize) then ⟨none, .sizeMismatch⟩
          else parsePayload type (frame.drop headerSize)

def negotiate (hello : Hello) (supportedCapabilities : UInt32) : Option Welcome :=
  if hello.minimumVersion > protocolVersion || hello.maximumVersion < protocolVersion then none
  else some ⟨protocolVersion, hello.nonce, hello.capabilities &&& supportedCapabilities⟩

end Ipc

end EmojiPalette
