import EmojiPalette.Ipc.Protocol

/-!
# The documented layout of the frames

What the protocol documents, stated on its own: when an envelope is valid and which bytes it stands for. `parse` returns exactly the valid envelopes, each from exactly its layout. `serialize` writes the layout of every envelope it accepts, but its checks leave alone the two handshake messages and the numbers of enumerations, so it also writes some that `parse` refuses or reads as something else.
-/

namespace EmojiPalette

open Cursor

namespace Ipc

/-! ### Valid envelopes -/

def TransactionId.Valid (transaction : TransactionId) : Prop := transaction ≠ .zero

instance (transaction : TransactionId) : Decidable transaction.Valid :=
  inferInstanceAs (Decidable (transaction ≠ .zero))

structure InBounds (value : Rect) : Prop where
  x : -1000000 ≤ value.x.toInt ∧ value.x.toInt ≤ 1000000
  y : -1000000 ≤ value.y.toInt ∧ value.y.toInt ≤ 1000000
  width : 0 ≤ value.width.toInt ∧ value.width.toInt ≤ 32768
  height : 0 ≤ value.height.toInt ∧ value.height.toInt ≤ 32768

/-- Text of at most so many bytes. -/
def TextWithin (maximum : Nat) (text : Bytes) : Prop := text.length ≤ maximum ∧ isValidUtf8 text = true

def Hello.Valid (value : Hello) : Prop := 1 ≤ value.minimumVersion ∧ value.minimumVersion ≤ value.maximumVersion

def Welcome.Valid (value : Welcome) : Prop := 1 ≤ value.selectedVersion

structure Show.Valid (value : Show) : Prop where
  transaction : value.transaction.Valid
  caret : InBounds value.caret
  screen : InBounds value.screen
  scalePercent : 50 ≤ value.scalePercent ∧ value.scalePercent ≤ 400

structure Command.Valid (value : Command) : Prop where
  transaction : value.transaction.Valid
  text : TextWithin 256 value.text
  onlySearch : value.kind ≠ .searchText → value.text = []

structure Selected.Valid (value : Selected) : Prop where
  transaction : value.transaction.Valid
  sequence : TextWithin 128 value.sequence
  nonempty : value.sequence ≠ []

def Payload.Valid : Payload → Prop
  | .hello value => value.Valid
  | .welcome value => value.Valid
  | .show value => value.Valid
  | .command value => value.Valid
  | .hide value => value.transaction.Valid
  | .selected value => value.Valid
  | .cancelled value => value.transaction.Valid
  | .ping _ => True
  | .pong _ => True

def Envelope.Valid (envelope : Envelope) : Prop := envelope.version = 1 ∧ envelope.payload.Valid

/-- The two messages of the handshake name versions in range. -/
def Payload.HandshakeInRange : Payload → Prop
  | .hello value => value.Valid
  | .welcome value => value.Valid
  | _ => True

/-- What the writer checks: every payload's validity but that of the handshake. -/
def Payload.Writable : Payload → Prop
  | .hello _ => True
  | .welcome _ => True
  | payload => payload.Valid

theorem Payload.valid_iff {payload : Payload} : payload.Valid ↔ payload.Writable ∧ payload.HandshakeInRange := by
  cases payload <;> simp [Valid, Writable, HandshakeInRange]

namespace Raw

structure Show.Writable (value : Show) : Prop where
  transaction : value.transaction.Valid
  caret : InBounds value.caret
  screen : InBounds value.screen
  scalePercent : 50 ≤ value.scalePercent ∧ value.scalePercent ≤ 400

structure Command.Writable (value : Command) : Prop where
  transaction : value.transaction.Valid
  text : TextWithin 256 value.text
  onlySearch : value.kind ≠ 12 → value.text = []

/-- What the writer checks: nothing of the handshake, and no number that should have a name. -/
def Payload.Writable : Payload → Prop
  | .hello _ => True
  | .welcome _ => True
  | .show value => value.Writable
  | .command value => value.Writable
  | .hide value => value.transaction.Valid
  | .selected value => value.Valid
  | .cancelled value => value.transaction.Valid
  | .ping _ => True
  | .pong _ => True

/-- What the reader asks for and the writer does not check: handshakes that name versions in range, and numbers that have a name. -/
def Payload.InRange : Payload → Prop
  | .hello value => value.Valid
  | .welcome value => value.Valid
  | .show value => 0 ≤ value.locale.toInt ∧ value.locale.toInt ≤ 2
  | .command value => value.kind.toNat ≤ 14
  | .hide value => value.reason.toNat ≤ 7
  | .cancelled value => value.reason.toNat ≤ 7
  | _ => True

end Raw

/-! ### Layouts -/

def rectLayout (value : Rect) : Bytes :=
  integerBytes value.x ++ integerBytes value.y ++ integerBytes value.width ++ integerBytes value.height

/-- A text after its two-byte size. -/
def textLayout (text : Bytes) : Bytes := BigEndian.encode 2 text.length ++ text

def Hello.layout (value : Hello) : Bytes :=
  integerBytes value.minimumVersion ++ integerBytes value.maximumVersion ++ integerBytes value.nonce ++
    integerBytes value.capabilities

def Welcome.layout (value : Welcome) : Bytes :=
  integerBytes value.selectedVersion ++ integerBytes value.nonce ++ integerBytes value.capabilities

def Show.layout (value : Show) : Bytes :=
  value.transaction.bytes ++ rectLayout value.caret ++ rectLayout value.screen ++ [code value.locale] ++
    integerBytes value.scalePercent ++ [if value.closeAfterSelection then 1 else 0]

def Command.layout (value : Command) : Bytes :=
  value.transaction.bytes ++ integerBytes value.sequence ++ [code value.kind] ++ textLayout value.text

def Selected.layout (value : Selected) : Bytes := value.transaction.bytes ++ textLayout value.sequence

/-- The layout `Hide` and `Cancelled` share. -/
def endedLayout (transaction : TransactionId) (reason : CancelReason) : Bytes := transaction.bytes ++ [code reason]

def Payload.layout : Payload → Bytes
  | .hello value => value.layout
  | .welcome value => value.layout
  | .show value => value.layout
  | .command value => value.layout
  | .hide value => endedLayout value.transaction value.reason
  | .selected value => value.layout
  | .cancelled value => endedLayout value.transaction value.reason
  | .ping value => integerBytes value.nonce
  | .pong value => integerBytes value.nonce

/-- Magic, version, message type, a zero byte and the payload's length stand before the payload. -/
def Envelope.layout (envelope : Envelope) : Bytes :=
  [69, 80, 65, 76] ++ integerBytes envelope.version ++ [(messageType envelope.payload).code] ++ [0] ++
    BigEndian.encode 4 envelope.payload.layout.length ++ envelope.payload.layout

namespace Raw

def Show.layout (value : Show) : Bytes :=
  value.transaction.bytes ++ rectLayout value.caret ++ rectLayout value.screen ++ [value.locale.toUInt32.toUInt8] ++
    integerBytes value.scalePercent ++ [if value.closeAfterSelection then 1 else 0]

def Command.layout (value : Command) : Bytes :=
  value.transaction.bytes ++ integerBytes value.sequence ++ [value.kind] ++ textLayout value.text

def Payload.layout : Payload → Bytes
  | .hello value => value.layout
  | .welcome value => value.layout
  | .show value => value.layout
  | .command value => value.layout
  | .hide value => value.transaction.bytes ++ [value.reason]
  | .selected value => value.layout
  | .cancelled value => value.transaction.bytes ++ [value.reason]
  | .ping value => integerBytes value.nonce
  | .pong value => integerBytes value.nonce

def Envelope.layout (envelope : Envelope) : Bytes :=
  [69, 80, 65, 76] ++ integerBytes envelope.version ++ [(messageType envelope.payload).code] ++ [0] ++
    BigEndian.encode 4 envelope.payload.layout.length ++ envelope.payload.layout

end Raw

/-! ### Envelopes with named values -/

theorem localeValue_byte (locale : Locale) : (localeValue locale).toUInt32.toUInt8 = code locale := by
  cases locale <;> rfl

@[simp] theorem Payload.layout_raw (payload : Payload) : payload.raw.layout = payload.layout := by
  cases payload with
  | «show» value =>
      simp only [Payload.raw, Raw.Payload.layout, Raw.Show.layout, localeValue_byte]
      rfl
  | _ => rfl

theorem code_searchText_iff {kind : CommandKind} : code kind = 12 ↔ kind = .searchText := by
  have hcode : code CommandKind.searchText = 12 := rfl
  rw [← hcode, code_inj]

/-- Named values add to what the writer checks what the reader asks for, but in a handshake. -/
theorem Payload.writable_raw {payload : Payload} : payload.raw.Writable ↔ payload.Writable := by
  cases payload with
  | «show» value =>
      exact ⟨fun ⟨htransaction, hcaret, hscreen, hscale⟩ => ⟨htransaction, hcaret, hscreen, hscale⟩,
        fun ⟨htransaction, hcaret, hscreen, hscale⟩ => ⟨htransaction, hcaret, hscreen, hscale⟩⟩
  | command value =>
      have hkind : code value.kind ≠ 12 ↔ value.kind ≠ .searchText := not_congr code_searchText_iff
      exact ⟨fun ⟨htransaction, htext, honly⟩ => ⟨htransaction, htext, fun h => honly (hkind.mpr h)⟩,
        fun ⟨htransaction, htext, honly⟩ => ⟨htransaction, htext, fun h => honly (hkind.mp h)⟩⟩
  | _ => exact Iff.rfl

/-! ### The source's checks -/

theorem validTransaction_iff {transaction : TransactionId} : validTransaction transaction = true ↔ transaction.Valid := by
  have hzero : transaction = .zero ↔ ∀ byte ∈ transaction.bytes, byte = 0 := by
    have hreplicate := List.eq_replicate_iff (a := 0) (n := 16) (l := transaction.bytes)
    rw [TransactionId.mk.injEq, TransactionId.zero, hreplicate]
    exact and_iff_right transaction.size
  rw [TransactionId.Valid, ne_eq, hzero]
  simp [validTransaction]

theorem validRectangle_iff {value : Rect} : validRectangle value = true ↔ InBounds value := by
  simp only [validRectangle, Bool.and_eq_true, decide_eq_true_eq, Int32.le_iff_toInt_le, ge_iff_le]
  constructor
  · intro h
    obtain ⟨⟨⟨⟨⟨⟨⟨hx, hx'⟩, hy⟩, hy'⟩, hw⟩, hw'⟩, hh⟩, hh'⟩ := h
    exact ⟨⟨hx, hx'⟩, ⟨hy, hy'⟩, ⟨hw, hw'⟩, ⟨hh, hh'⟩⟩
  · intro h
    obtain ⟨⟨hx, hx'⟩, ⟨hy, hy'⟩, ⟨hw, hw'⟩, ⟨hh, hh'⟩⟩ := h
    exact ⟨⟨⟨⟨⟨⟨⟨hx, hx'⟩, hy⟩, hy'⟩, hw⟩, hw'⟩, hh⟩, hh'⟩

private theorem one_le_iff {version : UInt16} : 1 ≤ version ↔ version ≠ 0 := by
  rw [UInt16.le_iff_toNat_le, ne_eq, ← UInt16.toNat_inj]
  exact Nat.one_le_iff_ne_zero

theorem integerBytes_byte (byte : UInt8) : integerBytes byte = [byte] := by
  simp [integerBytes, Integer.size, Integer.toUnsigned, BigEndian.encode]

private theorem integerBytes_length {text : Bytes} (h : text.length < 65536) :
    integerBytes (UInt16.ofNat text.length) = BigEndian.encode 2 text.length :=
  integerBytes_ofUnsigned (α := UInt16) h

theorem messageType_ofCode_eq_some_iff {byte : UInt8} {type : MessageType} :
    MessageType.ofCode byte = some type ↔ byte = type.code := by
  constructor
  · intro h
    have hfound := List.find?_some h
    simpa [eq_comm] using hfound
  · rintro rfl
    cases type <;> rfl

/-! ### Reading the fields -/

theorem reads_transaction : Reads Reader.transaction (fun _ => True) TransactionId.bytes := by
  have hfield : Reads Reader.transaction (fun _ => True) fun value => id value.bytes ++ [] :=
    (reads_take 16).field TransactionId.bytes .none (fun value _ => value.size)
      fun bytes hsize => reads_pure fun value => by
        rw [Option.bind_some, TransactionId.ofBytes, dif_pos hsize, Option.some.injEq]
        exact ⟨fun h => ⟨(congrArg TransactionId.bytes h).symm, trivial⟩, fun h => by cases h.1; rfl⟩
  exact hfield.congr (fun _ => Iff.rfl) fun value _ => List.append_nil _

theorem reads_byte : Reads (integer UInt8 : Reader ProtocolError (Option UInt8)) (fun _ => True) fun byte => [byte] :=
  (reads_integer UInt8).congr (fun _ => Iff.rfl) fun byte _ => integerBytes_byte byte

theorem reads_rectangle : Reads Reader.rectangle (fun _ => True) rectLayout := by
  have hfields : Reads Reader.rectangle (fun _ => True) fun value : Rect =>
      integerBytes value.x ++ (integerBytes value.y ++
        (integerBytes value.width ++ (integerBytes value.height ++ []))) :=
    (reads_integer Int32).field Rect.x (.bind fun _ => .bind fun _ => .bind fun _ => .none) (fun _ _ => trivial) fun x _ =>
      (reads_integer Int32).field Rect.y (.bind fun _ => .bind fun _ => .none) (fun _ _ => trivial) fun y _ =>
        (reads_integer Int32).field Rect.width (.bind fun _ => .none) (fun _ _ => trivial) fun width _ =>
          (reads_integer Int32).field Rect.height .none (fun _ _ => trivial) fun height _ =>
            reads_pure fun value => by
              simp only [Option.some.injEq, Rect.ext_iff]
              tauto
  exact hfields.congr (fun _ => Iff.rfl) fun value _ => by simp [rectLayout]

/-- A text's size comes first; the bytes are read once the size is in range and checked last. -/
theorem reads_text {maximum : Nat} (hmaximum : maximum < 65536) :
    Reads (Reader.text maximum) (TextWithin maximum) textLayout := by
  have hfields : Reads (Reader.text maximum) (TextWithin maximum) fun text =>
      integerBytes (UInt16.ofNat text.length) ++ (id text ++ []) := by
    refine (reads_integer UInt16).field (fun text : Bytes => UInt16.ofNat text.length) .fail
      (fun _ _ => trivial) fun size _ => ?_
    have hsize : ∀ text : Bytes, TextWithin maximum text → UInt16.ofNat text.length = size →
        text.length = size.toNat := by
      rintro text ⟨hlength, _⟩ rfl
      exact (UInt16.toNat_ofNat_of_lt' (by have := hlength; simp only [UInt16.size]; omega)).symm
    dsimp only
    split
    · rename_i hlarge
      refine reads_fail fun text hwhole => ?_
      obtain ⟨heq, htext⟩ := hwhole
      have hlength := hsize text htext heq
      have hwithin := htext.1
      omega
    · rename_i hsmall
      refine (reads_take size.toNat).field id .fail (fun text h => hsize text h.2 h.1) fun bytes hbytes => ?_
      dsimp only
      split
      · rename_i hvalid
        refine reads_pure fun text => ?_
        rw [Option.some.injEq]
        constructor
        · rintro rfl
          exact ⟨rfl, by rw [hbytes, UInt16.ofNat_toNat], by omega, hvalid⟩
        · exact fun h => h.1.symm
      · rename_i hinvalid
        refine reads_fail fun text hwhole => ?_
        obtain ⟨rfl, _, htext⟩ := hwhole
        exact hinvalid htext.2
  refine hfields.congr (fun _ => Iff.rfl) fun text htext => ?_
  have hlength := htext.1
  rw [id, List.append_nil, textLayout, integerBytes_length (by omega)]

theorem reads_hello : Reads readHello Hello.Valid Hello.layout := by
  have hfields : Reads readHello Hello.Valid fun value : Hello =>
      integerBytes value.minimumVersion ++ (integerBytes value.maximumVersion ++
        (integerBytes value.nonce ++ (integerBytes value.capabilities ++ []))) := by
    refine (reads_integer UInt16).field Hello.minimumVersion (.bind fun _ => .bind fun _ => .bind fun _ => .none)
        (fun _ _ => trivial) fun minimum _ =>
      (reads_integer UInt16).field Hello.maximumVersion (.bind fun _ => .bind fun _ => .none)
        (fun _ _ => trivial) fun maximum _ =>
      (reads_integer UInt64).field Hello.nonce (.bind fun _ => .none) (fun _ _ => trivial) fun nonce _ =>
      (reads_integer UInt32).field Hello.capabilities .none (fun _ _ => trivial) fun capabilities _ =>
      reads_guard (reads_none fun _ => id) fun value => ?_
    simp only [Bool.or_eq_true, decide_eq_true_eq, not_or, UInt16.not_lt, gt_iff_lt]
    constructor
    · intro h
      obtain ⟨⟨hminimum, hmaximum⟩, rfl⟩ := h
      exact ⟨rfl, rfl, rfl, rfl, one_le_iff.mpr hminimum, hmaximum⟩
    · intro h
      obtain ⟨rfl, rfl, rfl, rfl, hminimum, hmaximum⟩ := h
      exact ⟨⟨one_le_iff.mp hminimum, hmaximum⟩, rfl⟩
  exact hfields.congr (fun _ => Iff.rfl) fun value _ => by simp [Hello.layout]

theorem reads_welcome : Reads readWelcome Welcome.Valid Welcome.layout := by
  have hfields : Reads readWelcome Welcome.Valid fun value : Welcome =>
      integerBytes value.selectedVersion ++ (integerBytes value.nonce ++
        (integerBytes value.capabilities ++ [])) := by
    refine (reads_integer UInt16).field Welcome.selectedVersion (.bind fun _ => .bind fun _ => .none)
        (fun _ _ => trivial) fun selected _ =>
      (reads_integer UInt64).field Welcome.nonce (.bind fun _ => .none) (fun _ _ => trivial) fun nonce _ =>
      (reads_integer UInt32).field Welcome.capabilities .none (fun _ _ => trivial) fun capabilities _ =>
      reads_guard (reads_none fun _ => id) fun value => ?_
    constructor
    · intro h
      obtain ⟨hselected, rfl⟩ := h
      exact ⟨rfl, rfl, rfl, one_le_iff.mpr hselected⟩
    · intro h
      obtain ⟨rfl, rfl, rfl, hselected⟩ := h
      exact ⟨one_le_iff.mp hselected, rfl⟩
  exact hfields.congr (fun _ => Iff.rfl) fun value _ => by simp [Welcome.layout]

private theorem flag_iff {close : UInt8} {flag : Bool} :
    (if flag then 1 else 0) = close ↔ close ≤ 1 ∧ decide (close = 1) = flag := by
  have hcases : ∀ byte : UInt8, ∀ bit : Bool,
      (if bit then 1 else 0) = byte ↔ byte ≤ 1 ∧ decide (byte = 1) = bit := by
    apply forall_byte
    decide +kernel
  exact hcases close flag

theorem reads_show : Reads readShow Show.Valid Show.layout := by
  have hfields : Reads readShow Show.Valid fun value : Show =>
      value.transaction.bytes ++ (rectLayout value.caret ++ (rectLayout value.screen ++ ([code value.locale] ++
        (integerBytes value.scalePercent ++ ([if value.closeAfterSelection then 1 else 0] ++ []))))) := by
    refine reads_transaction.field Show.transaction (.bind fun _ => .bind fun _ => .bind fun _ => .bind fun _ =>
        .bind fun _ => .fail) (fun _ _ => trivial) fun transaction _ =>
      reads_rectangle.field Show.caret (.bind fun _ => .bind fun _ => .bind fun _ => .bind fun _ => .fail)
        (fun _ _ => trivial) fun caret _ =>
      reads_rectangle.field Show.screen (.bind fun _ => .bind fun _ => .bind fun _ => .fail)
        (fun _ _ => trivial) fun screen _ =>
      reads_byte.field (fun value : Show => code value.locale) (.bind fun _ => .bind fun _ => .fail)
        (fun _ _ => trivial) fun locale _ =>
      (reads_integer UInt16).field Show.scalePercent (.bind fun _ => .fail) (fun _ _ => trivial) fun scale _ =>
      reads_byte.field (fun value : Show => if value.closeAfterSelection then 1 else 0) .fail
        (fun _ _ => trivial) fun close _ => ?_
    dsimp only
    split
    · rename_i named hnamed
      obtain rfl := ofCode_eq_some_iff.mp hnamed
      refine reads_guard (reads_fail fun _ => id) fun value => ?_
      simp only [Bool.or_eq_true, Bool.not_eq_true', decide_eq_true_eq, not_or, Bool.not_eq_false, gt_iff_lt,
        UInt16.not_lt, UInt8.not_lt]
      constructor
      · intro h
        obtain ⟨⟨⟨⟨⟨⟨htransaction, hcaret⟩, hscreen⟩, hlow⟩, hhigh⟩, hclose⟩, rfl⟩ := h
        exact ⟨flag_iff.mpr ⟨hclose, rfl⟩, rfl, rfl, rfl, rfl, rfl, validTransaction_iff.mp htransaction,
          validRectangle_iff.mp hcaret, validRectangle_iff.mp hscreen, hlow, hhigh⟩
      · intro h
        obtain ⟨hflag, rfl, hlocale, rfl, rfl, rfl, hvalue⟩ := h
        obtain ⟨hclose, hbit⟩ := flag_iff.mp hflag
        obtain rfl := code_inj.mp hlocale
        exact ⟨⟨⟨⟨⟨⟨validTransaction_iff.mpr hvalue.transaction, validRectangle_iff.mpr hvalue.caret⟩,
          validRectangle_iff.mpr hvalue.screen⟩, hvalue.scalePercent.1⟩, hvalue.scalePercent.2⟩, hclose⟩,
          by rw [hbit]⟩
    · rename_i hunnamed
      exact reads_fail fun value hwhole => code_ne_of_ofCode_eq_none hunnamed value.locale hwhole.2.2.1
  exact hfields.congr (fun _ => Iff.rfl) fun value _ => by simp [Show.layout]

theorem reads_command : Reads readCommand Command.Valid Command.layout := by
  have hfields : Reads readCommand Command.Valid fun value : Command =>
      value.transaction.bytes ++ (integerBytes value.sequence ++ ([code value.kind] ++
        (textLayout value.text ++ []))) := by
    refine reads_transaction.field Command.transaction (.bind fun _ => .bind fun _ => .bind fun _ => .none)
        (fun _ _ => trivial) fun transaction _ =>
      (reads_integer UInt32).field Command.sequence (.bind fun _ => .bind fun _ => .none)
        (fun _ _ => trivial) fun sequence _ =>
      reads_byte.field (fun value : Command => code value.kind) (.bind fun _ => .none)
        (fun _ _ => trivial) fun kind _ =>
      (reads_text (by decide)).field Command.text .none (fun value h => h.2.2.2.text) fun text htext => ?_
    dsimp only
    split
    · rename_i named hnamed
      obtain rfl := ofCode_eq_some_iff.mp hnamed
      refine reads_guard (reads_none fun _ => id) fun value => ?_
      simp only [Bool.or_eq_true, Bool.not_eq_true', Bool.and_eq_true, decide_eq_true_eq, not_or, not_and,
        Bool.not_eq_false, List.isEmpty_iff]
      constructor
      · intro h
        obtain ⟨⟨htransaction, honly⟩, rfl⟩ := h
        exact ⟨rfl, rfl, rfl, rfl, validTransaction_iff.mp htransaction, htext, honly⟩
      · intro h
        obtain ⟨rfl, hkind, rfl, rfl, hvalue⟩ := h
        obtain rfl := code_inj.mp hkind
        exact ⟨⟨validTransaction_iff.mpr hvalue.transaction, hvalue.onlySearch⟩, rfl⟩
    · rename_i hunnamed
      exact reads_none fun value hwhole => code_ne_of_ofCode_eq_none hunnamed value.kind hwhole.2.1
  exact hfields.congr (fun _ => Iff.rfl) fun value _ => by simp [Command.layout]

theorem reads_ended :
    Reads readEnded (fun value => value.1.Valid) fun value => endedLayout value.1 value.2 := by
  have hfields : Reads readEnded (fun value => value.1.Valid) fun value : TransactionId × CancelReason =>
      value.1.bytes ++ ([code value.2] ++ []) := by
    refine reads_transaction.field Prod.fst (.bind fun _ => .none) (fun _ _ => trivial) fun transaction _ =>
      reads_byte.field (fun value : TransactionId × CancelReason => code value.2) .none
        (fun _ _ => trivial) fun reason _ => ?_
    dsimp only
    split
    · rename_i named hnamed
      obtain rfl := ofCode_eq_some_iff.mp hnamed
      refine reads_guard (reads_none fun _ => id) fun value => ?_
      simp only [Bool.not_eq_true', Bool.not_eq_false]
      constructor
      · intro h
        obtain ⟨htransaction, rfl⟩ := h
        exact ⟨rfl, rfl, validTransaction_iff.mp htransaction⟩
      · intro h
        obtain ⟨hreason, rfl, hvalue⟩ := h
        obtain rfl := code_inj.mp hreason
        exact ⟨validTransaction_iff.mpr hvalue, rfl⟩
    · rename_i hunnamed
      exact reads_none fun value hwhole => code_ne_of_ofCode_eq_none hunnamed value.2 hwhole.1
  exact hfields.congr (fun _ => Iff.rfl) fun value _ => by simp [endedLayout]

theorem reads_selected : Reads readSelected Selected.Valid Selected.layout := by
  have hfields : Reads readSelected Selected.Valid fun value : Selected =>
      value.transaction.bytes ++ (textLayout value.sequence ++ []) := by
    refine reads_transaction.field Selected.transaction (.bind fun _ => .none) (fun _ _ => trivial)
        fun transaction _ =>
      (reads_text (by decide)).field Selected.sequence .none (fun value h => h.2.sequence) fun sequence hsequence =>
      reads_guard (reads_none fun _ => id) fun value => ?_
    simp only [Bool.or_eq_true, Bool.not_eq_true', not_or, Bool.not_eq_false, List.isEmpty_iff]
    constructor
    · intro h
      obtain ⟨⟨htransaction, hnonempty⟩, rfl⟩ := h
      exact ⟨rfl, rfl, validTransaction_iff.mp htransaction, hsequence, hnonempty⟩
    · intro h
      obtain ⟨rfl, rfl, hvalue⟩ := h
      exact ⟨⟨validTransaction_iff.mpr hvalue.transaction, hvalue.nonempty⟩, rfl⟩
  exact hfields.congr (fun _ => Iff.rfl) fun value _ => by simp [Selected.layout]

/-- The payload reader yields the valid payloads of its type, each from its layout. -/
theorem reads_payload (type : MessageType) :
    Reads (readPayload type) (fun payload => messageType payload = type ∧ payload.Valid) Payload.layout := by
  cases type with
  | hello =>
      refine reads_hello.map (fun payload => ?_) fun _ => rfl
      cases payload <;> simp [messageType, Raw.messageType, Payload.raw, Payload.Valid]
  | welcome =>
      refine reads_welcome.map (fun payload => ?_) fun _ => rfl
      cases payload <;> simp [messageType, Raw.messageType, Payload.raw, Payload.Valid]
  | «show» =>
      refine reads_show.map (fun payload => ?_) fun _ => rfl
      cases payload <;> simp [messageType, Raw.messageType, Payload.raw, Payload.Valid]
  | command =>
      refine reads_command.map (fun payload => ?_) fun _ => rfl
      cases payload <;> simp [messageType, Raw.messageType, Payload.raw, Payload.Valid]
  | hide =>
      refine reads_ended.map (fun payload => ?_) fun _ => rfl
      constructor
      · intro h
        obtain ⟨htype, hvalid⟩ := h
        cases payload with
        | hide value => exact ⟨(value.transaction, value.reason), hvalid, rfl⟩
        | _ => cases htype
      · intro h
        obtain ⟨_, hvalid, rfl⟩ := h
        exact ⟨rfl, hvalid⟩
  | cancelled =>
      refine reads_ended.map (fun payload => ?_) fun _ => rfl
      constructor
      · intro h
        obtain ⟨htype, hvalid⟩ := h
        cases payload with
        | cancelled value => exact ⟨(value.transaction, value.reason), hvalid, rfl⟩
        | _ => cases htype
      · intro h
        obtain ⟨_, hvalid, rfl⟩ := h
        exact ⟨rfl, hvalid⟩
  | selected =>
      refine reads_selected.map (fun payload => ?_) fun _ => rfl
      cases payload <;> simp [messageType, Raw.messageType, Payload.raw, Payload.Valid]
  | ping =>
      refine (reads_integer UInt64).map (fun payload => ?_) fun _ => rfl
      constructor
      · intro h
        obtain ⟨htype, _⟩ := h
        cases payload with
        | ping value => exact ⟨value.nonce, trivial, rfl⟩
        | _ => cases htype
      · intro h
        obtain ⟨_, _, rfl⟩ := h
        exact ⟨rfl, trivial⟩
  | pong =>
      refine (reads_integer UInt64).map (fun payload => ?_) fun _ => rfl
      constructor
      · intro h
        obtain ⟨htype, _⟩ := h
        cases payload with
        | pong value => exact ⟨value.nonce, trivial, rfl⟩
        | _ => cases htype
      · intro h
        obtain ⟨_, _, rfl⟩ := h
        exact ⟨rfl, trivial⟩

/-! ### The whole frame -/

/-- The four fields of the header, read without a check in between. -/
theorem readHeader_eq_iff {start : Cursor ProtocolError} {version : UInt16} {rawType reserved : UInt8}
    {payloadSize : UInt32} :
    (readHeader start).1 = (some version, some rawType, some reserved, some payloadSize) ↔
      integerBytes version ++ ([rawType] ++ ([reserved] ++ integerBytes payloadSize)) <+: start.unread := by
  have hrun : (readHeader start).1 = ((integer UInt16 start).1, (integer UInt8 (integer UInt16 start).2).1,
      (integer UInt8 (integer UInt8 (integer UInt16 start).2).2).1,
      (integer UInt32 (integer UInt8 (integer UInt8 (integer UInt16 start).2).2).2).1) := by
    simp only [readHeader, bind_apply, pure_apply]
  rw [hrun, append_prefix_iff, append_prefix_iff, append_prefix_iff]
  simp only [← unread_advance]
  constructor
  · intro h
    simp only [Prod.mk.injEq] at h
    obtain ⟨hversion, htype, hreserved, hsize⟩ := h
    obtain ⟨hfirst, hrun⟩ := (reads_integer UInt16).of_fst_eq hversion
    rw [hrun] at htype hreserved hsize
    obtain ⟨hsecond, hrun⟩ := reads_byte.of_fst_eq htype
    rw [hrun] at hreserved hsize
    obtain ⟨hthird, hrun⟩ := reads_byte.of_fst_eq hreserved
    rw [hrun] at hsize
    obtain ⟨hfourth, _⟩ := (reads_integer UInt32).of_fst_eq hsize
    exact ⟨hfirst, hsecond, hthird, hfourth⟩
  · intro h
    obtain ⟨hfirst, hsecond, hthird, hfourth⟩ := h
    rw [(reads_integer UInt16 start version _).mpr ⟨trivial, hfirst, rfl⟩]
    dsimp only
    rw [(reads_byte _ rawType _).mpr ⟨trivial, hsecond, rfl⟩]
    dsimp only
    rw [(reads_byte _ reserved _).mpr ⟨trivial, hthird, rfl⟩]
    dsimp only
    rw [(reads_integer UInt32 _ payloadSize _).mpr ⟨trivial, hfourth, rfl⟩]

theorem readPayload_frame_iff {type : MessageType} {bytes : Bytes} {payload : Payload} :
    (∃ rest, readPayload type ⟨bytes, 0, .malformedPayload⟩ = (some payload, rest) ∧ rest.remaining = 0) ↔
      messageType payload = type ∧ payload.Valid ∧ bytes = payload.layout := by
  constructor
  · intro h
    obtain ⟨rest, hread, hrest⟩ := h
    obtain ⟨⟨htype, hvalid⟩, hlayout, rfl⟩ := (reads_payload type _ payload rest).mp hread
    have hlayout : payload.layout <+: bytes := hlayout
    simp only [Cursor.remaining, Cursor.advance] at hrest
    exact ⟨htype, hvalid, (hlayout.eq_of_length_le (by omega)).symm⟩
  · intro h
    obtain ⟨htype, hvalid, rfl⟩ := h
    refine ⟨_, (reads_payload type _ payload _).mpr ⟨⟨htype, hvalid⟩, List.prefix_rfl, rfl⟩, ?_⟩
    simp [Cursor.remaining, Cursor.advance]

private theorem length_textLayout_le {maximum : Nat} {text : Bytes} (h : TextWithin maximum text) :
    (textLayout text).length ≤ maximum + 2 := by
  have hlength := h.1
  rw [textLayout, List.length_append, BigEndian.length_encode]
  omega

/-- Nothing the writer accepts comes near the limit of a frame. -/
theorem Raw.length_layout_le {payload : Raw.Payload} (h : payload.Writable) : payload.layout.length ≤ 300 := by
  have hcaret : ∀ value : Rect, (rectLayout value).length = 16 := fun value => by
    simp [rectLayout, Integer.size]
  cases payload with
  | command value =>
      have htext := length_textLayout_le h.text
      simp only [Payload.layout, Command.layout, List.length_append, value.transaction.size, length_integerBytes,
        List.length_cons, List.length_nil, Integer.size]
      omega
  | selected value =>
      have htext := length_textLayout_le h.sequence
      simp only [Payload.layout, Selected.layout, List.length_append, value.transaction.size]
      omega
  | «show» value => simp [Payload.layout, Show.layout, value.transaction.size, hcaret, Integer.size]
  | hide value => simp [Payload.layout, value.transaction.size]
  | cancelled value => simp [Payload.layout, value.transaction.size]
  | hello value => simp [Payload.layout, Hello.layout, Integer.size]
  | welcome value => simp [Payload.layout, Welcome.layout, Integer.size]
  | ping value => simp [Payload.layout, Integer.size]
  | pong value => simp [Payload.layout, Integer.size]

theorem length_layout_le {payload : Payload} (h : payload.Valid) : payload.layout.length ≤ 300 := by
  rw [← Payload.layout_raw]
  exact Raw.length_layout_le (Payload.writable_raw.mpr (Payload.valid_iff.mp h).1)

theorem length_envelope_layout (envelope : Envelope) :
    envelope.layout.length = headerSize + envelope.payload.layout.length := by
  simp only [Envelope.layout, headerSize, List.length_append, length_integerBytes, List.length_cons,
    List.length_nil, BigEndian.length_encode, Integer.size]

/-! ### The error of a refused frame -/

/-- Reading a payload never clears the error it starts with. -/
private abbrev Reports {α : Type} (read : Reader ProtocolError α) : Prop := KeepsError (· ≠ .none) read

private theorem reports_fail {α : Type} {error : ProtocolError} (h : error ≠ .none) :
    Reports (fail error : Reader ProtocolError (Option α)) := keepsError_fail h

private theorem reports_transaction : Reports Reader.transaction :=
  (keepsError_take _).bind fun _ => keepsError_pure _

private theorem reports_text (maximum : Nat) : Reports (Reader.text maximum) := by
  refine (keepsError_integer UInt16).bind fun size => ?_
  cases size with
  | none => exact reports_fail (by decide)
  | some size =>
      dsimp only
      split
      · exact reports_fail (by decide)
      · refine (keepsError_take _).bind fun result => ?_
        cases result with
        | none => exact reports_fail (by decide)
        | some result =>
            dsimp only
            split
            · exact keepsError_pure _
            · exact reports_fail (by decide)

private theorem reports_rectangle : Reports Reader.rectangle := by
  refine (keepsError_integer Int32).bind fun _ => (keepsError_integer Int32).bind fun _ =>
    (keepsError_integer Int32).bind fun _ => (keepsError_integer Int32).bind fun _ => ?_
  split <;> exact keepsError_pure _

private theorem reports_hello : Reports readHello := by
  refine (keepsError_integer UInt16).bind fun _ => (keepsError_integer UInt16).bind fun _ =>
    (keepsError_integer UInt64).bind fun _ => (keepsError_integer UInt32).bind fun _ => ?_
  split
  · split <;> exact keepsError_pure _
  · exact keepsError_pure _

private theorem reports_welcome : Reports readWelcome := by
  refine (keepsError_integer UInt16).bind fun _ => (keepsError_integer UInt64).bind fun _ =>
    (keepsError_integer UInt32).bind fun _ => ?_
  split
  · split <;> exact keepsError_pure _
  · exact keepsError_pure _

private theorem reports_show : Reports readShow := by
  refine reports_transaction.bind fun _ => reports_rectangle.bind fun _ => reports_rectangle.bind fun _ =>
    (keepsError_integer UInt8).bind fun _ => (keepsError_integer UInt16).bind fun _ =>
    (keepsError_integer UInt8).bind fun _ => ?_
  split
  · split
    · split
      · exact reports_fail (by decide)
      · exact keepsError_pure _
    · exact reports_fail (by decide)
  · exact reports_fail (by decide)

private theorem reports_command : Reports readCommand := by
  refine reports_transaction.bind fun _ => (keepsError_integer UInt32).bind fun _ =>
    (keepsError_integer UInt8).bind fun _ => (reports_text _).bind fun _ => ?_
  split
  · split
    · split <;> exact keepsError_pure _
    · exact keepsError_pure _
  · exact keepsError_pure _

private theorem reports_ended : Reports readEnded := by
  refine reports_transaction.bind fun _ => (keepsError_integer UInt8).bind fun _ => ?_
  split
  · split
    · split <;> exact keepsError_pure _
    · exact keepsError_pure _
  · exact keepsError_pure _

private theorem reports_selected : Reports readSelected := by
  refine reports_transaction.bind fun _ => (reports_text _).bind fun _ => ?_
  split
  · split <;> exact keepsError_pure _
  · exact keepsError_pure _

private theorem reports_payload (type : MessageType) : Reports (readPayload type) := by
  cases type with
  | hello => exact reports_hello.bind fun _ => keepsError_pure _
  | welcome => exact reports_welcome.bind fun _ => keepsError_pure _
  | «show» => exact reports_show.bind fun _ => keepsError_pure _
  | command => exact reports_command.bind fun _ => keepsError_pure _
  | hide => exact reports_ended.bind fun _ => keepsError_pure _
  | selected => exact reports_selected.bind fun _ => keepsError_pure _
  | cancelled => exact reports_ended.bind fun _ => keepsError_pure _
  | ping => exact (keepsError_integer UInt64).bind fun _ => keepsError_pure _
  | pong => exact (keepsError_integer UInt64).bind fun _ => keepsError_pure _

/-! ### Parsing -/

/-- A result that is one or the other: an envelope and no error, or an error and no envelope. -/
def ParseResult.Consistent (result : ParseResult) : Prop := result.envelope = none ↔ result.error ≠ .none

theorem parsePayload_consistent (type : MessageType) (bytes : Bytes) : (parsePayload type bytes).Consistent := by
  have herror : (readPayload type ⟨bytes, 0, .malformedPayload⟩).2.error ≠ .none :=
    reports_payload type _ (by simp)
  rcases hread : readPayload type ⟨bytes, 0, .malformedPayload⟩ with ⟨value, payload⟩
  rw [hread] at herror
  simp only [parsePayload, hread]
  cases value with
  | none => exact iff_of_true rfl herror
  | some value =>
      dsimp only
      split
      · exact iff_of_true rfl herror
      · exact iff_of_false (by simp) (by simp)

theorem parsePayload_eq_some_iff {type : MessageType} {bytes : Bytes} {envelope : Envelope} :
    (parsePayload type bytes).envelope = some envelope ↔
      messageType envelope.payload = type ∧ envelope.Valid ∧ bytes = envelope.payload.layout := by
  have hpayload : messageType envelope.payload = type ∧ envelope.Valid ∧ bytes = envelope.payload.layout ↔
      envelope.version = 1 ∧ ∃ rest, readPayload type ⟨bytes, 0, .malformedPayload⟩ =
        (some envelope.payload, rest) ∧ rest.remaining = 0 := by
    rw [readPayload_frame_iff, Envelope.Valid]
    tauto
  rw [hpayload]
  rcases hread : readPayload type ⟨bytes, 0, .malformedPayload⟩ with ⟨value, payload⟩
  simp only [parsePayload, hread]
  cases value with
  | none =>
      refine iff_of_false (by simp) ?_
      intro h
      obtain ⟨_, rest, hrest, _⟩ := h
      cases hrest
  | some value =>
      dsimp only
      split
      · rename_i hremaining
        refine iff_of_false (by simp) ?_
        intro h
        obtain ⟨_, rest, hrest, hzero⟩ := h
        cases hrest
        exact hremaining hzero
      · rename_i hremaining
        rw [Option.some.injEq]
        constructor
        · rintro rfl
          exact ⟨rfl, payload, rfl, not_not.mp hremaining⟩
        · intro h
          obtain ⟨hversion, rest, hrest, _⟩ := h
          cases hrest
          rw [Envelope.mk.injEq]
          exact ⟨hversion.symm, rfl⟩

theorem parse_consistent (frame : Bytes) : (parse frame).Consistent := by
  unfold parse
  have hrefused : ∀ error : ProtocolError, error ≠ .none → (⟨none, error⟩ : ParseResult).Consistent :=
    fun error herror => iff_of_true rfl herror
  split
  · exact hrefused _ (by decide)
  split
  · exact hrefused _ (by decide)
  split
  · exact hrefused _ (by decide)
  dsimp only
  split
  · exact hrefused _ (by decide)
  split
  · exact hrefused _ (by decide)
  split
  · exact hrefused _ (by decide)
  split
  · exact hrefused _ (by decide)
  exact parsePayload_consistent _ _

/-- The header that stands before a payload of this type and length. -/
def headerLayout (type : MessageType) (length : Nat) : Bytes :=
  magic ++ (integerBytes protocolVersion ++ ([type.code] ++ ([0] ++ BigEndian.encode 4 length)))

theorem length_headerLayout (type : MessageType) (length : Nat) : (headerLayout type length).length = headerSize := by
  simp only [headerLayout, magic, headerSize, List.length_append, length_integerBytes, List.length_cons,
    List.length_nil, BigEndian.length_encode, Integer.size]

theorem layout_eq {envelope : Envelope} (hversion : envelope.version = 1) :
    envelope.layout =
      headerLayout (messageType envelope.payload) envelope.payload.layout.length ++ envelope.payload.layout := by
  simp [Envelope.layout, headerLayout, hversion, magic, protocolVersion]

/-- Behind a header with its length, a payload is all there is left to read. -/
theorem parse_headerLayout_append {type : MessageType} {bytes : Bytes}
    (hlength : headerSize + bytes.length ≤ maximumFrameSize) :
    parse (headerLayout type bytes.length ++ bytes) = parsePayload type bytes := by
  have hsmall : bytes.length < 4294967296 := by
    simp only [headerSize, maximumFrameSize] at hlength
    omega
  have hwhole : (headerLayout type bytes.length ++ bytes).length = headerSize + bytes.length := by
    rw [List.length_append, length_headerLayout]
  have hsize : integerBytes (UInt32.ofNat bytes.length) = BigEndian.encode 4 bytes.length :=
    integerBytes_ofUnsigned (α := UInt32) hsmall
  have hmagic : headerLayout type bytes.length ++ bytes = magic ++ (integerBytes protocolVersion ++ ([type.code] ++
      ([0] ++ integerBytes (UInt32.ofNat bytes.length))) ++ bytes) := by
    rw [hsize, ← List.append_assoc, headerLayout]
  have htake : (headerLayout type bytes.length ++ bytes).take magic.length = magic := by rw [hmagic, List.take_left]
  have hrest : (headerLayout type bytes.length ++ bytes).drop headerSize = bytes :=
    List.drop_left' (length_headerLayout type bytes.length)
  have hheader : (readHeader ⟨(headerLayout type bytes.length ++ bytes).drop magic.length, 0, .none⟩).1 =
      (some protocolVersion, some type.code, some 0, some (UInt32.ofNat bytes.length)) := by
    rw [readHeader_eq_iff, hmagic, List.drop_left]
    exact List.prefix_append _ bytes
  have hcount : (UInt32.ofNat bytes.length).toNat = (headerLayout type bytes.length ++ bytes).length - headerSize := by
    rw [UInt32.toNat_ofNat_of_lt' hsmall, hwhole, Nat.add_sub_cancel_left]
  rw [parse, if_neg (by omega), if_neg (by omega), if_neg (by simpa using htake), hheader]
  simp only [ne_eq, not_true_eq_false, if_false, Option.bind_some, messageType_ofCode_eq_some_iff.mpr rfl,
    Option.map_some, hcount, hrest]

/-- Only a payload behind such a header is ever read. -/
theorem eq_headerLayout_of_parse {frame : Bytes} {envelope : Envelope} (h : (parse frame).envelope = some envelope) :
    ∃ type bytes, frame = headerLayout type bytes.length ++ bytes ∧
      (parsePayload type bytes).envelope = some envelope := by
  unfold parse at h
  split at h
  · cases h
  split at h
  · cases h
  split at h
  · cases h
  rename_i hmagic
  rcases hheader : (readHeader ⟨frame.drop magic.length, 0, .none⟩).1 with ⟨version, rawType, reserved, payloadSize⟩
  rw [hheader] at h
  dsimp only at h
  split at h
  · cases h
  rename_i hversion
  split at h
  · cases h
  rename_i type htype
  split at h
  · cases h
  rename_i hreserved
  split at h
  · cases h
  rename_i hsize
  refine ⟨type, frame.drop headerSize, ?_, h⟩
  obtain rfl := not_not.mp hversion
  obtain ⟨byte, rfl, hbyte⟩ := Option.bind_eq_some_iff.mp htype
  obtain rfl := messageType_ofCode_eq_some_iff.mp hbyte
  obtain rfl := not_not.mp hreserved
  obtain ⟨size, rfl, hcount⟩ := Option.map_eq_some_iff.mp (not_not.mp hsize)
  obtain ⟨tail, htail⟩ := readHeader_eq_iff.mp hheader
  have htail : _ = frame.drop magic.length := htail
  have hrest : frame.drop headerSize = tail := by
    rw [show headerSize = magic.length + 8 from rfl, ← List.drop_drop, ← htail]
    exact List.drop_left' (by simp [Integer.size])
  have hencoded : integerBytes size = BigEndian.encode 4 (frame.drop headerSize).length := by
    rw [List.length_drop, ← hcount]
    rfl
  calc frame = frame.take magic.length ++ frame.drop magic.length := (List.take_append_drop _ frame).symm
    _ = magic ++ frame.drop magic.length := by rw [not_not.mp hmagic]
    _ = headerLayout type (frame.drop headerSize).length ++ frame.drop headerSize := by
      rw [headerLayout, ← hencoded, hrest, ← htail, ← List.append_assoc]

/-- A frame parses to an envelope exactly when the envelope is valid and the frame is its layout. -/
theorem parse_eq_some_iff {frame : Bytes} {envelope : Envelope} :
    (parse frame).envelope = some envelope ↔ envelope.Valid ∧ frame = envelope.layout := by
  constructor
  · intro h
    obtain ⟨type, bytes, rfl, hparse⟩ := eq_headerLayout_of_parse h
    obtain ⟨rfl, hvalid, rfl⟩ := parsePayload_eq_some_iff.mp hparse
    exact ⟨hvalid, (layout_eq hvalid.1).symm⟩
  · intro h
    obtain ⟨hvalid, rfl⟩ := h
    have hlength : headerSize + envelope.payload.layout.length ≤ maximumFrameSize :=
      (Nat.add_le_add_left (length_layout_le hvalid.2) headerSize).trans (by decide)
    rw [layout_eq hvalid.1, parse_headerLayout_append hlength]
    exact parsePayload_eq_some_iff.mpr ⟨rfl, hvalid, rfl⟩

theorem parse_eq_iff {frame : Bytes} {envelope : Envelope} :
    parse frame = ⟨some envelope, .none⟩ ↔ envelope.Valid ∧ frame = envelope.layout := by
  rw [← parse_eq_some_iff]
  constructor
  · intro h
    rw [h]
  · intro h
    have herror : (parse frame).error = .none := by
      by_contra hne
      rw [(parse_consistent frame).mpr hne] at h
      cases h
    rw [← h, ← herror]

/-! ### Writing -/

theorem writeText_eq_some_iff {value bytes : Bytes} {maximum : Nat} (hmaximum : maximum < 65536) :
    Writer.text value maximum = some bytes ↔ TextWithin maximum value ∧ bytes = textLayout value := by
  unfold Writer.text
  split
  · rename_i hrefused
    refine iff_of_false (by simp) ?_
    intro h
    obtain ⟨⟨hlength, hvalid⟩, _⟩ := h
    simp only [hvalid, Bool.not_true, Bool.or_false, Bool.or_eq_true, decide_eq_true_eq] at hrefused
    omega
  · rename_i haccepted
    simp only [Bool.or_eq_true, decide_eq_true_eq, not_or, Bool.not_eq_true', Bool.not_eq_false] at haccepted
    obtain ⟨⟨hlength, hsize⟩, hvalid⟩ := haccepted
    rw [integerBytes_length (by omega), Option.some.injEq]
    exact ⟨fun h => ⟨⟨by omega, hvalid⟩, h.symm⟩, fun h => h.2.symm⟩

private theorem guarded_eq_some_iff {refused valid : Prop} [Decidable refused] {written layout bytes : Bytes}
    (hvalid : ¬ refused ↔ valid) (hlayout : written = layout) :
    (if refused then none else some written) = some bytes ↔ valid ∧ bytes = layout := by
  subst hlayout
  rw [← hvalid]
  split
  · rename_i hrefused
    exact iff_of_false (by simp) fun h => h.1 hrefused
  · rename_i haccepted
    rw [Option.some.injEq]
    exact ⟨fun h => ⟨haccepted, h.symm⟩, fun h => h.2.symm⟩

private theorem guardedText_eq_some_iff {refused valid : Prop} [Decidable refused] {text bytes layout : Bytes}
    {maximum : Nat} {before : Bytes} (hmaximum : maximum < 65536)
    (hvalid : ¬ refused ∧ TextWithin maximum text ↔ valid) (hlayout : before ++ textLayout text = layout) :
    (if refused then none else (Writer.text text maximum).map fun written => before ++ written) = some bytes ↔
      valid ∧ bytes = layout := by
  subst hlayout
  rw [← hvalid]
  split
  · rename_i hrefused
    exact iff_of_false (by simp) fun h => h.1.1 hrefused
  · rename_i haccepted
    simp only [Option.map_eq_some_iff, writeText_eq_some_iff hmaximum]
    constructor
    · intro h
      obtain ⟨_, ⟨htext, rfl⟩, rfl⟩ := h
      exact ⟨⟨haccepted, htext⟩, rfl⟩
    · intro h
      obtain ⟨⟨_, htext⟩, rfl⟩ := h
      exact ⟨_, ⟨htext, rfl⟩, rfl⟩

private theorem unguarded_eq_some_iff {written bytes : Bytes} : some written = some bytes ↔ True ∧ bytes = written := by
  rw [Option.some.injEq, true_and, eq_comm]

private theorem not_invalidTransaction_iff {transaction : TransactionId} :
    ¬ (!validTransaction transaction) = true ↔ transaction.Valid := by
  rw [← validTransaction_iff, Bool.not_eq_true', Bool.not_eq_false]

namespace Raw

/-- The payload writer accepts exactly the writable payloads and writes their layouts. -/
theorem writePayload_eq_some_iff {payload : Payload} {bytes : Bytes} :
    writePayload payload = some bytes ↔ payload.Writable ∧ bytes = payload.layout := by
  cases payload with
  | hello value => exact unguarded_eq_some_iff
  | welcome value => exact unguarded_eq_some_iff
  | ping value => exact unguarded_eq_some_iff
  | pong value => exact unguarded_eq_some_iff
  | hide value => exact guarded_eq_some_iff not_invalidTransaction_iff (by rw [integerBytes_byte]; rfl)
  | cancelled value => exact guarded_eq_some_iff not_invalidTransaction_iff (by rw [integerBytes_byte]; rfl)
  | «show» value =>
      refine guarded_eq_some_iff ?_ (by rw [integerBytes_byte, integerBytes_byte]; rfl)
      simp only [Bool.or_eq_true, not_or, Bool.not_eq_true', Bool.not_eq_false, validTransaction_iff,
        validRectangle_iff, decide_eq_true_eq, UInt16.not_lt, gt_iff_lt]
      constructor
      · intro h
        obtain ⟨⟨⟨⟨htransaction, hcaret⟩, hscreen⟩, hlow⟩, hhigh⟩ := h
        exact Show.Writable.mk htransaction hcaret hscreen ⟨hlow, hhigh⟩
      · intro h
        obtain ⟨htransaction, hcaret, hscreen, hlow, hhigh⟩ := h
        exact ⟨⟨⟨⟨htransaction, hcaret⟩, hscreen⟩, hlow⟩, hhigh⟩
  | command value =>
      refine guardedText_eq_some_iff (by decide) ?_ (by rw [integerBytes_byte]; rfl)
      simp only [Bool.or_eq_true, not_or, Bool.and_eq_true, not_and, decide_eq_true_eq, Bool.not_eq_true',
        Bool.not_eq_false, validTransaction_iff, List.isEmpty_iff]
      constructor
      · intro h
        obtain ⟨⟨htransaction, honly⟩, htext⟩ := h
        exact Command.Writable.mk htransaction htext honly
      · intro h
        obtain ⟨htransaction, htext, honly⟩ := h
        exact ⟨⟨htransaction, honly⟩, htext⟩
  | selected value =>
      refine guardedText_eq_some_iff (by decide) ?_ rfl
      simp only [Bool.or_eq_true, not_or, not_invalidTransaction_iff, List.isEmpty_iff]
      constructor
      · intro h
        obtain ⟨⟨htransaction, hnonempty⟩, hsequence⟩ := h
        exact Selected.Valid.mk htransaction hsequence hnonempty
      · intro h
        obtain ⟨htransaction, hsequence, hnonempty⟩ := h
        exact ⟨⟨htransaction, hnonempty⟩, hsequence⟩

/-- `serialize` writes the layout of exactly the writable envelopes of the one version there is. -/
theorem serialize_eq_some_iff {envelope : Envelope} {frame : Bytes} :
    serialize envelope = some frame ↔
      (envelope.version = 1 ∧ envelope.payload.Writable) ∧ frame = envelope.layout := by
  unfold serialize
  split
  · rename_i hversion
    exact iff_of_false (by simp) fun h => hversion h.1.1
  · rename_i hversion
    have hversion : envelope.version = 1 := not_not.mp hversion
    cases hwritten : writePayload envelope.payload with
    | none =>
        refine iff_of_false (by simp) fun h => ?_
        rw [writePayload_eq_some_iff.mpr ⟨h.1.2, rfl⟩] at hwritten
        cases hwritten
    | some payload =>
        obtain ⟨hwritable, rfl⟩ := writePayload_eq_some_iff.mp hwritten
        have hlength := length_layout_le hwritable
        have hsize : integerBytes (UInt32.ofNat envelope.payload.layout.length) =
            BigEndian.encode 4 envelope.payload.layout.length :=
          integerBytes_ofUnsigned (α := UInt32) (lt_of_le_of_lt hlength (by decide))
        have hframe : magic ++ integerBytes envelope.version ++ integerBytes (messageType envelope.payload).code ++
            integerBytes (0 : UInt8) ++ integerBytes (UInt32.ofNat envelope.payload.layout.length) ++
            envelope.payload.layout = envelope.layout := by
          rw [integerBytes_byte, integerBytes_byte, hsize]
          rfl
        dsimp only
        rw [if_neg (by simp only [maximumFrameSize, headerSize]; omega), hframe, Option.some.injEq]
        exact ⟨fun h => ⟨⟨hversion, hwritable⟩, h.symm⟩, fun h => h.2.symm⟩

end Raw

/-! ### Named values -/

theorem Envelope.layout_raw (envelope : Envelope) : envelope.raw.layout = envelope.layout := by
  simp only [Raw.Envelope.layout, Envelope.raw, Payload.layout_raw]
  rfl

/-- `serialize` writes the layout of exactly the writable envelopes of the one version there is. -/
theorem serialize_eq_some_iff {envelope : Envelope} {frame : Bytes} :
    serialize envelope = some frame ↔
      (envelope.version = 1 ∧ envelope.payload.Writable) ∧ frame = envelope.layout := by
  rw [serialize, Raw.serialize_eq_some_iff, Envelope.layout_raw, Envelope.raw, Payload.writable_raw]

theorem parse_of_serialize {envelope : Envelope} {frame : Bytes} (h : serialize envelope = some frame)
    (hrange : envelope.payload.HandshakeInRange) : parse frame = ⟨some envelope, .none⟩ := by
  obtain ⟨⟨hversion, hwritable⟩, rfl⟩ := serialize_eq_some_iff.mp h
  exact parse_eq_iff.mpr ⟨⟨hversion, Payload.valid_iff.mpr ⟨hwritable, hrange⟩⟩, rfl⟩

theorem localeValue_inRange (locale : Locale) : 0 ≤ (localeValue locale).toInt ∧ (localeValue locale).toInt ≤ 2 := by
  cases locale <;> decide

theorem exists_localeValue {value : Int32} (h : 0 ≤ value.toInt ∧ value.toInt ≤ 2) :
    ∃ locale, localeValue locale = value := by
  have hcases : value.toInt = 0 ∨ value.toInt = 1 ∨ value.toInt = 2 := by omega
  rcases hcases with hzero | hone | htwo
  · exact ⟨.english, Int32.toInt_inj.mp hzero.symm⟩
  · exact ⟨.german, Int32.toInt_inj.mp hone.symm⟩
  · exact ⟨.russian, Int32.toInt_inj.mp htwo.symm⟩

theorem Payload.inRange_raw {payload : Payload} (h : payload.Valid) : payload.raw.InRange := by
  cases payload with
  | hello value => exact h
  | welcome value => exact h
  | «show» value => exact localeValue_inRange value.locale
  | command value => exact Nat.le_of_lt_succ (code_lt value.kind)
  | hide value => exact Nat.le_of_lt_succ (code_lt value.reason)
  | cancelled value => exact Nat.le_of_lt_succ (code_lt value.reason)
  | _ => trivial

/-- What is in range has only numbers with a name. -/
theorem Raw.Payload.exists_named {payload : Raw.Payload} (h : payload.InRange) :
    ∃ named : Ipc.Payload, named.raw = payload ∧ named.HandshakeInRange := by
  cases payload with
  | hello value => exact ⟨.hello value, rfl, h⟩
  | welcome value => exact ⟨.welcome value, rfl, h⟩
  | «show» value =>
      obtain ⟨locale, hlocale⟩ := exists_localeValue h
      refine ⟨.show ⟨value.transaction, value.caret, value.screen, locale, value.scalePercent,
        value.closeAfterSelection⟩, ?_, trivial⟩
      rw [Ipc.Payload.raw, hlocale]
  | command value =>
      obtain ⟨kind, hkind⟩ : ∃ kind : CommandKind, code kind = value.kind := exists_code (Nat.lt_succ_of_le h)
      exact ⟨.command ⟨value.transaction, value.sequence, kind, value.text⟩, by rw [Ipc.Payload.raw, hkind], trivial⟩
  | hide value =>
      obtain ⟨reason, hreason⟩ : ∃ reason : CancelReason, code reason = value.reason := exists_code (Nat.lt_succ_of_le h)
      exact ⟨.hide ⟨value.transaction, reason⟩, by rw [Ipc.Payload.raw, hreason], trivial⟩
  | cancelled value =>
      obtain ⟨reason, hreason⟩ : ∃ reason : CancelReason, code reason = value.reason := exists_code (Nat.lt_succ_of_le h)
      exact ⟨.cancelled ⟨value.transaction, reason⟩, by rw [Ipc.Payload.raw, hreason], trivial⟩
  | selected value => exact ⟨.selected value, rfl, trivial⟩
  | ping value => exact ⟨.ping value, rfl, trivial⟩
  | pong value => exact ⟨.pong value, rfl, trivial⟩

/-! ### Both directions together -/

/-- The frame of a payload in the one version there is. -/
def Payload.frame (payload : Payload) : Bytes := Envelope.layout ⟨protocolVersion, payload⟩

theorem serialize_payload {payload : Payload} (h : payload.Writable) :
    serialize ⟨protocolVersion, payload⟩ = some payload.frame :=
  serialize_eq_some_iff.mpr ⟨⟨rfl, h⟩, rfl⟩

theorem serialize_payload_eq_none {payload : Payload} (h : ¬ payload.Writable) :
    serialize ⟨protocolVersion, payload⟩ = none := by
  cases hframe : serialize ⟨protocolVersion, payload⟩ with
  | none => rfl
  | some frame => exact absurd (serialize_eq_some_iff.mp hframe).1.2 h

theorem parse_payload_frame {payload : Payload} (h : payload.Valid) :
    (parse payload.frame).envelope = some ⟨protocolVersion, payload⟩ :=
  parse_eq_some_iff.mpr ⟨⟨rfl, h⟩, rfl⟩

/-- The frames `parse` accepts are the layouts of the valid envelopes, and nothing else gives an envelope or goes without an error. -/
theorem parse_layout (frame : Bytes) :
    ((parse frame).envelope.isSome ↔ ∃ envelope : Envelope, envelope.Valid ∧ frame = envelope.layout) ∧
      ((parse frame).envelope.isSome → 12 ≤ frame.length ∧ frame.length ≤ 65536) ∧
      (∀ envelope : Envelope, envelope.Valid → frame = envelope.layout →
        parse frame = ⟨some envelope, .none⟩ ∧ serialize envelope = some frame) ∧
      ((¬ ∃ envelope : Envelope, envelope.Valid ∧ frame = envelope.layout) →
        (parse frame).envelope = none ∧ (parse frame).error ≠ .none) ∧
      (∀ (other : Bytes) (envelope : Envelope), (parse frame).envelope = some envelope →
        (parse other).envelope = some envelope → other = frame) := by
  have haccepted : (parse frame).envelope.isSome ↔ ∃ envelope : Envelope, envelope.Valid ∧ frame = envelope.layout := by
    simp only [Option.isSome_iff_exists, parse_eq_some_iff]
  refine ⟨haccepted, fun h => ?_, fun envelope hvalid hframe => ⟨?_, ?_⟩, fun h => ?_, fun other envelope h hother => ?_⟩
  · obtain ⟨envelope, hvalid, rfl⟩ := haccepted.mp h
    have hlength := length_layout_le hvalid.2
    have hframe := length_envelope_layout envelope
    simp only [headerSize] at hframe
    omega
  · exact parse_eq_iff.mpr ⟨hvalid, hframe⟩
  · exact serialize_eq_some_iff.mpr ⟨⟨hvalid.1, (Payload.valid_iff.mp hvalid.2).1⟩, hframe⟩
  · have hnone : (parse frame).envelope = none := Option.not_isSome_iff_eq_none.mp fun hsome => h (haccepted.mp hsome)
    exact ⟨hnone, (parse_consistent frame).mp hnone⟩
  · rw [(parse_eq_some_iff.mp h).2, (parse_eq_some_iff.mp hother).2]

/-- What is written reads back as what was meant, unless it is a handshake message that names no version in range, or holds a number without a name. -/
theorem parse_serialize_iff (envelope : Raw.Envelope) :
    (∀ frame, Raw.serialize envelope = some frame →
        ∃ read : Envelope, parse frame = ⟨some read, .none⟩ ∧ read.raw = envelope) ↔
      (envelope.version = 1 → envelope.payload.Writable → envelope.payload.InRange) := by
  constructor
  · intro h hversion hwritable
    obtain ⟨read, hparse, rfl⟩ := h _ (Raw.serialize_eq_some_iff.mpr ⟨⟨hversion, hwritable⟩, rfl⟩)
    exact Payload.inRange_raw (parse_eq_iff.mp hparse).1.2
  · intro h frame hframe
    obtain ⟨⟨hversion, hwritable⟩, rfl⟩ := Raw.serialize_eq_some_iff.mp hframe
    obtain ⟨payload, hpayload, hrange⟩ := Raw.Payload.exists_named (h hversion hwritable)
    obtain ⟨version, raw⟩ := envelope
    obtain rfl : payload.raw = raw := hpayload
    have hvalid : payload.Valid := Payload.valid_iff.mpr ⟨Payload.writable_raw.mp hwritable, hrange⟩
    exact ⟨⟨version, payload⟩, parse_eq_iff.mpr ⟨⟨hversion, hvalid⟩, Envelope.layout_raw ⟨version, payload⟩⟩, rfl⟩

/-- A `Hello` with no version in its range and a `Hide` for a reason without a name are written and then refused, and a `Show` in the locale of number 256 is read as one in English. -/
theorem parse_serialize_hello_ne :
    (∃ frame, Raw.serialize ⟨1, .hello ⟨0, 0, 0, 0⟩⟩ = some frame ∧ parse frame = ⟨none, .malformedPayload⟩) ∧
      (∃ frame, Raw.serialize ⟨1, .hide ⟨⟨1 :: List.replicate 15 0, rfl⟩, 8⟩⟩ = some frame ∧
        parse frame = ⟨none, .malformedPayload⟩) ∧
      ∃ frame, Raw.serialize ⟨1, .show ⟨⟨1 :: List.replicate 15 0, rfl⟩, ⟨0, 0, 1, 1⟩, ⟨0, 0, 8, 8⟩, 256, 100, true⟩⟩
          = some frame ∧
        parse frame = ⟨some ⟨1, .show ⟨⟨1 :: List.replicate 15 0, rfl⟩, ⟨0, 0, 1, 1⟩, ⟨0, 0, 8, 8⟩, .english, 100,
          true⟩⟩, .none⟩ :=
  ⟨⟨_, rfl, by decide +kernel⟩, ⟨_, rfl, by decide +kernel⟩, ⟨_, rfl, by decide +kernel⟩⟩

end Ipc

end EmojiPalette
