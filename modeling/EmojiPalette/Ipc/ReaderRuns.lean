import EmojiPalette.Ipc.Protocol
import EmojiPalette.Library.CheckedCursor

/-!
# Runs of the reader

The operations of `Reader` in any order, over any bytes. Each is written once more over checked accesses, in the order of the source's own tests: a byte is read by its index into the payload, and what remains is only counted where the source counts it. A run then never meets a fault, and it does what the reader of the protocol does. Nothing stops a run at a read that failed, so the fields a payload is read by are such a run as well, whatever they yield.
-/

namespace EmojiPalette

open Cursor

namespace Ipc

namespace CheckedReader

def transaction : Checked ProtocolError (Option TransactionId) := do
  let bytes ← Checked.take 16
  return bytes.bind TransactionId.ofBytes

def text (maximum : Nat) : Checked ProtocolError (Option Bytes) := do
  let size ← Checked.integer UInt16
  match size with
  | none => Checked.fail .valueOutOfRange
  | some size =>
      if size.toNat > maximum then Checked.fail .valueOutOfRange
      else do
        let result ← Checked.take size.toNat
        match result with
        | none => Checked.fail .valueOutOfRange
        | some result => if isValidUtf8 result then return some result else Checked.fail .invalidUtf8

def rectangle : Checked ProtocolError (Option Rect) := do
  let x ← Checked.integer Int32
  let y ← Checked.integer Int32
  let width ← Checked.integer Int32
  let height ← Checked.integer Int32
  match x, y, width, height with
  | some x, some y, some width, some height => return some ⟨x, y, width, height⟩
  | _, _, _, _ => return none

end CheckedReader

/-! ### Each operation is safe -/

theorem safe_transaction : Safe CheckedReader.transaction Reader.transaction :=
  (safe_take 16).bind fun _ => safe_pure _

theorem safe_text (maximum : Nat) : Safe (CheckedReader.text maximum) (Reader.text maximum) := by
  refine (safe_integer UInt16).bind fun size => ?_
  cases size with
  | none => exact safe_fail _
  | some size =>
      dsimp only
      split
      · exact safe_fail _
      · refine (safe_take size.toNat).bind fun result => ?_
        cases result with
        | none => exact safe_fail _
        | some result =>
            dsimp only
            split
            · exact safe_pure _
            · exact safe_fail _

theorem safe_rectangle : Safe CheckedReader.rectangle Reader.rectangle := by
  refine (safe_integer Int32).bind fun x => ?_
  refine (safe_integer Int32).bind fun y => ?_
  refine (safe_integer Int32).bind fun width => ?_
  refine (safe_integer Int32).bind fun height => ?_
  cases x <;> cases y <;> cases width <;> cases height <;> exact safe_pure _

theorem transaction_cases (cursor : Cursor ProtocolError) :
    (cursor.remaining < 16 ∧ Reader.transaction cursor = (none, cursor)) ∨
      (16 ≤ cursor.remaining ∧ ∃ transaction : TransactionId, transaction.bytes = cursor.unread.take 16 ∧
        Reader.transaction cursor = (some transaction, cursor.advance 16)) := by
  rw [Reader.transaction, bind_apply]
  obtain ⟨hshort, htake⟩ | ⟨henough, htake⟩ := take_cases 16 cursor
  · exact .inl ⟨hshort, by rw [htake]; rfl⟩
  · have hlength : (cursor.unread.take 16).length = 16 := List.length_take_of_le (by rw [length_unread]; exact henough)
    refine .inr ⟨henough, ⟨_, hlength⟩, rfl, ?_⟩
    rw [htake, pure_apply, Option.bind_some, TransactionId.ofBytes, dif_pos hlength]

/-! ### Runs -/

inductive Operation : Type 1
  | integer (α : Type) [Integer α]
  | transaction
  | rectangle
  | text (maximum : Nat)

namespace Operation

def Result : Operation → Type
  | @integer α _ => α
  | .transaction => TransactionId
  | .rectangle => Rect
  | .text _ => Bytes

def read : (operation : Operation) → Reader ProtocolError (Option operation.Result)
  | @integer α _ => Cursor.integer α
  | .transaction => Reader.transaction
  | .rectangle => Reader.rectangle
  | .text maximum => Reader.text maximum

def checked : (operation : Operation) → Checked ProtocolError (Option operation.Result)
  | @integer α _ => Checked.integer α
  | .transaction => CheckedReader.transaction
  | .rectangle => CheckedReader.rectangle
  | .text maximum => CheckedReader.text maximum

/-- One operation after another, whether or not the earlier ones failed. -/
def run (operations : List Operation) (start : Cursor ProtocolError) : Cursor ProtocolError :=
  operations.foldl (fun cursor operation => (operation.read cursor).2) start

def checkedRun (operations : List Operation) (start : Cursor ProtocolError) : Except Fault (Cursor ProtocolError) :=
  operations.foldlM (fun cursor operation => (operation.checked cursor).map Prod.snd) start

theorem safe (operation : Operation) : Safe operation.checked operation.read := by
  cases operation with
  | integer α => exact safe_integer α
  | transaction => exact safe_transaction
  | rectangle => exact safe_rectangle
  | text maximum => exact safe_text maximum

/-- The run lemma: the place stays inside through any operations, and no access of them is a fault. -/
theorem checkedRun_eq (operations : List Operation) {start : Cursor ProtocolError}
    (h : start.position ≤ start.bytes.length) :
    checkedRun operations start = .ok (run operations start) ∧ Onward start (run operations start) := by
  induction operations generalizing start with
  | nil => exact ⟨rfl, .refl h⟩
  | cons operation rest ih =>
      obtain ⟨hstep, honward⟩ := operation.safe start h
      obtain ⟨hrest, honwardRest⟩ := ih honward.inside_next
      refine ⟨?_, honward.trans honwardRest⟩
      rw [checkedRun, List.foldlM_cons, hstep]
      exact hrest

end Operation

/-! ### The fields of the payloads -/

/-- The operations a payload of the type is read by. -/
def payloadOperations : MessageType → List Operation
  | .hello => [.integer UInt16, .integer UInt16, .integer UInt64, .integer UInt32]
  | .welcome => [.integer UInt16, .integer UInt64, .integer UInt32]
  | .show => [.transaction, .rectangle, .rectangle, .integer UInt8, .integer UInt16, .integer UInt8]
  | .command => [.transaction, .integer UInt32, .integer UInt8, .text maximumSearchSize]
  | .hide | .cancelled => [.transaction, .integer UInt8]
  | .selected => [.transaction, .text maximumSelectionSize]
  | .ping | .pong => [.integer UInt64]

/-- The reading leaves the cursor where these operations leave it, but for the error. -/
def Follows {α : Type} (operations : List Operation) (reading : Reader ProtocolError α) : Prop :=
  ∀ start, ∃ error, (reading start).2 = { Operation.run operations start with error := error }

section Follows

variable {α β : Type}

theorem follows_pure (value : α) : Follows [] (pure value) := fun start => ⟨start.error, rfl⟩

theorem follows_fail (error : ProtocolError) : Follows [] (fail error : Reader ProtocolError (Option α)) :=
  fun _ => ⟨error, rfl⟩

/-- An operation, and what follows it whatever it yields. -/
theorem Follows.cons {rest : List Operation} (operation : Operation)
    {next : Option operation.Result → Reader ProtocolError α} (h : ∀ value, Follows rest (next value)) :
    Follows (operation :: rest) (operation.read >>= next) :=
  fun start => h (operation.read start).1 (operation.read start).2

theorem Follows.map {operations : List Operation} {reading : Reader ProtocolError α} (h : Follows operations reading)
    (f : α → β) : Follows operations (do let value ← reading; return f value) :=
  h

end Follows

theorem follows_readHello : Follows (payloadOperations .hello) readHello := by
  refine .cons (.integer UInt16) fun minimum => .cons (.integer UInt16) fun maximum => ?_
  refine .cons (.integer UInt64) fun nonce => .cons (.integer UInt32) fun capabilities => ?_
  obtain _ | minimum := minimum
  · exact follows_pure _
  obtain _ | maximum := maximum
  · exact follows_pure _
  obtain _ | nonce := nonce
  · exact follows_pure _
  obtain _ | capabilities := capabilities
  · exact follows_pure _
  dsimp only
  split <;> exact follows_pure _

theorem follows_readWelcome : Follows (payloadOperations .welcome) readWelcome := by
  refine .cons (.integer UInt16) fun selected => .cons (.integer UInt64) fun nonce => ?_
  refine .cons (.integer UInt32) fun capabilities => ?_
  obtain _ | selected := selected
  · exact follows_pure _
  obtain _ | nonce := nonce
  · exact follows_pure _
  obtain _ | capabilities := capabilities
  · exact follows_pure _
  dsimp only
  split <;> exact follows_pure _

theorem follows_readShow : Follows (payloadOperations .show) readShow := by
  refine .cons .transaction fun transaction => .cons .rectangle fun caret => .cons .rectangle fun screen => ?_
  refine .cons (.integer UInt8) fun locale => .cons (.integer UInt16) fun scale => .cons (.integer UInt8) fun close => ?_
  obtain _ | transaction := transaction
  · exact follows_fail _
  obtain _ | caret := caret
  · exact follows_fail _
  obtain _ | screen := screen
  · exact follows_fail _
  obtain _ | locale := locale
  · exact follows_fail _
  obtain _ | scale := scale
  · exact follows_fail _
  obtain _ | close := close
  · exact follows_fail _
  dsimp only
  split
  · split
    · exact follows_fail _
    · exact follows_pure _
  · exact follows_fail _

theorem follows_readCommand : Follows (payloadOperations .command) readCommand := by
  refine .cons .transaction fun transaction => .cons (.integer UInt32) fun sequence => ?_
  refine .cons (.integer UInt8) fun kind => .cons (.text maximumSearchSize) fun text => ?_
  obtain _ | transaction := transaction
  · exact follows_pure _
  obtain _ | sequence := sequence
  · exact follows_pure _
  obtain _ | kind := kind
  · exact follows_pure _
  obtain _ | text := text
  · exact follows_pure _
  dsimp only
  split
  · split <;> exact follows_pure _
  · exact follows_pure _

theorem follows_readEnded : Follows (payloadOperations .hide) readEnded := by
  refine .cons .transaction fun transaction => .cons (.integer UInt8) fun reason => ?_
  obtain _ | transaction := transaction
  · exact follows_pure _
  obtain _ | reason := reason
  · exact follows_pure _
  dsimp only
  split
  · split <;> exact follows_pure _
  · exact follows_pure _

theorem follows_readSelected : Follows (payloadOperations .selected) readSelected := by
  refine .cons .transaction fun transaction => .cons (.text maximumSelectionSize) fun sequence => ?_
  obtain _ | transaction := transaction
  · exact follows_pure _
  obtain _ | sequence := sequence
  · exact follows_pure _
  dsimp only
  split <;> exact follows_pure _

theorem follows_nonce : Follows (payloadOperations .ping) (integer UInt64) :=
  .cons (.integer UInt64) fun nonce => follows_pure nonce

/-- A payload is read by the operations of its type, all of them, whichever fail. -/
theorem follows_readPayload (type : MessageType) : Follows (payloadOperations type) (readPayload type) := by
  cases type with
  | hello => exact follows_readHello.map _
  | welcome => exact follows_readWelcome.map _
  | «show» => exact follows_readShow.map _
  | command => exact follows_readCommand.map _
  | hide => exact follows_readEnded.map _
  | selected => exact follows_readSelected.map _
  | cancelled => exact follows_readEnded.map _
  | ping => exact follows_nonce.map _
  | pong => exact follows_nonce.map _

/-- After any operations the cursor is inside the payload, and no access has been outside. Any operation from there meets no fault and does not move back; an integer or an id is read from exactly its bytes, or it is not and nothing is consumed. The reading of a payload is such a run. -/
theorem reader_stays_inside (payload : Bytes) (error : ProtocolError) (operations : List Operation) :
    let start : Cursor ProtocolError := ⟨payload, 0, error⟩
    let cursor := Operation.run operations start
    Operation.checkedRun operations start = .ok cursor ∧
      cursor.bytes = payload ∧ cursor.position ≤ payload.length ∧
      (∀ operation : Operation, operation.checked cursor = .ok (operation.read cursor) ∧
        Onward cursor (operation.read cursor).2) ∧
      (∀ (α : Type) [Integer α],
        (cursor.remaining < Integer.size α ∧ integer α cursor = (none, cursor)) ∨
          (Integer.size α ≤ cursor.remaining ∧
            integer α cursor = (some (Integer.ofUnsigned (BigEndian.decode (cursor.unread.take (Integer.size α)))),
              cursor.advance (Integer.size α)))) ∧
      ((cursor.remaining < 16 ∧ Reader.transaction cursor = (none, cursor)) ∨
        (16 ≤ cursor.remaining ∧ ∃ transaction : TransactionId, transaction.bytes = cursor.unread.take 16 ∧
          Reader.transaction cursor = (some transaction, cursor.advance 16))) ∧
      (∀ type, ∃ error, (readPayload type start).2 =
        { Operation.run (payloadOperations type) start with error := error }) := by
  intro start cursor
  have hstart : start.position ≤ start.bytes.length := Nat.zero_le _
  obtain ⟨hrun, honward⟩ := Operation.checkedRun_eq operations hstart
  refine ⟨hrun, honward.bytes, honward.inside, fun operation => ?_, fun α _ => integer_cases α cursor,
    transaction_cases cursor, fun type => follows_readPayload type start⟩
  exact operation.safe cursor honward.inside_next

end Ipc

end EmojiPalette
