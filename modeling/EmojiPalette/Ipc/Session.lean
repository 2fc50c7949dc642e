import EmojiPalette.Ipc.Protocol

/-!
# Sessions

The addon's view of the handshake with its peer, and the helper's check that the commands of a transaction come in increasing order. Bus names are byte strings.
-/

namespace EmojiPalette

namespace Ipc

inductive SessionState
  | disconnected
  | negotiating
  | ready
  | incompatible
  deriving DecidableEq

structure PeerSession where
  state : SessionState
  owner : Bytes
  nonce : UInt64
  generation : UInt64
  version : Option UInt16
  deriving DecidableEq

namespace PeerSession

def initial : PeerSession := ⟨.disconnected, [], 0, 0, none⟩

/-- The session after `begin`, and the envelope to send. -/
def begin (owner : Bytes) (nonce : UInt64) (capabilities : UInt32) (session : PeerSession) :
    PeerSession × Envelope :=
  (⟨.negotiating, owner, nonce, session.generation + 1, none⟩,
    ⟨protocolVersion, .hello ⟨protocolVersion, protocolVersion, nonce, capabilities⟩⟩)

def acceptWelcome (sender : Bytes) (welcome : Welcome) (session : PeerSession) : PeerSession × Bool :=
  if session.state ≠ .negotiating || sender ≠ session.owner || welcome.nonce ≠ session.nonce then (session, false)
  else if welcome.selectedVersion ≠ protocolVersion then
    ({ session with state := .incompatible, version := none }, false)
  else ({ session with state := .ready, version := some welcome.selectedVersion }, true)

def accepts (sender : Bytes) (session : PeerSession) : Bool := session.state = .ready && sender = session.owner

/-- The end of a session, however it comes about. -/
def disconnect (session : PeerSession) : PeerSession := ⟨.disconnected, [], 0, session.generation + 1, none⟩

def ownerLost (owner : Bytes) (session : PeerSession) : PeerSession :=
  if owner ≠ session.owner then session else session.disconnect

def negotiationExpired (session : PeerSession) : PeerSession :=
  if session.state ≠ .negotiating then session else session.disconnect

theorem acceptWelcome_eq_true_iff {sender : Bytes} {welcome : Welcome} {session : PeerSession} :
    (session.acceptWelcome sender welcome).2 = true ↔ session.state = .negotiating ∧ sender = session.owner ∧
      welcome.nonce = session.nonce ∧ welcome.selectedVersion = protocolVersion := by
  unfold acceptWelcome
  split
  · rename_i hrefused
    refine iff_of_false (by simp) ?_
    intro h
    obtain ⟨hstate, hsender, hnonce, _⟩ := h
    simp [hstate, hsender, hnonce] at hrefused
  · rename_i haccepted
    simp only [Bool.or_eq_true, decide_eq_true_eq, not_or, not_not] at haccepted
    split
    · rename_i hversion
      exact iff_of_false (by simp) fun h => hversion h.2.2.2
    · rename_i hversion
      exact iff_of_true rfl ⟨haccepted.1.1, haccepted.1.2, haccepted.2, not_not.mp hversion⟩

/-- Only an accepted `Welcome` makes a session ready. -/
theorem acceptWelcome_ready {sender : Bytes} {welcome : Welcome} {session : PeerSession}
    (h : (session.acceptWelcome sender welcome).2 = true) :
    (session.acceptWelcome sender welcome).1 = { session with state := .ready, version := some protocolVersion } := by
  obtain ⟨hstate, hsender, hnonce, hversion⟩ := acceptWelcome_eq_true_iff.mp h
  simp [acceptWelcome, hstate, hsender, hnonce, hversion]

/-- A `Welcome` that is refused makes none ready. -/
theorem acceptWelcome_not_ready {sender : Bytes} {welcome : Welcome} {session : PeerSession}
    (hstate : session.state ≠ .ready) (h : (session.acceptWelcome sender welcome).2 = false) :
    (session.acceptWelcome sender welcome).1.state ≠ .ready := by
  unfold acceptWelcome at h ⊢
  split
  · exact hstate
  · rename_i hnegotiating
    rw [if_neg hnegotiating] at h
    split
    · simp
    · rename_i hversion
      rw [if_neg hversion] at h
      cases h

end PeerSession

structure SequenceValidator where
  transaction : Option TransactionId
  lastSequence : UInt32
  deriving DecidableEq

namespace SequenceValidator

def initial : SequenceValidator := ⟨none, 0⟩

def begin (transaction : TransactionId) : SequenceValidator := ⟨some transaction, 0⟩

/-- The validator that has accepted the number, if it does. -/
def accept (transaction : TransactionId) (sequence : UInt32) (validator : SequenceValidator) :
    Option SequenceValidator :=
  if validator.transaction ≠ some transaction || sequence = 0 || sequence ≤ validator.lastSequence then none
  else some { validator with lastSequence := sequence }

def reset : SequenceValidator := initial

theorem accept_eq_some_iff {transaction : TransactionId} {sequence : UInt32}
    {validator next : SequenceValidator} :
    validator.accept transaction sequence = some next ↔ validator.transaction = some transaction ∧ sequence ≠ 0 ∧
      validator.lastSequence < sequence ∧ next = ⟨some transaction, sequence⟩ := by
  unfold accept
  split
  · rename_i hrefused
    refine iff_of_false (by simp) ?_
    intro h
    obtain ⟨htransaction, hnonzero, hlater, _⟩ := h
    simp [htransaction, hnonzero, UInt32.not_le.mpr hlater] at hrefused
  · rename_i haccepted
    simp only [ne_eq, Bool.or_eq_true, decide_eq_true_eq, not_or, not_not, UInt32.not_le] at haccepted
    obtain ⟨⟨htransaction, hnonzero⟩, hlater⟩ := haccepted
    rw [Option.some.injEq, htransaction]
    exact ⟨fun h => ⟨rfl, hnonzero, hlater, h.symm⟩, fun h => h.2.2.2.symm⟩

end SequenceValidator

end Ipc

end EmojiPalette
