import EmojiPalette.Ui.PaletteSession

/-!
# The handshake from end to end

A `Hello` goes through the writer, the reader and the negotiation to the helper, which binds itself to the sender and answers with a `Welcome`. The `Welcome` comes back through the writer and the reader to a session that waits for it. Only the version in the range decides whether any of this happens.
-/

namespace EmojiPalette

open Ipc

namespace Ui

/-- The helper once it is bound to the peer: its own peer finds its transaction again, another finds nothing. -/
def Helper.boundTo {ω : Type} (calls : WindowCalls ω) (sender : Bytes) (helper : Helper ω) : Helper ω :=
  if helper.session.peerOwner = sender then { helper with session := { helper.session with negotiated := true } }
  else ⟨⟨sender, true, none, .initial⟩, calls.hidePalette helper.window⟩

theorem negotiate_eq_none_iff {hello : Hello} {supported : UInt32} :
    negotiate hello supported = none ↔
      ¬ (hello.minimumVersion ≤ protocolVersion ∧ protocolVersion ≤ hello.maximumVersion) := by
  unfold negotiate
  split
  · rename_i houtside
    refine iff_of_true rfl fun h => ?_
    simp only [Bool.or_eq_true, decide_eq_true_eq] at houtside
    rcases houtside with hminimum | hmaximum
    · exact absurd h.1 (UInt16.not_le.mpr hminimum)
    · exact absurd h.2 (UInt16.not_le.mpr hmaximum)
  · rename_i hinside
    simp only [Bool.or_eq_true, decide_eq_true_eq, not_or, UInt16.not_lt] at hinside
    exact iff_of_false (by simp) (not_not.mpr hinside)

theorem negotiate_eq_some {hello : Hello} {supported : UInt32}
    (h : hello.minimumVersion ≤ protocolVersion ∧ protocolVersion ≤ hello.maximumVersion) :
    negotiate hello supported = some ⟨protocolVersion, hello.nonce, hello.capabilities &&& supported⟩ := by
  unfold negotiate
  rw [if_neg]
  simp only [Bool.or_eq_true, decide_eq_true_eq, not_or, UInt16.not_lt]
  exact h

namespace Helper

variable {ω : Type}

theorem welcomePeer_fst (calls : WindowCalls ω) (sender : Bytes) (helper : Helper ω) :
    (welcomePeer calls sender helper).1 = helper.boundTo calls sender := by
  by_cases hsender : helper.session.peerOwner = sender
  · simp [welcomePeer, boundTo, hsender]
  · simp [welcomePeer, boundTo, hsender, reset, PaletteSession.clear, SequenceValidator.reset]

/-- What comes of the frame of a `Hello` with a range. -/
theorem exchange_hello {calls : WindowCalls ω} {helper : Helper ω} {sender : Bytes} {hello : Hello}
    (hsender : sender ≠ []) (hvalid : hello.Valid) :
    exchange calls (Payload.hello hello).frame sender helper =
      match negotiate hello supportedCapabilities with
      | none => ignore helper
      | some welcome => answer (welcomePeer calls sender) (.welcome welcome) helper := by
  unfold exchange
  have hparsed : (parse (Payload.hello hello).frame).envelope = some ⟨protocolVersion, .hello hello⟩ :=
    parse_payload_frame hvalid
  rewrite [if_neg (by simpa using hsender), hparsed]
  rfl

theorem response_welcome (welcome : Welcome) : response (.welcome welcome) = (Payload.welcome welcome).frame := by
  have hserialized : serialize ⟨protocolVersion, .welcome welcome⟩ = some (Payload.welcome welcome).frame :=
    serialize_payload trivial
  rw [response, hserialized, Option.getD_some]

theorem frame_ne_nil (payload : Payload) : payload.frame ≠ [] := by
  intro h
  have hlength := length_envelope_layout ⟨protocolVersion, payload⟩
  rw [Payload.frame] at h
  rw [h, List.length_nil, headerSize] at hlength
  omega

end Helper

/-- A session that waits for an owner's answer to a nonce is ready with that answer, and waits on at any other. -/
theorem acceptWelcome_begin (session : PeerSession) (owner : Bytes) (nonce : UInt64) (capabilities : UInt32) :
    let began := (session.begin owner nonce capabilities).1
    (∀ welcome : Welcome, welcome.selectedVersion = protocolVersion → welcome.nonce = nonce →
      (began.acceptWelcome owner welcome).2 = true ∧ (began.acceptWelcome owner welcome).1.state = .ready ∧
        (began.acceptWelcome owner welcome).1.accepts owner = true) ∧
    ∀ (sender : Bytes) (welcome : Welcome), sender ≠ owner ∨ welcome.nonce ≠ nonce →
      began.acceptWelcome sender welcome = (began, false) ∧ began.state = .negotiating := by
  refine ⟨fun welcome hversion hnonce => ?_, fun sender welcome hother => ⟨?_, rfl⟩⟩
  · have haccepted : ((session.begin owner nonce capabilities).1.acceptWelcome owner welcome).2 = true :=
      PeerSession.acceptWelcome_eq_true_iff.mpr ⟨rfl, rfl, hnonce, hversion⟩
    rw [PeerSession.acceptWelcome_ready haccepted]
    exact ⟨haccepted, rfl, by simp [PeerSession.accepts, PeerSession.begin]⟩
  · rw [PeerSession.acceptWelcome, if_pos]
    simp only [Bool.or_eq_true, decide_eq_true_eq, or_assoc]
    exact Or.inr hother

/-- The handshake: which `Hello` is answered, with what, and what both sides are afterwards. -/
theorem handshake {ω : Type} (calls : WindowCalls ω) (helper : Helper ω) (sender : Bytes) (hello : Hello)
    (hsender : sender ≠ []) (hvalid : hello.Valid) :
    ∃ frame, serialize ⟨protocolVersion, .hello hello⟩ = some frame ∧
      let exchanged := helper.exchange calls frame sender
      (exchanged.response ≠ [] ↔ hello.minimumVersion ≤ 1 ∧ 1 ≤ hello.maximumVersion) ∧
      (¬ (hello.minimumVersion ≤ 1 ∧ 1 ≤ hello.maximumVersion) → exchanged.helper = helper ∧ exchanged.effects = []) ∧
      (exchanged.response ≠ [] →
        exchanged.helper = helper.boundTo calls sender ∧
        exchanged.helper.session.negotiated = true ∧ exchanged.helper.session.peerOwner = sender ∧
        exchanged.helper.session.transaction =
          (if helper.session.peerOwner = sender then helper.session.transaction else none) ∧
        ∃ welcome : Welcome, (parse exchanged.response).envelope = some ⟨protocolVersion, .welcome welcome⟩ ∧
          welcome.selectedVersion = 1 ∧ welcome.nonce = hello.nonce ∧
          welcome.capabilities = hello.capabilities &&& Helper.supportedCapabilities ∧
          ∀ (session : PeerSession) (owner : Bytes),
            let began := (session.begin owner hello.nonce hello.capabilities).1
            ((began.acceptWelcome owner welcome).1.state = .ready ∧
              (began.acceptWelcome owner welcome).1.accepts owner = true) ∧
            ∀ (other : Bytes) (answer : Welcome), other ≠ owner ∨ answer.nonce ≠ hello.nonce →
              (began.acceptWelcome other answer).1 = began ∧ (began.acceptWelcome other answer).1.state = .negotiating) := by
  have hserialized : serialize ⟨protocolVersion, .hello hello⟩ = some (Payload.hello hello).frame :=
    serialize_payload trivial
  refine ⟨_, hserialized, ?_⟩
  rw [Helper.exchange_hello hsender hvalid]
  by_cases hrange : hello.minimumVersion ≤ protocolVersion ∧ protocolVersion ≤ hello.maximumVersion
  · rw [negotiate_eq_some hrange]
    have hresponse := Helper.response_welcome
      ⟨protocolVersion, hello.nonce, hello.capabilities &&& Helper.supportedCapabilities⟩
    have hbound := Helper.welcomePeer_fst calls sender helper
    have hwelcome : Welcome.Valid ⟨protocolVersion, hello.nonce, hello.capabilities &&& Helper.supportedCapabilities⟩ :=
      UInt16.le_refl 1
    have hparsed := parse_payload_frame (show (Payload.welcome _).Valid from hwelcome)
    refine ⟨iff_of_true ?_ hrange, fun houtside => absurd hrange houtside, fun _ => ?_⟩
    · simp only [Helper.answer]
      rw [hresponse]
      exact Helper.frame_ne_nil _
    · simp only [Helper.answer]
      rw [hresponse, hbound]
      refine ⟨rfl, ?_, ?_, ?_, _, hparsed, rfl, rfl, rfl, ?_⟩
      · by_cases howner : helper.session.peerOwner = sender <;> simp [Helper.boundTo, howner]
      · by_cases howner : helper.session.peerOwner = sender <;> simp [Helper.boundTo, howner]
      · by_cases howner : helper.session.peerOwner = sender <;> simp [Helper.boundTo, howner]
      · intro session owner
        obtain ⟨hready, hwaiting⟩ := acceptWelcome_begin session owner hello.nonce hello.capabilities
        refine ⟨(hready _ rfl rfl).2, fun other answer hother => ?_⟩
        rw [(hwaiting other answer hother).1]
        exact ⟨rfl, rfl⟩
  · rw [negotiate_eq_none_iff.mpr hrange]
    refine ⟨iff_of_false ?_ hrange, fun _ => ⟨rfl, rfl⟩, fun hresponse => absurd rfl hresponse⟩
    simp [Helper.ignore]

/-- A second peer's `Hello` to a helper that shows the first peer's palette. -/
theorem handshake_second_peer :
    ∃ frame, serialize ⟨protocolVersion, .hello ⟨1, 3, 8, 5⟩⟩ = some frame ∧
      (Helper.shownHelper.exchange Helper.switch frame [58, 50]).response ≠ [] := by
  obtain ⟨frame, hframe, hresponse, _⟩ :=
    handshake Helper.switch Helper.shownHelper [58, 50] ⟨1, 3, 8, 5⟩ (by decide) ⟨by decide, by decide⟩
  exact ⟨frame, hframe, hresponse.mpr ⟨by decide, by decide⟩⟩

end Ui

end EmojiPalette
