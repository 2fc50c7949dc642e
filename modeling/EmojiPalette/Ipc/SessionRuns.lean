import EmojiPalette.Ipc.Session
import EmojiPalette.Library.Trace

/-!
# Runs of the addon's session

Which calls leave a session that accepts a sender. Only what follows the last `begin` counts, and there the session waits for its `Welcome`, is ready, or is done for until the next `begin`. Each of the three has its own answer, and a call leads from one to another. The generation counts the calls that start a session or end one, so two moments with the same generation have the same session between them.
-/

namespace EmojiPalette

namespace Ipc

open Trace

namespace PeerSession

inductive Call
  | begin (owner : Bytes) (nonce : UInt64) (capabilities : UInt32)
  | acceptWelcome (sender : Bytes) (welcome : Welcome)
  | ownerLost (owner : Bytes)
  | negotiationExpired

def Call.apply : Call → PeerSession → PeerSession
  | .begin owner nonce capabilities, session => (session.begin owner nonce capabilities).1
  | .acceptWelcome sender welcome, session => (session.acceptWelcome sender welcome).1
  | .ownerLost owner, session => session.ownerLost owner
  | .negotiationExpired, session => session.negotiationExpired

def runFrom (calls : List Call) (session : PeerSession) : PeerSession :=
  calls.foldl (fun session call => call.apply session) session

def run (calls : List Call) : PeerSession := runFrom calls .initial

def Call.IsBegin : Call → Prop
  | .begin _ _ _ => True
  | _ => False

/-- The `Welcome` of the owner that answers the nonce with the supported version. -/
def Call.Completes (owner : Bytes) (nonce : UInt64) : Call → Prop
  | .acceptWelcome sender welcome => sender = owner ∧ welcome.nonce = nonce ∧ welcome.selectedVersion = protocolVersion
  | _ => False

/-- What ends a negotiation without success. -/
def Call.Spoils (owner : Bytes) (nonce : UInt64) : Call → Prop
  | .acceptWelcome sender welcome => sender = owner ∧ welcome.nonce = nonce ∧ welcome.selectedVersion ≠ protocolVersion
  | .ownerLost lost => lost = owner
  | .negotiationExpired => True
  | .begin _ _ _ => False

/-- A negotiation that is completed before anything spoils it, with an owner that is not lost later. -/
def Completed (owner : Bytes) (nonce : UInt64) (calls : List Call) : Prop :=
  ∃ between call after, calls = between ++ call :: after ∧ call.Completes owner nonce ∧
    (∀ other ∈ between, ¬ other.Spoils owner nonce) ∧ .ownerLost owner ∉ after

/-- The last `begin` names the sender, and the negotiation is completed after it. -/
def Negotiated (sender : Bytes) (calls : List Call) : Prop :=
  ∃ nonce capabilities newer, Since Call.IsBegin calls (.begin sender nonce capabilities) newer ∧
    Completed sender nonce newer

/-! ### From one `begin` to the next -/

theorem runFrom_cons (call : Call) (calls : List Call) (session : PeerSession) :
    runFrom (call :: calls) session = runFrom calls (call.apply session) := rfl

theorem runFrom_append (calls more : List Call) (session : PeerSession) :
    runFrom (calls ++ more) session = runFrom more (runFrom calls session) := List.foldl_append

theorem completed_cons_iff {owner : Bytes} {nonce : UInt64} {call : Call} {calls : List Call} :
    Completed owner nonce (call :: calls) ↔ (call.Completes owner nonce ∧ .ownerLost owner ∉ calls) ∨
      (¬ call.Spoils owner nonce ∧ Completed owner nonce calls) := by
  constructor
  · intro h
    obtain ⟨between, completing, after, heq, hcompletes, hbetween, hkept⟩ := h
    cases between with
    | nil =>
        obtain ⟨rfl, rfl⟩ := List.cons.inj heq
        exact Or.inl ⟨hcompletes, hkept⟩
    | cons first rest =>
        obtain ⟨rfl, rfl⟩ := List.cons.inj heq
        refine Or.inr ⟨hbetween call List.mem_cons_self, rest, completing, after, rfl, hcompletes, ?_, hkept⟩
        exact fun other hother => hbetween other (List.mem_cons_of_mem call hother)
  · intro h
    rcases h with ⟨hcompletes, hkept⟩ | ⟨hunspoilt, between, completing, after, rfl, hcompletes, hbetween, hkept⟩
    · exact ⟨[], call, calls, rfl, hcompletes, by simp, hkept⟩
    · refine ⟨call :: between, completing, after, rfl, hcompletes, fun other hother => ?_, hkept⟩
      rcases List.mem_cons.mp hother with rfl | hrest
      · exact hunspoilt
      · exact hbetween other hrest

/-- A completed negotiation has an owner that is never lost once the negotiation cannot be spoilt any more. -/
theorem Completed.kept {owner : Bytes} {nonce : UInt64} {calls : List Call} (h : Completed owner nonce calls) :
    .ownerLost owner ∉ calls := by
  obtain ⟨between, call, after, rfl, hcompletes, hbetween, hkept⟩ := h
  intro hlost
  rcases List.mem_append.mp hlost with hlost | hlost
  · exact hbetween _ hlost rfl
  · rcases List.mem_cons.mp hlost with rfl | hlost
    · exact hcompletes
    · exact hkept hlost

/-- A session that is neither ready nor negotiating stays so until the next `begin`. -/
theorem not_accepts_of_done {session : PeerSession} {calls : List Call} (hcalls : ∀ call ∈ calls, ¬ call.IsBegin)
    (hstate : session.state = .disconnected ∨ session.state = .incompatible) (sender : Bytes) :
    (runFrom calls session).accepts sender = false := by
  induction calls generalizing session with
  | nil => rcases hstate with h | h <;> simp [runFrom, accepts, h]
  | cons call rest ih =>
      have hnegotiating : session.state ≠ .negotiating := by rcases hstate with h | h <;> simp [h]
      rw [runFrom_cons]
      apply ih fun other hother => hcalls other (List.mem_cons_of_mem call hother)
      cases call with
      | begin owner nonce capabilities => exact absurd trivial (hcalls _ List.mem_cons_self)
      | acceptWelcome other welcome => simpa [Call.apply, acceptWelcome, hnegotiating] using hstate
      | ownerLost owner =>
          rw [Call.apply, ownerLost]
          split
          · exact hstate
          · exact Or.inl rfl
      | negotiationExpired => simpa [Call.apply, negotiationExpired, hnegotiating] using hstate

/-- A ready session is lost with its owner only. -/
theorem accepts_of_ready_iff {session : PeerSession} {calls : List Call} (hcalls : ∀ call ∈ calls, ¬ call.IsBegin)
    (hstate : session.state = .ready) (sender : Bytes) :
    (runFrom calls session).accepts sender = true ↔ sender = session.owner ∧ .ownerLost session.owner ∉ calls := by
  induction calls generalizing session with
  | nil =>
      have haccepts : session.accepts sender = true ↔ sender = session.owner := by
        rw [accepts, hstate, Bool.and_eq_true, decide_eq_true_iff, decide_eq_true_iff]
        exact and_iff_right rfl
      simpa [runFrom] using haccepts
  | cons call rest ih =>
      obtain ⟨hcall, hrest⟩ := List.forall_mem_cons.mp hcalls
      rw [runFrom_cons, List.mem_cons, not_or]
      cases call with
      | begin owner nonce capabilities => exact absurd trivial hcall
      | acceptWelcome other welcome =>
          have hsame : Call.apply (.acceptWelcome other welcome) session = session := by
            simp [Call.apply, acceptWelcome, hstate]
          rw [hsame, ih hrest hstate]
          simp
      | ownerLost owner =>
          rw [Call.apply, ownerLost]
          by_cases howner : owner = session.owner
          · rw [if_neg (not_not.mpr howner), not_accepts_of_done hrest (Or.inl rfl) sender]
            simp [howner]
          · rw [if_pos howner, ih hrest hstate]
            simp [Ne.symm howner]
      | negotiationExpired =>
          have hsame : Call.apply .negotiationExpired session = session := by
            simp [Call.apply, negotiationExpired, hstate]
          rw [hsame, ih hrest hstate]
          simp

/-- A negotiating session accepts its owner once the negotiation is completed. -/
theorem accepts_of_negotiating_iff {session : PeerSession} {calls : List Call}
    (hcalls : ∀ call ∈ calls, ¬ call.IsBegin) (hstate : session.state = .negotiating) (sender : Bytes) :
    (runFrom calls session).accepts sender = true ↔
      sender = session.owner ∧ Completed session.owner session.nonce calls := by
  induction calls generalizing session with
  | nil => simp [runFrom, accepts, hstate, Completed]
  | cons call rest ih =>
      obtain ⟨hcall, hrest⟩ := List.forall_mem_cons.mp hcalls
      rw [runFrom_cons, completed_cons_iff]
      cases call with
      | begin owner nonce capabilities => exact absurd trivial hcall
      | acceptWelcome other welcome =>
          by_cases hanswers : other = session.owner ∧ welcome.nonce = session.nonce
          · obtain ⟨rfl, hnonce⟩ := hanswers
            by_cases hversion : welcome.selectedVersion = protocolVersion
            · have hready : Call.apply (.acceptWelcome session.owner welcome) session =
                  { session with state := .ready, version := some welcome.selectedVersion } := by
                simp [Call.apply, acceptWelcome, hstate, hnonce, hversion]
              rw [hready, accepts_of_ready_iff hrest rfl]
              have hunspoilt : ¬ Call.Spoils session.owner session.nonce (.acceptWelcome session.owner welcome) :=
                fun h => h.2.2 hversion
              have hcompletes : Call.Completes session.owner session.nonce (.acceptWelcome session.owner welcome) :=
                ⟨rfl, hnonce, hversion⟩
              refine and_congr_right fun _ => ⟨fun h => Or.inl ⟨hcompletes, h⟩, fun h => ?_⟩
              rcases h with ⟨_, hkept⟩ | ⟨_, hcompleted⟩
              · exact hkept
              · exact hcompleted.kept
            · have hstopped : Call.apply (.acceptWelcome session.owner welcome) session =
                  { session with state := .incompatible, version := none } := by
                simp [Call.apply, acceptWelcome, hstate, hnonce, hversion]
              rw [hstopped, not_accepts_of_done hrest (Or.inr rfl) sender]
              simp [Call.Completes, Call.Spoils, hnonce, hversion]
          · have hsame : Call.apply (.acceptWelcome other welcome) session = session := by
              rw [Call.apply, acceptWelcome, if_pos]
              simp only [not_and_or] at hanswers
              simpa [hstate] using hanswers
            rw [hsame, ih hrest hstate]
            refine and_congr_right fun _ => ⟨fun h => Or.inr ⟨fun hspoils => ?_, h⟩, fun h => ?_⟩
            · exact hanswers ⟨hspoils.1, hspoils.2.1⟩
            · rcases h with ⟨hcompletes, _⟩ | ⟨_, hcompleted⟩
              · exact absurd ⟨hcompletes.1, hcompletes.2.1⟩ hanswers
              · exact hcompleted
      | ownerLost owner =>
          rw [Call.apply, ownerLost]
          by_cases howner : owner = session.owner
          · rw [if_neg (not_not.mpr howner), not_accepts_of_done hrest (Or.inl rfl) sender]
            simp [Call.Completes, Call.Spoils, howner]
          · rw [if_pos howner, ih hrest hstate]
            simp [Call.Completes, Call.Spoils, howner]
      | negotiationExpired =>
          have hended : Call.apply .negotiationExpired session = session.disconnect := by
            simp [Call.apply, negotiationExpired, hstate]
          rw [hended, not_accepts_of_done hrest (Or.inl rfl) sender]
          simp [Call.Completes, Call.Spoils]

/-! ### Whole runs -/

theorem accepts_run_iff (calls : List Call) (sender : Bytes) :
    (run calls).accepts sender = true ↔ Negotiated sender calls := by
  have hbegun : ∀ {owner nonce capabilities newer},
      Since Call.IsBegin calls (.begin owner nonce capabilities) newer →
        ((run calls).accepts sender = true ↔ sender = owner ∧ Completed owner nonce newer) := by
    intro owner nonce capabilities newer hsince
    obtain ⟨older, rfl, hnewer⟩ := hsince
    rw [run, runFrom_append, runFrom_cons]
    exact accepts_of_negotiating_iff hnewer rfl sender
  constructor
  · intro h
    rcases exists_since_or Call.IsBegin calls with hnone | ⟨first, newer, hfirst, hsince⟩
    · rw [run, not_accepts_of_done hnone (Or.inl rfl) sender] at h
      cases h
    · cases first with
      | begin owner nonce capabilities =>
          obtain ⟨rfl, hcompleted⟩ := (hbegun hsince).mp h
          exact ⟨nonce, capabilities, newer, hsince, hcompleted⟩
      | _ => exact absurd hfirst id
  · intro h
    obtain ⟨nonce, capabilities, newer, hsince, hcompleted⟩ := h
    exact (hbegun hsince).mpr ⟨rfl, hcompleted⟩

/-! ### The negotiated version -/

theorem isSome_version_apply {call : Call} {session : PeerSession}
    (h : session.version.isSome ↔ session.state = .ready) :
    (call.apply session).version.isSome ↔ (call.apply session).state = .ready := by
  cases call with
  | begin owner nonce capabilities => simp [Call.apply, begin]
  | acceptWelcome sender welcome =>
      rw [Call.apply, acceptWelcome]
      split
      · exact h
      · split <;> simp
  | ownerLost owner =>
      rw [Call.apply, ownerLost]
      split
      · exact h
      · simp [disconnect]
  | negotiationExpired =>
      rw [Call.apply, negotiationExpired]
      split
      · exact h
      · simp [disconnect]

theorem isSome_version_runFrom {calls : List Call} {session : PeerSession}
    (h : session.version.isSome ↔ session.state = .ready) :
    (runFrom calls session).version.isSome ↔ (runFrom calls session).state = .ready := by
  induction calls generalizing session with
  | nil => exact h
  | cons call rest ih =>
      rw [runFrom_cons]
      exact ih (isSome_version_apply h)

/-! ### Generations -/

/-- The calls that start a session or end one. -/
def Call.Renews (session : PeerSession) : Call → Prop
  | .begin _ _ _ => True
  | .acceptWelcome _ _ => False
  | .ownerLost owner => owner = session.owner
  | .negotiationExpired => session.state = .negotiating

theorem generation_of_renews {call : Call} {session : PeerSession} (h : call.Renews session) :
    (call.apply session).generation = session.generation + 1 := by
  cases call with
  | begin owner nonce capabilities => rfl
  | acceptWelcome sender welcome => exact absurd h id
  | ownerLost owner =>
      have howner : owner = session.owner := h
      rw [Call.apply, ownerLost, if_neg (not_not.mpr howner)]
      rfl
  | negotiationExpired =>
      have hstate : session.state = .negotiating := h
      rw [Call.apply, negotiationExpired, if_neg (not_not.mpr hstate)]
      rfl

theorem generation_of_not_renews {call : Call} {session : PeerSession} (h : ¬ call.Renews session) :
    (call.apply session).generation = session.generation := by
  cases call with
  | begin owner nonce capabilities => exact absurd trivial h
  | acceptWelcome sender welcome =>
      rw [Call.apply, acceptWelcome]
      split
      · rfl
      · split <;> rfl
  | ownerLost owner =>
      have howner : owner ≠ session.owner := h
      rw [Call.apply, ownerLost, if_pos howner]
  | negotiationExpired =>
      have hstate : session.state ≠ .negotiating := h
      rw [Call.apply, negotiationExpired, if_pos hstate]

/-- The generation counts, so it cannot come back to an earlier value in fewer than `2 ^ 64` calls. -/
theorem generation_runFrom (calls : List Call) (session : PeerSession)
    (h : session.generation.toNat + calls.length < 2 ^ 64) :
    session.generation.toNat ≤ (runFrom calls session).generation.toNat ∧
      (runFrom calls session).generation.toNat ≤ session.generation.toNat + calls.length := by
  induction calls generalizing session with
  | nil => exact ⟨le_refl _, le_refl _⟩
  | cons call rest ih =>
      rw [List.length_cons] at h ⊢
      rw [runFrom_cons]
      by_cases hrenews : call.Renews session
      · have hnext : (call.apply session).generation.toNat = session.generation.toNat + 1 := by
          rw [generation_of_renews hrenews, UInt64.toNat_add]
          exact Nat.mod_eq_of_lt (by simp only [UInt64.toNat_one]; omega)
        have hrest := ih (call.apply session) (by omega)
        omega
      · have hnext := generation_of_not_renews hrenews
        have hrest := ih (call.apply session) (by rw [hnext]; omega)
        rw [hnext] at hrest
        omega

theorem generation_run_le (calls : List Call) (h : calls.length < 2 ^ 64) :
    (run calls).generation.toNat ≤ calls.length := by
  have hbounds := generation_runFrom calls .initial (by simpa [initial] using h)
  simpa [run, initial] using hbounds.2

theorem run_append (calls more : List Call) : run (calls ++ more) = runFrom more (run calls) :=
  runFrom_append calls more .initial

theorem generation_run_lt {before after : List Call} {call : Call} (h : (before ++ call :: after).length < 2 ^ 64)
    (hrenews : call.Renews (run before)) : (run before).generation < (run (before ++ call :: after)).generation := by
  rw [List.length_append, List.length_cons] at h
  have hbefore := generation_run_le before (by omega)
  have hnext : (call.apply (run before)).generation.toNat = (run before).generation.toNat + 1 := by
    rw [generation_of_renews hrenews, UInt64.toNat_add]
    exact Nat.mod_eq_of_lt (by simp only [UInt64.toNat_one]; omega)
  have hafter := generation_runFrom after (call.apply (run before)) (by omega)
  rw [run_append, runFrom_cons, UInt64.lt_iff_toNat_lt]
  omega

/-- The whole meaning of a session: whom it accepts, when it has a version, and what its generation tells apart. -/
theorem accepts_iff_and_generations (calls : List Call) :
    (∀ sender, (run calls).accepts sender = true ↔ Negotiated sender calls) ∧
      ((run calls).version.isSome ↔ (run calls).state = .ready) ∧
      (calls.length < 2 ^ 64 →
        (∀ before call after, calls = before ++ call :: after → call.Renews (run before) →
          (run before).generation < (run (before ++ [call])).generation) ∧
        ∀ before between after, calls = before ++ between ++ after →
          (run before).generation = (run (before ++ between)).generation →
            ∀ first call rest, between = first ++ call :: rest → ¬ call.Renews (run (before ++ first))) := by
  refine ⟨accepts_run_iff calls, isSome_version_runFrom (by simp [initial]), fun hshort => ⟨?_, ?_⟩⟩
  · intro before call after heq hrenews
    rw [heq, List.length_append, List.length_cons] at hshort
    apply generation_run_lt ?_ hrenews
    simp only [List.length_append, List.length_cons, List.length_nil]
    omega
  · intro before between after heq hgeneration first call rest hbetween hrenews
    rw [heq, hbetween] at hshort
    simp only [List.length_append, List.length_cons] at hshort
    have hfirst := generation_run_le before (by omega)
    have hsame : (run before).generation.toNat ≤ (run (before ++ first)).generation.toNat := by
      rw [run_append]
      exact (generation_runFrom first (run before) (by omega)).1
    have hlater : (run (before ++ first)).generation < (run (before ++ first ++ call :: rest)).generation := by
      apply generation_run_lt ?_ hrenews
      simp only [List.length_append, List.length_cons]
      omega
    rw [hgeneration, hbetween, ← List.append_assoc] at hsame
    rw [UInt64.lt_iff_toNat_lt] at hlater
    omega

end PeerSession

end Ipc

end EmojiPalette
