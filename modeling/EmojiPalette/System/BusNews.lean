import EmojiPalette.System.HelperRestarts
import EmojiPalette.System.Negotiations

/-!
# What is on the bus

The two queues by themselves: the calls and the replies in them, what a helper will hear that nobody has greeted, what a helper of a given name has said, and the news of those that are gone. A sender either still runs, with all news of earlier ends heard, or the news that it is gone comes behind what it has sent.
-/

namespace EmojiPalette

open Ipc Trace Addon Ui

namespace System

namespace BusMessage

/-- The helper that the message is from, or about. -/
def name : BusMessage → Bytes
  | .reply sender _ _ => sender
  | .signal sender _ => sender
  | .gained owner => owner
  | .lost owner => owner

def sender : BusMessage → Option Bytes
  | .reply sender _ _ => some sender
  | .signal sender _ => some sender
  | _ => none

def serial : BusMessage → Option Nat
  | .reply _ serial _ => some serial
  | _ => none

@[simp] theorem name_sentBy (helper : Bytes) (message : AddonMessage) : (sentBy helper message).name = helper := by
  cases message <;> rfl

@[simp] theorem sender_sentBy (helper : Bytes) (message : AddonMessage) : (sentBy helper message).sender = some helper := by
  cases message <;> rfl

theorem sentBy_ne_lost (helper owner : Bytes) (message : AddonMessage) : sentBy helper message ≠ .lost owner := by
  cases message <;> simp [sentBy]

def saidBy (name : Bytes) : BusMessage → Option AddonMessage
  | .reply sender serial frame => if sender = name then some (.reply serial frame) else none
  | .signal sender frame => if sender = name then some (.signal frame) else none
  | .gained _ | .lost _ => none

end BusMessage

/-! ### Frames and messages on their way -/

def callsIn (frames : List HelperFrame) : List Nat := frames.filterMap (·.serial)

def repliesIn (messages : List BusMessage) : List Nat := messages.filterMap BusMessage.serial

/-- What is heard by a helper that nobody has greeted. -/
def fromCall (frames : List HelperFrame) : List HelperFrame := frames.dropWhile fun arrived => arrived.serial.isNone

@[simp] theorem callsIn_append (frames more : List HelperFrame) : callsIn (frames ++ more) = callsIn frames ++ callsIn more :=
  List.filterMap_append

@[simp] theorem repliesIn_append (messages more : List BusMessage) :
    repliesIn (messages ++ more) = repliesIn messages ++ repliesIn more := List.filterMap_append

theorem repliesIn_sentBy (name : Bytes) (serials : List Nat) (frame : Bytes) :
    repliesIn ((serials.map fun serial => AddonMessage.reply serial frame).map (.sentBy name)) = serials := by
  induction serials with
  | nil => rfl
  | cons serial rest ih => exact congrArg (serial :: ·) ih

theorem repliesIn_signals (name : Bytes) (effects : List Effect) : repliesIn ((signals effects).map (.sentBy name)) = [] := by
  refine List.filterMap_eq_nil_iff.mpr fun message hmem => ?_
  obtain ⟨signal, hsignal, rfl⟩ := List.mem_map.mp hmem
  obtain ⟨frame, rfl⟩ := signal_of_mem hsignal
  rfl

theorem sublist_fromCall (frames : List HelperFrame) : (fromCall frames).Sublist frames := List.dropWhile_sublist _

theorem fromCall_cons_of_none {arrived : HelperFrame} (h : arrived.serial = none) (rest : List HelperFrame) :
    fromCall (arrived :: rest) = fromCall rest := by
  rw [fromCall, List.dropWhile_cons_of_pos (by rw [h]; rfl)]
  rfl

theorem fromCall_cons_of_some {arrived : HelperFrame} {serial : Nat} (h : arrived.serial = some serial)
    (rest : List HelperFrame) : fromCall (arrived :: rest) = arrived :: rest := by
  rw [fromCall, List.dropWhile_cons_of_neg (by rw [h]; simp)]

/-- More frames are heard, and without a call before them, those from their first call on. -/
theorem fromCall_append (frames more : List HelperFrame) :
    fromCall (frames ++ more) = fromCall frames ++ more ∨ fromCall (frames ++ more) = fromCall more := by
  induction frames with
  | nil => exact Or.inr rfl
  | cons arrived rest ih =>
      cases hserial : arrived.serial with
      | none =>
          rw [List.cons_append, fromCall_cons_of_none hserial, fromCall_cons_of_none hserial]
          exact ih
      | some serial =>
          rw [List.cons_append, fromCall_cons_of_some hserial, fromCall_cons_of_some hserial]
          exact Or.inl rfl

theorem fromCall_of_callsIn {frames : List HelperFrame} (h : callsIn frames = []) : fromCall frames = [] := by
  refine List.dropWhile_eq_nil_iff.mpr fun arrived hmem => ?_
  rw [List.filterMap_eq_nil_iff.mp h arrived hmem]
  rfl

theorem requests_sublist {frames more : List HelperFrame} (h : frames.Sublist more) (hnone : requests more = []) :
    requests frames = [] :=
  List.filterMap_eq_nil_iff.mpr fun arrived hmem => List.filterMap_eq_nil_iff.mp hnone arrived (h.subset hmem)

theorem requests_fromCall_append {frames more : List HelperFrame} (h : requests (fromCall frames) = [])
    (hmore : requests more = []) : requests (fromCall (frames ++ more)) = [] := by
  rcases fromCall_append frames more with hsame | hnew
  · rw [hsame, requests_append, h, hmore]
    rfl
  · rw [hnew]
    exact requests_sublist (sublist_fromCall more) hmore

theorem requests_fromCall_drop {first frames : List HelperFrame} (h : requests (fromCall (first ++ frames)) = []) :
    requests (fromCall frames) = [] := by
  rcases fromCall_append first frames with hsame | hnew
  · rw [hsame, requests_append] at h
    exact requests_sublist (sublist_fromCall frames) (List.append_eq_nil_iff.mp h).2
  · rwa [hnew] at h

/-- A helper that has not been greeted hears nothing before a call. -/
def heard (session : PaletteSession) (frames : List HelperFrame) : List HelperFrame :=
  if session.negotiated then frames else fromCall frames

theorem sublist_heard (session : PaletteSession) (frames : List HelperFrame) : (heard session frames).Sublist frames := by
  rw [heard]
  split
  · exact List.Sublist.refl frames
  · exact sublist_fromCall frames

/-- What the helper of this name has said. -/
def saidBy (name : Bytes) (messages : List BusMessage) : List AddonMessage := messages.filterMap (BusMessage.saidBy name)

@[simp] theorem saidBy_append (name : Bytes) (messages more : List BusMessage) :
    saidBy name (messages ++ more) = saidBy name messages ++ saidBy name more := List.filterMap_append

theorem saidBy_sentBy (name : Bytes) (sent : List AddonMessage) : saidBy name (sent.map (.sentBy name)) = sent := by
  have hone : BusMessage.saidBy name ∘ BusMessage.sentBy name = some := by
    funext message
    cases message <;> exact if_pos rfl
  rw [saidBy, List.filterMap_map, hone, List.filterMap_some]

/-! ### News -/

/-- The owner runs, and the bus has no news of an end any more; or the news of its end is on the way. -/
def Upheld (running : Option Bytes) (owner : Bytes) (messages : List BusMessage) : Prop :=
  (running = some owner ∧ ∀ other, .lost other ∉ messages) ∨ .lost owner ∈ messages

/-- What a helper has sent comes with the helper itself, or with the news of its end behind it. -/
def Sourced (running : Option Bytes) : List BusMessage → Prop
  | [] => True
  | message :: rest => (∀ sender ∈ message.sender, Upheld running sender rest) ∧ Sourced running rest

section

variable {running : Option Bytes} {owner name : Bytes} {messages more : List BusMessage}

theorem Upheld.append (h : Upheld running owner messages) (hmore : ∀ other, .lost other ∉ more) :
    Upheld running owner (messages ++ more) := by
  rcases h with ⟨hrunning, hheard⟩ | hlost
  · refine Or.inl ⟨hrunning, fun other hmem => ?_⟩
    exact (List.mem_append.mp hmem).elim (hheard other) (hmore other)
  · exact Or.inr (List.mem_append_left _ hlost)

/-- The helper starts that the bus has not been told of. -/
theorem Upheld.starts (h : Upheld none owner messages) (name : Bytes) :
    Upheld (some name) owner (messages ++ [.gained name]) := by
  rcases h with ⟨hnone, _⟩ | hlost
  · cases hnone
  · exact Or.inr (List.mem_append_left _ hlost)

theorem Upheld.ends (h : Upheld (some name) owner messages) : Upheld none owner (messages ++ [.lost name]) := by
  rcases h with ⟨hrunning, _⟩ | hlost
  · obtain rfl := Option.some.inj hrunning
    exact Or.inr (List.mem_append_right _ (List.mem_singleton_self _))
  · exact Or.inr (List.mem_append_left _ hlost)

theorem Upheld.tail {message : BusMessage} (h : Upheld running owner (message :: messages)) (hother : message ≠ .lost owner) :
    Upheld running owner messages := by
  rcases h with ⟨hrunning, hheard⟩ | hlost
  · exact Or.inl ⟨hrunning, fun other hmem => hheard other (List.mem_cons_of_mem _ hmem)⟩
  · rcases List.mem_cons.mp hlost with rfl | hrest
    · exact absurd rfl hother
    · exact Or.inr hrest

theorem Sourced.of_append (h : Sourced running (messages ++ more)) : Sourced running more := by
  induction messages with
  | nil => exact h
  | cons message rest ih => exact ih h.2

/-- What the running helper sends comes after everything else. -/
theorem Sourced.append_sentBy (h : Sourced (some name) messages) (sent : List AddonMessage) :
    Sourced (some name) (messages ++ sent.map (.sentBy name)) := by
  have hlost : ∀ later : List AddonMessage, ∀ other, .lost other ∉ later.map (BusMessage.sentBy name) := by
    intro later other hmem
    obtain ⟨message, _, hmessage⟩ := List.mem_map.mp hmem
    exact BusMessage.sentBy_ne_lost name other message hmessage
  induction messages with
  | nil =>
      induction sent with
      | nil => trivial
      | cons message rest ih =>
          refine ⟨fun sender hsender => Or.inl ⟨?_, hlost rest⟩, ih⟩
          rw [BusMessage.sender_sentBy] at hsender
          exact hsender.symm ▸ rfl
  | cons message rest ih => exact ⟨fun sender hsender => (h.1 sender hsender).append (hlost sent), ih h.2⟩

theorem Sourced.starts (h : Sourced none messages) (name : Bytes) : Sourced (some name) (messages ++ [.gained name]) := by
  induction messages with
  | nil => exact ⟨by simp [BusMessage.sender], trivial⟩
  | cons message rest ih => exact ⟨fun sender hsender => (h.1 sender hsender).starts name, ih h.2⟩

theorem Sourced.ends (h : Sourced (some name) messages) : Sourced none (messages ++ [.lost name]) := by
  induction messages with
  | nil => exact ⟨by simp [BusMessage.sender], trivial⟩
  | cons message rest ih => exact ⟨fun sender hsender => (h.1 sender hsender).ends, ih h.2⟩

end

/-- The news is on the way that the helper of the session is gone. -/
def lossIn (session : PeerSession) (messages : List BusMessage) : Bool :=
  messages.any fun message =>
    match message with
    | .lost owner => session.accepts owner
    | _ => false

theorem lossIn_iff {session : PeerSession} {messages : List BusMessage} :
    lossIn session messages = true ↔ ∃ owner, session.accepts owner = true ∧ .lost owner ∈ messages := by
  rw [lossIn, List.any_eq_true]
  constructor
  · intro h
    obtain ⟨message, hmem, hmessage⟩ := h
    cases message with
    | lost owner => exact ⟨owner, hmessage, hmem⟩
    | _ => cases hmessage
  · intro h
    obtain ⟨owner, haccepts, hmem⟩ := h
    exact ⟨.lost owner, hmem, haccepts⟩

theorem lossIn_append_sentBy (session : PeerSession) (messages : List BusMessage) (name : Bytes) (sent : List AddonMessage) :
    lossIn session (messages ++ sent.map (.sentBy name)) = lossIn session messages := by
  have hnone : lossIn session (sent.map (.sentBy name)) = false := by
    rw [lossIn, List.any_eq_false]
    intro message hmem
    obtain ⟨inner, _, rfl⟩ := List.mem_map.mp hmem
    cases inner <;> exact Bool.false_ne_true
  rw [lossIn, List.any_append]
  exact (congrArg _ hnone).trans (Bool.or_false _)

/-! ### Calls among the outputs -/

variable {κ : Type}

theorem callsIn_of_plain {outputs : List (Output κ)} (h : Plain outputs) : callsIn (helperFrames outputs) = [] := by
  refine List.filterMap_eq_nil_iff.mpr fun arrived hmem => ?_
  obtain ⟨output, houtput, hframe⟩ := List.mem_filterMap.mp hmem
  cases output with
  | sent frame =>
      cases hframe
      rfl
  | called serial frame => exact absurd houtput (h.called serial frame)
  | _ => cases hframe

theorem not_greeting_of_plain {outputs : List (Output κ)} (h : Plain outputs) :
    ∀ arrived ∈ helperFrames outputs, arrived.serial = none → ¬ Greeting arrived.frame := by
  intro arrived hmem _
  obtain ⟨output, houtput, hframe⟩ := List.mem_filterMap.mp hmem
  cases output with
  | sent frame =>
      cases hframe
      exact h.sent frame houtput
  | called serial frame => exact absurd houtput (h.called serial frame)
  | _ => cases hframe

section

variable {surroundings : Surroundings κ} {input : EmojiPaletteAddon.Input κ} {before : EmojiPaletteAddon κ}
  {ran : EmojiPaletteAddon κ × List (Output κ)}

/-- The addon waits for the call it has just issued, or for none that it has not waited for before. -/
theorem Greets.calls (h : Greets surroundings input before ran) :
    (callsIn (helperFrames ran.2) = [] ∧ ∀ call, ran.1.pendingCall = some call → before.pendingCall = some call) ∨
    (callsIn (helperFrames ran.2) = [surroundings.serial] ∧
      ∀ call, ran.1.pendingCall = some call → call.serial = surroundings.serial) := by
  cases h with
  | plain hplain hpeer hinput =>
      refine Or.inl ⟨callsIn_of_plain hplain, fun call hcall => ?_⟩
      rw [← hcall]
      exact (congrArg Prod.snd hpeer).symm
  | greets context transaction hready hsession hcall hframes =>
      refine Or.inr ⟨by rw [hframes]; rfl, fun call hsome => ?_⟩
      cases hcall.symm.trans hsome
      rfl
  | answered call sender answer hcall hinput hplain hnone hsession =>
      refine Or.inl ⟨callsIn_of_plain hplain, fun call hsome => ?_⟩
      cases hnone.symm.trans hsome
  | ownerChanged oldOwner newOwner hinput hplain hsession hcall =>
      refine Or.inl ⟨callsIn_of_plain hplain, fun call hsome => ?_⟩
      rw [hcall] at hsome
      split at hsome
      · cases hsome
      · exact hsome

theorem Greets.not_greeting (h : Greets surroundings input before ran) :
    ∀ arrived ∈ helperFrames ran.2, arrived.serial = none → ¬ Greeting arrived.frame := by
  cases h with
  | plain hplain => exact not_greeting_of_plain hplain
  | greets context transaction hready hsession hcall hframes =>
      intro arrived hmem hnone
      rw [hframes] at hmem
      rw [List.mem_singleton.mp hmem] at hnone
      cases hnone
  | answered _ _ _ _ _ hplain => exact not_greeting_of_plain hplain
  | ownerChanged _ _ _ hplain => exact not_greeting_of_plain hplain

/-- An addon that believes in a helper that is gone believes in it until it has the news. -/
theorem Greets.believes (h : Greets surroundings input before ran)
    (hcalled : before.session.state = .ready → before.pendingCall = none) {first messages : List BusMessage}
    (hloss : lossIn before.session (first ++ messages) = true)
    (hfirst : ∀ owner, .lost owner ∈ first → owner ≠ [] ∧ input = .ownerChanged owner [])
    (hready : ran.1.session.state = .ready) : lossIn ran.1.session messages = true := by
  obtain ⟨owner, haccepts, hlost⟩ := lossIn_iff.mp hloss
  have hbefore : before.session.state = .ready := by
    simp only [PeerSession.accepts, Bool.and_eq_true, decide_eq_true_eq] at haccepts
    exact haccepts.1
  cases h with
  | plain _ hpeer hinput =>
      have hsession : ran.1.session = before.session := congrArg Prod.fst hpeer
      refine lossIn_iff.mpr ⟨owner, hsession ▸ haccepts, (List.mem_append.mp hlost).resolve_left fun hmem => ?_⟩
      exact hinput owner [] (hfirst owner hmem).2
  | greets _ _ hunready => exact absurd hbefore hunready
  | answered _ _ _ hcall => cases (hcalled hbefore).symm.trans hcall
  | ownerChanged oldOwner newOwner hinput _ hsession =>
      rcases hsession with ⟨hsession, hother⟩ | hunready
      · refine lossIn_iff.mpr ⟨owner, hsession ▸ haccepts, (List.mem_append.mp hlost).resolve_left fun hmem => ?_⟩
        obtain ⟨hnonempty, hnews⟩ := hfirst owner hmem
        cases hnews.symm.trans hinput
        cases (hother hnonempty).symm.trans haccepts
      · exact absurd hready hunready

end

end System

end EmojiPalette
