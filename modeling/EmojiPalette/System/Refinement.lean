import EmojiPalette.System.AddonSide
import EmojiPalette.System.HelperSide

/-!
# Every step is one of the handover

The invariant of the two parties, and that every event which keeps the promises of the bus is a step of the handover. The session that is ready is the helper's, and the helper's is bound to the addon from its `Welcome` on; what is on its way to the addon is what the helper means to say.
-/

namespace EmojiPalette

open Ipc Trace Addon Ui Handover

namespace System

variable {κ : Type} {setup : Setup} {system : PaletteSystem κ} {surroundings : Surroundings κ}

/-! ### The invariant -/

/-- The frames the helper sends: a choice from the catalog, or a cancel. -/
inductive Meant (catalog : EmojiCatalog) : Bytes → Prop
  | selected (value : Selected) (hvalid : value.Valid) (hcatalog : catalog.contains value.sequence = true) :
      Meant catalog (Payload.selected value).frame
  | cancelled (value : Cancelled) (hvalid : value.transaction.Valid) : Meant catalog (Payload.cancelled value).frame

/-- The session of the addon, once it is ready, is the helper's, and it waits for no call. -/
def Peered (name : Bytes) (addon : EmojiPaletteAddon κ) : Prop :=
  addon.session.state = .ready → addon.session.accepts name = true ∧ addon.pendingCall = none

/-- The helper has agreed: the addon knows it, or will when it is told. -/
def Agreeing (system : PaletteSystem κ) : Prop :=
  system.addon.session.state = .ready ∨
    ∃ serial frame welcome, .reply serial frame ∈ system.toAddon ∧ payloadOf frame = some (.welcome welcome)

structure Inv (setup : Setup) (system : PaletteSystem κ) : Prop where
  addon : system.addon.WellFormed
  peered : Peered setup.helperName system.addon
  helper : Sound setup.installation.catalog system.helper
  bound : Agreeing system → Bound setup.addonName system.helper.session
  meant : ∀ frame, .signal frame ∈ system.toAddon → Meant setup.installation.catalog frame
  silent : Silent (handover system)
  issued : ∀ transaction, transaction ∈ (handover system).live ∨
    system.addon.controller.transaction = some transaction → transaction ∈ system.issued

theorem Peered.of_stays {name : Bytes} {before after : EmojiPaletteAddon κ} (h : Peered name before)
    (hstays : Stays before after) : Peered name after := by
  intro hready
  rw [hstays.1] at hready ⊢
  obtain ⟨haccepts, hnone⟩ := h hready
  exact ⟨haccepts, (hstays.2 hready).trans hnone⟩

theorem Inv.display_of_not_bound (h : Inv setup system) (hunbound : ¬ Bound setup.addonName system.helper.session) :
    display system.helper = .hidden := by
  by_contra hdisplay
  exact hunbound (h.bound (Or.inl (connected_eq_true_iff.mp (h.silent.connected_of_display hdisplay))))

theorem fresh_of_issued (h : Inv setup system) (hfresh : surroundings.transaction ∉ system.issued) :
    surroundings.transaction ∉ (handover system).live := fun hlive => hfresh (h.issued _ (Or.inl hlive))

/-! ### The addon's events -/

section

variable [DecidableEq κ]

/-- A handler that says nothing. -/
theorem step_of_silence {input : EmojiPaletteAddon.Input κ}
    (hsaid : said (EmojiPaletteAddon.step setup.installation surroundings input system.addon) = (asked system.addon, []))
    (hstays : Stays system.addon (EmojiPaletteAddon.step setup.installation surroundings input system.addon).1) :
    Step (handover system) (handover (system.runAddon setup surroundings input)) := by
  rw [handover_runAddon]
  dsimp only
  rw [hsaid, hstays.connected, List.append_nil]
  exact Step.idle _

theorem step_key (h : Inv setup system) (hlossless : Lossless system.issued surroundings) (event : KeyEvent κ) :
    Step (handover system) (handover (system.runAddon setup surroundings (.key event))) := by
  have hstays := stays_keyEvent setup.installation surroundings event system.addon
  rcases said_keyEvent setup.installation hlossless.sends hlossless.callIssued h.addon event with
    hsaid | ⟨hnone, ask, hid, hsaid⟩
  · exact step_of_silence hsaid hstays
  rw [handover_runAddon]
  dsimp only [EmojiPaletteAddon.step]
  rw [hsaid, hstays.connected]
  by_cases hconnected : connected system.addon = true
  · rw [if_pos hconnected]
    exact Step.ask ask hnone hconnected (hid ▸ fresh_of_issued h hlossless.fresh)
  · rw [if_neg hconnected, List.append_nil]
    exact Step.wait ask hnone (Bool.not_eq_true _ ▸ hconnected)

theorem step_contextEvent (h : Inv setup system) (hlossless : Lossless system.issued surroundings) (context : κ)
    (event : ContextEvent) :
    Step (handover system) (handover (system.runAddon setup surroundings (.contextEvent context event))) := by
  have hstays := stays_contextEvent surroundings context event system.addon
  rcases said_contextEvent hlossless.sends h.addon context event with hsaid | ⟨_, ask, hasked, hsaid⟩
  · exact step_of_silence hsaid hstays
  rw [handover_runAddon]
  dsimp only [EmojiPaletteAddon.step]
  rw [hsaid, hstays.connected]
  by_cases hconnected : connected system.addon = true
  · rw [if_pos hconnected]
    exact Step.giveUp hasked hconnected
  · rw [if_neg hconnected, List.append_nil]
    exact Step.forget hasked (Bool.not_eq_true _ ▸ hconnected)

theorem step_reply (haddon : system.addon.WellFormed) (hpeered : Peered setup.helperName system.addon)
    (hlossless : Lossless system.issued surroundings) (serial : Nat) (sender : Bytes) (answer : Reply) :
    Step (handover system) (handover (system.runAddon setup surroundings (.reply serial sender answer))) := by
  rcases said_reply hlossless.sends haddon (fun hready => (hpeered hready).2) serial sender answer with
    ⟨hsaid, hstays⟩ | ⟨ask, hasked, hconnected, hnegotiated⟩
  · exact step_of_silence hsaid hstays
  rw [handover_runAddon]
  dsimp only [EmojiPaletteAddon.step]
  cases hnegotiated with
  | failed hsaid hafter =>
      rw [hsaid, hafter, ← hconnected, List.append_nil]
      exact Step.forget hasked hconnected
  | welcomed requests _ _ haccepts _ hsaid =>
      have hafter : connected (EmojiPaletteAddon.reply surroundings serial sender answer system.addon).1 = true := by
        simp only [PeerSession.accepts, Bool.and_eq_true, decide_eq_true_eq] at haccepts
        exact connected_eq_true_iff.mpr haccepts.1
      rw [hafter]
      rcases hsaid with hsaid | ⟨hsaid, hrequests⟩
      · rw [hsaid]
        dsimp only
        rw [← hasked]
        exact Step.connect hasked hconnected
      · rw [hsaid]
        exact Step.connectLost hasked hconnected hrequests

/-- A frame of the helper is an answer to what is asked for, or to something else. -/
theorem step_frame (h : Inv setup system) (hlossless : Lossless system.issued surroundings) {frame : Bytes}
    {rest : List AddonMessage} (hmessages : system.toAddon = .signal frame :: rest) :
    Step (handover system) (handover (PaletteSystem.runAddon setup surroundings (.frame setup.helperName (some frame))
      { system with toAddon := rest })) := by
  have hmeant := h.meant frame (hmessages ▸ List.mem_cons_self)
  have hfresh := fresh_of_issued h hlossless.fresh
  have hstays := stays_receiveFrame setup.installation.catalog surroundings setup.helperName (some frame) system.addon
  have haccepts : ∀ answer, answer ∈ (handover system).answers → system.addon.session.accepts setup.helperName = true := by
    intro answer hanswer
    exact (h.peered (connected_eq_true_iff.mp (h.silent.connected_of_answer hanswer))).1
  rw [handover_runAddon]
  dsimp only [EmojiPaletteAddon.step]
  rw [hstays.connected]
  cases hmeant with
  | selected value hvalid hcatalog =>
      have hanswers : (handover system).answers = .chosen value.transaction :: answers rest := by
        rw [handover, hmessages]
        exact answers_signal (.selected value) hvalid rest
      rw [receiveFrame_of_accepts (haccepts _ (hanswers ▸ List.mem_cons_self)) (.selected value) hvalid]
      by_cases hsame : system.addon.controller.transaction = some value.transaction
      · have hasked := asked_of_transaction hsame
        rcases said_receiveSelected setup.installation.catalog hlossless.sends h.addon hsame with hsaid | ⟨hsaid, _⟩
        · rw [hsaid]
          exact Step.again _ hanswers hasked rfl hfresh
        · rw [hsaid, List.append_nil]
          exact Step.finish hanswers hasked rfl
      · rw [said_receiveSelected_of_ne setup.installation.catalog hsame, List.append_nil]
        refine Step.ignore hanswers fun ask hasked hid => hsame ?_
        rw [(transaction_of_asked hasked).1, hid]
        rfl
  | cancelled value hvalid =>
      have hanswers : (handover system).answers = .cancelled value.transaction :: answers rest := by
        rw [handover, hmessages]
        exact answers_signal (.cancelled value) hvalid rest
      rw [receiveFrame_of_accepts (haccepts _ (hanswers ▸ List.mem_cons_self)) (.cancelled value) hvalid,
        said_receiveCancelled hlossless.sends h.addon]
      by_cases hsame : system.addon.controller.transaction = some value.transaction
      · rw [if_pos hsame, List.append_nil]
        exact Step.finish hanswers (asked_of_transaction hsame) rfl
      · rw [if_neg hsame, List.append_nil]
        refine Step.ignore hanswers fun ask hasked hid => hsame ?_
        rw [(transaction_of_asked hasked).1, hid]
        rfl

end

/-! ### The helper's events -/

theorem step_of_acted {catalog : EmojiCatalog} {chooses : Prop} {s : State TransactionId} {after : Display TransactionId}
    {messages : List AddonMessage} (h : Acted catalog chooses s.display after messages) :
    Step s { s with display := after, answers := s.answers ++ answers messages } := by
  cases h with
  | nothing hafter =>
      rw [hafter, answers_nil, List.append_nil]
      exact Step.idle s
  | chose ask sequence _ hbefore hafter hvalid _ =>
      rw [hafter, answers_signal (.selected ⟨ask.id, sequence⟩) hvalid]
      exact Step.choose hbefore
  | cancelled ask reason hbefore hafter hvalid =>
      rw [hafter, answers_signal (.cancelled ⟨ask.id, reason⟩) hvalid]
      exact Step.cancel hbefore
  | closed hbefore hafter =>
      rw [hafter, answers_nil, List.append_nil]
      exact Step.close hbefore

theorem step_pointer (h : Inv setup system) (desktop : Desktop) (event : PaletteWindow.PointerEvent) :
    Step (handover system) (handover (system.point setup desktop event)) := by
  unfold PaletteSystem.point
  split
  · have hacted := (acted_runWindow h.helper (PaletteWindow.does_pointer desktop event system.helper.window)).1
    have hstep := step_of_acted (s := handover system) hacted
    simpa only [handover, answers_append] using hstep
  · exact Step.idle _

/-- The helper receives a request, or its window acts. -/
theorem Inv.exchanged (h : Inv setup system) (desktop : Desktop) {arrived : HelperFrame} {rest : List HelperFrame}
    (hframes : system.toHelper = arrived :: rest) :
    let exchanged := Helper.exchange (PaletteWindow.calls setup.helperInstallation desktop) arrived.frame setup.addonName
      system.helper
    (∃ asks, (handover system).requests = asks :: requests rest ∧
      display exchanged.helper = (display system.helper).receive asks ∧ signals exchanged.effects = []) ∨
    ((handover system).requests = requests rest ∧
      Acted setup.installation.catalog (CommandChooses setup desktop arrived.frame system.helper)
        (display system.helper) (display exchanged.helper) (signals exchanged.effects)) := by
  have hexchanged := exchanged_exchange (PaletteWindow.calls setup.helperInstallation desktop) setup.addonName_ne_nil
    arrived.frame system.helper
  have hrequests : (handover system).requests = ((payloadOf arrived.frame).bind request).toList ++ requests rest := by
    rw [handover, hframes]
    exact requests_cons arrived rest
  cases hframe : (payloadOf arrived.frame).bind request with
  | some asks =>
      obtain ⟨payload, hpayload, hasks⟩ := Option.bind_eq_some_iff.mp hframe
      rw [hframe] at hrequests
      have hmem : asks ∈ (handover system).requests := by
        rw [hrequests]
        exact List.mem_cons_self
      have hbound := h.bound (Or.inl (connected_eq_true_iff.mp (h.silent.connected_of_request hmem)))
      exact Or.inl ⟨asks, hrequests, hexchanged.received hbound hpayload hasks⟩
  | none =>
      have hother : ∀ payload, payloadOf arrived.frame = some payload → request payload = none := by
        intro payload hpayload
        rwa [hpayload] at hframe
      rw [hframe] at hrequests
      exact Or.inr ⟨hrequests, hexchanged.acted h.helper h.display_of_not_bound hother⟩

theorem step_toHelper (h : Inv setup system) (desktop : Desktop) :
    Step (handover system) (handover (system.deliverToHelper setup desktop)) := by
  unfold PaletteSystem.deliverToHelper
  cases hframes : system.toHelper with
  | nil => exact Step.idle _
  | cons arrived rest =>
      have hcases := h.exchanged desktop hframes
      dsimp only at hcases ⊢
      generalize Helper.exchange (PaletteWindow.calls setup.helperInstallation desktop) arrived.frame setup.addonName
        system.helper = exchanged at hcases
      have hafter : handover { system with
          helper := exchanged.helper
          toHelper := rest
          toAddon := system.toAddon ++ (signals exchanged.effects ++
            arrived.serial.toList.map fun serial => .reply serial exchanged.response) } =
          { handover system with
            display := display exchanged.helper
            requests := requests rest
            answers := (handover system).answers ++ answers (signals exchanged.effects) } := by
        simp [handover, answers_replies]
      rw [hafter]
      rcases hcases with ⟨asks, hrequests, hdisplay, hnone⟩ | ⟨hrequests, hacted⟩
      · rw [hdisplay, hnone, answers_nil, List.append_nil]
        exact Step.receive hrequests
      · rw [← hrequests]
        exact step_of_acted hacted

/-! ### The invariant is kept -/

theorem Inv.next (h : Inv setup system) {after : PaletteSystem κ} (hstep : Step (handover system) (handover after))
    (haddon : after.addon.WellFormed) (hpeered : Peered setup.helperName after.addon)
    (hhelper : Sound setup.installation.catalog after.helper)
    (hbound : Agreeing after → Bound setup.addonName after.helper.session)
    (hmeant : ∀ frame, .signal frame ∈ after.toAddon → Meant setup.installation.catalog frame)
    (hissued : ∀ transaction, transaction ∈ system.issued ∨ after.addon.controller.transaction = some transaction →
      transaction ∈ after.issued) : Inv setup after := by
  refine ⟨haddon, hpeered, hhelper, hbound, hmeant, h.silent.step hstep, fun transaction htransaction => ?_⟩
  rcases htransaction with hlive | hactive
  · rcases hstep.mem_live hlive with hbefore | ⟨ask, hasked, rfl⟩
    · exact hissued _ (Or.inl (h.issued _ (Or.inl hbefore)))
    · exact hissued _ (Or.inr (transaction_of_asked hasked).1)
  · exact hissued _ (Or.inr hactive)

/-- The session becomes ready by the helper's `Welcome` only. -/
theorem peered_reply (haddon : system.addon.WellFormed) (hpeered : Peered setup.helperName system.addon)
    (hsends : ∀ frame, surroundings.sends frame = true) (serial : Nat) (sender : Bytes) (answer : Reply)
    (hsender : ∀ frame, answer = .message frame → sender = setup.helperName) :
    let after := (EmojiPaletteAddon.reply surroundings serial sender answer system.addon).1
    Peered setup.helperName after ∧ (after.session.state = .ready → system.addon.session.state = .ready ∨
      ∃ frame welcome, answer = .message (some frame) ∧ payloadOf frame = some (.welcome welcome)) := by
  rcases said_reply hsends haddon (fun hready => (hpeered hready).2) serial sender answer with
    ⟨_, hstays⟩ | ⟨ask, _, _, hnegotiated⟩
  · refine ⟨hpeered.of_stays hstays, fun hready => Or.inl ?_⟩
    rwa [hstays.1] at hready
  · cases hnegotiated with
    | failed _ hafter =>
        have hready := of_decide_eq_false hafter
        exact ⟨fun h => absurd h hready, fun h => absurd h hready⟩
    | welcomed _ hanswer hframe haccepts hcall _ =>
        rw [hsender _ hanswer] at haccepts hcall ⊢
        exact ⟨fun _ => ⟨haccepts, hcall⟩, fun _ => Or.inr ⟨_, _, hanswer, hframe⟩⟩

/-- A message the helper may have sent. -/
def Says (setup : Setup) (session : PaletteSession) : AddonMessage → Prop
  | .signal frame => Meant setup.installation.catalog frame
  | .reply _ frame => ∀ welcome, payloadOf frame = some (.welcome welcome) → Bound setup.addonName session

theorem says_of_acted {chooses : Prop} {before after : Display TransactionId} {messages : List AddonMessage}
    (h : Acted setup.installation.catalog chooses before after messages) (session : PaletteSession) :
    ∀ message ∈ messages, Says setup session message := by
  intro message hmem
  cases h with
  | nothing => cases hmem
  | chose ask sequence _ _ _ hvalid hcatalog =>
      rw [List.mem_singleton.mp hmem]
      exact .selected ⟨ask.id, sequence⟩ hvalid hcatalog
  | cancelled ask reason _ _ hvalid =>
      rw [List.mem_singleton.mp hmem]
      exact .cancelled ⟨ask.id, reason⟩ hvalid
  | closed => cases hmem

/-- A run of the helper that sends messages after those on their way. -/
theorem Inv.answered (h : Inv setup system) {helper : Helper PaletteWindow} {frames : List HelperFrame}
    {messages : List AddonMessage}
    (hstep : Step (handover system) (handover { system with
      helper := helper, toHelper := frames, toAddon := system.toAddon ++ messages }))
    (hsound : Sound setup.installation.catalog helper)
    (hkept : Bound setup.addonName system.helper.session → Bound setup.addonName helper.session)
    (hspoken : ∀ message ∈ messages, Says setup helper.session message) :
    Inv setup { system with helper := helper, toHelper := frames, toAddon := system.toAddon ++ messages } := by
  refine h.next hstep h.addon h.peered hsound ?_ (fun frame hframe => ?_) fun transaction htransaction => ?_
  · rintro (hready | ⟨serial, frame, welcome, hmem, hframe⟩)
    · exact hkept (h.bound (Or.inl hready))
    · rcases List.mem_append.mp hmem with hbefore | hnew
      · exact hkept (h.bound (Or.inr ⟨serial, frame, welcome, hbefore, hframe⟩))
      · exact hspoken _ hnew welcome hframe
  · rcases List.mem_append.mp hframe with hbefore | hnew
    · exact h.meant frame hbefore
    · exact hspoken _ hnew
  · rcases htransaction with hissued | hactive
    · exact hissued
    · exact h.issued _ (Or.inr hactive)

theorem Inv.pointer (h : Inv setup system) (desktop : Desktop) (event : PaletteWindow.PointerEvent) :
    Inv setup (system.point setup desktop event) := by
  have hstep := step_pointer h desktop event
  unfold PaletteSystem.point at hstep ⊢
  by_cases hvisible : system.helper.window.visible = true
  · rw [if_pos hvisible] at hstep ⊢
    obtain ⟨hacted, hsound⟩ := acted_runWindow h.helper (PaletteWindow.does_pointer desktop event system.helper.window)
    exact h.answered hstep hsound (bound_runWindow _) (says_of_acted hacted _)
  · rw [if_neg hvisible]
    exact h

theorem Inv.toHelper (h : Inv setup system) (desktop : Desktop) : Inv setup (system.deliverToHelper setup desktop) := by
  have hstep := step_toHelper h desktop
  unfold PaletteSystem.deliverToHelper at hstep ⊢
  cases hframes : system.toHelper with
  | nil => exact h
  | cons arrived rest =>
      rw [hframes] at hstep
      have hexchanged := exchanged_exchange (PaletteWindow.calls setup.helperInstallation desktop)
        setup.addonName_ne_nil arrived.frame system.helper
      refine h.answered hstep (hexchanged.sound h.helper) hexchanged.bound fun message hmem => ?_
      rcases List.mem_append.mp hmem with hsignal | hreply
      · rcases h.exchanged desktop hframes with ⟨_, _, _, hnone⟩ | ⟨_, hacted⟩
        · rw [hnone] at hsignal
          cases hsignal
        · exact says_of_acted hacted _ message hsignal
      · obtain ⟨serial, _, rfl⟩ := List.mem_map.mp hreply
        exact fun welcome => hexchanged.bound_of_welcome

/-! ### All events -/

section

variable [DecidableEq κ]

/-- The configuration is none of the handover's business. -/
theorem step_configured (layout : Option Bytes) :
    Step (handover system) (handover (system.runAddon setup surroundings (.groupChanged layout))) ∧
      ∀ config, Step (handover system) (handover (system.runAddon setup surroundings (.configured config layout))) := by
  constructor
  · exact step_of_silence (by cases layout <;> rfl) (stays_of_peer (by cases layout <;> rfl))
  · intro config
    exact step_of_silence (by cases layout <;> rfl) (stays_of_peer (by cases layout <;> rfl))

theorem step_happening (h : Inv setup system) (hlossless : Lossless system.issued surroundings) (happening : Happening κ) :
    Step (handover system) (handover (system.runAddon setup surroundings happening.input)) := by
  cases happening with
  | key event => exact step_key h hlossless event
  | contextEvent context event => exact step_contextEvent h hlossless context event
  | groupChanged layout => exact (step_configured layout).1
  | configured config layout => exact (step_configured layout).2 config
  | timedOut serial => exact step_reply h.addon h.peered hlossless serial [] .error

theorem step_toAddon (h : Inv setup system) (hlossless : Lossless system.issued surroundings) :
    Step (handover system) (handover (system.deliverToAddon setup surroundings)) := by
  unfold PaletteSystem.deliverToAddon
  split
  · exact Step.idle _
  · rename_i serial frame rest hmessages
    have hsame : handover { system with toAddon := rest } = handover system := by
      rw [handover, handover, hmessages, answers_reply]
    rw [← hsame]
    apply step_reply
    · exact h.addon
    · exact h.peered
    · exact hlossless
  · rename_i frame rest hmessages
    exact step_frame h hlossless hmessages

/-- Every event that keeps the promises is a step of the handover. -/
theorem step_event (h : Inv setup system) {event : Event κ} (hpromised : Promised system event) :
    Step (handover system) (handover (PaletteSystem.step setup event system)) := by
  cases event with
  | addon surroundings happening => exact step_happening h hpromised happening
  | pointer desktop event => exact step_pointer h desktop event
  | toHelper desktop => exact step_toHelper h desktop
  | toAddon surroundings => exact step_toAddon h hpromised

/-- A run of the addon that starts from fewer messages. -/
theorem Inv.runAddon (h : Inv setup system) {messages : List AddonMessage} {input : EmojiPaletteAddon.Input κ}
    (hmessages : ∀ message ∈ messages, message ∈ system.toAddon)
    (hstep : Step (handover system)
      (handover (PaletteSystem.runAddon setup surroundings input { system with toAddon := messages })))
    (hpeered : Peered setup.helperName
      (EmojiPaletteAddon.step setup.installation surroundings input system.addon).1)
    (hready : (EmojiPaletteAddon.step setup.installation surroundings input system.addon).1.session.state = .ready →
      Agreeing system) :
    Inv setup (PaletteSystem.runAddon setup surroundings input { system with toAddon := messages }) := by
  refine h.next hstep (h.addon.step setup.installation surroundings input) hpeered h.helper ?_
    (fun frame hframe => h.meant frame (hmessages _ hframe)) fun transaction htransaction => ?_
  · rintro (hafter | ⟨serial, frame, welcome, hmem, hframe⟩)
    · exact h.bound (hready hafter)
    · exact h.bound (Or.inr ⟨serial, frame, welcome, hmessages _ hmem, hframe⟩)
  · rcases htransaction with hissued | hactive
    · exact List.mem_append_right _ hissued
    · exact List.mem_append_left _ (Option.mem_toList.mpr hactive)

theorem Inv.happening (h : Inv setup system) (hlossless : Lossless system.issued surroundings)
    (happening : Happening κ) : Inv setup (system.runAddon setup surroundings happening.input) := by
  have hstep := step_happening h hlossless happening
  have hstays : ∀ {input : EmojiPaletteAddon.Input κ},
      Step (handover system) (handover (system.runAddon setup surroundings input)) →
      Stays system.addon (EmojiPaletteAddon.step setup.installation surroundings input system.addon).1 →
      Inv setup (system.runAddon setup surroundings input) := by
    intro input hinput hstays
    refine h.runAddon (fun _ hmem => hmem) hinput (h.peered.of_stays hstays) fun hready => Or.inl ?_
    rwa [hstays.1] at hready
  cases happening with
  | key event => exact hstays hstep (stays_keyEvent setup.installation surroundings event system.addon)
  | contextEvent context event => exact hstays hstep (stays_contextEvent surroundings context event system.addon)
  | groupChanged layout => exact hstays hstep (stays_of_peer (by cases layout <;> rfl))
  | configured config layout => exact hstays hstep (stays_of_peer (by cases layout <;> rfl))
  | timedOut serial =>
      obtain ⟨hpeered, hready⟩ := peered_reply h.addon h.peered hlossless.sends serial [] .error fun _ herror => by
        cases herror
      refine h.runAddon (fun _ hmem => hmem) hstep hpeered fun hafter => ?_
      rcases hready hafter with hbefore | ⟨_, _, herror, _⟩
      · exact Or.inl hbefore
      · cases herror

theorem Inv.toAddon (h : Inv setup system) (hlossless : Lossless system.issued surroundings) :
    Inv setup (system.deliverToAddon setup surroundings) := by
  have hstep := step_toAddon h hlossless
  unfold PaletteSystem.deliverToAddon at hstep ⊢
  split at hstep
  · exact h
  · rename_i serial frame rest hmessages
    obtain ⟨hpeered, hready⟩ := peered_reply h.addon h.peered hlossless.sends serial setup.helperName
      (.message (some frame)) fun _ _ => rfl
    refine h.runAddon (fun _ hmem => ?_) hstep hpeered fun hafter => ?_
    · rw [hmessages]
      exact List.mem_cons_of_mem _ hmem
    · rcases hready hafter with hbefore | ⟨other, welcome, hanswer, hframe⟩
      · exact Or.inl hbefore
      · cases hanswer
        exact Or.inr ⟨serial, frame, welcome, hmessages ▸ List.mem_cons_self, hframe⟩
  · rename_i frame rest hmessages
    have hstays := stays_receiveFrame setup.installation.catalog surroundings setup.helperName (some frame) system.addon
    refine h.runAddon (fun _ hmem => ?_) hstep (h.peered.of_stays hstays) fun hready => Or.inl ?_
    · rw [hmessages]
      exact List.mem_cons_of_mem _ hmem
    · rwa [EmojiPaletteAddon.step, hstays.1] at hready

theorem Inv.step (h : Inv setup system) {event : Event κ} (hpromised : Promised system event) :
    Inv setup (PaletteSystem.step setup event system) := by
  cases event with
  | addon surroundings happening => exact h.happening hpromised happening
  | pointer desktop event => exact h.pointer desktop event
  | toHelper desktop => exact h.toHelper desktop
  | toAddon surroundings => exact h.toAddon hpromised

end

/-- At the start nothing is asked for and nothing is shown. -/
theorem handover_start (h : Start setup system) : handover system = ⟨none, false, .hidden, [], []⟩ := by
  obtain ⟨config, layout, desktop, state, cellSize, rfl⟩ := h
  have hasked : asked (EmojiPaletteAddon.initial setup.installation config layout : EmojiPaletteAddon κ) = none := by
    cases layout <;> rfl
  have hconnected : connected (EmojiPaletteAddon.initial setup.installation config layout : EmojiPaletteAddon κ) =
      false := by
    cases layout <;> rfl
  have hvisible : (PaletteWindow.initial setup.helperInstallation desktop state cellSize).visible = false :=
    (PaletteWindow.keeps_setCategory desktop 2 _).visible
  rw [handover, PaletteSystem.initial]
  dsimp only
  rw [hasked, hconnected, display_of_none rfl, hvisible]
  rfl

theorem inv_start (h : Start setup system) : Inv setup system := by
  have hhandover := handover_start h
  have hconnected : connected system.addon = false := congrArg State.connected hhandover
  have hready : system.addon.session.state ≠ .ready := of_decide_eq_false hconnected
  have hnone : system.addon.controller.transaction = none := asked_eq_none_iff.mp (congrArg State.asked hhandover)
  obtain ⟨config, layout, desktop, state, cellSize, rfl⟩ := h
  refine ⟨EmojiPaletteAddon.wellFormed_initial setup.installation config layout, fun h => absurd h hready,
    sound_of_none rfl (PaletteWindow.withinCatalog_initial setup.helperInstallation desktop state cellSize), ?_, ?_, ?_, ?_⟩
  · rintro (h | ⟨_, _, _, hmem, _⟩)
    · exact absurd h hready
    · cases hmem
  · intro frame hmem
    cases hmem
  · rw [hhandover]
    exact fun _ => ⟨rfl, rfl, rfl⟩
  · rw [hhandover]
    rintro transaction (hlive | hactive)
    · cases hlive
    · cases hnone.symm.trans hactive

end System

end EmojiPalette
