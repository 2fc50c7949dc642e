import EmojiPalette.System.Agreement
import EmojiPalette.System.RestartWiring

/-!
# Agreement while helpers come and go

The addon and the helper that runs, seen alone with what is on its way between them. An addon that has not heard yet that its helper is gone is seen as one that has agreed with nobody, and a helper that nobody has greeted hears nothing before a call. Seen so, every event is an event of the two that do not restart, or it comes to nothing.
-/

namespace EmojiPalette

open Ipc Trace Addon Ui Handover

namespace System

def Setup.named (setup : Setup) (name : Bytes) : Setup := { setup with helperName := name }

theorem display_eq_hidden_iff {helper : Helper PaletteWindow} :
    display helper = .hidden ↔ helper.session.transaction = none ∧ helper.window.visible = false := by
  unfold display
  cases helper.session.transaction with
  | some transaction => simp
  | none => cases helper.window.visible <;> simp

theorem agreed_of_unconnected {s : State TransactionId} (h : s.connected = false) : Agreed s := by
  intro hconnected
  cases h.symm.trans hconnected

/-- What the two agree on, in terms of the helper and of what is on the way. -/
theorem means_of_agreed {κ : Type} {system : PaletteSystem κ} (h : Agreed (handover system))
    (hconnected : connected system.addon = true) {transaction : TransactionId}
    (hactive : system.addon.controller.transaction = some transaction) :
    system.helper.session.transaction = some transaction ∨ ShowSent transaction system.toHelper ∨
      AnswerSent transaction system.toAddon := by
  rcases h hconnected _ (asked_of_transaction hactive) with hsettled | ⟨answer, hanswer, hid⟩
  · rcases Display.shown_or_begin_of_settle hsettled with hshown | hbegin
    · exact Or.inl (transaction_of_shown hshown)
    · exact Or.inr (Or.inl (showSent_iff.mpr ⟨_, hbegin, rfl⟩))
  · have hsent := answerSent_of_mem hanswer
    rw [hid] at hsent
    exact Or.inr (Or.inr hsent)

/-- Before the two are connected it does not matter what is dropped. -/
theorem Inv.frames {κ : Type} {setup : Setup} {system : PaletteSystem κ} (h : Inv setup system)
    (hconnected : connected system.addon = false) {frames : List HelperFrame} (hrequests : requests frames = []) :
    Inv setup { system with toHelper := frames } := by
  obtain ⟨hdisplay, hbefore, hanswers⟩ := h.silent hconnected
  refine { h with
    silent := fun _ => ⟨hdisplay, hrequests, hanswers⟩
    issued := fun transaction htransaction => h.issued transaction (htransaction.imp_left fun hlive => ?_) }
  have hsame : handover { system with toHelper := frames } = handover system := by
    rw [handover, hrequests, ← hbefore]
    rfl
  exact hsame ▸ hlive

/-- Two between whom there is nothing. -/
theorem inv_of_nothing {κ : Type} {setup : Setup} {system : PaletteSystem κ} (haddon : system.addon.WellFormed)
    (hsound : Sound setup.installation.catalog system.helper)
    (hnothing : handover system = ⟨asked system.addon, false, .hidden, [], []⟩)
    (hbound : ∀ serial frame welcome, .reply serial frame ∈ system.toAddon →
      payloadOf frame = some (.welcome welcome) → Bound setup.addonName system.helper.session)
    (hmeant : ∀ frame, .signal frame ∈ system.toAddon → Meant setup.installation.catalog frame)
    (hissued : ∀ transaction, system.addon.controller.transaction = some transaction → transaction ∈ system.issued) :
    Inv setup system := by
  have hunready : system.addon.session.state ≠ .ready :=
    of_decide_eq_false (show connected system.addon = false from congrArg State.connected hnothing)
  refine ⟨haddon, fun hready => absurd hready hunready, hsound, ?_, hmeant, ?_, ?_⟩
  · rintro (hready | ⟨serial, frame, welcome, hmem, hframe⟩)
    · exact absurd hready hunready
    · exact hbound serial frame welcome hmem hframe
  · rw [hnothing]
    exact fun _ => ⟨rfl, rfl, rfl⟩
  · rw [hnothing]
    rintro transaction (hlive | hactive)
    · cases hlive
    · exact hissued transaction hactive

namespace RestartingSystem

variable {κ : Type} {setup : Setup} {system : RestartingSystem κ} {surroundings : Surroundings κ}

/-- The addon as it would be if it had heard. -/
def informed (system : RestartingSystem κ) : EmojiPaletteAddon κ :=
  if lossIn system.addon.session system.toAddon then { system.addon with session := .initial, pendingCall := none }
  else system.addon

/-- The addon and the running helper with what is between them. -/
def seen (name : Bytes) (helper : Helper PaletteWindow) (system : RestartingSystem κ) : PaletteSystem κ where
  addon := system.informed
  helper := helper
  toHelper := heard helper.session system.toHelper
  toAddon := saidBy name system.toAddon
  issued := system.issued

/-- The two that are seen keep what they kept without restarts, and agree. -/
def Follows (setup : Setup) (system : RestartingSystem κ) : Prop :=
  ∀ name helper, system.running = some (name, helper) →
    Inv (setup.named name) (system.seen name helper) ∧ Agreed (handover (system.seen name helper))

theorem connected_informed : connected system.informed = true ↔ system.addon.session.state = .ready ∧
    lossIn system.addon.session system.toAddon = false := by
  unfold informed
  cases lossIn system.addon.session system.toAddon with
  | true => simp [connected, PeerSession.initial]
  | false => simp [connected_eq_true_iff]

theorem lossIn_of_unconnected (h : connected system.informed = false) (hready : system.addon.session.state = .ready) :
    lossIn system.addon.session system.toAddon = true := by
  by_contra hknows
  exact Bool.false_ne_true (h.symm.trans (connected_informed.mpr ⟨hready, by simpa using hknows⟩))

theorem accepts_unique {session : PeerSession} {one other : Bytes} (hone : session.accepts one = true)
    (hother : session.accepts other = true) : one = other := by
  simp only [PeerSession.accepts, Bool.and_eq_true, decide_eq_true_eq] at hone hother
  exact hone.2.trans hother.2.symm

/-- An addon that is connected and knows it has agreed with the helper that runs, and the bus has no news. -/
theorem Wired.of_connected (h : Wired system) (hconnected : connected system.informed = true) :
    ∃ name, system.owner = some name ∧ system.addon.session.accepts name = true ∧ ∀ other, .lost other ∉ system.toAddon := by
  obtain ⟨hready, hknows⟩ := connected_informed.mp hconnected
  obtain ⟨_, _, owner, _, haccepts, hupheld⟩ := h.ready hready
  rcases hupheld with ⟨hrunning, hheard⟩ | hlost
  · exact ⟨owner, hrunning, haccepts, hheard⟩
  · have htrue := lossIn_iff.mpr ⟨owner, haccepts, hlost⟩
    cases hknows.symm.trans htrue

/-! ### The helper runs -/

/-- The running helper reads frames and sends messages. -/
theorem seen_sent (name : Bytes) (helper after : Helper PaletteWindow) (frames : List HelperFrame)
    (sent : List AddonMessage) :
    seen name after { system with
      running := some (name, after), toHelper := frames, toAddon := system.toAddon ++ sent.map (.sentBy name) } =
    { system.seen name helper with
      helper := after, toHelper := heard after.session frames, toAddon := (system.seen name helper).toAddon ++ sent } := by
  simp only [seen, informed, lossIn_append_sentBy, saidBy_append, saidBy_sentBy]

theorem Follows.pointer (h : Follows setup system) (desktop : Desktop) (event : PaletteWindow.PointerEvent) :
    Follows setup (point setup desktop event system) := by
  unfold point
  split
  · exact h
  rename_i name helper hrunning
  split
  swap
  · exact h
  rename_i hvisible
  intro other after hafter
  cases hafter
  obtain ⟨hinv, hagreed⟩ := h name helper hrunning
  have hstep := step_pointer hinv desktop event
  have hnext := hinv.pointer desktop event
  unfold PaletteSystem.point at hstep hnext
  have hseen : (system.seen name helper).helper = helper := rfl
  rw [hseen, if_pos hvisible] at hstep hnext
  rw [seen_sent name helper, heard, negotiated_runWindow]
  exact ⟨hnext, hagreed.step hstep⟩

/-- A frame that is heard. -/
theorem Follows.hears (h : Follows setup system) (desktop : Desktop) {name : Bytes} {helper : Helper PaletteWindow}
    (hrunning : system.running = some (name, helper)) {arrived : HelperFrame} {rest : List HelperFrame}
    (hheard : heard helper.session system.toHelper = arrived :: rest) :
    let exchanged := Helper.exchange (PaletteWindow.calls setup.helperInstallation desktop) arrived.frame setup.addonName
      helper
    let after := { system.seen name helper with
      helper := exchanged.helper
      toHelper := heard exchanged.helper.session rest
      toAddon := (system.seen name helper).toAddon ++ (signals exchanged.effects ++
        arrived.serial.toList.map fun serial => AddonMessage.reply serial exchanged.response) }
    Inv (setup.named name) after ∧ Agreed (handover after) := by
  obtain ⟨hinv, hagreed⟩ := h name helper hrunning
  have hframes : (system.seen name helper).toHelper = arrived :: rest := hheard
  have hnext := hinv.toHelper desktop
  have hagrees := hagreed.step (step_toHelper hinv desktop)
  simp only [PaletteSystem.deliverToHelper, hframes] at hnext hagrees
  dsimp only
  by_cases hnegotiated : (Helper.exchange (PaletteWindow.calls setup.helperInstallation desktop) arrived.frame
      setup.addonName helper).helper.session.negotiated = true
  · rw [heard, if_pos hnegotiated]
    exact ⟨hnext, hagrees⟩
  · have hconnected : connected system.informed = false := by
      by_contra hconnected
      have hready := connected_eq_true_iff.mp (by simpa using hconnected)
      exact hnegotiated (hnext.bound (Or.inl hready)).1
    have hrequests := (hnext.silent hconnected).2.1
    refine ⟨hnext.frames hconnected (requests_sublist (sublist_heard _ rest) hrequests), ?_⟩
    exact agreed_of_unconnected hconnected

theorem Follows.toHelper (h : Follows setup system) (hwired : Wired system) (desktop : Desktop) :
    Follows setup (deliverToHelper setup desktop system) := by
  unfold deliverToHelper
  split
  swap
  · exact h
  rename_i name helper arrived rest hrunning hframes
  intro other after hafter
  cases hafter
  rw [seen_sent name helper]
  by_cases hignored : helper.session.negotiated = false ∧ arrived.serial = none
  · obtain ⟨hnegotiated, hserial⟩ := hignored
    obtain ⟨hinv, hagreed⟩ := h name helper hrunning
    have hidle : helper.session.transaction = none := by
      have hhidden := hinv.display_of_not_bound fun hbound => by cases hnegotiated.symm.trans hbound.1
      by_contra hsome
      obtain ⟨transaction, htransaction⟩ := Option.ne_none_iff_exists'.mp hsome
      cases (display_of_some htransaction).symm.trans hhidden
    obtain ⟨hhelper, hsignals⟩ := exchanged_unheard
      (exchanged_exchange (PaletteWindow.calls setup.helperInstallation desktop) setup.addonName_ne_nil arrived.frame helper)
      hnegotiated (hwired.greetings arrived (hframes ▸ List.mem_cons_self) hserial) hidle
    have hsame : heard helper.session rest = heard helper.session system.toHelper := by
      rw [hframes, heard, heard, hnegotiated, fromCall_cons_of_none hserial]
      rfl
    rw [hhelper, hsignals, hserial, hsame, Option.toList_none, List.map_nil, List.append_nil, List.append_nil]
    exact ⟨hinv, hagreed⟩
  · refine h.hears desktop hrunning ?_
    rw [hframes, heard]
    split
    · rfl
    · rename_i hnegotiated
      obtain ⟨serial, hserial⟩ := Option.ne_none_iff_exists'.mp fun hnone =>
        hignored ⟨Bool.eq_false_iff.mpr hnegotiated, hnone⟩
      exact fromCall_cons_of_some hserial rest

/-! ### The addon runs -/

theorem wellFormed_informed (h : system.addon.WellFormed) : system.informed.WellFormed := by
  unfold informed
  split
  · exact h.congr rfl rfl rfl
  · exact h

theorem transaction_informed (system : RestartingSystem κ) :
    system.informed.controller.transaction = system.addon.controller.transaction := by
  unfold informed
  split <;> rfl

theorem informed_of_not_lossIn (h : lossIn system.addon.session system.toAddon = false) : system.informed = system.addon := by
  rw [informed, h]
  rfl

theorem lost_news (message : BusMessage) (owner : Bytes) (hmem : .lost owner ∈ [message]) :
    (RestartingSystem.input message : EmojiPaletteAddon.Input κ) = .ownerChanged owner [] := by
  rw [← List.mem_singleton.mp hmem]
  rfl

section

variable [DecidableEq κ] {input : EmojiPaletteAddon.Input κ} {first messages : List BusMessage} {after : RestartingSystem κ}

/-- Nothing is asked of a helper that the addon has not agreed with. -/
theorem requests_heard_ran (hwired : Wired system) (hlossless : Lossless system surroundings) (hafter : Wired after)
    (hran : after = runAddon setup surroundings input { system with toAddon := messages })
    (hunconnected : connected after.informed = false) {name : Bytes} {helper : Helper PaletteWindow}
    (hrunning : after.running = some (name, helper)) (hbefore : requests (heard helper.session system.toHelper) = []) :
    requests (heard helper.session after.toHelper) = [] := by
  by_cases hnegotiated : helper.session.negotiated = true
  swap
  · rw [heard, if_neg hnegotiated]
    exact hafter.behind
  rw [heard, if_pos hnegotiated] at hbefore ⊢
  have hunready : after.addon.session.state ≠ .ready := by
    intro hready
    -- A helper that has been greeted would be the one that is gone.
    obtain ⟨other, hother, hlost⟩ := lossIn_iff.mp (lossIn_of_unconnected hunconnected hready)
    rw [accepts_unique hother ((hafter.greeted name helper hrunning hnegotiated).1 hready)] at hlost
    refine (hafter.runs name ?_).2 hlost
    rw [owner, hrunning]
    rfl
  subst hran
  have hnew := requests_of_not_ready setup.installation hlossless.lossless.sends hlossless.lossless.callIssued hwired.addon
    (fun hready => (hwired.ready hready).1) input hunready
  exact (requests_append _ _).trans (by rw [hbefore, hnew]; rfl)

/-- While nobody has agreed, what is between the two comes to nothing. -/
theorem Follows.unconnected (h : Follows setup system) (hwired : Wired system) (hlossless : Lossless system surroundings)
    (hmessages : system.toAddon = first ++ messages) (hafter : Wired after)
    (hran : after = runAddon setup surroundings input { system with toAddon := messages })
    (hbefore : connected system.informed = false) (hunconnected : connected after.informed = false) : Follows setup after := by
  intro name helper hrunning
  have hsame : after.running = system.running ∧ after.toAddon = messages := by
    rw [hran]
    exact ⟨rfl, rfl⟩
  obtain ⟨hinv, _⟩ := h name helper (hsame.1 ▸ hrunning)
  obtain ⟨hdisplay, hrequests, hanswers⟩ := hinv.silent hbefore
  have hsublist : (saidBy name after.toAddon).Sublist (saidBy name system.toAddon) := by
    rw [hsame.2, hmessages, saidBy_append]
    exact List.sublist_append_right _ _
  have hnothing : handover (after.seen name helper) = ⟨asked after.informed, false, .hidden, [], []⟩ := by
    have hdisplay' : display helper = .hidden := hdisplay
    have hnone := requests_heard_ran hwired hlossless hafter hran hunconnected hrunning hrequests
    have hanswers' : answers (saidBy name after.toAddon) = [] :=
      List.eq_nil_of_sublist_nil (hanswers ▸ hsublist.filterMap _)
    simp only [handover, seen, hunconnected, hdisplay', hnone, hanswers']
  refine ⟨inv_of_nothing (wellFormed_informed hafter.addon) hinv.helper hnothing (fun serial frame welcome hmem hframe => ?_)
    (fun frame hmem => hinv.meant frame (hsublist.subset hmem)) fun transaction hactive => ?_,
    agreed_of_unconnected hunconnected⟩
  · exact hinv.bound (Or.inr ⟨serial, frame, welcome, hsublist.subset hmem, hframe⟩)
  · exact hafter.issued transaction ((transaction_informed _).symm.trans hactive)

/-- Where both know that they have agreed, the addon runs as it does without restarts. -/
theorem seen_ran {name : Bytes} {helper : Helper PaletteWindow} (hnegotiated : helper.session.negotiated = true)
    (hran : after = runAddon setup surroundings input { system with toAddon := messages })
    (hbefore : lossIn system.addon.session system.toAddon = false)
    (hknows : lossIn after.addon.session after.toAddon = false) :
    after.seen name helper = PaletteSystem.runAddon (setup.named name) surroundings input
      { system.seen name helper with toAddon := saidBy name messages } := by
  rw [seen, seen, informed_of_not_lossIn hbefore, informed_of_not_lossIn hknows, heard, heard, hnegotiated, hran]
  rfl

/-- An addon that knows with whom it has agreed was not mistaken before. -/
theorem lossIn_before (hwired : Wired system) (hlossless : Lossless system surroundings)
    (hmessages : system.toAddon = first ++ messages)
    (hran : after = runAddon setup surroundings input { system with toAddon := messages })
    (hfirst : ∀ owner, .lost owner ∈ first → input = .ownerChanged owner []) (hconnected : connected after.informed = true) :
    lossIn system.addon.session system.toAddon = false := by
  have hgreets := greets_step setup.installation hlossless.lossless.callIssued input system.addon
  obtain ⟨hready, hknows⟩ := connected_informed.mp hconnected
  subst hran
  by_contra hloss
  rw [Bool.not_eq_false, hmessages] at hloss
  have hnews : ∀ owner, .lost owner ∈ first → owner ≠ [] ∧ input = .ownerChanged owner [] := by
    refine fun owner hmem => ⟨fun hempty => ?_, hfirst owner hmem⟩
    exact hwired.nonempty (hempty ▸ hwired.names (.lost owner) (hmessages ▸ List.mem_append_left messages hmem))
  have hstill := hgreets.believes (fun hready => (hwired.ready hready).1) hloss hnews hready
  cases hknows.symm.trans hstill

/-- One of the two that do not restart does the same. -/
theorem Follows.ran (h : Follows setup system) (hwired : Wired system) (hlossless : Lossless system surroundings)
    (hmessages : system.toAddon = first ++ messages) (hafter : Wired after)
    (hran : after = runAddon setup surroundings input { system with toAddon := messages })
    (hfirst : ∀ owner, .lost owner ∈ first → input = .ownerChanged owner [])
    (hmatches : ∀ name helper, system.running = some (name, helper) →
      connected system.informed = true ∨ connected after.informed = true →
      Inv (setup.named name) (PaletteSystem.runAddon (setup.named name) surroundings input
        { system.seen name helper with toAddon := saidBy name messages }) ∧
      Agreed (handover (PaletteSystem.runAddon (setup.named name) surroundings input
        { system.seen name helper with toAddon := saidBy name messages }))) : Follows setup after := by
  have hsame : after.running = system.running ∧ after.toAddon = messages ∧
      after.addon = (EmojiPaletteAddon.step setup.installation surroundings input system.addon).1 := by
    rw [hran]
    exact ⟨rfl, rfl, rfl⟩
  obtain ⟨hrun, hleft, haddon⟩ := hsame
  by_cases hbefore : connected system.informed = true
  · obtain ⟨other, hother, haccepts, hheard⟩ := hwired.of_connected hbefore
    have hbelow : ∀ owner, .lost owner ∉ after.toAddon := fun owner hmem =>
      hheard owner (hmessages ▸ List.mem_append_right first (hleft ▸ hmem))
    intro name helper hrunning
    obtain ⟨hinv, _⟩ := h name helper (hrun ▸ hrunning)
    have hnegotiated : helper.session.negotiated = true := (hinv.bound (Or.inl (connected_eq_true_iff.mp hbefore))).1
    have hknows : lossIn after.addon.session after.toAddon = false := by
      by_contra hloss
      obtain ⟨owner, _, hlost⟩ := lossIn_iff.mp (by simpa using hloss)
      exact hbelow owner hlost
    rw [seen_ran hnegotiated hran (connected_informed.mp hbefore).2 hknows]
    exact hmatches name helper (hrun ▸ hrunning) (Or.inl hbefore)
  by_cases hconnected : connected after.informed = true
  swap
  · exact h.unconnected hwired hlossless hmessages hafter hran (by simpa using hbefore) (by simpa using hconnected)
  obtain ⟨hready, hknows⟩ := connected_informed.mp hconnected
  have hunlost := lossIn_before hwired hlossless hmessages hran hfirst hconnected
  intro name helper hrunning
  have hnext := hmatches name helper (hrun ▸ hrunning) (Or.inr hconnected)
  have hnegotiated : helper.session.negotiated = true := by
    refine (hnext.1.bound (Or.inl ?_)).1
    change (EmojiPaletteAddon.step setup.installation surroundings input system.informed).1.session.state = .ready
    rw [informed_of_not_lossIn hunlost, ← haddon]
    exact hready
  rw [seen_ran hnegotiated hran hunlost hknows]
  exact hnext

theorem Follows.happening (h : Follows setup system) (hwired : Wired system) (hlossless : Lossless system surroundings)
    (happening : Happening κ) : Follows setup (runAddon setup surroundings happening.input system) := by
  refine h.ran hwired hlossless (List.nil_append _).symm (hwired.happening hlossless happening) rfl (by simp) ?_
  intro name helper hrunning _
  obtain ⟨hinv, hagreed⟩ := h name helper hrunning
  exact ⟨hinv.happening hlossless.lossless happening, hagreed.step (step_happening hinv hlossless.lossless happening)⟩

/-- The news of a helper that has come is nothing to the addon. -/
theorem step_gained (installation : Installation) (surroundings : Surroundings κ) {owner : Bytes} (howner : owner ≠ [])
    (addon : EmojiPaletteAddon κ) :
    EmojiPaletteAddon.step installation surroundings (.ownerChanged [] owner) addon = (addon, []) := by
  have hempty : owner.isEmpty = false := by simpa using howner
  simp [EmojiPaletteAddon.step, EmojiPaletteAddon.ownerChanged, hempty]

/-- What an addon hears that has agreed, or agrees with it, comes from the running helper. -/
theorem Wired.heard_from (hwired : Wired system) (hlossless : Lossless system surroundings) (hafter : Wired after)
    {message : BusMessage} (hmessages : system.toAddon = message :: messages)
    (hran : after = runAddon setup surroundings (RestartingSystem.input message) { system with toAddon := messages })
    {name : Bytes} {helper : Helper PaletteWindow} (hrunning : system.running = some (name, helper))
    (hconnected : connected system.informed = true ∨ connected after.informed = true) :
    message = .gained message.name ∨ message.sender = some name := by
  have howner : system.owner = some name := by rw [owner, hrunning]; rfl
  by_cases hbefore : connected system.informed = true
  · obtain ⟨other, _, _, hheard⟩ := hwired.of_connected hbefore
    have hsourced := hwired.sourced
    rw [hmessages, howner] at hsourced
    have hsender : ∀ sender, message.sender = some sender → message.sender = some name := by
      intro sender hsender
      rcases hsourced.1 sender hsender with ⟨hname, _⟩ | hlost
      · exact hsender.trans hname.symm
      · exact absurd (hmessages ▸ List.mem_cons_of_mem _ hlost) (hheard sender)
    cases message with
    | reply sender serial frame => exact Or.inr (hsender sender rfl)
    | signal sender frame => exact Or.inr (hsender sender rfl)
    | gained other => exact Or.inl rfl
    | lost other => exact absurd (hmessages ▸ List.mem_cons_self) (hheard other)
  · have hnow := hconnected.resolve_left hbefore
    have hunlost := lossIn_before hwired hlossless (show system.toAddon = [message] ++ messages from hmessages) hran (lost_news message) hnow
    obtain ⟨other, hother, haccepts, _⟩ := hafter.of_connected hnow
    have hgreets := greets_step setup.installation hlossless.lossless.callIssued (RestartingSystem.input message) system.addon
    have hready := (connected_informed.mp hnow).1
    subst hran
    rcases hgreets.ready hready with hready | ⟨serial, sender, answer, hinput, hsender⟩
    · exact absurd (connected_informed.mpr ⟨hready, hunlost⟩) hbefore
    · cases message with
      | reply from' serial frame =>
          cases hinput
          refine Or.inr ?_
          rw [BusMessage.sender, accepts_unique hsender haccepts, ← howner]
          exact hother.symm
      | _ => cases hinput

theorem Follows.toAddon (h : Follows setup system) (hwired : Wired system) (hlossless : Lossless system surroundings) :
    Follows setup (deliverToAddon setup surroundings system) := by
  have hafter : Wired (deliverToAddon setup surroundings system) := hwired.toAddon hlossless
  unfold deliverToAddon at hafter ⊢
  split at hafter
  · exact h
  rename_i message rest hmessages
  refine h.ran hwired hlossless (show system.toAddon = [message] ++ rest from hmessages) hafter rfl (lost_news message) ?_
  intro name helper hrunning hconnected
  obtain ⟨hinv, hagreed⟩ := h name helper hrunning
  have hfrom := hwired.heard_from hlossless hafter hmessages rfl hrunning hconnected
  have hnext := hinv.toAddon hlossless.lossless
  have hagrees := hagreed.step (step_toAddon hinv hlossless.lossless)
  have hsaid : (system.seen name helper).toAddon = (message.saidBy name).toList ++ saidBy name rest := by
    change saidBy name system.toAddon = _
    rw [hmessages, saidBy, List.filterMap_cons]
    cases message.saidBy name <;> rfl
  cases message with
  | reply sender serial frame =>
      obtain rfl : sender = name := by simpa [BusMessage.sender] using hfrom
      simp only [BusMessage.saidBy, if_true] at hsaid
      simp only [PaletteSystem.deliverToAddon, hsaid] at hnext hagrees
      exact ⟨hnext, hagrees⟩
  | signal sender frame =>
      obtain rfl : sender = name := by simpa [BusMessage.sender] using hfrom
      simp only [BusMessage.saidBy, if_true] at hsaid
      simp only [PaletteSystem.deliverToAddon, hsaid] at hnext hagrees
      exact ⟨hnext, hagrees⟩
  | gained owner =>
      have howner : owner ≠ [] := by
        rintro rfl
        exact hwired.nonempty (hwired.names (.gained []) (hmessages ▸ List.mem_cons_self))
      -- Nothing happens, as with a group that has no layout.
      have hnothing : ∀ seen : PaletteSystem κ,
          PaletteSystem.runAddon (setup.named name) surroundings (RestartingSystem.input (.gained owner)) seen =
            PaletteSystem.runAddon (setup.named name) surroundings (Happening.groupChanged none).input seen := by
        intro seen
        rw [PaletteSystem.runAddon, RestartingSystem.input, step_gained _ _ howner]
        rfl
      rw [hnothing]
      have hsame : { system.seen name helper with toAddon := saidBy name rest } = system.seen name helper := by
        rw [← show (system.seen name helper).toAddon = saidBy name rest from hsaid]
      rw [hsame]
      exact ⟨hinv.happening hlossless.lossless _, hagreed.step (step_happening hinv hlossless.lossless _)⟩
  | lost owner => simp [BusMessage.sender] at hfrom

end

/-! ### Helpers come and go -/

/-- A helper that has just come has said nothing and hears nothing that it could show. -/
theorem follows_start (hwired : Wired system) {name : Bytes} (hnone : system.running = none) (hnonempty : name ≠ [])
    (hfresh : name ∉ system.names) (desktop : Desktop) (state : PersistentState) (cellSize : Int) :
    Follows setup (start setup name desktop state cellSize system) := by
  have hafter : Wired (start setup name desktop state cellSize system) :=
    hwired.start hnone hnonempty hfresh desktop state cellSize
  have hunconnected : connected (start setup name desktop state cellSize system).informed = false := by
    by_contra hconnected
    obtain ⟨hready, hknows⟩ := connected_informed.mp (by simpa using hconnected)
    have hbefore : lossIn system.addon.session system.toAddon = false := by
      simp only [lossIn, start, List.any_append, Bool.or_eq_false_iff] at hknows
      exact hknows.1
    obtain ⟨other, hother, _⟩ := hwired.of_connected (connected_informed.mpr ⟨hready, hbefore⟩)
    rw [owner, hnone] at hother
    cases hother
  intro other helper hrunning
  cases hrunning
  have hsaid : saidBy name (start setup name desktop state cellSize system).toAddon = [] := by
    refine List.filterMap_eq_nil_iff.mpr fun message hmem => ?_
    rcases List.mem_append.mp hmem with hbefore | hnew
    · have hother : message.name ≠ name := fun hname => hfresh (hname ▸ hwired.names message hbefore)
      cases message with
      | reply sender _ _ => exact if_neg hother
      | signal sender _ => exact if_neg hother
      | _ => rfl
    · rw [List.mem_singleton.mp hnew]
      rfl
  have hvisible : (PaletteWindow.initial setup.helperInstallation desktop state cellSize).visible = false :=
    (PaletteWindow.keeps_setCategory desktop 2 _).visible
  have hdisplay : display ⟨.initial, .initial setup.helperInstallation desktop state cellSize⟩ = .hidden := by
    rw [display_of_none rfl, hvisible]
    rfl
  have hrequests : requests (heard .initial system.toHelper) = [] := hwired.behind
  refine ⟨inv_of_nothing (wellFormed_informed hafter.addon)
    (sound_of_none rfl (PaletteWindow.withinCatalog_initial setup.helperInstallation desktop state cellSize)) ?_ ?_ ?_ ?_,
    agreed_of_unconnected hunconnected⟩
  · have hanswers : answers (saidBy name (start setup name desktop state cellSize system).toAddon) = [] := by
      rw [hsaid]
      rfl
    simp only [handover, seen, hunconnected, hdisplay, hanswers]
    rw [show (start setup name desktop state cellSize system).toHelper = system.toHelper from rfl, hrequests]
  · intro serial frame welcome hmem
    simp only [seen, hsaid] at hmem
    cases hmem
  · intro frame hmem
    simp only [seen, hsaid] at hmem
    cases hmem
  · exact fun transaction hactive => hafter.issued transaction ((transaction_informed _).symm.trans hactive)

/-! ### All events -/

variable [DecidableEq κ]

theorem Follows.step (h : Follows setup system) (hwired : Wired system) {event : Event κ}
    (hpromised : Promised system event) : Follows setup (step setup event system) := by
  cases event with
  | addon surroundings happening => exact h.happening hwired hpromised happening
  | pointer desktop event => exact h.pointer desktop event
  | toHelper desktop => exact h.toHelper hwired desktop
  | toAddon surroundings => exact h.toAddon hwired hpromised
  | starts name desktop state cellSize =>
      obtain ⟨hnone, hnonempty, hfresh⟩ := hpromised
      exact follows_start hwired hnone hnonempty hfresh desktop state cellSize
  | ends lost =>
      rw [RestartingSystem.step, finish]
      split
      · exact h
      · exact fun name helper hrunning => by cases hrunning
  | drops =>
      intro name helper hrunning
      cases hpromised.symm.trans hrunning

theorem wired_and_follows (h : Reachable (Start setup) Promised (RestartingSystem.step setup) system) :
    Wired system ∧ Follows setup system := by
  induction h with
  | start hstart =>
      refine ⟨wired_start hstart, fun name helper hrunning => ?_⟩
      obtain ⟨config, layout, rfl⟩ := hstart
      cases hrunning
  | step _ hpromised ih => exact ⟨ih.1.step hpromised, ih.2.step ih.1 hpromised⟩

end RestartingSystem

/-- An active transaction of a ready session is the running helper's, or its `Show` or its answer is on the way, unless the news is on the way that the session's helper is gone. -/
theorem agreement_across_restarts {κ : Type} [DecidableEq κ] (setup : Setup) (system : RestartingSystem κ)
    (transaction : TransactionId)
    (h : Reachable (RestartingSystem.Start setup) RestartingSystem.Promised (RestartingSystem.step setup) system)
    (hactive : system.addon.controller.transaction = some transaction) (hready : system.addon.session.state = .ready) :
    (∃ owner, system.addon.session.accepts owner = true ∧ .lost owner ∈ system.toAddon) ∨
      ∃ name helper, system.running = some (name, helper) ∧ system.addon.session.accepts name = true ∧
        (helper.session.transaction = some transaction ∨ ShowSent transaction system.toHelper ∨
          AnswerSent transaction (saidBy name system.toAddon)) := by
  obtain ⟨hwired, hfollows⟩ := RestartingSystem.wired_and_follows h
  by_cases hloss : lossIn system.addon.session system.toAddon = true
  · exact Or.inl (lossIn_iff.mp hloss)
  have hconnected := RestartingSystem.connected_informed.mpr ⟨hready, by simpa using hloss⟩
  obtain ⟨name, howner, haccepts, _⟩ := hwired.of_connected hconnected
  obtain ⟨⟨_, helper⟩, hrunning, rfl⟩ := Option.map_eq_some_iff.mp howner
  refine Or.inr ⟨_, helper, hrunning, haccepts, ?_⟩
  have hmeans := means_of_agreed (hfollows _ helper hrunning).2 hconnected
    ((RestartingSystem.transaction_informed system).trans hactive)
  refine hmeans.imp_right (Or.imp_left fun hsent => ?_)
  obtain ⟨arrived, hmem, hshow⟩ := hsent
  exact ⟨arrived, (sublist_heard _ _).subset hmem, hshow⟩

/-! ### A run -/

namespace RestartingSystem

/-- No helper runs. -/
def alone : RestartingSystem Unit := .initial oneEmoji ⟨[⟨0x2E, 64, 0⟩], true⟩ none

def run (events : List (Event Unit)) : RestartingSystem Unit :=
  events.foldl (fun system event => RestartingSystem.step oneEmoji event system) alone

def second : Surroundings Unit := { System.second with serial := 1 }
def third : Surroundings Unit := { EmojiPaletteAddon.calm ⟨List.replicate 16 11, rfl⟩ (by decide) with serial := 2 }

/-- The first helper ends with the `Show` that it has not read. The second one is greeted anew. -/
def restart : List (Event Unit) :=
  [.starts [58, 50] desk ⟨[], []⟩ 48, .addon first press, .toHelper desk, .toAddon second, .toAddon second, .ends 1,
    .toAddon second, .starts [58, 51] desk ⟨[], []⟩ 48, .addon second press, .toHelper desk, .toAddon third, .toAddon third]

theorem reachable_run {events : List (Event Unit)} (h : Along Promised (RestartingSystem.step oneEmoji) events alone) :
    Reachable (Start oneEmoji) Promised (RestartingSystem.step oneEmoji) (run events) :=
  .run events (.start ⟨_, _, rfl⟩) h

theorem lossless_second {system : RestartingSystem Unit} (hfresh : second.transaction ∉ system.issued)
    (hserial : second.serial ∉ system.serials) : Lossless system second := ⟨⟨fun _ => rfl, rfl, hfresh⟩, hserial⟩

theorem along_restart : Along Promised (RestartingSystem.step oneEmoji) restart alone :=
  ⟨⟨rfl, by decide, by decide⟩, ⟨⟨fun _ => rfl, rfl, by decide +kernel⟩, by decide +kernel⟩, trivial,
    lossless_second (by decide +kernel) (by decide +kernel), lossless_second (by decide +kernel) (by decide +kernel), trivial,
    lossless_second (by decide +kernel) (by decide +kernel), ⟨rfl, by decide, by decide +kernel⟩,
    lossless_second (by decide +kernel) (by decide +kernel), trivial,
    ⟨⟨fun _ => rfl, rfl, by decide +kernel⟩, by decide +kernel⟩, ⟨⟨fun _ => rfl, rfl, by decide +kernel⟩, by decide +kernel⟩,
    trivial⟩

end RestartingSystem


/-- The addon has agreed with the second helper, and the `Show` is on its way to it. -/
theorem agreement_restarted :
    (∃ owner, (RestartingSystem.run RestartingSystem.restart).addon.session.accepts owner = true ∧
      .lost owner ∈ (RestartingSystem.run RestartingSystem.restart).toAddon) ∨
      ∃ name helper, (RestartingSystem.run RestartingSystem.restart).running = some (name, helper) ∧
        (RestartingSystem.run RestartingSystem.restart).addon.session.accepts name = true ∧
        (helper.session.transaction = some RestartingSystem.second.transaction ∨
          ShowSent RestartingSystem.second.transaction (RestartingSystem.run RestartingSystem.restart).toHelper ∨
          AnswerSent RestartingSystem.second.transaction
            (saidBy name (RestartingSystem.run RestartingSystem.restart).toAddon)) :=
  agreement_across_restarts oneEmoji _ _ (RestartingSystem.reachable_run RestartingSystem.along_restart)
    (by decide +kernel) (by decide +kernel)

/-- A window is visible only while the addon's session is this helper's, and the bus has no news of any end. -/
theorem visible_across_restarts {κ : Type} [DecidableEq κ] (setup : Setup) (system : RestartingSystem κ) (name : Bytes)
    (helper : Helper PaletteWindow)
    (h : Reachable (RestartingSystem.Start setup) RestartingSystem.Promised (RestartingSystem.step setup) system)
    (hrunning : system.running = some (name, helper)) (hvisible : helper.window.visible = true) :
    system.addon.session.accepts name = true ∧ ∀ owner, .lost owner ∉ system.toAddon := by
  obtain ⟨hwired, hfollows⟩ := RestartingSystem.wired_and_follows h
  have hdisplay : display helper ≠ .hidden := fun hhidden => by
    cases hvisible.symm.trans (display_eq_hidden_iff.mp hhidden).2
  obtain ⟨other, howner, haccepts, hheard⟩ :=
    hwired.of_connected ((hfollows name helper hrunning).1.silent.connected_of_display hdisplay)
  rw [RestartingSystem.owner, hrunning] at howner
  obtain rfl := Option.some.inj howner
  exact ⟨haccepts, hheard⟩

/-- The second helper shows its window once it has read the `Show`. -/
theorem visible_restarted :
    let system := RestartingSystem.step oneEmoji (.toHelper desk) (RestartingSystem.run RestartingSystem.restart)
    system.addon.session.accepts [58, 51] = true ∧ ∀ owner, .lost owner ∉ system.toAddon := by
  intro system
  obtain ⟨⟨name, helper⟩, hrunning⟩ := Option.isSome_iff_exists.mp (show system.running.isSome = true by decide +kernel)
  have hname : system.running.map Prod.fst = some [58, 51] := by decide +kernel
  have hvisible : system.running.map (fun running => running.2.window.visible) = some true := by decide +kernel
  rw [hrunning] at hname hvisible
  obtain rfl : name = [58, 51] := Option.some.inj hname
  exact visible_across_restarts oneEmoji system _ helper
    (.step (RestartingSystem.reachable_run RestartingSystem.along_restart) trivial) hrunning (Option.some.inj hvisible)

end System

end EmojiPalette
