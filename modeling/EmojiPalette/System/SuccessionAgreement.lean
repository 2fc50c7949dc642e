import EmojiPalette.System.PeerWatch
import EmojiPalette.System.RestartAgreement

/-!
# Agreement from one addon to the next

What earlier addons have left in the queue to the helper stands before everything of the addon that runs. An addon that the helper has not greeted has asked for nothing, and one that it has greeted is watched, so the news of its end is behind its last frame. As long as any of it is left the addon that runs has agreed with nobody. From then on the two are those that do not restart. What the helper has said in between stands first in the queue to the addon, and nobody listens to it.
-/

namespace EmojiPalette

open Ipc Trace Addon Ui Handover

namespace System

def Setup.called (setup : Setup) (name : Bytes) (hname : name ≠ []) : Setup :=
  { setup with addonName := name, addonName_ne_nil := hname }

/-- A window that shows nothing has nothing to answer. -/
theorem Acted.of_hidden {catalog : EmojiCatalog} {chooses : Prop} {after : Display TransactionId}
    {messages : List AddonMessage} (h : Acted catalog chooses .hidden after messages) : after = .hidden ∧ messages = [] := by
  cases h with
  | nothing hafter => exact ⟨hafter, rfl⟩
  | chose _ _ _ hbefore => cases hbefore
  | cancelled _ _ hbefore => cases hbefore
  | closed hbefore => cases hbefore

/-- The frames of a sender. -/
def framesFrom (name : Bytes) (incoming : List Incoming) : List HelperFrame :=
  incoming.filterMap fun incoming =>
    match incoming with
    | .frame sender arrived => if sender = name then some arrived else none
    | .gone _ => none

theorem framesFrom_map (name : Bytes) (frames : List HelperFrame) : framesFrom name (frames.map (.frame name)) = frames := by
  simp [framesFrom]

/-! ### What is left of earlier addons -/

/-- Frames of others that ask for nothing. -/
def AskNothing (name : Bytes) (old : List Incoming) : Prop :=
  ∀ incoming ∈ old, ∃ sender arrived, incoming = .frame sender arrived ∧ sender ≠ name ∧
    (payloadOf arrived.frame).bind request = none

/-- The helper shows nothing and is not asked to, or its owner's last frame has the news of the end behind it. -/
inductive Retires (name : Bytes) (helper : Helper PaletteWindow) : List Incoming → Prop
  | quiet {old : List Incoming} (hhidden : display helper = .hidden) (hnothing : AskNothing name old) : Retires name helper old
  | owned {frames : List HelperFrame} {rest : List Incoming} (hrest : AskNothing name rest) :
      Retires name helper
        (frames.map (.frame helper.session.peerOwner) ++ .gone helper.session.peerOwner :: rest)

theorem askNothing_frames {sender name : Bytes} (hsender : sender ≠ name) {frames : List HelperFrame}
    (hframes : requests frames = []) : AskNothing name (frames.map (.frame sender)) := by
  intro incoming hmem
  obtain ⟨arrived, harrived, rfl⟩ := List.mem_map.mp hmem
  exact ⟨sender, arrived, rfl, hsender, List.filterMap_eq_nil_iff.mp hframes arrived harrived⟩

theorem AskNothing.append {name : Bytes} {old more : List Incoming} (h : AskNothing name old) (hmore : AskNothing name more) :
    AskNothing name (old ++ more) := fun incoming hmem => (List.mem_append.mp hmem).elim (h incoming) (hmore incoming)

theorem AskNothing.succeeds {name : Bytes} {old : List Incoming} (h : AskNothing name old) {next : Bytes}
    (hnext : ∀ sender arrived, .frame sender arrived ∈ old → sender ≠ next) : AskNothing next old := by
  intro incoming hmem
  obtain ⟨sender, arrived, rfl, _, hasks⟩ := h incoming hmem
  exact ⟨sender, arrived, rfl, hnext sender arrived hmem, hasks⟩

theorem Retires.gone {name owner : Bytes} {helper : Helper PaletteWindow} {rest : List Incoming}
    (h : Retires name helper (.gone owner :: rest)) : owner = helper.session.peerOwner ∧ AskNothing name rest := by
  generalize hold : Incoming.gone owner :: rest = old at h
  cases h with
  | quiet _ hnothing =>
      obtain ⟨sender, arrived, hframe, _⟩ := hnothing _ (hold ▸ List.mem_cons_self)
      cases hframe
  | @owned frames _ hrest =>
      cases frames with
      | nil =>
          cases hold
          exact ⟨rfl, hrest⟩
      | cons arrived frames => cases hold

theorem Retires.hidden {name : Bytes} {helper : Helper PaletteWindow} (h : Retires name helper []) :
    display helper = .hidden := by
  generalize hold : ([] : List Incoming) = old at h
  cases h with
  | quiet hhidden => exact hhidden
  | owned => simp at hold

/-- A frame at the head asks for nothing, or is the owner's with the news of the end still behind it. -/
theorem Retires.frame_cases {name sender : Bytes} {helper : Helper PaletteWindow} {arrived : HelperFrame}
    {rest : List Incoming} (h : Retires name helper (.frame sender arrived :: rest)) :
    (display helper = .hidden ∧ sender ≠ name ∧ (payloadOf arrived.frame).bind request = none ∧ AskNothing name rest) ∨
      sender = helper.session.peerOwner ∧ ∃ (frames : List HelperFrame) (more : List Incoming), AskNothing name more ∧
        rest = frames.map (.frame helper.session.peerOwner) ++ .gone helper.session.peerOwner :: more := by
  generalize hold : Incoming.frame sender arrived :: rest = old at h
  cases h with
  | quiet hhidden hnothing =>
      subst hold
      obtain ⟨_, _, hframe, hother, hasks⟩ := hnothing _ List.mem_cons_self
      cases hframe
      exact Or.inl ⟨hhidden, hother, hasks, fun incoming hmem => hnothing incoming (List.mem_cons_of_mem _ hmem)⟩
  | @owned frames more hmore =>
      cases frames with
      | nil => cases hold
      | cons arrived frames =>
          cases hold
          exact Or.inr ⟨rfl, frames, more, hmore, rfl⟩

theorem Retires.sender_ne {name sender : Bytes} {helper : Helper PaletteWindow} {arrived : HelperFrame}
    {rest : List Incoming} (h : Retires name helper (.frame sender arrived :: rest))
    (hforeign : helper.session.peerOwner ≠ name) : sender ≠ name := by
  rcases h.frame_cases with ⟨_, hother, _⟩ | ⟨howner, _⟩
  · exact hother
  · rwa [howner]

/-- What is not the news of an end changes nothing of how it ends. -/
theorem Retires.exchanged {setup : Setup} {desktop : Desktop} {name sender : Bytes} {helper : Helper PaletteWindow}
    {arrived : HelperFrame} {rest : List Incoming} {exchange : Helper.Exchange PaletteWindow}
    (h : Retires name helper (.frame sender arrived :: rest)) (hsound : Sound setup.installation.catalog helper)
    (hexchanged : Exchanged (PaletteWindow.calls setup.helperInstallation desktop) sender arrived.frame helper exchange) :
    Retires name exchange.helper rest := by
  rcases h.frame_cases with ⟨hhidden, _, hasks, hrest⟩ | ⟨rfl, frames, more, hmore, rfl⟩
  · have hacted := hexchanged.acted hsound (fun _ => hhidden) fun payload hpayload => by rwa [hpayload] at hasks
    rw [hhidden] at hacted
    exact .quiet hacted.of_hidden.1 hrest
  · have howner : exchange.helper.session.peerOwner = helper.session.peerOwner := or_self_iff.mp hexchanged.peerOwner
    rw [← howner]
    exact .owned hmore

namespace AddonSuccession

variable {κ : Type} {setup : Setup} {system : AddonSuccession κ} {surroundings : Surroundings κ}

/-! ### An earlier addon is not done with -/

/-- The addon that runs has agreed with nobody, and the helper is not its own. -/
structure Before (setup : Setup) (system : AddonSuccession κ) : Prop where
  addon : system.addon.WellFormed
  unready : system.addon.session.state ≠ .ready
  issued : ∀ transaction, system.addon.controller.transaction = some transaction → transaction ∈ system.issued
  helper : Sound setup.installation.catalog system.helper
  foreign : system.helper.session.peerOwner ≠ system.name
  frames : ∃ old current, system.toHelper = old ++ current.map (.frame system.name) ∧ requests current = [] ∧
    Retires system.name system.helper old
  messages : ∀ message ∈ system.toAddon, ∃ frame, message = .signal frame

theorem happening_ne_answer (happening : Happening κ) (serial : Nat) (sender : Bytes) (frame : Bytes) :
    happening.input ≠ .reply serial sender (.message (some frame)) := by
  cases happening <;> simp [Happening.input]

theorem Before.ran [DecidableEq κ] (h : Before setup system) (hlossless : Lossless system.issued surroundings)
    {input : EmojiPaletteAddon.Input κ} (hinput : ∀ serial sender frame, input ≠ .reply serial sender (.message (some frame)))
    {messages : List AddonMessage} (hmessages : ∀ message ∈ messages, message ∈ system.toAddon) :
    Before setup (runAddon setup surroundings input { system with toAddon := messages }) := by
  obtain ⟨old, current, hframes, hrequests, hretires⟩ := h.frames
  have hunready := unready_step setup.installation hlossless.callIssued hinput h.unready
  have hnew := requests_of_not_ready setup.installation hlossless.sends hlossless.callIssued h.addon
    (fun hready => absurd hready h.unready) input hunready
  generalize hran : EmojiPaletteAddon.step setup.installation surroundings input system.addon = ran at hunready hnew
  have haddon : ran.1.WellFormed := hran ▸ h.addon.step setup.installation surroundings input
  have hafter : runAddon setup surroundings input { system with toAddon := messages } = { system with
      addon := ran.1
      toHelper := system.toHelper ++ (helperFrames ran.2).map (.frame system.name)
      toAddon := messages
      issued := ran.1.controller.transaction.toList ++ system.issued } := by
    rw [← hran]
    rfl
  rw [hafter]
  refine {
    addon := haddon
    unready := hunready
    issued := fun transaction hactive => List.mem_append_left _ (Option.mem_toList.mpr hactive)
    helper := h.helper
    foreign := h.foreign
    frames := ⟨old, current ++ helperFrames ran.2, ?_, ?_, hretires⟩
    messages := fun message hmem => h.messages message (hmessages message hmem) }
  · rw [hframes, List.map_append, List.append_assoc]
  · rw [requests_append, hrequests, hnew, List.append_nil]

theorem Before.toAddon [DecidableEq κ] (h : Before setup system) (hlossless : Lossless system.issued surroundings) :
    Before setup (deliverToAddon setup surroundings system) := by
  cases hmessages : system.toAddon with
  | nil =>
      rw [deliverToAddon, hmessages]
      exact h
  | cons message rest =>
      obtain ⟨frame, rfl⟩ := h.messages message (hmessages ▸ List.mem_cons_self)
      rw [deliverToAddon, hmessages]
      exact h.ran hlossless (by simp) fun other hmem => hmessages ▸ List.mem_cons_of_mem _ hmem

theorem Before.point (h : Before setup system) (desktop : Desktop) (event : PaletteWindow.PointerEvent) :
    Before setup (point setup desktop event system) := by
  unfold AddonSuccession.point
  split
  swap
  · exact h
  rename_i hvisible
  obtain ⟨old, current, hframes, hrequests, hretires⟩ := h.frames
  obtain ⟨_, hsound⟩ := acted_runWindow h.helper (PaletteWindow.does_pointer desktop event system.helper.window)
  have howner := (owner_runWindow (PaletteWindow.calls setup.helperInstallation desktop)
    (PaletteWindow.pointer setup.helperInstallation desktop event system.helper.window) system.helper).1
  refine { h with
    helper := hsound
    foreign := fun hname => h.foreign (howner.symm.trans hname)
    frames := ⟨old, current, hframes, hrequests, ?_⟩
    messages := fun message hmem => (List.mem_append.mp hmem).elim (h.messages message) signal_of_mem }
  cases hretires with
  | quiet hhidden => cases hvisible.symm.trans (display_eq_hidden_iff.mp hhidden).2
  | owned hrest =>
      rw [← howner]
      exact .owned hrest

/-- The helper reads what an earlier addon has left. -/
theorem Before.reads (h : Before setup system) (hnamed : Named system) (desktop : Desktop) {incoming : Incoming}
    {rest : List Incoming} {current : List HelperFrame}
    (hframes : system.toHelper = incoming :: rest ++ current.map (.frame system.name)) (hrequests : requests current = [])
    (hretires : Retires system.name system.helper (incoming :: rest)) :
    Before setup (deliverToHelper setup desktop system) := by
  cases incoming with
  | gone owner =>
      obtain ⟨howner, hrest⟩ := hretires.gone
      rw [howner] at hframes
      rw [deliverToHelper_gone desktop hnamed.watched hframes]
      exact { h with
        helper := sound_of_none rfl (withinCatalog_hidePalette h.helper.withinCatalog)
        foreign := hnamed.name_ne_nil.symm
        frames := ⟨rest, current, rfl, hrequests, .quiet rfl hrest⟩ }
  | frame sender arrived =>
      have hsender : sender ≠ [] := fun hempty => hnamed.nonempty
        (hempty ▸ hnamed.senders sender arrived (hframes ▸ List.mem_cons_self))
      have hexchanged := exchanged_exchange (PaletteWindow.calls setup.helperInstallation desktop) hsender arrived.frame
        system.helper
      have hother : sender ≠ system.name := hretires.sender_ne h.foreign
      rw [deliverToHelper, hframes]
      dsimp only [List.cons_append]
      rw [if_neg hother, List.append_nil]
      refine { h with
        helper := hexchanged.sound h.helper
        foreign := ?_
        frames := ⟨rest, current, rfl, hrequests, hretires.exchanged h.helper hexchanged⟩
        messages := fun message hmem => (List.mem_append.mp hmem).elim (h.messages message) signal_of_mem }
      rcases hexchanged.peerOwner with hsame | hnew
      · rw [hsame]
        exact h.foreign
      · rw [hnew]
        exact hother

/-! ### The addon that runs and the helper -/

/-- The addon and the helper with what is between them. -/
def seen (current : List HelperFrame) (genuine : List AddonMessage) (system : AddonSuccession κ) : PaletteSystem κ where
  addon := system.addon
  helper := system.helper
  toHelper := current
  toAddon := genuine
  issued := system.issued

/-- Nothing of an earlier addon is left but what the helper has said, and to that nobody listens. -/
structure After (setup : Setup) (system : AddonSuccession κ) (hname : system.name ≠ []) (current : List HelperFrame)
    (stale genuine : List AddonMessage) : Prop where
  frames : system.toHelper = current.map (.frame system.name)
  messages : system.toAddon = stale ++ genuine
  signals : ∀ message ∈ stale, ∃ frame, message = .signal frame
  unready : stale ≠ [] → system.addon.session.state ≠ .ready
  inv : Inv (setup.called system.name hname) (system.seen current genuine)
  agreed : Agreed (handover (system.seen current genuine))

def Settled (setup : Setup) (system : AddonSuccession κ) : Prop :=
  ∃ hname current stale genuine, After setup system hname current stale genuine

/-- When the last of an earlier addon has been read, there is nothing between the two. -/
theorem Before.over (h : Before setup system) (hnamed : Named system) {current : List HelperFrame}
    (hframes : system.toHelper = current.map (.frame system.name)) (hrequests : requests current = [])
    (hhidden : display system.helper = .hidden) : After setup system hnamed.name_ne_nil current system.toAddon [] := by
  have hunconnected : connected system.addon = false := decide_eq_false h.unready
  have hnothing : handover (system.seen current []) = ⟨asked system.addon, false, .hidden, [], []⟩ := by
    simp only [handover, seen, hunconnected, hhidden, hrequests]
    rfl
  refine ⟨hframes, (List.append_nil _).symm, h.messages, fun _ => h.unready, ?_, agreed_of_unconnected hunconnected⟩
  refine inv_of_nothing h.addon h.helper hnothing (fun serial frame welcome hmem => ?_) (fun frame hmem => ?_) h.issued
  · cases hmem
  · cases hmem

section

variable {hname : system.name ≠ []} {current : List HelperFrame} {stale genuine : List AddonMessage}

theorem After.point (h : After setup system hname current stale genuine) (desktop : Desktop)
    (event : PaletteWindow.PointerEvent) : Settled setup (point setup desktop event system) := by
  have hinv := h.inv.pointer desktop event
  have hagreed := h.agreed.step (step_pointer h.inv desktop event)
  unfold PaletteSystem.point at hinv hagreed
  unfold AddonSuccession.point
  by_cases hvisible : system.helper.window.visible = true
  · have hseen : (system.seen current genuine).helper.window.visible = true := hvisible
    rw [if_pos hseen] at hinv hagreed
    rw [if_pos hvisible]
    have hmessages := congrArg (· ++ System.signals (Helper.runWindow (PaletteWindow.calls setup.helperInstallation desktop)
      (PaletteWindow.pointer setup.helperInstallation desktop event system.helper.window) system.helper).2) h.messages
    exact ⟨hname, current, stale, _, h.frames, hmessages.trans (List.append_assoc _ _ _), h.signals, h.unready, hinv,
      hagreed⟩
  · rw [if_neg hvisible]
    exact ⟨hname, current, stale, genuine, h⟩

theorem After.toHelper (h : After setup system hname current stale genuine) (desktop : Desktop) :
    Settled setup (deliverToHelper setup desktop system) := by
  have hinv := h.inv.toHelper desktop
  have hagreed := h.agreed.step (step_toHelper h.inv desktop)
  cases current with
  | nil =>
      rw [deliverToHelper, h.frames]
      exact ⟨hname, [], stale, genuine, h⟩
  | cons arrived rest =>
      have hframes : system.toHelper = .frame system.name arrived :: rest.map (.frame system.name) := h.frames
      rw [deliverToHelper, hframes]
      dsimp only
      rw [if_pos rfl, h.messages, List.append_assoc]
      exact ⟨hname, rest, stale, _, rfl, rfl, h.signals, h.unready, hinv, hagreed⟩

variable [DecidableEq κ]

/-- A run of the addon that is one of the two. -/
theorem settled_ran (hframes : system.toHelper = current.map (.frame system.name)) {input : EmojiPaletteAddon.Input κ}
    (hmessages : system.toAddon = stale ++ genuine) (hsignals : ∀ message ∈ stale, ∃ frame, message = .signal frame)
    (hunready : stale ≠ [] → (EmojiPaletteAddon.step setup.installation surroundings input system.addon).1.session.state ≠
      .ready)
    (hinv : Inv (setup.called system.name hname)
      (PaletteSystem.runAddon (setup.called system.name hname) surroundings input (system.seen current genuine)))
    (hagreed : Agreed (handover
      (PaletteSystem.runAddon (setup.called system.name hname) surroundings input (system.seen current genuine)))) :
    Settled setup (runAddon setup surroundings input system) := by
  refine ⟨hname, _, stale, genuine, ?_, hmessages, hsignals, hunready, hinv, hagreed⟩
  change system.toHelper ++ List.map (.frame system.name) _ = List.map (.frame system.name) (_ ++ _)
  rw [hframes, List.map_append]
  rfl

theorem After.happening (h : After setup system hname current stale genuine)
    (hlossless : Lossless system.issued surroundings) (happening : Happening κ) :
    Settled setup (runAddon setup surroundings happening.input system) :=
  settled_ran h.frames h.messages h.signals
    (fun hstale => unready_step setup.installation hlossless.callIssued (happening_ne_answer happening) (h.unready hstale))
    (h.inv.happening hlossless happening) (h.agreed.step (step_happening h.inv hlossless happening))

theorem After.toAddon (h : After setup system hname current stale genuine)
    (hlossless : Lossless system.issued surroundings) : Settled setup (deliverToAddon setup surroundings system) := by
  have hmessages := h.messages
  cases stale with
  | cons message rest =>
      -- Nothing happens, as with a group that has no layout.
      obtain ⟨frame, rfl⟩ := h.signals message List.mem_cons_self
      have hunready := h.unready (List.cons_ne_nil _ _)
      rw [deliverToAddon, hmessages]
      dsimp only [List.cons_append]
      have hnothing : runAddon setup surroundings (.frame setup.helperName (some frame))
          { system with toAddon := rest ++ genuine } =
          runAddon setup surroundings (Happening.groupChanged none).input { system with toAddon := rest ++ genuine } := by
        rw [runAddon, frame_of_unready hunready]
        rfl
      rw [hnothing]
      have hrest : After setup { system with toAddon := rest ++ genuine } hname current rest genuine :=
        ⟨h.frames, rfl, fun other hmem => h.signals other (List.mem_cons_of_mem _ hmem), fun _ => hunready, h.inv, h.agreed⟩
      exact hrest.happening hlossless _
  | nil =>
      have hinv := h.inv.toAddon hlossless
      have hagreed := h.agreed.step (step_toAddon h.inv hlossless)
      have hran : ∀ (input : EmojiPaletteAddon.Input κ) (rest : List AddonMessage),
          Inv (setup.called system.name hname)
            (PaletteSystem.runAddon (setup.called system.name hname) surroundings input (system.seen current rest)) →
          Agreed (handover
            (PaletteSystem.runAddon (setup.called system.name hname) surroundings input (system.seen current rest))) →
          Settled setup (runAddon setup surroundings input { system with toAddon := rest }) := by
        intro input rest hinv hagreed
        have hframes : { system with toAddon := rest }.toHelper = current.map (.frame { system with toAddon := rest }.name) :=
          h.frames
        exact settled_ran hframes rfl (fun _ hmem => by cases hmem) (fun hstale => absurd rfl hstale) hinv hagreed
      rw [deliverToAddon, hmessages]
      cases genuine with
      | nil => exact ⟨hname, current, [], [], h⟩
      | cons message rest =>
          cases message with
          | reply serial frame => exact hran _ rest hinv hagreed
          | signal frame => exact hran _ rest hinv hagreed

end

/-! ### The next addon -/

theorem before_succeed (hnamed : Named system) (hsound : Sound setup.installation.catalog system.helper) {name : Bytes}
    (hnonempty : name ≠ []) (hfresh : name ∉ system.names) (config : EmojiPaletteConfig) (layout : Option Bytes)
    (hretires : Retires name system.helper
      (system.toHelper ++ if system.watched = system.name then [.gone system.name] else [])) :
    Before setup (succeed setup name config layout system) where
  addon := EmojiPaletteAddon.wellFormed_initial setup.installation config layout
  unready := (initial_unready setup.installation config layout).1
  issued := fun transaction hactive => by cases (initial_unready setup.installation config layout).2.symm.trans hactive
  helper := hsound
  foreign := hnamed.peerOwner_ne hnonempty hfresh
  frames := ⟨_, [], (List.append_nil _).symm, rfl, hretires⟩
  messages := fun message hmem => by cases hmem

theorem Before.succeed (h : Before setup system) (hnamed : Named system) {name : Bytes} (hnonempty : name ≠ [])
    (hfresh : name ∉ system.names) (config : EmojiPaletteConfig) (layout : Option Bytes) :
    Before setup (succeed setup name config layout system) := by
  refine before_succeed hnamed h.helper hnonempty hfresh config layout ?_
  obtain ⟨old, current, hframes, hrequests, hretires⟩ := h.frames
  have hsenders : ∀ sender arrived, .frame sender arrived ∈ system.toHelper → sender ≠ name := by
    rintro sender arrived hmem rfl
    exact hfresh (hnamed.senders sender arrived hmem)
  have hcurrent : AskNothing name (current.map (.frame system.name)) :=
    askNothing_frames (ne_of_mem_of_not_mem hnamed.name hfresh) hrequests
  rw [if_neg fun hwatched => h.foreign (hnamed.watched.symm.trans hwatched), List.append_nil, hframes]
  rw [hframes] at hsenders
  cases hretires with
  | quiet hhidden hnothing =>
      refine .quiet hhidden ((hnothing.succeeds fun sender arrived hmem => ?_).append hcurrent)
      exact hsenders sender arrived (List.mem_append_left _ hmem)
  | owned hrest =>
      rw [List.append_assoc, List.cons_append]
      refine .owned ((hrest.succeeds fun sender arrived hmem => ?_).append hcurrent)
      exact hsenders sender arrived (List.mem_append_left _ (List.mem_append_right _ (List.mem_cons_of_mem _ hmem)))

/-- The helper of an addon that it has greeted hears of the end. Another addon has asked for nothing. -/
theorem After.succeed {hname : system.name ≠ []} {current : List HelperFrame} {stale genuine : List AddonMessage}
    (h : After setup system hname current stale genuine) (hnamed : Named system) {name : Bytes} (hnonempty : name ≠ [])
    (hfresh : name ∉ system.names) (config : EmojiPaletteConfig) (layout : Option Bytes) :
    Before setup (succeed setup name config layout system) := by
  have hsound : Sound setup.installation.catalog system.helper := h.inv.helper
  refine before_succeed hnamed hsound hnonempty hfresh config layout ?_
  rw [h.frames, hnamed.watched]
  by_cases howner : system.helper.session.peerOwner = system.name
  · rw [if_pos howner, ← howner]
    exact .owned fun _ hmem => by cases hmem
  · have hunconnected : connected system.addon = false := by
      refine decide_eq_false fun hready => howner ?_
      exact (h.inv.bound (Or.inl hready)).2
    obtain ⟨hhidden, hrequests, _⟩ := h.inv.silent hunconnected
    rw [if_neg howner, List.append_nil]
    exact .quiet hhidden (askNothing_frames (ne_of_mem_of_not_mem hnamed.name hfresh) hrequests)

/-! ### All events -/

/-- The first addon and the helper are two that do not restart. -/
theorem settled_start (h : Start setup system) : Settled setup system := by
  obtain ⟨config, layout, desktop, state, cellSize, rfl⟩ := h
  have hstart : System.Start setup (seen [] [] (AddonSuccession.initial setup config layout desktop state cellSize : AddonSuccession κ)) :=
    ⟨config, layout, desktop, state, cellSize, rfl⟩
  refine ⟨setup.addonName_ne_nil, [], [], [], rfl, rfl, fun _ hmem => (by cases hmem), fun hstale => absurd rfl hstale,
    inv_start hstart, agreed_of_unconnected ?_⟩
  exact congrArg State.connected (handover_start hstart)

/-- What is shown is the running addon's, or its owner's end will be heard of. -/
theorem owned_of_display (h : Before setup system ∨ Settled setup system) (hdisplay : display system.helper ≠ .hidden) :
    system.addon.session.accepts setup.helperName = true ∧ system.helper.session.peerOwner = system.name ∨
      system.helper.session.peerOwner ≠ system.name ∧ .gone system.helper.session.peerOwner ∈ system.toHelper := by
  rcases h with hbefore | ⟨_, current, stale, genuine, hafter⟩
  · obtain ⟨old, current, hframes, _, hretires⟩ := hbefore.frames
    refine Or.inr ⟨hbefore.foreign, ?_⟩
    rw [hframes]
    cases hretires with
    | quiet hhidden => exact absurd hhidden hdisplay
    | owned => simp
  · have hready := connected_eq_true_iff.mp (hafter.inv.silent.connected_of_display hdisplay)
    exact Or.inl ⟨(hafter.inv.peered hready).1, (hafter.inv.bound (Or.inl hready)).2⟩

variable [DecidableEq κ]

theorem before_or_settled_step (hnamed : Named system) (h : Before setup system ∨ Settled setup system) {event : Event κ}
    (hpromised : Promised system event) :
    Before setup (step setup event system) ∨ Settled setup (step setup event system) := by
  rcases h with hbefore | ⟨_, current, stale, genuine, hafter⟩
  · cases event with
    | addon surroundings happening =>
        exact Or.inl (hbefore.ran hpromised (happening_ne_answer happening) fun _ hmem => hmem)
    | pointer desktop event => exact Or.inl (hbefore.point desktop event)
    | toHelper desktop =>
        obtain ⟨old, current, hframes, hrequests, hretires⟩ := hbefore.frames
        cases old with
        | nil => exact Or.inr ((hbefore.over hnamed hframes hrequests hretires.hidden).toHelper desktop)
        | cons incoming rest => exact Or.inl (hbefore.reads hnamed desktop hframes hrequests hretires)
    | toAddon surroundings => exact Or.inl (hbefore.toAddon hpromised)
    | succeeds name config layout => exact Or.inl (hbefore.succeed hnamed hpromised.1 hpromised.2 config layout)
  · cases event with
    | addon surroundings happening => exact Or.inr (hafter.happening hpromised happening)
    | pointer desktop event => exact Or.inr (hafter.point desktop event)
    | toHelper desktop => exact Or.inr (hafter.toHelper desktop)
    | toAddon surroundings => exact Or.inr (hafter.toAddon hpromised)
    | succeeds name config layout => exact Or.inl (hafter.succeed hnamed hpromised.1 hpromised.2 config layout)

theorem named_reachable (h : Reachable (Start setup) Promised (AddonSuccession.step setup) system) :
    Named system ∧ (Before setup system ∨ Settled setup system) := by
  induction h with
  | start hstart => exact ⟨named_start hstart, Or.inr (settled_start hstart)⟩
  | step _ hpromised ih => exact ⟨ih.1.step hpromised, before_or_settled_step ih.1 ih.2 hpromised⟩

/-- The helper reads frames. Nothing else happens. -/
theorem foldl_deliverToHelper (h : Reachable (Start setup) Promised (AddonSuccession.step setup) system)
    (desktops : List Desktop) :
    let read := desktops.foldl (fun system desktop => deliverToHelper setup desktop system) system
    Reachable (Start setup) Promised (AddonSuccession.step setup) read ∧ read.addon = system.addon ∧
      read.toHelper = system.toHelper.drop desktops.length := by
  induction desktops generalizing system with
  | nil => exact ⟨h, rfl, rfl⟩
  | cons desktop rest ih =>
      have hone : (deliverToHelper setup desktop system).addon = system.addon ∧
          (deliverToHelper setup desktop system).toHelper = system.toHelper.tail := by
        unfold deliverToHelper
        split
        · rename_i hframes
          exact ⟨rfl, by rw [hframes]; rfl⟩
        · rename_i hframes
          rw [hframes]
          split <;> exact ⟨rfl, rfl⟩
        · rename_i hframes
          exact ⟨rfl, by rw [hframes]; rfl⟩
      obtain ⟨hreachable, haddon, hframes⟩ := ih (h.step (show Promised system (.toHelper desktop) from trivial))
      refine ⟨hreachable, haddon.trans hone.1, hframes.trans ?_⟩
      rw [List.length_cons, ← List.drop_tail]
      exact congrArg (List.drop rest.length) hone.2

end AddonSuccession

/-! ### A run -/

namespace AddonSuccession

def run (events : List (Event Unit)) : AddonSuccession Unit :=
  events.foldl (fun system event => AddonSuccession.step oneEmoji event system)
    (.initial oneEmoji ⟨[⟨0x2E, 64, 0⟩], true⟩ none desk ⟨[], []⟩ 48)

/-- The palette opens. -/
def opening : List (Event Unit) := [.addon first press, .toHelper desk, .toAddon second, .toHelper desk]

/-- The addon is gone with its palette open, and the next one opens its own. -/
def reopening : List (Event Unit) :=
  opening ++ [.succeeds [58, 52] ⟨[⟨0x2E, 64, 0⟩], true⟩ none, .addon second press, .toHelper desk, .toHelper desk,
    .toAddon RestartingSystem.third]

theorem reachable_run {events : List (Event Unit)} (h : Along Promised (AddonSuccession.step oneEmoji) events (run [])) :
    Reachable (Start oneEmoji) Promised (AddonSuccession.step oneEmoji) (run events) :=
  .run events (.start ⟨_, _, _, _, _, rfl⟩) h

theorem along_opening : Along Promised (AddonSuccession.step oneEmoji) opening (run []) :=
  ⟨⟨fun _ => rfl, rfl, by decide +kernel⟩, trivial, ⟨fun _ => rfl, rfl, by decide +kernel⟩, trivial, trivial⟩

theorem along_reopening : Along Promised (AddonSuccession.step oneEmoji) reopening (run []) :=
  ⟨⟨fun _ => rfl, rfl, by decide +kernel⟩, trivial, ⟨fun _ => rfl, rfl, by decide +kernel⟩, trivial,
    ⟨by decide, by decide +kernel⟩, ⟨fun _ => rfl, rfl, by decide +kernel⟩, trivial, trivial,
    ⟨fun _ => rfl, rfl, by decide +kernel⟩, trivial⟩

end AddonSuccession

/-- An active transaction of a ready session is the helper's, or its `Show` or its answer is on the way, whichever addons there have been before. Nothing of theirs is left. -/
theorem agreement_across_addons {κ : Type} [DecidableEq κ] (setup : Setup) (system : AddonSuccession κ)
    (transaction : TransactionId)
    (h : Reachable (AddonSuccession.Start setup) AddonSuccession.Promised (AddonSuccession.step setup) system)
    (hactive : system.addon.controller.transaction = some transaction) (hready : system.addon.session.state = .ready) :
    system.helper.session.peerOwner = system.name ∧
      (∀ incoming ∈ system.toHelper, ∃ arrived, incoming = .frame system.name arrived) ∧
      (system.helper.session.transaction = some transaction ∨
        ShowSent transaction (framesFrom system.name system.toHelper) ∨ AnswerSent transaction system.toAddon) := by
  obtain ⟨_, hbefore | ⟨_, current, stale, genuine, hafter⟩⟩ := AddonSuccession.named_reachable h
  · exact absurd hready hbefore.unready
  obtain rfl : stale = [] := by
    by_contra hstale
    exact hafter.unready hstale hready
  refine ⟨(hafter.inv.bound (Or.inl hready)).2, fun incoming hmem => ?_, ?_⟩
  · rw [hafter.frames] at hmem
    obtain ⟨arrived, _, rfl⟩ := List.mem_map.mp hmem
    exact ⟨arrived, rfl⟩
  · have hmessages : system.toAddon = genuine := hafter.messages
    rw [hafter.frames, framesFrom_map, hmessages]
    exact means_of_agreed hafter.agreed (connected_eq_true_iff.mpr hready) hactive

/-- The next addon has agreed with the helper, and its `Show` is on the way. -/
theorem agreement_reopened :
    let system := AddonSuccession.run AddonSuccession.reopening
    system.helper.session.peerOwner = system.name ∧
      (∀ incoming ∈ system.toHelper, ∃ arrived, incoming = .frame system.name arrived) ∧
      (system.helper.session.transaction = some second.transaction ∨
        ShowSent second.transaction (framesFrom system.name system.toHelper) ∨
          AnswerSent second.transaction system.toAddon) :=
  agreement_across_addons oneEmoji _ _ (AddonSuccession.reachable_run AddonSuccession.along_reopening) (by decide +kernel)
    (by decide +kernel)

/-- A window is visible only while the running addon's session is the helper's, or until the news is heard that its addon is gone, which is on the way and will be heard. -/
theorem visible_across_addons {κ : Type} [DecidableEq κ] (setup : Setup) (system : AddonSuccession κ)
    (h : Reachable (AddonSuccession.Start setup) AddonSuccession.Promised (AddonSuccession.step setup) system)
    (hvisible : system.helper.window.visible = true) :
    system.watched = system.helper.session.peerOwner ∧
      (system.addon.session.accepts setup.helperName = true ∧ system.helper.session.peerOwner = system.name ∨
        system.helper.session.peerOwner ≠ system.name ∧ .gone system.helper.session.peerOwner ∈ system.toHelper) := by
  obtain ⟨hnamed, hsettled⟩ := AddonSuccession.named_reachable h
  refine ⟨hnamed.watched, AddonSuccession.owned_of_display hsettled fun hhidden => ?_⟩
  cases hvisible.symm.trans (display_eq_hidden_iff.mp hhidden).2

/-- The palette of the addon that is gone is still open. -/
theorem visible_leftOpen :
    let system := (AddonSuccession.run AddonSuccession.opening).succeed oneEmoji [58, 52] ⟨[⟨0x2E, 64, 0⟩], true⟩ none
    system.watched = system.helper.session.peerOwner ∧
      (system.addon.session.accepts oneEmoji.helperName = true ∧ system.helper.session.peerOwner = system.name ∨
        system.helper.session.peerOwner ≠ system.name ∧ .gone system.helper.session.peerOwner ∈ system.toHelper) := by
  intro system
  have hpromised : AddonSuccession.Promised (AddonSuccession.run AddonSuccession.opening)
      (.succeeds [58, 52] ⟨[⟨0x2E, 64, 0⟩], true⟩ none) := ⟨by decide, by decide +kernel⟩
  exact visible_across_addons oneEmoji system
    (.step (AddonSuccession.reachable_run AddonSuccession.along_opening) hpromised) (by decide +kernel)

/-- Whatever an addon has left open, its end closes: the helper shows nothing any more once it has read what was on the way. -/
theorem closes_across_addons {κ : Type} [DecidableEq κ] (setup : Setup) (system : AddonSuccession κ) (name : Bytes)
    (config : EmojiPaletteConfig) (layout : Option Bytes) (desktops : List Desktop)
    (h : Reachable (AddonSuccession.Start setup) AddonSuccession.Promised (AddonSuccession.step setup) system)
    (hnonempty : name ≠ []) (hfresh : name ∉ system.names) :
    let succeeded := system.succeed setup name config layout
    let read := desktops.foldl (fun system desktop => system.deliverToHelper setup desktop) succeeded
    succeeded.toHelper.length ≤ desktops.length →
      read.helper.session.transaction = none ∧ read.helper.window.visible = false := by
  intro succeeded read hlength
  have hsucceeded : Reachable (AddonSuccession.Start setup) AddonSuccession.Promised (AddonSuccession.step setup) succeeded :=
    h.step (show AddonSuccession.Promised system (.succeeds name config layout) from ⟨hnonempty, hfresh⟩)
  obtain ⟨hreachable, haddon, hframes⟩ := AddonSuccession.foldl_deliverToHelper hsucceeded desktops
  rw [List.drop_eq_nil_of_le hlength] at hframes
  rw [← display_eq_hidden_iff]
  by_contra hdisplay
  rcases AddonSuccession.owned_of_display (AddonSuccession.named_reachable hreachable).2 hdisplay with
    ⟨haccepts, _⟩ | ⟨_, hmem⟩
  · rw [haddon] at haccepts
    simp only [PeerSession.accepts, Bool.and_eq_true, decide_eq_true_eq] at haccepts
    exact (initial_unready setup.installation config layout).1 haccepts.1
  · rw [hframes] at hmem
    cases hmem

theorem closes_leftOpen :
    let succeeded := (AddonSuccession.run AddonSuccession.opening).succeed oneEmoji [58, 52] ⟨[⟨0x2E, 64, 0⟩], true⟩ none
    let read := [desk].foldl (fun system desktop => system.deliverToHelper oneEmoji desktop) succeeded
    read.helper.session.transaction = none ∧ read.helper.window.visible = false :=
  closes_across_addons oneEmoji (AddonSuccession.run AddonSuccession.opening) [58, 52] ⟨[⟨0x2E, 64, 0⟩], true⟩ none [desk]
    (AddonSuccession.reachable_run AddonSuccession.along_opening) (by decide) (by decide +kernel) (by decide +kernel)

end System

end EmojiPalette
