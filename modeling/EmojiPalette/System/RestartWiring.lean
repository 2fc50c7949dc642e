import EmojiPalette.System.BusNews

/-!
# Names and numbers

What the names of the helpers and the numbers of the calls say about a state, whatever the two sides mean by their messages. A session that is ready is the running helper's, with all news of earlier ends heard, or the news that its owner is gone is on the way. No greeting is on its way to a helper any more when its answer is. So a helper that has been greeted while the addon still believes in an earlier one will not be believed.
-/

namespace EmojiPalette

open Ipc Trace Addon Ui

namespace System

namespace RestartingSystem

variable {κ : Type}

/-- The name of the helper that runs. -/
def owner (system : RestartingSystem κ) : Option Bytes := system.running.map Prod.fst

structure Wired (system : RestartingSystem κ) : Prop where
  addon : system.addon.WellFormed
  issued : ∀ transaction, system.addon.controller.transaction = some transaction → transaction ∈ system.issued
  greetings : ∀ arrived ∈ system.toHelper, arrived.serial = none → ¬ Greeting arrived.frame
  behind : requests (fromCall system.toHelper) = []
  distinct : (callsIn system.toHelper ++ repliesIn system.toAddon).Nodup
  serials : ∀ serial ∈ callsIn system.toHelper ++ repliesIn system.toAddon, serial ∈ system.serials
  pending : ∀ call, system.addon.pendingCall = some call →
    ∀ serial ∈ (callsIn system.toHelper).getLast?, serial = call.serial
  ready : system.addon.session.state = .ready → system.addon.pendingCall = none ∧ callsIn system.toHelper = [] ∧
    ∃ owner, owner ≠ [] ∧ system.addon.session.accepts owner = true ∧ Upheld system.owner owner system.toAddon
  sourced : Sourced system.owner system.toAddon
  names : ∀ message ∈ system.toAddon, message.name ∈ system.names
  nonempty : [] ∉ system.names
  runs : ∀ name ∈ system.owner, name ∈ system.names ∧ .lost name ∉ system.toAddon
  greeted : ∀ name helper, system.running = some (name, helper) → helper.session.negotiated = true →
    (system.addon.session.state = .ready → system.addon.session.accepts name = true) ∧
    ∀ call, system.addon.pendingCall = some call →
      ∀ sender frame, .reply sender call.serial frame ∈ system.toAddon → sender = name

variable {setup : Setup} {system : RestartingSystem κ} {surroundings : Surroundings κ}

/-! ### The addon runs -/

/-- The session that is ready after a run of the addon is as the bus has it. -/
structure Vouched (system : RestartingSystem κ) (messages : List BusMessage)
    (ran : EmojiPaletteAddon κ × List (Output κ)) : Prop where
  pending : ran.1.pendingCall = none
  calls : callsIn (system.toHelper ++ helperFrames ran.2) = []
  owner : ∃ owner, owner ≠ [] ∧ ran.1.session.accepts owner = true ∧ Upheld system.owner owner messages
  greeted : ∀ name helper, system.running = some (name, helper) → helper.session.negotiated = true →
    ran.1.session.accepts name = true

/-- A session that was ready before. -/
theorem Wired.vouched (h : Wired system) {messages : List BusMessage} {ran : EmojiPaletteAddon κ × List (Output κ)}
    (hplain : Plain ran.2) (hsession : ran.1.session = system.addon.session)
    (hcall : system.addon.pendingCall = none → ran.1.pendingCall = none) (hready : ran.1.session.state = .ready)
    (hupheld : ∀ owner, system.addon.session.accepts owner = true → Upheld system.owner owner system.toAddon →
      Upheld system.owner owner messages) : Vouched system messages ran := by
  rw [hsession] at hready
  obtain ⟨hnone, hcalls, owner, hnonempty, haccepts, howner⟩ := h.ready hready
  refine ⟨hcall hnone, ?_, ⟨owner, hnonempty, hsession ▸ haccepts, hupheld owner haccepts howner⟩, ?_⟩
  · rw [callsIn_append, hcalls, callsIn_of_plain hplain]
    rfl
  · intro name helper hrunning hnegotiated
    exact hsession ▸ (h.greeted name helper hrunning hnegotiated).1 hready

/-- With the `Welcome` to the call that is waited for no call is on its way any more. -/
theorem Wired.welcomed (h : Wired system) {sender frame : Bytes} {call : PendingCall κ} {rest : List BusMessage}
    (hmessages : system.toAddon = .reply sender call.serial frame :: rest) (hcall : system.addon.pendingCall = some call)
    {ran : EmojiPaletteAddon κ × List (Output κ)} (hplain : Plain ran.2) (hnone : ran.1.pendingCall = none)
    (haccepts : ran.1.session.accepts sender = true) : Vouched system rest ran := by
  have hreply : .reply sender call.serial frame ∈ system.toAddon := hmessages ▸ List.mem_cons_self
  have hcalls : callsIn system.toHelper = [] := by
    by_contra hsome
    have hlast := h.pending call hcall _ (List.getLast?_eq_getLast_of_ne_nil hsome)
    have hmem : call.serial ∈ callsIn system.toHelper := hlast ▸ List.getLast_mem hsome
    exact (List.nodup_append.mp h.distinct).2.2 _ hmem _ (List.mem_filterMap.mpr ⟨_, hreply, rfl⟩) rfl
  have hsourced := h.sourced
  rw [hmessages] at hsourced
  refine ⟨hnone, ?_, ⟨sender, fun hempty => ?_, haccepts, hsourced.1 sender rfl⟩, fun name helper hrunning hnegotiated => ?_⟩
  · rw [callsIn_append, hcalls, callsIn_of_plain hplain]
    rfl
  · exact h.nonempty (hempty ▸ h.names _ hreply)
  · exact (h.greeted name helper hrunning hnegotiated).2 call hcall sender frame hreply ▸ haccepts

section

variable [DecidableEq κ]

/-- A run of the addon that starts from the messages after the first ones. -/
theorem Wired.ran (h : Wired system) (hlossless : Lossless system surroundings) {input : EmojiPaletteAddon.Input κ}
    {first messages : List BusMessage} (hmessages : system.toAddon = first ++ messages)
    (hready : ∀ ran, Greets surroundings input system.addon ran → ran.1.session.state = .ready →
      Vouched system messages ran) :
    Wired (runAddon setup surroundings input { system with toAddon := messages }) := by
  have hissued := hlossless.lossless.callIssued
  have hgreets := greets_step setup.installation hissued input system.addon
  have haddon := h.addon.step setup.installation surroundings input
  have hrequests := requests_of_not_ready setup.installation hlossless.lossless.sends hissued h.addon
    (fun hready => (h.ready hready).1) input
  have hbelow : ∀ message ∈ messages, message ∈ system.toAddon := fun message hmem =>
    hmessages ▸ List.mem_append_right first hmem
  have hsublist : (callsIn system.toHelper ++ repliesIn messages).Sublist
      (callsIn system.toHelper ++ repliesIn system.toAddon) := by
    rw [hmessages, repliesIn_append]
    exact (List.sublist_append_right _ _).append_left _
  unfold runAddon
  dsimp only
  generalize EmojiPaletteAddon.step setup.installation surroundings input system.addon = ran
    at hgreets haddon hrequests ⊢
  have hcalls := hgreets.calls
  refine {
    addon := haddon
    issued := fun transaction htransaction => List.mem_append_left _ (Option.mem_toList.mpr htransaction)
    greetings := fun arrived hmem => ?_
    behind := ?_
    distinct := ?_
    serials := fun serial hmem => ?_
    pending := fun call hcall => ?_
    ready := fun hafter => ?_
    sourced := ?_
    names := fun message hmem => h.names message (hbelow message hmem)
    nonempty := h.nonempty
    runs := fun name hname => ⟨(h.runs name hname).1, fun hlost => (h.runs name hname).2 (hbelow _ hlost)⟩
    greeted := fun name helper hrunning hnegotiated => ⟨fun hafter => ?_, fun call hcall sender frame hmem => ?_⟩ }
  · rcases List.mem_append.mp hmem with hbefore | hnew
    · exact h.greetings arrived hbefore
    · exact hgreets.not_greeting arrived hnew
  · by_cases hafter : ran.1.session.state = .ready
    · change requests (fromCall (system.toHelper ++ helperFrames ran.2)) = []
      rw [fromCall_of_callsIn (hready ran hgreets hafter).calls]
      rfl
    · exact requests_fromCall_append h.behind (hrequests hafter)
  · have hnodup := h.distinct.sublist hsublist
    rcases hcalls with ⟨hnone, _⟩ | ⟨hone, _⟩
    · rwa [callsIn_append, hnone, List.append_nil]
    · rw [callsIn_append, hone, List.append_assoc, List.singleton_append, List.nodup_middle]
      exact List.nodup_cons.mpr ⟨fun hmem => hlossless.serial (h.serials _ (hsublist.subset hmem)), hnodup⟩
  · rw [callsIn_append, List.append_assoc] at hmem
    rcases List.mem_append.mp hmem with hbefore | hmem
    · exact List.mem_append_right _ (h.serials serial (List.mem_append_left _ hbefore))
    rcases List.mem_append.mp hmem with hnew | hreply
    · exact List.mem_append_left _ hnew
    · exact List.mem_append_right _ (h.serials serial (hsublist.subset (List.mem_append_right _ hreply)))
  · rcases hcalls with ⟨hnone, hkept⟩ | ⟨hone, hnew⟩
    · rw [callsIn_append, hnone, List.append_nil]
      exact h.pending call (hkept call hcall)
    · rw [callsIn_append, hone, hnew call hcall]
      simp
  · have hvouched := hready ran hgreets hafter
    exact ⟨hvouched.pending, hvouched.calls, hvouched.owner⟩
  · have hsourced := h.sourced
    rw [hmessages] at hsourced
    exact hsourced.of_append
  · exact (hready ran hgreets hafter).greeted name helper hrunning hnegotiated
  · rcases hcalls with ⟨_, hkept⟩ | ⟨_, hnew⟩
    · exact (h.greeted name helper hrunning hnegotiated).2 call (hkept call hcall) sender frame (hbelow _ hmem)
    · rw [hnew call hcall] at hmem
      have hreply : surroundings.serial ∈ repliesIn system.toAddon :=
        List.mem_filterMap.mpr ⟨_, hbelow _ hmem, rfl⟩
      exact absurd (h.serials _ (List.mem_append_right _ hreply)) hlossless.serial

/-- What comes from elsewhere makes no session ready. -/
theorem Wired.happening (h : Wired system) (hlossless : Lossless system surroundings) (happening : Happening κ) :
    Wired (runAddon setup surroundings happening.input system) := by
  refine h.ran hlossless (List.nil_append _).symm fun ran hgreets hready => ?_
  cases hgreets with
  | plain hplain hpeer =>
      exact h.vouched hplain (congrArg Prod.fst hpeer) (fun hnone => (congrArg Prod.snd hpeer).trans hnone) hready
        fun _ _ hupheld => hupheld
  | greets context transaction hunready hsession => exact absurd (hsession ▸ hready) hunready
  | answered call sender answer hcall hinput hplain hnone hsession =>
      rcases hsession with hsession | hunready | ⟨_, frame, hanswer⟩
      · have hbefore := (h.ready (hsession ▸ hready)).1
        cases hbefore.symm.trans hcall
      · exact absurd hready hunready
      · cases happening <;> cases hinput
        cases hanswer
  | ownerChanged oldOwner newOwner hinput => cases happening <;> cases hinput

theorem Wired.toAddon (h : Wired system) (hlossless : Lossless system surroundings) :
    Wired (deliverToAddon setup surroundings system) := by
  unfold deliverToAddon
  split
  · exact h
  rename_i message rest hmessages
  refine h.ran hlossless (show system.toAddon = [message] ++ rest from hmessages) fun ran hgreets hready => ?_
  cases hgreets with
  | plain hplain hpeer hinput =>
      refine h.vouched hplain (congrArg Prod.fst hpeer) (fun hnone => (congrArg Prod.snd hpeer).trans hnone) hready
        fun owner _ hupheld => ?_
      rw [hmessages] at hupheld
      refine hupheld.tail ?_
      rintro rfl
      exact hinput owner [] rfl
  | greets context transaction hunready hsession => exact absurd (hsession ▸ hready) hunready
  | answered call sender answer hcall hinput hplain hnone hsession =>
      rcases hsession with hsession | hunready | ⟨haccepts, _⟩
      · have hbefore := (h.ready (hsession ▸ hready)).1
        cases hbefore.symm.trans hcall
      · exact absurd hready hunready
      · cases message with
        | reply other serial frame =>
            cases hinput
            exact h.welcomed hmessages hcall hplain hnone haccepts
        | _ => cases hinput
  | ownerChanged oldOwner newOwner hinput hplain hsession hcall =>
      rcases hsession with ⟨hsession, hother⟩ | hunready
      · refine h.vouched hplain hsession (fun hnone => ?_) hready fun owner haccepts hupheld => ?_
        · rw [hcall]
          split
          · rfl
          · exact hnone
        · rw [hmessages] at hupheld
          refine hupheld.tail ?_
          rintro rfl
          cases hinput
          have hnonempty : oldOwner ≠ [] := fun hempty =>
            h.nonempty (hempty ▸ h.names (.lost oldOwner) (hmessages ▸ List.mem_cons_self))
          cases (hother hnonempty).symm.trans haccepts
      · exact absurd hready hunready

end

/-! ### The helper runs -/

/-- The running helper has read the first frames and sends messages, among them the replies to the calls. -/
theorem Wired.sent (h : Wired system) {name : Bytes} {helper after : Helper PaletteWindow}
    (hrunning : system.running = some (name, helper)) {first frames : List HelperFrame}
    (hframes : system.toHelper = first ++ frames) {sent : List AddonMessage}
    (hreplies : repliesIn (sent.map (.sentBy name)) = callsIn first)
    (hnegotiated : after.session.negotiated = true → helper.session.negotiated = true ∨ callsIn first ≠ []) :
    Wired { system with
      running := some (name, after), toHelper := frames, toAddon := system.toAddon ++ sent.map (.sentBy name) } := by
  have howner : system.owner = some name := by rw [owner, hrunning]; rfl
  have hcalls : callsIn system.toHelper = callsIn first ++ callsIn frames := by rw [hframes, callsIn_append]
  have hnolost : ∀ other, .lost other ∉ sent.map (BusMessage.sentBy name) := by
    intro other hmem
    obtain ⟨message, _, hmessage⟩ := List.mem_map.mp hmem
    exact BusMessage.sentBy_ne_lost name other message hmessage
  have hperm : (callsIn frames ++ repliesIn (system.toAddon ++ sent.map (.sentBy name))).Perm
      (callsIn system.toHelper ++ repliesIn system.toAddon) := by
    rw [repliesIn_append, hreplies, hcalls, ← List.append_assoc, List.append_assoc (callsIn first)]
    exact List.perm_append_comm
  have hlast : ∀ serial ∈ (callsIn frames).getLast?, serial ∈ (callsIn system.toHelper).getLast? := by
    intro serial hserial
    rw [hcalls, List.getLast?_append, hserial]
    rfl
  refine {
    addon := h.addon
    issued := h.issued
    greetings := fun arrived hmem => h.greetings arrived (hframes ▸ List.mem_append_right first hmem)
    behind := requests_fromCall_drop (hframes ▸ h.behind)
    distinct := hperm.nodup_iff.mpr h.distinct
    serials := fun serial hmem => h.serials serial (hperm.subset hmem)
    pending := fun call hcall serial hserial => h.pending call hcall serial (hlast serial hserial)
    ready := fun hready => ?_
    sourced := ?_
    names := fun message hmem => ?_
    nonempty := h.nonempty
    runs := fun other hother => ?_
    greeted := fun other helper' hother hafter => ?_ }
  · obtain ⟨hnone, hempty, owner, hnonempty, haccepts, hupheld⟩ := h.ready hready
    refine ⟨hnone, (List.append_eq_nil_iff.mp (hcalls.symm.trans hempty)).2, owner, hnonempty, haccepts, ?_⟩
    rw [howner] at hupheld
    exact hupheld.append hnolost
  · have hsourced := h.sourced
    rw [howner] at hsourced
    exact hsourced.append_sentBy sent
  · rcases List.mem_append.mp hmem with hbefore | hnew
    · exact h.names message hbefore
    · obtain ⟨inner, _, rfl⟩ := List.mem_map.mp hnew
      rw [BusMessage.name_sentBy]
      exact (h.runs name howner).1
  · obtain rfl := Option.some.inj hother
    refine ⟨(h.runs name howner).1, fun hlost => ?_⟩
    exact (List.mem_append.mp hlost).elim (h.runs name howner).2 (hnolost name)
  · cases hother
    have hsender : ∀ sender serial frame, .reply sender serial frame ∈ sent.map (BusMessage.sentBy name) → sender = name := by
      intro sender serial frame hmem
      obtain ⟨message, _, hmessage⟩ := List.mem_map.mp hmem
      have hname := BusMessage.name_sentBy name message
      rw [hmessage] at hname
      exact hname
    rcases hnegotiated hafter with hbefore | hcalled
    · obtain ⟨hbelieved, hpending⟩ := h.greeted name helper hrunning hbefore
      refine ⟨hbelieved, fun call hcall sender frame hmem => ?_⟩
      exact (List.mem_append.mp hmem).elim (hpending call hcall sender frame) (hsender sender call.serial frame)
    · have hsome : callsIn system.toHelper ≠ [] := fun hempty =>
        hcalled (List.append_eq_nil_iff.mp (hcalls.symm.trans hempty)).1
      refine ⟨fun hready => absurd (h.ready hready).2.1 hsome, fun call hcall sender frame hmem => ?_⟩
      rcases List.mem_append.mp hmem with hbefore | hnew
      -- The call that is waited for is still on its way, so there was no answer to it.
      · have hwaits := h.pending call hcall _ (List.getLast?_eq_getLast_of_ne_nil hsome)
        have hmem : call.serial ∈ callsIn system.toHelper := hwaits ▸ List.getLast_mem hsome
        exact absurd rfl
          ((List.nodup_append.mp h.distinct).2.2 _ hmem _ (List.mem_filterMap.mpr ⟨_, hbefore, rfl⟩))
      · exact hsender sender call.serial frame hnew

theorem Wired.pointer (h : Wired system) (desktop : Desktop) (event : PaletteWindow.PointerEvent) :
    Wired (point setup desktop event system) := by
  unfold point
  split
  · exact h
  rename_i name helper hrunning
  split
  · refine h.sent hrunning (List.nil_append _).symm (repliesIn_signals name _) fun hafter => Or.inl ?_
    exact (negotiated_runWindow _ _).symm.trans hafter
  · exact h

theorem Wired.toHelper (h : Wired system) (desktop : Desktop) : Wired (deliverToHelper setup desktop system) := by
  unfold deliverToHelper
  split
  · rename_i name helper arrived rest hrunning hframes
    have hexchanged := exchanged_exchange (PaletteWindow.calls setup.helperInstallation desktop) setup.addonName_ne_nil
      arrived.frame helper
    refine h.sent hrunning (show system.toHelper = [arrived] ++ rest from hframes) ?_ fun hafter => ?_
    · rw [List.map_append, repliesIn_append, repliesIn_signals, repliesIn_sentBy, callsIn, List.filterMap_cons]
      cases arrived.serial <;> rfl
    · rcases negotiated_exchanged hexchanged hafter with hbefore | hgreeting
      · exact Or.inl hbefore
      · refine Or.inr fun hnone => ?_
        have hserial := List.filterMap_eq_nil_iff.mp hnone arrived (List.mem_singleton_self _)
        exact h.greetings arrived (hframes ▸ List.mem_cons_self) hserial hgreeting
  · exact h

/-! ### Helpers come and go -/

theorem Wired.fewer (h : Wired system) {first frames : List HelperFrame} (hframes : system.toHelper = first ++ frames) :
    Wired { system with toHelper := frames } := by
  have hcalls : callsIn system.toHelper = callsIn first ++ callsIn frames := by rw [hframes, callsIn_append]
  have hsublist : (callsIn frames ++ repliesIn system.toAddon).Sublist
      (callsIn system.toHelper ++ repliesIn system.toAddon) := by
    rw [hcalls]
    exact (List.sublist_append_right _ _).append_right _
  refine { h with
    greetings := fun arrived hmem => h.greetings arrived (hframes ▸ List.mem_append_right first hmem)
    behind := requests_fromCall_drop (hframes ▸ h.behind)
    distinct := h.distinct.sublist hsublist
    serials := fun serial hmem => h.serials serial (hsublist.subset hmem)
    pending := fun call hcall serial hserial => h.pending call hcall serial ?_
    ready := fun hready => ?_ }
  · rw [hcalls, List.getLast?_append, hserial]
    rfl
  · obtain ⟨hnone, hempty, howner⟩ := h.ready hready
    exact ⟨hnone, (List.append_eq_nil_iff.mp (hcalls.symm.trans hempty)).2, howner⟩

theorem Wired.start (h : Wired system) {name : Bytes} (hnone : system.running = none) (hnonempty : name ≠ [])
    (hfresh : name ∉ system.names) (desktop : Desktop) (state : PersistentState) (cellSize : Int) :
    Wired (start setup name desktop state cellSize system) := by
  have howner : system.owner = none := by rw [owner, hnone]; rfl
  have hreplies : repliesIn (system.toAddon ++ [.gained name]) = repliesIn system.toAddon := by
    rw [repliesIn_append]
    exact List.append_nil _
  refine {
    addon := h.addon
    issued := h.issued
    greetings := h.greetings
    behind := h.behind
    distinct := hreplies ▸ h.distinct
    serials := hreplies ▸ h.serials
    pending := h.pending
    ready := fun hready => ?_
    sourced := ?_
    names := fun message hmem => ?_
    nonempty := fun hmem => (List.mem_cons.mp hmem).elim (fun hempty => hnonempty hempty.symm) h.nonempty
    runs := fun other hother => ?_
    greeted := fun other helper hrunning hnegotiated => ?_ }
  · obtain ⟨hcall, hempty, owner, howns, haccepts, hupheld⟩ := h.ready hready
    rw [howner] at hupheld
    exact ⟨hcall, hempty, owner, howns, haccepts, hupheld.starts name⟩
  · have hsourced := h.sourced
    rw [howner] at hsourced
    exact hsourced.starts name
  · rcases List.mem_append.mp hmem with hbefore | hnew
    · exact List.mem_cons_of_mem _ (h.names message hbefore)
    · rw [List.mem_singleton.mp hnew]
      exact List.mem_cons_self
  · obtain rfl := Option.some.inj hother
    refine ⟨List.mem_cons_self, fun hlost => ?_⟩
    rcases List.mem_append.mp hlost with hbefore | hnew
    · exact hfresh (h.names _ hbefore)
    · cases List.mem_singleton.mp hnew
  · cases hrunning
    cases hnegotiated

theorem Wired.finish (h : Wired system) (lost : Nat) : Wired (RestartingSystem.finish lost system) := by
  unfold RestartingSystem.finish
  split
  · exact h
  rename_i name helper hrunning
  have howner : system.owner = some name := by rw [owner, hrunning]; rfl
  have hfewer := h.fewer (List.take_append_drop lost system.toHelper).symm
  have hreplies : repliesIn (system.toAddon ++ [.lost name]) = repliesIn system.toAddon := by
    rw [repliesIn_append]
    exact List.append_nil _
  refine {
    addon := h.addon
    issued := h.issued
    greetings := hfewer.greetings
    behind := hfewer.behind
    distinct := hreplies ▸ hfewer.distinct
    serials := hreplies ▸ hfewer.serials
    pending := hfewer.pending
    ready := fun hready => ?_
    sourced := ?_
    names := fun message hmem => ?_
    nonempty := h.nonempty
    runs := fun other hother => by cases hother
    greeted := fun other helper' hother => by cases hother }
  · obtain ⟨hcall, hempty, owner, howns, haccepts, hupheld⟩ := hfewer.ready hready
    exact ⟨hcall, hempty, owner, howns, haccepts, Upheld.ends (howner ▸ hupheld)⟩
  · have hsourced := h.sourced
    rw [howner] at hsourced
    exact hsourced.ends
  · rcases List.mem_append.mp hmem with hbefore | hnew
    · exact h.names message hbefore
    · rw [List.mem_singleton.mp hnew]
      exact (h.runs name howner).1

/-! ### All events -/

theorem Wired.step [DecidableEq κ] (h : Wired system) {event : Event κ} (hpromised : Promised system event) :
    Wired (step setup event system) := by
  cases event with
  | addon surroundings happening => exact h.happening hpromised happening
  | pointer desktop event => exact h.pointer desktop event
  | toHelper desktop => exact h.toHelper desktop
  | toAddon surroundings => exact h.toAddon hpromised
  | starts name desktop state cellSize =>
      obtain ⟨hnone, hnonempty, hfresh⟩ := hpromised
      exact h.start hnone hnonempty hfresh desktop state cellSize
  | ends lost => exact h.finish lost
  | drops =>
      have hframes : system.toHelper = system.toHelper.take 1 ++ system.toHelper.tail := by
        rw [← List.drop_one, List.take_append_drop]
      exact h.fewer hframes

theorem wired_start (h : Start setup system) : Wired system := by
  obtain ⟨config, layout, rfl⟩ := h
  obtain ⟨hunready, hidle⟩ := initial_unready setup.installation config layout
  have hnone : (EmojiPaletteAddon.initial setup.installation config layout : EmojiPaletteAddon κ).pendingCall = none := by
    cases layout <;> rfl
  refine {
    addon := EmojiPaletteAddon.wellFormed_initial setup.installation config layout
    issued := fun transaction hactive => by cases hidle.symm.trans hactive
    greetings := fun arrived hmem => by cases hmem
    behind := rfl
    distinct := List.nodup_nil
    serials := fun serial hmem => by cases hmem
    pending := fun call hcall => by cases hnone.symm.trans hcall
    ready := fun hready => absurd hready hunready
    sourced := trivial
    names := fun message hmem => by cases hmem
    nonempty := List.not_mem_nil
    runs := fun name hname => by cases hname
    greeted := fun name helper hrunning => by cases hrunning }

end RestartingSystem

end System

end EmojiPalette
