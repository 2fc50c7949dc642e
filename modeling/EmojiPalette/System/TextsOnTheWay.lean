import EmojiPalette.System.TypedText

/-!
# Where the typed text is

As long as no event parts the addon's text from the window's, the text of the active transaction can be found. While the helper holds the active transaction, the last text on its way to the window, or else the text the window filters by, is the addon's. Before that the `Show` is on its way, with the text behind it or with none; and between a choice and the next `Show` the window waits with the text it had.
-/

namespace EmojiPalette

open Ipc Trace Addon Ui Handover

namespace System

variable {κ : Type} {setup : Setup} {system : PaletteSystem κ} {recorded : Recorded κ} {received : List Payload}

/-! ### The invariant -/

def textsAfterShow (transaction : TransactionId) (payloads : List Payload) : List Bytes :=
  searchTexts (commandsAfterShow transaction payloads)

/-- The window waits for the next `Show`, and filters by the text. -/
structure Awaits (helper : Helper PaletteWindow) (search : Bytes) : Prop where
  transaction : helper.session.transaction = none
  visible : helper.window.visible = true
  stays : helper.window.request.closeAfterSelection = false
  query : helper.window.query = search

/-- Where the text of the active transaction is. -/
structure Texts (system : PaletteSystem κ) (transaction : TransactionId) : Prop where
  waiting : connected system.addon = false → system.addon.search = []
  coming : transaction ∈ shows (told system.toHelper) →
    (textsAfterShow transaction (told system.toHelper)).getLast? = some system.addon.search ∨
      textsAfterShow transaction (told system.toHelper) = [] ∧ (system.addon.search = [] ∨
        Awaits system.helper system.addon.search ∧ shows (told system.toHelper) = [transaction])
  held : system.helper.session.transaction = some transaction →
    upcoming (textsOf transaction (told system.toHelper)) system.helper.window.query = system.addon.search
  chosen : .chosen transaction ∈ answers system.toAddon → system.addon.closeAfterSelection = false →
    Awaits system.helper system.addon.search ∧ shows (told system.toHelper) = []

/-- No text among the payloads changes on its way through a `QString`. -/
def PlainTexts (payloads : List Payload) : Prop :=
  ∀ command ∈ commands payloads, command.kind = .searchText → isPlainText command.text = true

theorem plainTexts_append {payloads more : List Payload} :
    PlainTexts (payloads ++ more) ↔ PlainTexts payloads ∧ PlainTexts more := by
  simp only [PlainTexts, commands_append, List.forall_mem_append]

theorem plainTexts_of_no_commands {payloads : List Payload} (h : commands payloads = []) : PlainTexts payloads := by
  intro command hcommand
  rw [h] at hcommand
  cases hcommand

theorem textsAfterShow_append {transaction : TransactionId} {payloads : List Payload}
    (h : transaction ∈ shows payloads) (more : List Payload) :
    textsAfterShow transaction (payloads ++ more) = textsAfterShow transaction payloads ++ textsOf transaction more := by
  rw [textsAfterShow, commandsAfterShow_append h, searchTexts, List.filterMap_append]
  rfl

theorem textsAfterShow_cons {transaction : TransactionId} {payload : Payload} (h : isShow transaction payload = false)
    (payloads : List Payload) :
    textsAfterShow transaction (payload :: payloads) = textsAfterShow transaction payloads := by
  rw [textsAfterShow, commandsAfterShow, afterFirst, h, if_neg Bool.false_ne_true]
  rfl

theorem isShow_of_no_show {payload : Payload} (h : shows [payload] = []) (transaction : TransactionId) :
    isShow transaction payload = false := by
  have hnot : transaction ∉ shows [payload] := by
    rw [h]
    exact List.not_mem_nil
  exact isShow_of_notMem hnot payload List.mem_cons_self

theorem shows_cons {payload : Payload} (h : shows [payload] = []) (payloads : List Payload) :
    shows (payload :: payloads) = shows payloads := by
  rw [← List.singleton_append, shows_append, h, List.nil_append]

/-! ### Transactions that are new -/

/-- Nothing between the two concerns the transaction. -/
structure Unused (system : PaletteSystem κ) (transaction : TransactionId) : Prop where
  shown : transaction ∉ shows (told system.toHelper)
  held : system.helper.session.transaction ≠ some transaction
  chosen : .chosen transaction ∉ answers system.toAddon

theorem Ordered.unused (h : Ordered setup recorded received) {transaction : TransactionId}
    (hfresh : transaction ∉ recorded.system.issued) : Unused recorded.system transaction := by
  refine ⟨fun hshown => hfresh ?_, fun hheld => hfresh ?_, fun hchosen => hfresh ?_⟩
  · apply h.showsOnce.issued
    rw [h.fifo, shows_append]
    exact List.mem_append_right _ hshown
  · refine h.inv.issued _ (Or.inl (mem_live.mpr (Or.inr (Or.inl ?_))))
    rw [handover, display_of_some hheld]
    exact List.mem_cons_self
  · refine h.inv.issued _ (Or.inl (mem_live.mpr (Or.inr (Or.inr ?_))))
    exact List.mem_map.mpr ⟨_, hchosen, rfl⟩

theorem Ordered.unused_of_unconnected (h : Ordered setup recorded received)
    (hconnected : connected recorded.system.addon = false) (transaction : TransactionId) :
    Unused recorded.system transaction := by
  obtain ⟨hdisplay, _, hanswers⟩ := h.inv.silent hconnected
  refine ⟨fun hshown => ?_, fun hheld => ?_, fun hchosen => ?_⟩
  · have hnone := h.showsOnce.waiting hconnected
    rw [h.fifo, shows_append, List.append_eq_nil_iff] at hnone
    rw [hnone.2] at hshown
    cases hshown
  · cases (display_of_some hheld).symm.trans hdisplay
  · have hnone : answers recorded.system.toAddon = [] := hanswers
    rw [hnone] at hchosen
    cases hchosen

/-- A transaction whose `Show` is the last thing said, or has not been said. -/
theorem Unused.texts {after : PaletteSystem κ} {transaction : TransactionId} (h : Unused system transaction)
    {payloads : List Payload} (htold : told after.toHelper = told system.toHelper ++ payloads)
    (hhelper : after.helper = system.helper)
    (hanswers : ∀ answer ∈ answers after.toAddon, answer ∈ answers system.toAddon)
    (hsaid : textsAfterShow transaction payloads = [])
    (hwaiting : connected after.addon = false → after.addon.search = [])
    (hcoming : transaction ∈ shows payloads → after.addon.search = [] ∨
      Awaits after.helper after.addon.search ∧ shows (told after.toHelper) = [transaction]) : Texts after transaction := by
  refine ⟨hwaiting, fun hshown => Or.inr ⟨?_, hcoming ?_⟩, fun hheld => ?_, fun hchosen => ?_⟩
  · rw [textsAfterShow, commandsAfterShow, htold, afterFirst_append_of_none (isShow_of_notMem h.shown)]
    exact hsaid
  · rw [htold, shows_append] at hshown
    exact (List.mem_append.mp hshown).resolve_left h.shown
  · exact absurd (hhelper ▸ hheld) h.held
  · exact absurd (hanswers _ hchosen) h.chosen

/-! ### The addon's events -/

/-- The text that a key has changed follows on the transaction's way. -/
theorem Texts.command {after : PaletteSystem κ} {value : Command} (h : Texts system value.transaction)
    (hhelper : after.helper = system.helper) (htold : told after.toHelper = told system.toHelper ++ [.command value])
    (hanswers : ∀ answer ∈ answers after.toAddon, answer ∈ answers system.toAddon)
    (hconnected : connected after.addon = connected system.addon)
    (hcloses : after.addon.closeAfterSelection = system.addon.closeAfterSelection)
    (hsearch : after.addon.search = if value.kind = .searchText then value.text else system.addon.search)
    (htimely : value.kind = .searchText → value.text ≠ system.addon.search → connected system.addon = true ∧
      ¬ (system.addon.closeAfterSelection = false ∧ .chosen value.transaction ∈ answers system.toAddon)) :
    Texts after value.transaction := by
  have hshows : shows (told after.toHelper) = shows (told system.toHelper) := by
    rw [htold, shows_append]
    exact List.append_nil _
  have hunchanged : value.kind ≠ .searchText → after.addon.search = system.addon.search := by
    intro hkind
    rw [hsearch, if_neg hkind]
  have htimely' : connected system.addon = false ∨
      system.addon.closeAfterSelection = false ∧ .chosen value.transaction ∈ answers system.toAddon →
      after.addon.search = system.addon.search := by
    intro hearly
    by_cases hkind : value.kind = .searchText
    · rw [hsearch, if_pos hkind]
      by_contra hnew
      obtain ⟨htrue, hnot⟩ := htimely hkind hnew
      rcases hearly with hfalse | hchosen
      · cases htrue.symm.trans hfalse
      · exact hnot hchosen
    · exact hunchanged hkind
  refine ⟨fun hfalse => ?_, fun hshown => ?_, fun hheld => ?_, fun hchosen hstays => ?_⟩
  · rw [hconnected] at hfalse
    exact (htimely' (Or.inl hfalse)).trans (h.waiting hfalse)
  · rw [hshows] at hshown ⊢
    rw [htold, textsAfterShow_append hshown, textsOf_command, hhelper]
    by_cases hkind : value.kind = .searchText
    · rw [if_pos ⟨rfl, hkind⟩, hsearch, if_pos hkind]
      exact Or.inl (by simp)
    · rw [if_neg fun hboth => hkind hboth.2, List.append_nil, hunchanged hkind]
      exact h.coming hshown
  · rw [hhelper] at hheld ⊢
    rw [htold, textsOf_append, textsOf_command]
    by_cases hkind : value.kind = .searchText
    · rw [if_pos ⟨rfl, hkind⟩, upcoming_concat, hsearch, if_pos hkind]
    · rw [if_neg fun hboth => hkind hboth.2, List.append_nil, hunchanged hkind]
      exact h.held hheld
  · have hbefore := hanswers _ hchosen
    rw [hcloses] at hstays
    rw [hshows, hhelper, htimely' (Or.inr ⟨hstays, hbefore⟩)]
    exact h.chosen hbefore hstays

section

variable [DecidableEq κ]

theorem answers_of_handles {event : Event κ} {surroundings : Surroundings κ} {input : EmojiPaletteAddon.Input κ}
    (h : handles setup event system = some (surroundings, input)) :
    (∀ answer ∈ answers (PaletteSystem.step setup event system).toAddon, answer ∈ answers system.toAddon) ∧
      ∀ transaction, Chosen transaction input → .chosen transaction ∈ answers system.toAddon := by
  cases event with
  | addon other happening =>
      cases h
      refine ⟨fun _ hmem => hmem, fun transaction hchosen => ?_⟩
      cases happening <;> cases hchosen
  | toAddon other =>
      obtain ⟨message, hmessage, hinput⟩ := Option.map_eq_some_iff.mp h
      obtain ⟨rest, hmessages⟩ : ∃ rest, system.toAddon = message :: rest := List.head?_eq_some_iff.mp hmessage
      cases hinput
      rw [PaletteSystem.step, PaletteSystem.deliverToAddon, hmessages]
      cases message with
      | reply serial frame =>
          refine ⟨fun answer hmem => hmem, fun transaction hchosen => ?_⟩
          cases hchosen
      | signal frame =>
          refine ⟨fun answer hmem => ?_, fun transaction hchosen => ?_⟩
          · exact ((List.sublist_cons_self _ _).filterMap _).subset hmem
          · obtain ⟨value, hframe, hsame⟩ := hchosen
            exact selectedSent_iff.mp ⟨frame, List.mem_cons_self, value, hframe, hsame⟩
  | pointer desktop event => cases h
  | toHelper desktop => cases h

/-- What the addon says keeps the text where it can be found. -/
theorem texts_handles (h : Ordered setup recorded received) {event : Event κ} {surroundings : Surroundings κ}
    {input : EmojiPaletteAddon.Input κ} (hhandles : System.handles setup event recorded.system = some (surroundings, input))
    (hpromised : Promised recorded.system event) (htimely : ¬ TypesUntimely setup surroundings input recorded.system)
    (htexts : ∀ transaction, recorded.system.addon.controller.transaction = some transaction →
      Texts recorded.system transaction) {transaction : TransactionId}
    (hactive : (PaletteSystem.step setup event recorded.system).addon.controller.transaction = some transaction) :
    Texts (PaletteSystem.step setup event recorded.system) transaction := by
  obtain ⟨_, hhelper, hframes, _, hspoken, _⟩ := step_of_handles hhandles
  obtain ⟨hanswers, hchosen⟩ := answers_of_handles hhandles
  have htold : told (PaletteSystem.step setup event recorded.system).toHelper =
      told recorded.system.toHelper ++ spoken setup event recorded.system := by
    rw [hframes, told_append, hspoken]
    rfl
  have hspeaks := h.inv.speaks hhandles hpromised
  have hunused := h.unused (lossless_of_handles hhandles hpromised).fresh
  generalize PaletteSystem.step setup event recorded.system = after at *
  generalize spoken setup event recorded.system = payloads at *
  cases hspeaks with
  | nothing htransaction _ hsearch hcloses hconnected =>
      obtain ⟨hwaiting, hcoming, hheld, hwaits⟩ := htexts transaction (htransaction ▸ hactive)
      rw [List.append_nil] at htold
      constructor
      all_goals rw [hsearch]
      · rwa [hconnected]
      · rwa [htold, hhelper]
      · rwa [htold, hhelper]
      · rw [htold, hhelper, hcloses]
        exact fun hmem => hwaits (hanswers _ hmem)
  | ends hnone => cases hnone.symm.trans hactive
  | waits hello _ htransaction _ hsearch _ =>
      obtain rfl := Option.some.inj (hactive.symm.trans htransaction)
      exact hunused.texts htold hhelper hanswers rfl (fun _ => hsearch) fun _ => Or.inl hsearch
  | begins value hfresh htransaction _ hsearch hafterChoice _ hconnected =>
      obtain rfl := Option.some.inj (hactive.symm.trans htransaction)
      rw [← hfresh] at hunused
      refine hunused.texts htold hhelper hanswers ?_ (fun hfalse => ?_) fun _ => ?_
      · simp [textsAfterShow, commandsAfterShow, afterFirst, isShow, searchTexts, commandsOf, commands]
      · cases hconnected.symm.trans hfalse
      · cases hbefore : recorded.system.addon.controller.transaction with
        | none => exact Or.inl (hsearch hbefore)
        | some earlier =>
            obtain ⟨hinput, hstays, hsame⟩ := hafterChoice earlier hbefore
            obtain ⟨hawaits, hshows⟩ := (htexts earlier hbefore).chosen (hchosen earlier hinput) hstays
            refine Or.inr ⟨?_, ?_⟩
            · rw [hhelper, hsame]
              exact hawaits
            · rw [htold, shows_append, hshows]
              rfl
  | connects value hbefore htransaction _ hsearch hunconnected hconnected =>
      obtain rfl := Option.some.inj (hactive.symm.trans htransaction)
      have hnone := (htexts _ hbefore).waiting hunconnected
      refine (h.unused_of_unconnected hunconnected _).texts htold hhelper hanswers ?_ (fun hfalse => ?_) fun _ =>
        Or.inl (hsearch.trans hnone)
      · simp [textsAfterShow, commandsAfterShow, afterFirst, isShow, searchTexts, commandsOf, commands]
      · cases hconnected.symm.trans hfalse
  | commands value route hrouted hroute hbefore htransaction _ _ hsearch hcloses hconnected =>
      obtain rfl := Option.some.inj (hactive.symm.trans htransaction)
      refine (htexts _ hbefore).command hhelper htold hanswers hconnected hcloses hsearch fun hkind hnew => ?_
      rw [if_pos hkind] at hroute
      rw [hroute] at hrouted
      by_contra hnot
      refine htimely ⟨_, hrouted, hnew, ?_⟩
      by_cases hready : connected recorded.system.addon = true
      · obtain ⟨hstays, hmem⟩ := not_not.mp fun hno => hnot ⟨hready, hno⟩
        exact Or.inr ⟨hstays, _, hbefore, selectedSent_iff.mpr hmem⟩
      · exact Or.inl fun hstate => hready (connected_eq_true_iff.mpr hstate)

end

/-! ### A choice -/

/-- The active transaction is the last that was shown, so behind it nothing is. -/
theorem Ordered.no_show (h : Ordered setup recorded received) {transaction : TransactionId}
    (hactive : recorded.system.addon.controller.transaction = some transaction)
    (hheld : recorded.system.helper.session.transaction = some transaction) :
    connected recorded.system.addon = true ∧ shows (told recorded.system.toHelper) = [] := by
  have hconnected : connected recorded.system.addon = true := by
    by_contra hfalse
    exact (h.unused_of_unconnected (by simpa using hfalse) transaction).held hheld
  refine ⟨hconnected, ?_⟩
  have hlatest := h.showsOnce.latest hconnected transaction hactive
  have hnodup := h.showsOnce.nodup
  rw [h.fifo, shows_append] at hlatest hnodup
  rcases List.eq_nil_or_concat' (shows (told recorded.system.toHelper)) with hnone | ⟨older, last, hshows⟩
  · exact hnone
  · rw [hshows, ← List.append_assoc, List.getLast?_append, List.getLast?_singleton] at hlatest
    obtain rfl : last = transaction := Option.some.inj hlatest
    have hlast : last ∈ shows (told recorded.system.toHelper) := by
      rw [hshows]
      exact List.mem_append_right _ List.mem_cons_self
    exact absurd rfl ((List.nodup_append.mp hnodup).2.2 _ (h.heard.shown _ hheld) _ hlast)

/-- After a choice that does not close the palette, and that no text crosses, the window waits with the addon's text. -/
theorem Ordered.awaits_of_choice (h : Ordered setup recorded received) (hagreed : Agreed (handover recorded.system))
    (hnodup : (handover recorded.system).live.Nodup) {transaction : TransactionId}
    (htexts : Texts recorded.system transaction) (hactive : recorded.system.addon.controller.transaction = some transaction)
    (hstays : recorded.system.addon.closeAfterSelection = false) {after : Helper PaletteWindow} {chooses : Prop}
    {messages : List AddonMessage} (hacted : Acted setup.installation.catalog chooses (display recorded.system.helper)
      (display after) messages) (hchosen : .chosen transaction ∈ answers messages)
    (hcrosses : chooses → ¬ TextCrosses recorded.system ∧ after.window.query = recorded.system.helper.window.query)
    (hrequest : after.window.request = recorded.system.helper.window.request) :
    Awaits after recorded.system.addon.search ∧ shows (told recorded.system.toHelper) = [] := by
  cases hacted with
  | nothing => cases hchosen
  | closed => cases hchosen
  | cancelled ask reason _ _ hvalid =>
      rw [answers_signal (.cancelled ⟨ask.id, reason⟩) hvalid] at hchosen
      cases List.mem_singleton.mp hchosen
  | chose ask sequence hchooses hbefore hafter hvalid _ =>
      rw [answers_signal (.selected ⟨ask.id, sequence⟩) hvalid] at hchosen
      cases List.mem_singleton.mp hchosen
      have hheld := transaction_of_shown hbefore
      obtain ⟨hconnected, hshows⟩ := h.no_show hactive hheld
      have hno : ∀ other, .begin other ∉ (handover recorded.system).requests := by
        intro other hother
        have hsent := showSent_iff_mem_shows.mp (showSent_iff.mpr ⟨other, hother, rfl⟩)
        rw [hshows] at hsent
        cases hsent
      have hask := hagreed.eq_of_shown hnodup hconnected (asked_of_transaction hactive) hbefore rfl hno
      have hopen : ask.stays = true := by
        rw [← hask, hstays]
        rfl
      rw [hopen, if_pos rfl] at hafter
      obtain ⟨hvisible, hnone⟩ := display_eq_waiting_iff.mp hafter
      obtain ⟨hcross, hquery⟩ := hcrosses hchooses
      refine ⟨⟨hnone, hvisible, ?_, ?_⟩, hshows⟩
      · rw [display_of_some hheld] at hbefore
        rw [hrequest]
        rw [← Display.shown.inj hbefore] at hopen
        simpa using hopen
      · -- No text is on its way, or it is the one the window has.
        have hupcoming := htexts.held hheld
        rw [hquery, ← hupcoming, upcoming]
        cases hlast : (textsOf ask.id (told recorded.system.toHelper)).getLast? with
        | none => rfl
        | some text =>
            by_contra hne
            exact hcross ⟨ask.id, text, hactive, hheld, hstays, hlast, fun hsame => hne hsame.symm⟩

/-! ### The helper's events -/

theorem Awaits.pointer {helper : Helper PaletteWindow} {search : Bytes} (h : Awaits helper search) (desktop : Desktop)
    (event : PaletteWindow.PointerEvent) :
    Awaits (Helper.runWindow (PaletteWindow.calls setup.helperInstallation desktop)
      (PaletteWindow.pointer setup.helperInstallation desktop event helper.window) helper).1 search := by
  obtain ⟨hnone, hvisible⟩ := pointer_of_none setup desktop event h.transaction h.stays
  obtain ⟨hquery, hrequest, _⟩ := pointer_keeps setup desktop event helper
  refine ⟨hnone, hvisible.trans h.visible, ?_, hquery.trans h.query⟩
  rw [hrequest]
  exact h.stays

theorem Awaits.exchange {helper : Helper PaletteWindow} {search frame : Bytes} {payload : Payload}
    (h : Awaits helper search) (desktop : Desktop) (hframe : payloadOf frame = some payload)
    (hbound : Bound setup.addonName helper.session) (hshow : shows [payload] = []) :
    Awaits (Helper.exchange (PaletteWindow.calls setup.helperInstallation desktop) frame setup.addonName helper).helper
      search := by
  obtain ⟨hnone, hwindow⟩ := exchange_of_no_transaction setup desktop setup.addonName_ne_nil hframe
    hbound h.transaction hshow
  refine ⟨hnone, ?_, ?_, ?_⟩
  · rw [hwindow]
    exact h.visible
  · rw [hwindow]
    exact h.stays
  · rw [hwindow]
    exact h.query

theorem texts_pointer (h : Ordered setup recorded received) (hagreed : Agreed (handover recorded.system))
    (hnodup : (handover recorded.system).live.Nodup) {desktop : Desktop} {event : PaletteWindow.PointerEvent}
    (hharmless : Harmless setup recorded.system (.pointer desktop event)) {transaction : TransactionId}
    (hactive : recorded.system.addon.controller.transaction = some transaction)
    (htexts : Texts recorded.system transaction) :
    Texts (recorded.system.point setup desktop event) transaction := by
  unfold PaletteSystem.point
  split
  · obtain ⟨hquery, hrequest, hsession⟩ := pointer_keeps setup desktop event recorded.system.helper
    have hacted := (acted_runWindow h.inv.helper
      (PaletteWindow.does_pointer desktop event recorded.system.helper.window)).1
    refine ⟨htexts.waiting, fun hshown => ?_, fun hheld => ?_, fun hchosen hstays => ?_⟩
    · rcases htexts.coming hshown with hlast | ⟨hnone, hsearch | ⟨hawaits, hshows⟩⟩
      · exact Or.inl hlast
      · exact Or.inr ⟨hnone, Or.inl hsearch⟩
      · exact Or.inr ⟨hnone, Or.inr ⟨hawaits.pointer desktop event, hshows⟩⟩
    · have hbefore : recorded.system.helper.session.transaction = some transaction := by
        rcases hsession with hnone | hsame
        · cases hnone.symm.trans hheld
        · rw [← hsame]
          exact hheld
      have hupcoming := htexts.held hbefore
      rwa [← hquery] at hupcoming
    · rw [answers_append] at hchosen
      rcases List.mem_append.mp hchosen with hearlier | hnow
      · obtain ⟨hawaits, hshows⟩ := htexts.chosen hearlier hstays
        exact ⟨hawaits.pointer desktop event, hshows⟩
      · exact h.awaits_of_choice hagreed hnodup htexts hactive hstays hacted hnow
          (fun hchooses => ⟨hharmless hchooses, hquery⟩) hrequest
  · exact htexts

/-- The helper once a frame has arrived, and the answers that this has led to. -/
theorem answers_of_arriving [DecidableEq κ] (setup : Setup) {event : Event κ} {desktop : Desktop} {arrived : HelperFrame}
    (h : arriving event system = some (desktop, arrived)) :
    answers (PaletteSystem.step setup event system).toAddon = answers system.toAddon ++
      answers (signals (Helper.exchange (PaletteWindow.calls setup.helperInstallation desktop) arrived.frame
        setup.addonName system.helper).effects) := by
  cases event with
  | addon surroundings happening => cases h
  | toAddon surroundings => cases h
  | pointer desktop event => cases h
  | toHelper other =>
      obtain ⟨_, hhead, hsame⟩ := Option.map_eq_some_iff.mp h
      cases hsame
      obtain ⟨rest, hframes⟩ := List.head?_eq_some_iff.mp hhead
      rw [PaletteSystem.step, PaletteSystem.deliverToHelper, hframes]
      dsimp only
      rw [answers_append, answers_append, answers_replies, List.append_nil]

/-- With its `Show` a transaction has the text that follows, or the window has the text already. -/
theorem texts_show (h : Ordered setup recorded received) {desktop : Desktop} {arrived : HelperFrame}
    {rest : List HelperFrame} (hframes : recorded.system.toHelper = arrived :: rest) {value : Show}
    (hframe : payloadOf arrived.frame = some (.show value)) (hreopens : ¬ Reopens value rest recorded.system)
    (hactive : recorded.system.addon.controller.transaction = some value.transaction)
    (htexts : Texts recorded.system value.transaction) :
    upcoming (textsOf value.transaction (told rest)) (Helper.exchange
      (PaletteWindow.calls setup.helperInstallation desktop) arrived.frame setup.addonName
        recorded.system.helper).helper.window.query = recorded.system.addon.search := by
  have htold : told recorded.system.toHelper = .show value :: told rest := by
    rw [hframes, told_cons, hframe]
    rfl
  have hshown : value.transaction ∈ shows (told recorded.system.toHelper) := by
    rw [htold]
    exact List.mem_cons_self
  have hbehind : textsAfterShow value.transaction (told recorded.system.toHelper) =
      textsOf value.transaction (told rest) := by
    rw [htold, textsAfterShow, commandsAfterShow, afterFirst, isShow, if_pos (by simp)]
    rfl
  have hcoming := htexts.coming hshown
  rw [hbehind] at hcoming
  rw [window_exchange_show setup.addonName_ne_nil hframe (h.bound hframes hframe (Or.inr (by simp [shows]))),
    PaletteWindow.query_showPalette]
  rcases hcoming with hlast | ⟨hnone, hsearch⟩
  · rw [upcoming, hlast]
    rfl
  rw [hnone]
  by_cases hvisible : recorded.system.helper.window.visible = true
  · rw [if_pos hvisible]
    rcases hsearch with hempty | ⟨hawaits, _⟩
    · rw [hempty]
      by_contra hquery
      exact hreopens ⟨hactive, hempty, hnone, hvisible, hquery⟩
    · exact hawaits.query
  · rw [if_neg hvisible]
    rcases hsearch with hempty | ⟨hawaits, _⟩
    · exact hempty.symm
    · exact absurd hawaits.visible hvisible

/-- What arrives of the transaction's texts becomes what the window filters by. -/
theorem texts_heard (h : Ordered setup recorded received)
    (hfew : ∀ transaction, (commandsOf transaction (commands recorded.sent)).length < 2 ^ 32)
    (hall : recorded.executed = recorded.reached) {desktop : Desktop} {arrived : HelperFrame} {rest : List HelperFrame}
    (hframes : recorded.system.toHelper = arrived :: rest) {payload : Payload}
    (hframe : payloadOf arrived.frame = some payload) {transaction : TransactionId}
    (htexts : Texts recorded.system transaction) (hheld : recorded.system.helper.session.transaction = some transaction)
    (hshow : shows [payload] = []) (hplain : PlainTexts (told recorded.system.toHelper)) :
    upcoming (textsOf transaction (told rest)) (Helper.exchange (PaletteWindow.calls setup.helperInstallation desktop)
      arrived.frame setup.addonName recorded.system.helper).helper.window.query = recorded.system.addon.search := by
  have hupcoming := htexts.held hheld
  have htold : told recorded.system.toHelper = [payload] ++ told rest := by
    rw [hframes, told_cons, hframe]
    rfl
  rw [htold, textsOf_append] at hupcoming
  by_cases hcommand : ∃ command, payload = .command command
  · obtain ⟨command, rfl⟩ := hcommand
    rw [textsOf_command] at hupcoming
    by_cases hmine : command.transaction = transaction
    · by_cases hkind : command.kind = .searchText
      · rw [← hmine] at hheld
        rw [if_pos ⟨hmine, hkind⟩, List.singleton_append, upcoming_cons] at hupcoming
        rw [query_exchange_searchText setup.addonName_ne_nil hframe
          (h.bound hframes hframe (Or.inl (by simp [hheld]))) hkind
            (hplain command (by rw [htold]; exact List.mem_cons_self) hkind) hheld (h.accepts hfew hall hframes hframe hheld)]
        exact hupcoming
      · rw [if_neg fun hboth => hkind hboth.2, List.nil_append] at hupcoming
        rw [(window_exchange setup.addonName_ne_nil hframe hshow).2 fun other hother => ?_]
        · exact hupcoming
        · cases hother
          exact hkind
    · rw [if_neg fun hboth => hmine hboth.1, List.nil_append] at hupcoming
      rw [window_exchange_other setup.addonName_ne_nil hframe fun hother => ?_]
      · exact hupcoming
      · exact hmine (Option.some.inj (hother.symm.trans hheld))
  · have hnone : commands [payload] = [] := by
      cases payload with
      | command command => exact absurd ⟨command, rfl⟩ hcommand
      | _ => rfl
    rw [textsOf_of_no_command hnone, List.nil_append] at hupcoming
    rw [(window_exchange setup.addonName_ne_nil hframe hshow).2 fun command hsame => absurd ⟨command, hsame⟩ hcommand]
    exact hupcoming

theorem query_exchange_choice {desktop : Desktop} {frame : Bytes} {payload : Payload} {helper : Helper PaletteWindow}
    (hframe : payloadOf frame = some payload) (hshow : shows [payload] = [])
    (h : CommandChooses setup desktop frame helper) :
    (Helper.exchange (PaletteWindow.calls setup.helperInstallation desktop) frame setup.addonName
      helper).helper.window.query = helper.window.query := by
  obtain ⟨value, hvalue, _, _, hchooses⟩ := h
  refine (window_exchange setup.addonName_ne_nil hframe hshow).2 fun command hcommand hkind => ?_
  rw [hframe, hcommand] at hvalue
  cases hvalue
  rw [PaletteWindow.handleCommand, hkind] at hchooses
  exact hchooses

theorem not_chooses_of_show {desktop : Desktop} {frame : Bytes} {value : Show} {helper : Helper PaletteWindow}
    (hframe : payloadOf frame = some (.show value)) : ¬ CommandChooses setup desktop frame helper := by
  intro h
  obtain ⟨command, hcommand, _⟩ := h
  cases hframe.symm.trans hcommand

/-- A frame that arrives, other than a `Show`, moves no text out of sight. -/
theorem texts_arriving_other [DecidableEq κ] (h : Ordered setup recorded received)
    (hfew : ∀ transaction, (commandsOf transaction (commands recorded.sent)).length < 2 ^ 32)
    (hall : recorded.executed = recorded.reached) (hagreed : Agreed (handover recorded.system))
    (hnodup : (handover recorded.system).live.Nodup) {event : Event κ} {desktop : Desktop} {arrived : HelperFrame}
    (harriving : arriving event recorded.system = some (desktop, arrived))
    (hcrosses : CommandChooses setup desktop arrived.frame recorded.system.helper → ¬ TextCrosses recorded.system)
    {payload : Payload} (hframe : payloadOf arrived.frame = some payload) (hshow : shows [payload] = [])
    {transaction : TransactionId} (hactive : recorded.system.addon.controller.transaction = some transaction)
    (htexts : Texts recorded.system transaction) (hplain : PlainTexts (told recorded.system.toHelper)) :
    Texts (PaletteSystem.step setup event recorded.system) transaction := by
  obtain ⟨hframes, haddon, _, hhelper, _, _, _⟩ := step_of_arriving setup harriving
  have hanswers := answers_of_arriving setup harriving
  generalize PaletteSystem.step setup event recorded.system = after at *
  have htold : told recorded.system.toHelper = payload :: told after.toHelper := by
    rw [hframes, told_cons, hframe]
    rfl
  have hshows : shows (told recorded.system.toHelper) = shows (told after.toHelper) := by
    rw [htold, shows_cons hshow]
  have hbound : ∀ {search : Bytes}, Awaits recorded.system.helper search → connected recorded.system.addon = true →
      Awaits after.helper search := by
    intro search hawaits hconnected
    rw [hhelper]
    exact hawaits.exchange desktop hframe (h.inv.bound (Or.inl (connected_eq_true_iff.mp hconnected))) hshow
  have hconnected : (Unused recorded.system transaction → False) → connected recorded.system.addon = true := by
    intro hused
    by_contra hfalse
    exact hused (h.unused_of_unconnected (by simpa using hfalse) transaction)
  constructor
  all_goals rw [haddon]
  · exact htexts.waiting
  · intro hshown
    rw [← hshows] at hshown
    have hcoming := htexts.coming hshown
    rw [hshows, htold, textsAfterShow_cons (isShow_of_no_show hshow transaction)] at hcoming
    rcases hcoming with hlast | ⟨hnone, hsearch | ⟨hawaits, hsingle⟩⟩
    · exact Or.inl hlast
    · exact Or.inr ⟨hnone, Or.inl hsearch⟩
    · exact Or.inr ⟨hnone, Or.inr ⟨hbound hawaits (hconnected fun hunused => hunused.shown hshown), hsingle⟩⟩
  · intro hheld
    rw [hhelper] at hheld ⊢
    have hbefore := (h.hears desktop hframes hframe).held hshow hheld
    exact texts_heard h hfew hall hframes hframe htexts hbefore hshow hplain
  · intro hchosen hstays
    rw [← hshows]
    rw [hanswers] at hchosen
    rcases List.mem_append.mp hchosen with hearlier | hnow
    · obtain ⟨hawaits, hnone⟩ := htexts.chosen hearlier hstays
      exact ⟨hbound hawaits (hconnected fun hunused => hunused.chosen hearlier), hnone⟩
    · rw [hhelper]
      rcases h.inv.exchanged desktop hframes with ⟨_, _, _, hnone⟩ | ⟨_, hacted⟩
      · rw [hnone] at hnow
        cases hnow
      · exact h.awaits_of_choice hagreed hnodup htexts hactive hstays hacted hnow
          (fun hchooses => ⟨hcrosses hchooses, query_exchange_choice hframe hshow hchooses⟩)
          (window_exchange setup.addonName_ne_nil hframe hshow).1

/-- A `Show` that arrives takes the text of its own transaction along. -/
theorem texts_arriving_show [DecidableEq κ] (h : Ordered setup recorded received) {event : Event κ} {desktop : Desktop}
    {arrived : HelperFrame} (harriving : arriving event recorded.system = some (desktop, arrived)) {value : Show}
    (hframe : payloadOf arrived.frame = some (.show value))
    (hreopens : ¬ Reopens value (PaletteSystem.step setup event recorded.system).toHelper recorded.system)
    {transaction : TransactionId} (hactive : recorded.system.addon.controller.transaction = some transaction)
    (htexts : Texts recorded.system transaction) : Texts (PaletteSystem.step setup event recorded.system) transaction := by
  obtain ⟨hframes, haddon, _, hhelper, _, _, _⟩ := step_of_arriving setup harriving
  have hanswers := answers_of_arriving setup harriving
  generalize PaletteSystem.step setup event recorded.system = after at *
  have htold : told recorded.system.toHelper = .show value :: told after.toHelper := by
    rw [hframes, told_cons, hframe]
    rfl
  have hshows : shows (told recorded.system.toHelper) = value.transaction :: shows (told after.toHelper) := by
    rw [htold]
    rfl
  have hnodup := h.showsOnce.nodup
  rw [h.fifo, shows_append, hshows] at hnodup
  have hbehind : value.transaction ∉ shows (told after.toHelper) :=
    (List.nodup_cons.mp (List.nodup_append.mp hnodup).2.1).1
  constructor
  all_goals rw [haddon]
  · exact htexts.waiting
  · intro hshown
    have hother : isShow transaction (.show value) = false := by
      refine decide_eq_false fun hsame => hbehind ?_
      rw [hsame]
      exact hshown
    have hcoming := htexts.coming (by rw [hshows]; exact List.mem_cons_of_mem _ hshown)
    rw [hshows, htold, textsAfterShow_cons hother] at hcoming
    rcases hcoming with hlast | ⟨hnone, hsearch | ⟨_, hsingle⟩⟩
    · exact Or.inl hlast
    · exact Or.inr ⟨hnone, Or.inl hsearch⟩
    · rw [(List.cons.inj hsingle).2] at hshown
      cases hshown
  · intro hheld
    have hbegun := (h.hears desktop hframes hframe).begun
    rw [← hhelper] at hbegun
    obtain rfl := Option.some.inj (hheld.symm.trans hbegun)
    rw [hhelper]
    exact texts_show h hframes hframe hreopens hactive htexts
  · intro hchosen hstays
    rw [hanswers] at hchosen
    rcases List.mem_append.mp hchosen with hearlier | hnow
    · obtain ⟨_, hnone⟩ := htexts.chosen hearlier hstays
      rw [hshows] at hnone
      cases hnone
    · rcases h.inv.exchanged desktop hframes with ⟨_, _, _, hnone⟩ | ⟨_, hacted⟩
      · rw [hnone] at hnow
        cases hnow
      · exact absurd (chooses_of_acted hacted hnow) (not_chooses_of_show hframe)

theorem Texts.same {after : PaletteSystem κ} {transaction : TransactionId} (h : Texts system transaction)
    (haddon : after.addon = system.addon) (hhelper : after.helper = system.helper)
    (htold : told after.toHelper = told system.toHelper) (hanswers : answers after.toAddon = answers system.toAddon) :
    Texts after transaction := by
  obtain ⟨hwaiting, hcoming, hheld, hchosen⟩ := h
  constructor
  all_goals rw [haddon]
  · exact hwaiting
  · rwa [htold, hhelper]
  · rwa [htold, hhelper]
  · rwa [htold, hhelper, hanswers]

/-! ### Every event -/

theorem not_typesUntimely_incoming (setup : Setup) (surroundings : Surroundings κ) (message : AddonMessage) :
    ¬ TypesUntimely setup surroundings (incoming setup message) system := by
  intro h
  obtain ⟨_, hrouted, _⟩ := h
  cases message <;> exact hrouted

theorem not_overflows_incoming (setup : Setup) (surroundings : Surroundings κ) (message : AddonMessage) :
    ¬ Overflows setup surroundings (incoming setup message) system := by
  intro h
  obtain ⟨_, hrouted, _⟩ := h
  cases message <;> exact hrouted

theorem not_typesUnkept_incoming (setup : Setup) (surroundings : Surroundings κ) (message : AddonMessage) :
    ¬ TypesUnkept setup surroundings (incoming setup message) system := by
  intro h
  obtain ⟨_, hrouted, _⟩ := h
  cases message <;> exact hrouted

/-- Whatever the addon handles in a harmless event is no key that parts the texts. -/
theorem Harmless.handled {event : Event κ} (h : Harmless setup system event) {surroundings : Surroundings κ}
    {input : EmojiPaletteAddon.Input κ} (hhandles : handles setup event system = some (surroundings, input)) :
    ¬ TypesUntimely setup surroundings input system ∧ ¬ Overflows setup surroundings input system ∧
      ¬ TypesUnkept setup surroundings input system := by
  cases event with
  | addon other happening =>
      cases hhandles
      exact h
  | toAddon other =>
      obtain ⟨message, _, hsame⟩ := Option.map_eq_some_iff.mp hhandles
      cases hsame
      exact ⟨not_typesUntimely_incoming setup surroundings message, not_overflows_incoming setup surroundings message,
        not_typesUnkept_incoming setup surroundings message⟩
  | pointer desktop event => cases hhandles
  | toHelper desktop => cases hhandles

end System

end EmojiPalette
