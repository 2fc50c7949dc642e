import Mathlib.Data.List.Basic
import Mathlib.Data.List.Nodup

/-!
# Asks and answers over two queues

One party asks another to show something, and the other answers with a choice or with a refusal. Both may end what is going on by themselves: the asker revokes its ask, or asks for something else, while an answer is on its way. Requests and answers travel in order and are not lost.

What counts for the agreement of the two is not the display as it is but the display as it will be when the requests on their way have arrived, and nothing else has happened. That display is `settled`, and a delivery does not change it.
-/

namespace Handover

variable {τ : Type}

/-- What is asked for, and whether the display stays open after a choice. -/
structure Ask (τ : Type) where
  id : τ
  stays : Bool
  deriving DecidableEq

inductive Request (τ : Type)
  | begin (ask : Ask τ)
  | revoke (id : τ)
  deriving DecidableEq

inductive Answer (τ : Type)
  | chosen (id : τ)
  | cancelled (id : τ)
  deriving DecidableEq

def Answer.id : Answer τ → τ
  | .chosen id => id
  | .cancelled id => id

/-- A display that is waiting was left open after a choice. -/
inductive Display (τ : Type)
  | hidden
  | shown (ask : Ask τ)
  | waiting
  deriving DecidableEq

structure State (τ : Type) where
  asked : Option (Ask τ)
  connected : Bool
  display : Display τ
  requests : List (Request τ)
  answers : List (Answer τ)

/-! ### Before the connection -/

variable {s s' : State τ}

/-- Before the two are connected nothing is displayed and nothing is on its way. -/
def Silent (s : State τ) : Prop := s.connected = false → s.display = .hidden ∧ s.requests = [] ∧ s.answers = []

theorem Silent.connected_of_display (h : Silent s) (hdisplay : s.display ≠ .hidden) : s.connected = true := by
  by_contra hfalse
  exact hdisplay (h (by simpa using hfalse)).1

theorem Silent.connected_of_request (h : Silent s) {request : Request τ} (hrequest : request ∈ s.requests) :
    s.connected = true := by
  by_contra hfalse
  rw [(h (by simpa using hfalse)).2.1] at hrequest
  cases hrequest

theorem Silent.connected_of_answer (h : Silent s) {answer : Answer τ} (hanswer : answer ∈ s.answers) :
    s.connected = true := by
  by_contra hfalse
  rw [(h (by simpa using hfalse)).2.2] at hanswer
  cases hanswer

/-! ### Identifiers -/

def Display.ids : Display τ → List τ
  | .shown ask => [ask.id]
  | _ => []

def begun : List (Request τ) → List τ
  | [] => []
  | .begin ask :: requests => ask.id :: begun requests
  | .revoke _ :: requests => begun requests

/-- The identifiers under way: asked for, shown, or answered. -/
def State.live (s : State τ) : List τ := begun s.requests ++ (s.display.ids ++ s.answers.map Answer.id)

theorem begun_append (requests more : List (Request τ)) : begun (requests ++ more) = begun requests ++ begun more := by
  induction requests with
  | nil => rfl
  | cons request requests ih => cases request <;> simp [begun, ih]

theorem mem_begun {requests : List (Request τ)} {ask : Ask τ} (h : .begin ask ∈ requests) :
    ask.id ∈ begun requests := by
  induction requests with
  | nil => cases h
  | cons request requests ih =>
      rcases List.mem_cons.mp h with rfl | hrest
      · simp [begun]
      · cases request <;> simp [begun, ih hrest]

theorem mem_begun_cons {request : Request τ} {requests : List (Request τ)} {id : τ} (h : id ∈ begun requests) :
    id ∈ begun (request :: requests) := by
  cases request with
  | begin ask => exact List.mem_cons_of_mem _ h
  | revoke other => exact h

theorem mem_live {id : τ} :
    id ∈ s.live ↔ id ∈ begun s.requests ∨ id ∈ s.display.ids ∨ id ∈ s.answers.map Answer.id := by
  rw [State.live, List.mem_append, List.mem_append]

theorem nodup_live_begin {ask : Ask τ} {requests : List (Request τ)} {tail : List τ}
    (hfresh : ask.id ∉ begun requests ++ tail) (h : (begun requests ++ tail).Nodup) :
    (begun (requests ++ [Request.begin ask]) ++ tail).Nodup := by
  have hmiddle : begun (requests ++ [Request.begin ask]) ++ tail = begun requests ++ ask.id :: tail := by
    simp [begun_append, begun]
  rw [hmiddle, List.nodup_middle]
  exact List.nodup_cons.mpr ⟨hfresh, h⟩

/-- An answer takes the place of what it answers. -/
theorem perm_answer (requests : List τ) (answers : List (Answer τ)) {ask : Ask τ} {answer : Answer τ}
    (hid : answer.id = ask.id) : List.Perm (requests ++ ([] ++ (answers ++ [answer]).map Answer.id))
      (requests ++ ([ask.id] ++ answers.map Answer.id)) := by
  rw [List.map_append, List.map_singleton, hid, List.nil_append]
  exact List.Perm.append_left requests List.perm_append_comm

/-! ### Displays -/

variable [DecidableEq τ]

namespace Display

def receive : Display τ → Request τ → Display τ
  | _, .begin ask => .shown ask
  | .shown ask, .revoke id => if ask.id = id then .hidden else .shown ask
  | display, .revoke _ => display

theorem mem_ids_receive {display : Display τ} {request : Request τ} {id : τ} (h : id ∈ (display.receive request).ids) :
    id ∈ display.ids ∨ ∃ ask, request = .begin ask ∧ ask.id = id := by
  cases request with
  | begin ask => exact Or.inr ⟨ask, rfl, (List.mem_singleton.mp h).symm⟩
  | revoke other =>
      cases display with
      | hidden => exact Or.inl h
      | waiting => exact Or.inl h
      | shown ask =>
          rw [receive] at h
          split at h
          · cases h
          · exact Or.inl h

def settle (display : Display τ) (requests : List (Request τ)) : Display τ := requests.foldl receive display

@[simp] theorem settle_nil (display : Display τ) : display.settle [] = display := rfl

@[simp] theorem settle_cons (display : Display τ) (request : Request τ) (requests : List (Request τ)) :
    display.settle (request :: requests) = (display.receive request).settle requests := rfl

@[simp] theorem settle_append (display : Display τ) (requests more : List (Request τ)) :
    display.settle (requests ++ more) = (display.settle requests).settle more := List.foldl_append

/-- The last ask on its way decides, whatever is displayed now. -/
theorem settle_of_begin {requests : List (Request τ)} {ask : Ask τ} (h : .begin ask ∈ requests)
    (display other : Display τ) : display.settle requests = other.settle requests := by
  induction requests generalizing display other with
  | nil => cases h
  | cons request requests ih =>
      rw [settle_cons, settle_cons]
      rcases List.mem_cons.mp h with rfl | hrest
      · rfl
      · exact ih hrest _ _

/-- Without an ask on its way nothing is opened, and what is shown is at most hidden. -/
theorem settle_of_no_begin {requests : List (Request τ)} (h : ∀ ask, .begin ask ∉ requests) (display : Display τ) :
    display.settle requests = display ∨
      (display ≠ .waiting ∧ display.settle requests = .hidden) := by
  induction requests generalizing display with
  | nil => exact Or.inl rfl
  | cons request requests ih =>
      have hrest : ∀ ask, .begin ask ∉ requests := fun ask hmem => h ask (List.mem_cons_of_mem request hmem)
      cases request with
      | begin ask => exact absurd List.mem_cons_self (h ask)
      | revoke id =>
          cases display with
          | hidden => exact ih hrest .hidden
          | waiting => exact ih hrest .waiting
          | shown ask =>
              rw [settle_cons, receive]
              by_cases hid : ask.id = id
              · rw [if_pos hid]
                exact Or.inr ⟨by simp, (ih hrest .hidden).elim (fun h => h) And.right⟩
              · rw [if_neg hid]
                exact ih hrest (.shown ask)

theorem eq_of_settle_eq_shown {display : Display τ} {requests : List (Request τ)} {ask : Ask τ}
    (h : display.settle requests = .shown ask) (hno : ∀ other, .begin other ∉ requests) : display = .shown ask := by
  rcases settle_of_no_begin hno display with hsame | ⟨_, hhidden⟩
  · exact hsame ▸ h
  · rw [hhidden] at h
    cases h

/-- What will be shown is shown already, or it is asked for on the way. -/
theorem shown_or_begin_of_settle {display : Display τ} {requests : List (Request τ)} {ask : Ask τ}
    (h : display.settle requests = .shown ask) : display = .shown ask ∨ .begin ask ∈ requests := by
  induction requests generalizing display with
  | nil => exact Or.inl h
  | cons request requests ih =>
      rcases ih h with hreceived | hmem
      · cases request with
        | begin other =>
            cases hreceived
            exact Or.inr List.mem_cons_self
        | revoke id =>
            cases display with
            | hidden => cases hreceived
            | waiting => cases hreceived
            | shown other =>
                rw [receive] at hreceived
                split at hreceived
                · cases hreceived
                · exact Or.inl hreceived
      · exact Or.inr (List.mem_cons_of_mem request hmem)

/-- What is shown goes only by its own revocation. -/
theorem revoke_of_settle_eq_hidden {ask : Ask τ} {requests : List (Request τ)} (hno : ∀ other, .begin other ∉ requests)
    (h : (Display.shown ask).settle requests = .hidden) : .revoke ask.id ∈ requests := by
  induction requests with
  | nil => cases h
  | cons request requests ih =>
      cases request with
      | begin other => exact absurd List.mem_cons_self (hno other)
      | revoke id =>
          by_cases hid : ask.id = id
          · rw [hid]
            exact List.mem_cons_self
          · rw [settle_cons, receive, if_neg hid] at h
            exact List.mem_cons_of_mem _ (ih (fun other hmem => hno other (List.mem_cons_of_mem _ hmem)) h)

theorem settle_ne_waiting {display : Display τ} (h : display ≠ .waiting) (requests : List (Request τ)) :
    display.settle requests ≠ .waiting := by
  induction requests generalizing display with
  | nil => exact h
  | cons request requests ih =>
      apply ih
      cases request with
      | begin ask => simp [receive]
      | revoke id =>
          cases display with
          | hidden => simp [receive]
          | waiting => exact absurd rfl h
          | shown ask =>
              rw [receive]
              split <;> simp

/-- The display will be waiting exactly if it is and no ask is on its way. -/
theorem settle_eq_waiting_iff {display : Display τ} {requests : List (Request τ)} :
    display.settle requests = .waiting ↔ display = .waiting ∧ ∀ ask, .begin ask ∉ requests := by
  constructor
  · intro h
    refine ⟨not_not.mp fun hne => settle_ne_waiting hne requests h, fun ask hmem => ?_⟩
    rw [settle_of_begin hmem display .hidden] at h
    exact settle_ne_waiting (by simp) requests h
  · intro h
    obtain ⟨rfl, hno⟩ := h
    exact (settle_of_no_begin hno .waiting).elim (fun h => h) fun h => absurd rfl h.1

end Display

/-! ### Steps -/

/-- The display as it will be when what has been requested has arrived. -/
def State.settled (s : State τ) : Display τ := s.display.settle s.requests

/-- What the two parties and the queues between them can do. -/
inductive Step : State τ → State τ → Prop
  | idle (s : State τ) : Step s s
  /-- An ask that has to wait for the connection. -/
  | wait {s : State τ} (ask : Ask τ) (hasked : s.asked = none) (hconnected : s.connected = false) :
      Step s { s with asked := some ask }
  | ask {s : State τ} (ask : Ask τ) (hasked : s.asked = none) (hconnected : s.connected = true)
      (hfresh : ask.id ∉ s.live) :
      Step s { s with asked := some ask, requests := s.requests ++ [.begin ask] }
  | connect {s : State τ} {ask : Ask τ} (hasked : s.asked = some ask) (hconnected : s.connected = false) :
      Step s { s with connected := true, requests := s.requests ++ [.begin ask] }
  /-- The connection is there, but the ask that waited for it is given up, with a revocation or without. -/
  | connectLost {s : State τ} {ask : Ask τ} {revoked : List (Request τ)} (hasked : s.asked = some ask)
      (hconnected : s.connected = false) (hrevoked : revoked = [] ∨ revoked = [.revoke ask.id]) :
      Step s { s with asked := none, connected := true, requests := s.requests ++ revoked }
  /-- An ask given up before it was sent. -/
  | forget {s : State τ} {ask : Ask τ} (hasked : s.asked = some ask) (hconnected : s.connected = false) :
      Step s { s with asked := none }
  | giveUp {s : State τ} {ask : Ask τ} (hasked : s.asked = some ask) (hconnected : s.connected = true) :
      Step s { s with asked := none, requests := s.requests ++ [.revoke ask.id] }
  /-- An answer to something else than what is asked for. -/
  | ignore {s : State τ} {answer : Answer τ} {rest : List (Answer τ)} (hanswers : s.answers = answer :: rest)
      (hother : ∀ ask, s.asked = some ask → ask.id ≠ answer.id) : Step s { s with answers := rest }
  | finish {s : State τ} {ask : Ask τ} {answer : Answer τ} {rest : List (Answer τ)}
      (hanswers : s.answers = answer :: rest) (hasked : s.asked = some ask) (hid : ask.id = answer.id) :
      Step s { s with asked := none, answers := rest }
  /-- An answer after which the next ask follows at once. -/
  | again {s : State τ} {ask : Ask τ} {answer : Answer τ} {rest : List (Answer τ)} (next : Ask τ)
      (hanswers : s.answers = answer :: rest) (hasked : s.asked = some ask) (hid : ask.id = answer.id)
      (hfresh : next.id ∉ s.live) :
      Step s { s with asked := some next, answers := rest, requests := s.requests ++ [.begin next] }
  | receive {s : State τ} {request : Request τ} {rest : List (Request τ)} (hrequests : s.requests = request :: rest) :
      Step s { s with display := s.display.receive request, requests := rest }
  | choose {s : State τ} {ask : Ask τ} (hdisplay : s.display = .shown ask) :
      Step s { s with
        display := if ask.stays then .waiting else .hidden, answers := s.answers ++ [.chosen ask.id] }
  | cancel {s : State τ} {ask : Ask τ} (hdisplay : s.display = .shown ask) :
      Step s { s with display := .hidden, answers := s.answers ++ [.cancelled ask.id] }
  | close {s : State τ} (hdisplay : s.display = .waiting) : Step s { s with display := .hidden }

/-- Once the two are connected they stay so. -/
theorem Step.connected (h : Step s s') (hconnected : s.connected = true) : s'.connected = true := by
  cases h with
  | connect | connectLost => rfl
  | _ => exact hconnected

theorem Silent.step (h : Silent s) (hstep : Step s s') : Silent s' := by
  intro hconnected
  cases hstep with
  | idle | wait | forget => exact h hconnected
  | connect | connectLost => cases hconnected
  | ask _ _ htrue => cases htrue.symm.trans hconnected
  | giveUp _ htrue => cases htrue.symm.trans hconnected
  | ignore hanswers | finish hanswers | again _ hanswers =>
      have htrue := h.connected_of_answer (hanswers ▸ List.mem_cons_self)
      cases htrue.symm.trans hconnected
  | receive hrequests =>
      have htrue := h.connected_of_request (hrequests ▸ List.mem_cons_self)
      cases htrue.symm.trans hconnected
  | choose hdisplay | cancel hdisplay | close hdisplay =>
      have htrue := h.connected_of_display (by simp [hdisplay])
      cases htrue.symm.trans hconnected

/-- What is under way after a step was so before, or it is what is asked for now. -/
theorem Step.mem_live (hstep : Step s s') {id : τ} (h : id ∈ s'.live) :
    id ∈ s.live ∨ ∃ ask, s'.asked = some ask ∧ ask.id = id := by
  cases hstep with
  | idle | wait | forget => exact Or.inl h
  | ask | connect =>
      simp only [mem_live, begun_append, begun, List.mem_append, List.mem_singleton] at h ⊢
      aesop
  | again _ hanswers =>
      simp only [mem_live, begun_append, begun, hanswers, List.mem_append, List.mem_singleton] at h ⊢
      aesop
  | connectLost _ _ hrevoked =>
      rcases hrevoked with rfl | rfl <;> simpa [mem_live, begun_append, begun] using h
  | giveUp => simpa [mem_live, begun_append, begun] using h
  | ignore hanswers | finish hanswers =>
      simp only [mem_live, hanswers, List.map_cons, List.mem_cons] at h ⊢
      tauto
  | receive hrequests =>
      simp only [mem_live] at h ⊢
      rcases h with hbegun | hids | hanswered
      · rw [hrequests]
        exact Or.inl (Or.inl (mem_begun_cons hbegun))
      · rcases Display.mem_ids_receive hids with hbefore | ⟨ask, hrequest, hid⟩
        · exact Or.inl (Or.inr (Or.inl hbefore))
        · rw [hrequests, hrequest, ← hid]
          exact Or.inl (Or.inl (mem_begun List.mem_cons_self))
      · exact Or.inl (Or.inr (Or.inr hanswered))
  | choose hdisplay =>
      rw [State.live, hdisplay]
      rw [State.live] at h
      dsimp only at h
      split at h <;> exact Or.inl ((perm_answer _ _ rfl).mem_iff.mp h)
  | cancel hdisplay =>
      rw [State.live, hdisplay]
      exact Or.inl ((perm_answer _ _ rfl).mem_iff.mp h)
  | close hdisplay =>
      rw [State.live, hdisplay]
      exact Or.inl h

/-! ### Both parties mean the same ask -/

/-- What is asked for will be shown, or its answer is on its way. -/
def Agreed (s : State τ) : Prop :=
  s.connected = true → ∀ ask, s.asked = some ask →
    s.settled = .shown ask ∨ ∃ answer ∈ s.answers, answer.id = ask.id

theorem State.settled_of_begin {requests : List (Request τ)} {ask : Ask τ}
    (h : s.requests = requests ++ [.begin ask]) : s.settled = .shown ask := by
  rw [State.settled, h, Display.settle_append]
  rfl

/-- An answer of the display changes nothing about an ask that is on its way, and answers the one that is shown. -/
theorem agreed_answer {ask : Ask τ} {display : Display τ} {answer : Answer τ} (h : Agreed s)
    (hdisplay : s.display = .shown ask) (hid : answer.id = ask.id) :
    Agreed { s with display := display, answers := s.answers ++ [answer] } := by
  intro hconnected asked hasked
  rcases h hconnected asked hasked with hsettled | ⟨other, hother, hof⟩
  · by_cases hbegin : ∃ next, .begin next ∈ s.requests
    · obtain ⟨next, hnext⟩ := hbegin
      refine Or.inl ?_
      rw [← hsettled]
      exact Display.settle_of_begin hnext display s.display
    · refine Or.inr ⟨answer, by simp, ?_⟩
      have hshown := Display.eq_of_settle_eq_shown hsettled fun next hnext => hbegin ⟨next, hnext⟩
      rw [hdisplay] at hshown
      cases hshown
      exact hid
  · exact Or.inr ⟨other, List.mem_append_left _ hother, hof⟩

theorem Agreed.step (h : Agreed s) (hstep : Step s s') : Agreed s' := by
  cases hstep with
  | idle => exact h
  | wait ask _ hconnected =>
      intro htrue
      rw [hconnected] at htrue
      cases htrue
  | ask ask _ _ _ =>
      intro _ asked hasked
      cases hasked
      exact Or.inl (State.settled_of_begin rfl)
  | connect hasked hconnected =>
      intro _ asked hsome
      rw [hasked] at hsome
      cases hsome
      exact Or.inl (State.settled_of_begin rfl)
  | connectLost | forget | giveUp | finish =>
      intro _ asked hasked
      cases hasked
  | ignore hanswers hother =>
      intro hconnected asked hasked
      rcases h hconnected asked hasked with hsettled | ⟨answer, hmem, hof⟩
      · exact Or.inl hsettled
      · rw [hanswers] at hmem
        rcases List.mem_cons.mp hmem with rfl | hrest
        · exact absurd hof.symm (hother asked hasked)
        · exact Or.inr ⟨answer, hrest, hof⟩
  | again next _ _ _ _ =>
      intro _ asked hasked
      cases hasked
      exact Or.inl (State.settled_of_begin rfl)
  | receive hrequests =>
      intro hconnected asked hasked
      have hsame := h hconnected asked hasked
      rwa [State.settled, hrequests] at hsame
  | choose hdisplay => exact agreed_answer h hdisplay rfl
  | cancel hdisplay => exact agreed_answer h hdisplay rfl
  | close hdisplay =>
      intro hconnected asked hasked
      rcases h hconnected asked hasked with hsettled | hanswer
      · rcases Display.shown_or_begin_of_settle hsettled with hshown | hbegin
        · rw [hdisplay] at hshown
          cases hshown
        · refine Or.inl ?_
          rw [← hsettled]
          exact Display.settle_of_begin hbegin .hidden s.display
      · exact Or.inr hanswer

/-- What is shown is what is asked for, if it has the same identifier and nothing else is on its way. -/
theorem Agreed.eq_of_shown (h : Agreed s) (hnodup : s.live.Nodup) (hconnected : s.connected = true) {asked shown : Ask τ}
    (hasked : s.asked = some asked) (hdisplay : s.display = .shown shown) (hid : asked.id = shown.id)
    (hno : ∀ ask, .begin ask ∉ s.requests) : asked = shown := by
  rcases h hconnected asked hasked with hsettled | ⟨answer, hanswer, hof⟩
  · have hshown := Display.eq_of_settle_eq_shown hsettled hno
    exact Display.shown.inj (hshown.symm.trans hdisplay)
  · have hanswered : shown.id ∈ s.answers.map Answer.id := List.mem_map.mpr ⟨answer, hanswer, hof.trans hid⟩
    have hids : shown.id ∈ s.display.ids := by simp [hdisplay, Display.ids]
    have hpair := (List.nodup_append.mp hnodup).2.1
    exact absurd rfl ((List.nodup_append.mp hpair).2.2 _ hids _ hanswered)

/-! ### Nothing is left open -/

/-- The invariant behind "what stays displayed is asked for". A display left open after a choice is waiting for the asker to hear of the choice. -/
structure Orderly (s : State τ) : Prop where
  silent : Silent s
  nodup : s.live.Nodup
  held : ∀ ask, s.settled = .shown ask → s.asked = some ask
  awaited : s.settled = .waiting → ∃ ask, s.asked = some ask ∧ ask.stays = true ∧ .chosen ask.id ∈ s.answers

/-- A step that keeps the asker for a display left open, and opens none that nobody holds. -/
def Careful (s s' : State τ) : Prop :=
  s'.settled = .waiting → s.settled ≠ .hidden ∧ (s.settled = .waiting → s'.asked ≠ none)

/-- What will be shown is under way, and so not yet answered. -/
theorem Orderly.notMem_answers (h : Orderly s) {ask : Ask τ} (hsettled : s.settled = .shown ask) {answer : Answer τ}
    (hanswer : answer ∈ s.answers) : answer.id ≠ ask.id := by
  intro hid
  have hanswered : ask.id ∈ s.answers.map Answer.id := List.mem_map.mpr ⟨answer, hanswer, hid⟩
  have hnodup := List.nodup_append.mp h.nodup
  rcases Display.shown_or_begin_of_settle hsettled with hshown | hbegin
  · have hdisplay : ask.id ∈ s.display.ids := by simp [hshown, Display.ids]
    exact (List.nodup_append.mp hnodup.2.1).2.2 _ hdisplay _ hanswered rfl
  · exact hnodup.2.2 _ (mem_begun hbegin) _ (List.mem_append_right _ hanswered) rfl

theorem Orderly.eq_of_chosen (h : Orderly s) {id : τ} {answer : Answer τ} (hchosen : .chosen id ∈ s.answers)
    (hanswer : answer ∈ s.answers) (hid : answer.id = id) : answer = .chosen id :=
  List.inj_on_of_nodup_map (List.nodup_append.mp (List.nodup_append.mp h.nodup).2.1).2.1 hanswer hchosen hid

/-- All that is not careful: a choice of what is being revoked, and an end of the ask while the display waits. -/
theorem careful_of_step (hstep : Step s s')
    (hchoose : ∀ ask, s.display = .shown ask → s'.answers = s.answers ++ [.chosen ask.id] → ask.stays = true →
      (∀ other, .begin other ∉ s.requests) → s.settled ≠ .hidden)
    (hend : s.settled = .waiting → s'.asked ≠ none) : Careful s s' := by
  intro hwaiting
  refine ⟨fun hhidden => ?_, hend⟩
  have hsettled : s.display.settle s.requests = .hidden := hhidden
  rw [State.settled] at hwaiting
  cases hstep with
  | idle | wait | forget | ignore | finish => cases hsettled.symm.trans hwaiting
  | ask | connect | again =>
      rw [Display.settle_append, hsettled] at hwaiting
      cases hwaiting
  | giveUp =>
      rw [Display.settle_append, hsettled] at hwaiting
      cases hwaiting
  | connectLost _ _ hrevoked =>
      rw [Display.settle_append, hsettled] at hwaiting
      rcases hrevoked with rfl | rfl <;> cases hwaiting
  | receive hrequests =>
      rw [hrequests] at hsettled
      cases hsettled.symm.trans hwaiting
  | choose hdisplay =>
      obtain ⟨hopen, hno⟩ := Display.settle_eq_waiting_iff.mp hwaiting
      refine hchoose _ hdisplay rfl ?_ hno hhidden
      by_contra hcloses
      simp [hcloses] at hopen
  | cancel | close => exact Display.settle_ne_waiting (by simp) _ hwaiting

/-! Each step leaves at most one new identifier under way, and that one fresh. -/

theorem nodup_live_receive {display : Display τ} {request : Request τ} {rest : List (Request τ)} {tail : List τ}
    (h : (begun (request :: rest) ++ (display.ids ++ tail)).Nodup) :
    (begun rest ++ ((display.receive request).ids ++ tail)).Nodup := by
  cases request with
  | begin ask =>
      have hmiddle : begun rest ++ ((display.receive (.begin ask)).ids ++ tail) = begun rest ++ ask.id :: tail := rfl
      rw [hmiddle, List.nodup_middle]
      refine h.sublist (List.Sublist.cons_cons ask.id ?_)
      exact List.Sublist.append_left (List.sublist_append_right display.ids tail) (begun rest)
  | revoke id =>
      have hids : List.Sublist (display.receive (.revoke id)).ids display.ids := by
        cases display with
        | hidden => exact List.Sublist.refl _
        | waiting => exact List.Sublist.refl _
        | shown ask =>
            rw [Display.receive]
            split
            · exact List.nil_sublist _
            · exact List.Sublist.refl _
      exact h.sublist ((hids.append_right tail).append_left (begun rest))

theorem Silent.nodup_step (hsilent : Silent s) (hlive : s.live.Nodup) (hstep : Step s s') : s'.live.Nodup := by
  have hdrop : ∀ {answer : Answer τ} {rest : List (Answer τ)}, s.answers = answer :: rest →
      List.Sublist (begun s.requests ++ (s.display.ids ++ rest.map Answer.id)) s.live := by
    intro answer rest hanswers
    rw [State.live, hanswers]
    exact ((List.sublist_cons_self answer.id _).append_left _).append_left _
  cases hstep with
  | idle => exact hlive
  | wait => exact hlive
  | ask ask _ _ hfresh => exact nodup_live_begin hfresh hlive
  | connect _ hconnected =>
      obtain ⟨hdisplay, hrequests, hanswers⟩ := hsilent hconnected
      simp [State.live, hdisplay, hrequests, hanswers, begun, Display.ids]
  | connectLost _ hconnected hrevoked =>
      obtain ⟨hdisplay, hrequests, hanswers⟩ := hsilent hconnected
      rcases hrevoked with rfl | rfl <;> simp [State.live, hdisplay, hrequests, hanswers, begun, Display.ids]
  | forget => exact hlive
  | giveUp _ _ =>
      have hnodup := hlive
      rw [State.live] at hnodup ⊢
      simpa [begun_append, begun] using hnodup
  | ignore hanswers _ => exact hlive.sublist (hdrop hanswers)
  | finish hanswers _ _ => exact hlive.sublist (hdrop hanswers)
  | again next hanswers _ _ hfresh =>
      refine nodup_live_begin (fun hmem => hfresh ?_) (hlive.sublist (hdrop hanswers))
      exact (hdrop hanswers).subset hmem
  | receive hrequests =>
      have hnodup := hlive
      rw [State.live, hrequests] at hnodup
      exact nodup_live_receive hnodup
  | choose hdisplay =>
      have hnodup := hlive
      rw [State.live, hdisplay] at hnodup
      rw [State.live]
      dsimp only
      split <;> exact (perm_answer _ _ rfl).nodup_iff.mpr hnodup
  | cancel hdisplay =>
      have hnodup := hlive
      rw [State.live, hdisplay] at hnodup
      exact (perm_answer _ _ rfl).nodup_iff.mpr hnodup
  | close hdisplay =>
      have hnodup := hlive
      rwa [State.live, hdisplay] at hnodup

/-- A display that shows nothing can only come to show what is on its way. -/
theorem settled_of_not_shown {display : Display τ} {ask : Ask τ} (hnot : ∀ other, display ≠ .shown other)
    (h : display.settle s.requests = .shown ask) : s.settled = .shown ask := by
  rcases Display.shown_or_begin_of_settle h with hshown | hbegin
  · exact absurd hshown (hnot ask)
  · rw [State.settled, Display.settle_of_begin hbegin s.display display, h]

theorem orderly_of_begin {requests : List (Request τ)} {ask : Ask τ} (hsilent : Silent s) (hnodup : s.live.Nodup)
    (hasked : s.asked = some ask) (hrequests : s.requests = requests ++ [.begin ask]) : Orderly s := by
  have hsettled := State.settled_of_begin hrequests
  refine ⟨hsilent, hnodup, fun other hother => ?_, fun hwaiting => ?_⟩
  · cases hsettled.symm.trans hother
    exact hasked
  · cases hsettled.symm.trans hwaiting

/-- An ask may end where nothing will be shown and nothing is left open. -/
theorem orderly_of_end (hsilent : Silent s) (hnodup : s.live.Nodup) (hshown : ∀ ask, s.settled ≠ .shown ask)
    (hwaiting : s.settled ≠ .waiting) : Orderly s :=
  ⟨hsilent, hnodup, fun ask hask => absurd hask (hshown ask), fun h => absurd h hwaiting⟩

theorem orderly_of_hidden (hsilent : Silent s) (hnodup : s.live.Nodup) (hsettled : s.settled = .hidden) : Orderly s :=
  orderly_of_end hsilent hnodup (fun _ => by simp [hsettled]) (by simp [hsettled])

/-- Before the connection nothing is under way at all. -/
theorem orderly_of_unconnected (h : Silent s) (hconnected : s.connected = false) : Orderly s := by
  obtain ⟨hdisplay, hrequests, hanswers⟩ := h hconnected
  have hsettled : s.settled = .hidden := by rw [State.settled, hdisplay, hrequests, Display.settle_nil]
  refine ⟨h, ?_, fun other hother => ?_, fun hwaiting => ?_⟩
  · simp [State.live, hdisplay, hrequests, hanswers, begun, Display.ids]
  · cases hsettled.symm.trans hother
  · cases hsettled.symm.trans hwaiting

/-- Giving up leaves nothing to be shown: the revocation follows what it revokes. -/
theorem Orderly.giveUp (h : Orderly s) {ask : Ask τ} (hasked : s.asked = some ask)
    (hsilent : Silent { s with asked := none, requests := s.requests ++ [.revoke ask.id] })
    (hnodup : (State.live { s with asked := none, requests := s.requests ++ [.revoke ask.id] }).Nodup)
    (hcareful : Careful s { s with asked := none, requests := s.requests ++ [.revoke ask.id] }) :
    Orderly { s with asked := none, requests := s.requests ++ [.revoke ask.id] } := by
  have hsettled : State.settled { s with asked := none, requests := s.requests ++ [.revoke ask.id] } =
      s.settled.receive (.revoke ask.id) := Display.settle_append _ _ _
  cases hbefore : s.settled with
  | hidden =>
      rw [hbefore] at hsettled
      exact orderly_of_hidden hsilent hnodup hsettled
  | waiting =>
      rw [hbefore] at hsettled
      exact absurd rfl ((hcareful hsettled).2 hbefore)
  | shown other =>
      obtain rfl : other = ask := Option.some.inj ((h.held other hbefore).symm.trans hasked)
      rw [hbefore, Display.receive, if_pos rfl] at hsettled
      exact orderly_of_hidden hsilent hnodup hsettled

theorem Orderly.choose (h : Orderly s) {ask : Ask τ} (hdisplay : s.display = .shown ask)
    (hsilent : Silent { s with
      display := if ask.stays then .waiting else .hidden, answers := s.answers ++ [.chosen ask.id] })
    (hnodup : State.live { s with
      display := if ask.stays then .waiting else .hidden, answers := s.answers ++ [.chosen ask.id] } |>.Nodup)
    (hcareful : Careful s { s with
      display := if ask.stays then .waiting else .hidden, answers := s.answers ++ [.chosen ask.id] }) :
    Orderly { s with
      display := if ask.stays then .waiting else .hidden, answers := s.answers ++ [.chosen ask.id] } := by
  have hnot : ∀ other, (if ask.stays then Display.waiting else .hidden : Display τ) ≠ .shown other := by
    intro other
    split <;> simp
  refine ⟨hsilent, hnodup, fun other hother => h.held other (settled_of_not_shown hnot hother), fun hwaiting => ?_⟩
  obtain ⟨hopen, hno⟩ := Display.settle_eq_waiting_iff.mp hwaiting
  have hstays : ask.stays = true := by
    by_contra hcloses
    simp [hcloses] at hopen
  refine ⟨ask, h.held ask ?_, hstays, by simp⟩
  rcases Display.settle_of_no_begin hno s.display with hsame | ⟨_, hhidden⟩
  · exact hsame.trans hdisplay
  · exact absurd hhidden (hcareful hwaiting).1

theorem Orderly.hide (h : Orderly s) {answers : List (Answer τ)}
    (hsilent : Silent { s with display := .hidden, answers := answers })
    (hnodup : (State.live { s with display := .hidden, answers := answers }).Nodup) :
    Orderly { s with display := .hidden, answers := answers } :=
  ⟨hsilent, hnodup, fun other hother => h.held other (settled_of_not_shown (by simp) hother),
    fun hwaiting => absurd hwaiting (Display.settle_ne_waiting (by simp) _)⟩

/-- A careful step keeps the order. -/
theorem Orderly.step (h : Orderly s) (hstep : Step s s') (hcareful : Careful s s') : Orderly s' := by
  have hsilent := h.silent.step hstep
  have hnodup := h.silent.nodup_step h.nodup hstep
  cases hstep with
  | idle => exact h
  | wait _ _ hconnected => exact orderly_of_unconnected hsilent hconnected
  | ask _ _ _ _ => exact orderly_of_begin hsilent hnodup rfl rfl
  | connect hasked _ => exact orderly_of_begin hsilent hnodup hasked rfl
  | connectLost hasked hconnected hrevoked =>
      obtain ⟨hdisplay, hrequests, _⟩ := h.silent hconnected
      refine orderly_of_hidden hsilent hnodup ?_
      rw [State.settled, hdisplay, hrequests]
      rcases hrevoked with rfl | rfl <;> rfl
  | forget _ hconnected => exact orderly_of_unconnected hsilent hconnected
  | giveUp hasked _ => exact h.giveUp hasked hsilent hnodup hcareful
  | ignore hanswers hother =>
      refine ⟨hsilent, hnodup, h.held, fun hwaiting => ?_⟩
      obtain ⟨ask, hasked, hstays, hchosen⟩ := h.awaited hwaiting
      rw [hanswers] at hchosen
      rcases List.mem_cons.mp hchosen with rfl | hrest
      · exact absurd rfl (hother ask hasked)
      · exact ⟨ask, hasked, hstays, hrest⟩
  | finish hanswers hasked hid =>
      refine orderly_of_end hsilent hnodup (fun other hshown => ?_) fun hwaiting => ?_
      · obtain rfl := Option.some.inj ((h.held other hshown).symm.trans hasked)
        exact h.notMem_answers hshown (hanswers ▸ List.mem_cons_self) hid.symm
      · exact (hcareful hwaiting).2 hwaiting rfl
  | again _ _ _ _ _ => exact orderly_of_begin hsilent hnodup rfl rfl
  | receive hrequests =>
      rename_i request rest
      have hsettled : (s.display.receive request).settle rest = s.settled := by
        rw [State.settled, hrequests, Display.settle_cons]
      exact ⟨hsilent, hnodup, fun ask hask => h.held ask (hsettled ▸ hask),
        fun hwaiting => h.awaited (hsettled ▸ hwaiting)⟩
  | choose hdisplay => exact h.choose hdisplay hsilent hnodup hcareful
  | cancel _ => exact h.hide hsilent hnodup
  | close _ => exact h.hide hsilent hnodup

/-- Once everything has arrived, whatever is displayed is what is asked for. -/
theorem Orderly.shown_of_quiet (h : Orderly s) (hrequests : s.requests = []) (hanswers : s.answers = [])
    (hdisplay : s.display ≠ .hidden) : ∃ ask, s.asked = some ask ∧ s.display = .shown ask := by
  have hsettled : s.settled = s.display := by rw [State.settled, hrequests, Display.settle_nil]
  cases hshown : s.display with
  | hidden => exact absurd hshown hdisplay
  | shown ask => exact ⟨ask, h.held ask (hsettled.trans hshown), rfl⟩
  | waiting =>
      obtain ⟨ask, _, _, hchosen⟩ := h.awaited (hsettled.trans hshown)
      rw [hanswers] at hchosen
      cases hchosen

end Handover
