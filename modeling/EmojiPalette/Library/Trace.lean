import Mathlib.Data.List.Induction

/-!
# Actions, traces and reachable states

An action changes a state and has effects outside it. Running actions one after another concatenates their effects into a trace, and an invariant may speak of the state and of the trace so far at once. `Preserves` is that notion, with one rule for each way of building an action, so that an invariant of a whole run is proved from one lemma for each kind of step.

A safety property of traces mostly has the shape "every effect was justified by what came before it". `Justified` states it, and `Since` names the latest effect of some kind together with what has happened after it.
-/

namespace Trace

variable {σ ε α : Type}

/-- A state change together with the effects it has outside, oldest first. -/
abbrev Action (σ ε : Type) := σ → σ × List ε

namespace Action

def skip : Action σ ε := fun s => (s, [])

def update (change : σ → σ) : Action σ ε := fun s => (change s, [])

def emit (e : ε) : Action σ ε := fun s => (s, [e])

/-- One action, then another on the state it leaves. -/
def andThen (first second : Action σ ε) : Action σ ε := fun s =>
  ((second (first s).1).1, (first s).2 ++ (second (first s).1).2)

/-- All the actions of a list, in its order. -/
def sequence : List (Action σ ε) → Action σ ε
  | [] => skip
  | action :: rest => action.andThen (sequence rest)

@[simp] theorem skip_apply (s : σ) : (skip : Action σ ε) s = (s, []) := rfl

@[simp] theorem update_apply (change : σ → σ) (s : σ) :
    (update change : Action σ ε) s = (change s, []) := rfl

@[simp] theorem emit_apply (e : ε) (s : σ) : (emit e : Action σ ε) s = (s, [e]) := rfl

@[simp] theorem andThen_fst (first second : Action σ ε) (s : σ) :
    (first.andThen second s).1 = (second (first s).1).1 := rfl

@[simp] theorem andThen_snd (first second : Action σ ε) (s : σ) :
    (first.andThen second s).2 = (first s).2 ++ (second (first s).1).2 := rfl

/-- The invariant survives the action, with the action's effects appended to the trace. -/
def Preserves (inv : σ → List ε → Prop) (action : Action σ ε) : Prop :=
  ∀ s log, inv s log → inv (action s).1 (log ++ (action s).2)

variable {inv : σ → List ε → Prop}

theorem Preserves.skip : Preserves inv (skip : Action σ ε) := by
  intro s log h
  simpa using h

theorem Preserves.update {change : σ → σ} (h : ∀ s log, inv s log → inv (change s) log) :
    Preserves inv (update change : Action σ ε) := by
  intro s log hs
  simpa using h s log hs

theorem Preserves.andThen {first second : Action σ ε} (hfirst : Preserves inv first)
    (hsecond : Preserves inv second) : Preserves inv (first.andThen second) := by
  intro s log h
  have hmid := hfirst s log h
  have hend := hsecond _ _ hmid
  simpa [List.append_assoc] using hend

theorem Preserves.sequence {actions : List (Action σ ε)} (h : ∀ action ∈ actions, Preserves inv action) :
    Preserves inv (sequence actions) := by
  induction actions with
  | nil => exact Preserves.skip
  | cons action rest ih =>
      exact (h action List.mem_cons_self).andThen
        (ih fun other hother => h other (List.mem_cons_of_mem action hother))

/-- An invariant every kind of step preserves holds at the end of every run. -/
theorem Preserves.run {step : α → Action σ ε} (h : ∀ a, Preserves inv (step a)) (as : List α)
    {s : σ} (hs : inv s []) :
    inv (Action.sequence (as.map step) s).1 (Action.sequence (as.map step) s).2 := by
  have hall : Preserves inv (Action.sequence (as.map step)) := by
    apply Preserves.sequence
    intro action haction
    obtain ⟨a, _, rfl⟩ := List.mem_map.mp haction
    exact h a
  simpa using hall s [] hs

end Action

/-! ### Effects justified by their past -/

/-- Every effect of the trace has its reason in the effects before it. -/
def Justified (reason : List ε → ε → Prop) (log : List ε) : Prop :=
  ∀ before e after, log = before ++ e :: after → reason before e

theorem justified_nil (reason : List ε → ε → Prop) : Justified reason [] := by
  intro before e after h
  simp at h

theorem Justified.snoc {reason : List ε → ε → Prop} {log : List ε} {e : ε}
    (hlog : Justified reason log) (he : reason log e) : Justified reason (log ++ [e]) := by
  intro before x after h
  rcases List.eq_nil_or_concat after with rfl | ⟨init, last, rfl⟩
  · obtain ⟨rfl, hx⟩ := List.append_inj' h rfl
    obtain rfl : e = x := by simpa using hx
    exact he
  · have h' : log ++ [e] = (before ++ x :: init) ++ [last] := by simpa using h
    obtain ⟨hinit, _⟩ := List.append_inj' h' rfl
    exact hlog before x init hinit

/-! ### The latest effect of a kind -/

/-- `e` stands in the trace and no effect of the kind came after it: `newer` is what did. -/
def Since (kind : ε → Prop) (log : List ε) (e : ε) (newer : List ε) : Prop :=
  ∃ older, log = older ++ e :: newer ∧ ∀ x ∈ newer, ¬ kind x

variable {kind : ε → Prop} {log newer : List ε} {e x : ε}

theorem since_snoc_self (kind : ε → Prop) (log : List ε) (e : ε) : Since kind (log ++ [e]) e [] :=
  ⟨log, rfl, by simp⟩

theorem Since.snoc (h : Since kind log e newer) (hx : ¬ kind x) :
    Since kind (log ++ [x]) e (newer ++ [x]) := by
  obtain ⟨older, rfl, hnewer⟩ := h
  refine ⟨older, by simp, fun y hy => ?_⟩
  rcases List.mem_append.mp hy with hy | hy
  · exact hnewer y hy
  · obtain rfl : y = x := by simpa using hy
    exact hx

/-- If something that came before is not among the newer effects, the latest effect of the kind came after it. -/
theorem Since.mem_of_notMem {before after : List ε} (h : Since kind (before ++ x :: after) e newer)
    (hne : x ≠ e) (hx : x ∉ newer) : e ∈ after := by
  obtain ⟨older, heq, _⟩ := h
  rcases List.append_eq_append_iff.mp heq with ⟨between, _, htail⟩ | ⟨between, _, htail⟩
  · cases between with
    | nil => exact absurd (List.cons.inj htail).1 hne
    | cons head rest =>
        rw [List.cons_append] at htail
        rw [(List.cons.inj htail).2]
        simp
  · cases between with
    | nil => exact absurd (List.cons.inj htail).1.symm hne
    | cons head rest =>
        rw [List.cons_append] at htail
        rw [(List.cons.inj htail).2] at hx
        simp at hx

/-- A trace has a latest effect of the kind, or it has none of the kind. -/
theorem exists_since_or (kind : ε → Prop) (log : List ε) :
    (∀ x ∈ log, ¬ kind x) ∨ ∃ e newer, kind e ∧ Since kind log e newer := by
  induction log using List.reverseRecOn with
  | nil => exact Or.inl (by simp)
  | append_singleton log last ih =>
      by_cases hlast : kind last
      · exact Or.inr ⟨last, [], hlast, since_snoc_self kind log last⟩
      · rcases ih with hnone | ⟨e, newer, he, hsince⟩
        · refine Or.inl fun x hx => ?_
          rcases List.mem_append.mp hx with hx | hx
          · exact hnone x hx
          · exact List.mem_singleton.mp hx ▸ hlast
        · exact Or.inr ⟨e, newer ++ [last], he, hsince.snoc hlast⟩

/-! ### After the first of a kind -/

/-- What comes after the first effect of the kind, or nothing if there is none. -/
def afterFirst (first : ε → Bool) : List ε → List ε
  | [] => []
  | e :: log => if first e then log else afterFirst first log

section

variable {first : ε → Bool} {log more : List ε}

theorem afterFirst_of_none (h : ∀ e ∈ log, first e = false) : afterFirst first log = [] := by
  induction log with
  | nil => rfl
  | cons e log ih =>
      rw [afterFirst, h e List.mem_cons_self, if_neg Bool.false_ne_true]
      exact ih fun x hx => h x (List.mem_cons_of_mem e hx)

/-- Once there is a first, all that is appended comes after it. -/
theorem afterFirst_append_of_mem (h : ∃ e ∈ log, first e = true) :
    afterFirst first (log ++ more) = afterFirst first log ++ more := by
  induction log with
  | nil =>
      obtain ⟨e, he, _⟩ := h
      cases he
  | cons e log ih =>
      rw [List.cons_append, afterFirst, afterFirst]
      by_cases he : first e = true
      · rw [if_pos he, if_pos he]
      · rw [if_neg he, if_neg he]
        obtain ⟨x, hx, hfirst⟩ := h
        rcases List.mem_cons.mp hx with rfl | hrest
        · exact absurd hfirst he
        · exact ih ⟨x, hrest, hfirst⟩

theorem afterFirst_append_of_none (h : ∀ e ∈ log, first e = false) :
    afterFirst first (log ++ more) = afterFirst first more := by
  induction log with
  | nil => rfl
  | cons e log ih =>
      rw [List.cons_append, afterFirst, h e List.mem_cons_self, if_neg Bool.false_ne_true]
      exact ih fun x hx => h x (List.mem_cons_of_mem e hx)

theorem afterFirst_suffix (first : ε → Bool) (log : List ε) : afterFirst first log <:+ log := by
  induction log with
  | nil => exact List.suffix_refl []
  | cons e log ih =>
      rw [afterFirst]
      split
      · exact List.suffix_cons e log
      · exact ih.trans (List.suffix_cons e log)

end

/-! ### Reachable states -/

/-- The states a machine gets to by steps that are allowed in the state they are taken in. -/
inductive Reachable (start : σ → Prop) (allowed : σ → α → Prop) (step : α → σ → σ) : σ → Prop
  | start {s : σ} (h : start s) : Reachable start allowed step s
  | step {s : σ} {a : α} (hs : Reachable start allowed step s) (ha : allowed s a) :
      Reachable start allowed step (step a s)

/-- What holds at the start and survives every allowed step holds in every reachable state. -/
theorem Reachable.invariant {start : σ → Prop} {allowed : σ → α → Prop} {step : α → σ → σ} {inv : σ → Prop}
    (hstart : ∀ s, start s → inv s) (hstep : ∀ s a, inv s → allowed s a → inv (step a s))
    {s : σ} (h : Reachable start allowed step s) : inv s := by
  induction h with
  | start h => exact hstart _ h
  | step _ ha ih => exact hstep _ _ ih ha

/-! ### Properties of the steps of a run -/

/-- Every step of the run has the property in the state it is taken in. -/
def Along (holds : σ → α → Prop) (step : α → σ → σ) : List α → σ → Prop
  | [], _ => True
  | a :: as, s => holds s a ∧ Along holds step as (step a s)

/-- Two properties of steps that agree under an invariant hold along the same runs, if they keep the invariant. -/
theorem along_iff {left right : σ → α → Prop} {step : α → σ → σ} {inv : σ → Prop}
    (hagree : ∀ s a, inv s → (left s a ↔ right s a)) (hkeep : ∀ s a, inv s → left s a → inv (step a s))
    (as : List α) {s : σ} (hs : inv s) : Along left step as s ↔ Along right step as s := by
  induction as generalizing s with
  | nil => exact Iff.rfl
  | cons a as ih =>
      rw [Along, Along, ← hagree s a hs]
      exact and_congr_right fun h => ih (hkeep s a hs h)

/-- A run of allowed steps leads from a reachable state to one. -/
theorem Reachable.run {start : σ → Prop} {allowed : σ → α → Prop} {step : α → σ → σ} (as : List α) {s : σ}
    (hs : Reachable start allowed step s) (has : Along allowed step as s) :
    Reachable start allowed step (as.foldl (fun s a => step a s) s) := by
  induction as generalizing s with
  | nil => exact hs
  | cons a as ih => exact ih (hs.step has.1) has.2

end Trace
