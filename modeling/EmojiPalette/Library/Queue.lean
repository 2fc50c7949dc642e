import Mathlib.Logic.Function.Iterate

/-!
# Emptying a queue

A state with a queue in it, and a step that takes the first message off the queue and deals with it. What is known of the state while so much is still to come is carried from each message to the next, and two states that are dealt with alike stay alike.
-/

namespace Queue

variable {σ τ μ ν : Type} {queue : σ → List μ} {deliver : σ → σ} {state : σ}

/-- As many deliveries as there are messages at first. What comes in meanwhile is left. -/
def drain (queue : σ → List μ) (deliver : σ → σ) (state : σ) : σ := deliver^[(queue state).length] state

theorem iterate_deliver (deliver : σ → σ) (holds : List μ → σ → Prop) {front back : List μ}
    (hstep : ∀ message ∈ front, ∀ rest state, holds (message :: rest) state → holds rest (deliver state))
    (h : holds (front ++ back) state) : holds back (deliver^[front.length] state) := by
  induction front generalizing state with
  | nil => exact h
  | cons message front ih =>
      rw [List.length_cons, Function.iterate_succ_apply]
      exact ih (fun other hmem => hstep other (List.mem_cons_of_mem message hmem))
        (hstep message List.mem_cons_self _ _ h)

theorem drain_singleton {message : μ} (h : queue state = [message]) : drain queue deliver state = deliver state := by
  rw [drain, h]
  rfl

/-- The messages at the front are delivered, then the rest of those that were there at first. -/
theorem drain_append {front back : List μ} (h : queue state = front ++ back)
    (hback : queue (deliver^[front.length] state) = back) :
    drain queue deliver state = drain queue deliver (deliver^[front.length] state) := by
  rw [drain, drain, h, hback, List.length_append, Nat.add_comm, Function.iterate_add_apply]

theorem drain_cons {message : μ} {rest : List μ} (h : queue state = message :: rest) (hrest : queue (deliver state) = rest) :
    drain queue deliver state = drain queue deliver (deliver state) :=
  drain_append (show queue state = [message] ++ rest from h) hrest

/-! ### Two that are alike -/

variable {related : σ → τ → Prop} {queue' : τ → List ν} {deliver' : τ → τ} {state' : τ}

theorem iterate_related (hstep : ∀ state state', related state state' → related (deliver state) (deliver' state'))
    (h : related state state') (count : Nat) : related (deliver^[count] state) (deliver'^[count] state') := by
  induction count with
  | zero => exact h
  | succ count ih =>
      rw [Function.iterate_succ_apply', Function.iterate_succ_apply']
      exact hstep _ _ ih

theorem drain_related (hstep : ∀ state state', related state state' → related (deliver state) (deliver' state'))
    (hlength : (queue state).length = (queue' state').length) (h : related state state') :
    related (drain queue deliver state) (drain queue' deliver' state') := by
  rw [drain, drain, hlength]
  exact iterate_related hstep h _

end Queue
