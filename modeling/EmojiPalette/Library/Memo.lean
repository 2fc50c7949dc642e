import Mathlib.Data.List.Basic

/-!
# Answers that do not depend on what was asked before

A step on a hidden state may write to the state and still yield the same value every time. `Yields` says so of a step, given an invariant of the state, and its rules build such a program from such steps. A memo table is the example it is made for: a table that holds right values only still does so after another question, and the question is answered by the value.
-/

namespace Memo

variable {σ α β κ ν : Type}

/-- The step yields this value from every state of the invariant, and keeps the invariant. -/
def Yields (inv : σ → Prop) (step : StateM σ α) (value : α) : Prop :=
  ∀ state, inv state → (step state).1 = value ∧ inv (step state).2

variable {inv : σ → Prop}

theorem yields_pure (value : α) : Yields inv (pure value) value := fun _ h => ⟨rfl, h⟩

theorem Yields.bind {first : StateM σ α} {next : α → StateM σ β} {value : α} {result : β}
    (hfirst : Yields inv first value) (hnext : Yields inv (next value) result) :
    Yields inv (first >>= next) result := by
  intro state hstate
  obtain ⟨hvalue, hkept⟩ := hfirst state hstate
  change (next (first state).1 (first state).2).1 = result ∧ inv (next (first state).1 (first state).2).2
  rw [hvalue]
  exact hnext (first state).2 hkept

/-! ### Tables -/

/-- Keys with values, the newest first. -/
abbrev Table (κ ν : Type) := List (κ × ν)

/-- Every value in the table is the one the key has. -/
def Table.Right (value : κ → ν → Prop) (table : Table κ ν) : Prop := ∀ entry ∈ table, value entry.1 entry.2

variable {value : κ → ν → Prop} {table : Table κ ν}

theorem Table.right_nil : Table.Right value [] := by
  intro entry hmem
  cases hmem

theorem Table.Right.cons {key : κ} {entry : ν} (h : table.Right value) (hentry : value key entry) :
    Table.Right value ((key, entry) :: table) :=
  List.forall_mem_cons.mpr ⟨hentry, h⟩

theorem Table.Right.of_lookup [BEq κ] [LawfulBEq κ] {key : κ} {entry : ν} (h : table.Right value)
    (hfound : table.lookup key = some entry) : value key entry := by
  induction table with
  | nil => cases hfound
  | cons head rest ih =>
      obtain ⟨hhead, hrest⟩ := List.forall_mem_cons.mp h
      rw [List.lookup_cons] at hfound
      split at hfound
      · rename_i hkey
        obtain rfl := Option.some.inj hfound
        rw [eq_of_beq hkey]
        exact hhead
      · exact ih hrest hfound

end Memo
