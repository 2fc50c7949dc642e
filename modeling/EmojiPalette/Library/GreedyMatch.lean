import Mathlib.Data.List.Basic
import Mathlib.Data.List.Forall2

/-!
# Matching by backtracking

A pattern is a row of pieces, each of which takes characters of one kind: one of them, at least one, or any number. A text is matched by trying the pieces from the left, the longest run first, and by going back to a shorter one where the rest does not fit. Whatever is found this way is a division of the text that the pieces allow, and where there is one, something is found.
-/

namespace Greedy

inductive Times
  | once
  | some
  | any
  deriving DecidableEq

structure Piece (α : Type) where
  accepts : α → Bool
  times : Times

variable {α : Type}

/-- The ways to take a run off the front, the longest first. -/
def runs (accepts : α → Bool) : List α → List (List α × List α)
  | [] => [([], [])]
  | first :: rest =>
      (if accepts first then (runs accepts rest).map fun way => (first :: way.1, way.2) else []) ++ [([], first :: rest)]

namespace Piece

/-- A piece that takes the one character. -/
def exactly [DecidableEq α] (character : α) : Piece α := ⟨fun other => other = character, .once⟩

def ways (piece : Piece α) (text : List α) : List (List α × List α) :=
  match piece.times with
  | .once =>
      match text with
      | [] => []
      | first :: rest => if piece.accepts first then [([first], rest)] else []
  | .some => (runs piece.accepts text).filter fun way => !way.1.isEmpty
  | .any => runs piece.accepts text

/-- What a piece can take. -/
def Takes (piece : Piece α) (run : List α) : Prop :=
  (∀ character ∈ run, piece.accepts character = true) ∧
    match piece.times with
    | .once => run.length = 1
    | .some => run ≠ []
    | .any => True

end Piece

/-- The divisions of the text, in the order they are tried. -/
def attempts : List (Piece α) → List α → List (List (List α))
  | [], text => if text.isEmpty then [[]] else []
  | piece :: pieces, text => (piece.ways text).flatMap fun way => (attempts pieces way.2).map (way.1 :: ·)

def fullMatch (pieces : List (Piece α)) (text : List α) : Option (List (List α)) := (attempts pieces text).head?

/-- A division of the text that the pieces allow. -/
def Divides (pieces : List (Piece α)) (text : List α) (division : List (List α)) : Prop :=
  division.flatten = text ∧ List.Forall₂ Piece.Takes pieces division

/-! ### Runs -/

theorem mem_runs_iff {accepts : α → Bool} {text run rest : List α} :
    (run, rest) ∈ runs accepts text ↔ run ++ rest = text ∧ ∀ character ∈ run, accepts character = true := by
  induction text generalizing run with
  | nil =>
      have hall : run = [] → ∀ character ∈ run, accepts character = true := by
        rintro rfl
        simp
      simpa [runs] using fun hnil _ => hall hnil
  | cons first text ih =>
      rw [runs, List.mem_append, List.mem_singleton]
      constructor
      · rintro (hmem | hnone)
        · by_cases hfirst : accepts first = true
          · rw [if_pos hfirst] at hmem
            obtain ⟨⟨shorter, others⟩, hway, hsame⟩ := List.mem_map.mp hmem
            cases hsame
            obtain ⟨htext, hall⟩ := ih.mp hway
            refine ⟨congrArg (first :: ·) htext, fun character hcharacter => ?_⟩
            rcases List.mem_cons.mp hcharacter with rfl | hcharacter
            · exact hfirst
            · exact hall character hcharacter
          · rw [if_neg hfirst] at hmem
            cases hmem
        · cases hnone
          exact ⟨rfl, by simp⟩
      · rintro ⟨htext, hall⟩
        cases run with
        | nil => exact Or.inr (by rw [← htext]; rfl)
        | cons head run =>
            obtain ⟨rfl, hrest⟩ := List.cons.inj htext
            rw [if_pos (hall head List.mem_cons_self)]
            refine Or.inl (List.mem_map.mpr ⟨(run, rest), ih.mpr ⟨hrest, ?_⟩, rfl⟩)
            exact fun character hcharacter => hall character (List.mem_cons_of_mem _ hcharacter)

theorem mem_ways_iff {piece : Piece α} {text run rest : List α} :
    (run, rest) ∈ piece.ways text ↔ run ++ rest = text ∧ piece.Takes run := by
  unfold Piece.ways Piece.Takes
  cases htimes : piece.times with
  | any => exact mem_runs_iff.trans (by simp)
  | some =>
      rw [List.mem_filter, mem_runs_iff]
      simp [and_assoc]
  | once =>
      dsimp only
      constructor
      · intro hmem
        cases text with
        | nil => cases hmem
        | cons first others =>
            dsimp only at hmem
            by_cases hfirst : piece.accepts first = true
            · rw [if_pos hfirst] at hmem
              cases List.mem_singleton.mp hmem
              exact ⟨rfl, by simpa using hfirst, rfl⟩
            · rw [if_neg hfirst] at hmem
              cases hmem
      · rintro ⟨rfl, hall, hlength⟩
        obtain ⟨character, rfl⟩ := List.length_eq_one_iff.mp hlength
        rw [List.singleton_append]
        dsimp only
        rw [if_pos (hall character List.mem_cons_self)]
        exact List.mem_cons_self

/-! ### Divisions -/

theorem mem_attempts_iff {pieces : List (Piece α)} {text : List α} {division : List (List α)} :
    division ∈ attempts pieces text ↔ Divides pieces text division := by
  induction pieces generalizing text division with
  | nil =>
      unfold attempts Divides
      rw [List.forall₂_nil_left_iff]
      cases text with
      | nil =>
          have hflatten : division = [] → division.flatten = [] := by
            rintro rfl
            rfl
          simpa using hflatten
      | cons first rest =>
          simp only [List.isEmpty_cons, Bool.false_eq_true, if_false, List.not_mem_nil, false_iff]
          rintro ⟨htext, rfl⟩
          cases htext
  | cons piece pieces ih =>
      rw [attempts, List.mem_flatMap]
      constructor
      · rintro ⟨⟨run, rest⟩, hway, hmem⟩
        obtain ⟨others, hothers, rfl⟩ := List.mem_map.mp hmem
        obtain ⟨rfl, htakes⟩ := mem_ways_iff.mp hway
        obtain ⟨rfl, hall⟩ := ih.mp hothers
        exact ⟨rfl, hall.cons htakes⟩
      · rintro ⟨rfl, hall⟩
        cases hall with
        | cons htakes hothers =>
            rename_i run others
            refine ⟨(run, others.flatten), mem_ways_iff.mpr ⟨rfl, htakes⟩, List.mem_map.mpr ⟨others, ?_, rfl⟩⟩
            exact ih.mpr ⟨rfl, hothers⟩

theorem eq_of_takes_exactly [DecidableEq α] {character : α} {run : List α} (h : (Piece.exactly character).Takes run) :
    run = [character] := by
  obtain ⟨other, rfl⟩ := List.length_eq_one_iff.mp h.2
  rw [of_decide_eq_true (h.1 other List.mem_cons_self)]

theorem takes_exactly [DecidableEq α] (character : α) : (Piece.exactly character).Takes [character] :=
  ⟨fun _ h => decide_eq_true (List.mem_singleton.mp h), rfl⟩

/-- A literal takes itself. -/
theorem forall₂_exactly_append_iff [DecidableEq α] {literal : List α} {pieces : List (Piece α)} {division : List (List α)} :
    List.Forall₂ Piece.Takes (literal.map Piece.exactly ++ pieces) division ↔
      ∃ others, division = literal.map (fun character => [character]) ++ others ∧ List.Forall₂ Piece.Takes pieces others := by
  induction literal generalizing division with
  | nil => simp
  | cons character literal ih =>
      rw [List.map_cons, List.cons_append, List.forall₂_cons_left_iff]
      constructor
      · rintro ⟨run, rest, htakes, hrest, rfl⟩
        obtain rfl := eq_of_takes_exactly htakes
        obtain ⟨others, rfl, hothers⟩ := ih.mp hrest
        exact ⟨others, rfl, hothers⟩
      · rintro ⟨others, rfl, hothers⟩
        exact ⟨[character], literal.map (fun character => [character]) ++ others, takes_exactly character,
          ih.mpr ⟨others, rfl, hothers⟩, rfl⟩

theorem flatten_map_singleton (literal : List α) : (literal.map fun character => [character]).flatten = literal := by
  induction literal with
  | nil => rfl
  | cons character literal ih => rw [List.map_cons, List.flatten_cons, ih, List.singleton_append]

theorem divides_of_fullMatch {pieces : List (Piece α)} {text : List α} {division : List (List α)}
    (h : fullMatch pieces text = .some division) : Divides pieces text division :=
  mem_attempts_iff.mp (List.mem_of_head? h)

theorem exists_fullMatch {pieces : List (Piece α)} {text : List α} {division : List (List α)}
    (h : Divides pieces text division) : ∃ found, fullMatch pieces text = .some found := by
  have hne : attempts pieces text ≠ [] := List.ne_nil_of_mem (mem_attempts_iff.mpr h)
  obtain ⟨found, others, hfound⟩ := List.exists_cons_of_ne_nil hne
  exact ⟨found, by rw [fullMatch, hfound]; rfl⟩

/-! ### Runs that end where their kind ends -/

theorem head_cons {kind : α → Bool} {first : α} (h : kind first = false) (rest : List α) :
    ∀ character ∈ (first :: rest).head?, kind character = false := by
  intro character hmem
  cases hmem
  exact h

theorem head_append {kind : α → Bool} {run : List α} (hne : run ≠ []) (h : ∀ character ∈ run, kind character = false)
    (rest : List α) : ∀ character ∈ (run ++ rest).head?, kind character = false := by
  obtain ⟨first, others, rfl⟩ := List.exists_cons_of_ne_nil hne
  exact head_cons (h first List.mem_cons_self) _

/-- A run is determined if nothing of its kind follows. -/
theorem run_unique {kind : α → Bool} {run other rest others : List α} (h : run ++ rest = other ++ others)
    (hrun : ∀ character ∈ run, kind character = true) (hother : ∀ character ∈ other, kind character = true)
    (hrest : ∀ character ∈ rest.head?, kind character = false)
    (hothers : ∀ character ∈ others.head?, kind character = false) : run = other ∧ rest = others := by
  have htake : ∀ {run rest : List α}, (∀ character ∈ run, kind character = true) →
      (∀ character ∈ rest.head?, kind character = false) → (run ++ rest).takeWhile kind = run := by
    intro run rest hrun hrest
    rw [List.takeWhile_append_of_pos hrun]
    cases rest with
    | nil => simp
    | cons first rest =>
        have hfirst : ¬ kind first = true := Bool.eq_false_iff.mp (hrest first rfl)
        rw [List.takeWhile_cons_of_neg hfirst, List.append_nil]
  have hsame : run = other := by
    rw [← htake hrun hrest, h, htake hother hothers]
  subst hsame
  exact ⟨rfl, List.append_cancel_left h⟩

end Greedy
