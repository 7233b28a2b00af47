import Mathlib.Algebra.Order.Group.Nat
import Mathlib.Data.List.Infix

/-!
# Runs at the end of a text

How often a symbol is repeated at the end of a text, and where a text behind
another one brings such a run to a multiple of a limit.  Over a whole text this
happens exactly if the text contains as many repetitions as the limit.
-/

namespace TrailingRun

variable [DecidableEq α]

/-- The number of times that a text has a symbol at its end. -/
def run (symbol : α) (text : List α) : Nat :=
  (text.reverse.takeWhile fun char => char = symbol).length

@[simp] theorem run_nil
    (symbol : α) :
    run symbol [] = 0 :=
  rfl

theorem run_append_same
    (symbol : α)
    (text : List α) :
    run symbol (text ++ [symbol]) = run symbol text + 1 := by
  simp [run]

theorem run_append_other
    {symbol char : α}
    (other : char ≠ symbol)
    (text : List α) :
    run symbol (text ++ [char]) = 0 := by
  simp [run, other]

theorem run_append_replicate
    (symbol : α)
    (text : List α)
    (count : Nat) :
    run symbol (text ++ List.replicate count symbol) =
      run symbol text + count := by
  induction count with
  | zero => simp
  | succ count inductionHypothesis =>
      rw [List.replicate_succ', ← List.append_assoc, run_append_same,
        inductionHypothesis, Nat.add_assoc]

/-- A text is its run behind a text without one. -/
theorem exists_eq_append_run
    (symbol : α)
    (text : List α) :
    ∃ front,
      text = front ++ List.replicate (run symbol text) symbol ∧
        run symbol front = 0 := by
  induction text using List.reverseRecOn with
  | nil => exact ⟨[], rfl, rfl⟩
  | append_singleton text char inductionHypothesis =>
      by_cases same : char = symbol
      · subst same
        obtain ⟨front, shape, noRun⟩ := inductionHypothesis
        refine ⟨front, ?_, noRun⟩
        rw [run_append_same, List.replicate_succ', ← List.append_assoc,
          ← shape]
      · refine ⟨text ++ [char], ?_, run_append_other same text⟩
        rw [run_append_other same, List.replicate_zero, List.append_nil]

/-- A text, behind another one, brings a run to a multiple of the limit. -/
def Completes
    (limit : Nat)
    (symbol : α)
    (before text : List α) :
    Prop :=
  ∃ front rest,
    text = front ++ rest ∧
      front ≠ [] ∧
        0 < run symbol (before ++ front) ∧
          limit ∣ run symbol (before ++ front)

theorem not_completes_nil
    (limit : Nat)
    (symbol : α)
    (before : List α) :
    ¬ Completes limit symbol before [] := by
  rintro ⟨front, rest, shape, nonempty, _⟩
  exact nonempty (List.append_eq_nil_iff.mp shape.symm).1

/-- It happens at the first character, or behind it. -/
theorem completes_cons
    (limit : Nat)
    (symbol : α)
    (before : List α)
    (char : α)
    (text : List α) :
    Completes limit symbol before (char :: text) ↔
      (0 < run symbol (before ++ [char]) ∧
        limit ∣ run symbol (before ++ [char])) ∨
      Completes limit symbol (before ++ [char]) text := by
  constructor
  · rintro ⟨front, rest, shape, nonempty, positive, multiple⟩
    cases front with
    | nil => exact absurd rfl nonempty
    | cons first front =>
        obtain ⟨rfl, rfl⟩ := List.cons.inj shape
        cases front with
        | nil => exact .inl ⟨positive, multiple⟩
        | cons second front =>
            refine .inr ⟨second :: front, rest, rfl, List.cons_ne_nil _ _, ?_⟩
            rw [List.append_assoc]
            exact ⟨positive, multiple⟩
  · rintro (⟨positive, multiple⟩ | ⟨front, rest, shape, _, reached⟩)
    · exact ⟨[char], text, rfl, List.cons_ne_nil _ _, positive, multiple⟩
    · refine ⟨char :: front, rest, ?_, List.cons_ne_nil _ _, ?_⟩
      · rw [shape, List.cons_append]
      · rwa [List.append_assoc] at reached

/-- A text is completed in one of the parts that it is split into. -/
theorem completes_append
    (limit : Nat)
    (symbol : α)
    (before first second : List α) :
    Completes limit symbol before (first ++ second) ↔
      Completes limit symbol before first ∨
        Completes limit symbol (before ++ first) second := by
  induction first generalizing before with
  | nil =>
      rw [List.nil_append, List.append_nil]
      exact ⟨.inr, fun either =>
        either.resolve_left (not_completes_nil limit symbol before)⟩
  | cons char first inductionHypothesis =>
      rw [List.cons_append, completes_cons, completes_cons,
        inductionHypothesis, or_assoc, List.append_assoc,
        List.singleton_append]

/-- From the start, it happens where the limit is first met. -/
theorem completes_iff_infix
    {limit : Nat}
    (positiveLimit : 0 < limit)
    (symbol : α)
    (text : List α) :
    Completes limit symbol [] text ↔
      List.replicate limit symbol <:+: text := by
  constructor
  · rintro ⟨front, rest, rfl, _, positive, multiple⟩
    rw [List.nil_append] at positive multiple
    obtain ⟨start, shape, _⟩ := exists_eq_append_run symbol front
    have enough := Nat.le_of_dvd positive multiple
    refine ⟨start ++
      List.replicate (run symbol front - limit) symbol, rest, ?_⟩
    rw [List.append_assoc start, List.replicate_append_replicate,
      Nat.sub_add_cancel enough, ← shape]
  · rintro ⟨start, rest, rfl⟩
    obtain ⟨front, shape, noRun⟩ := exists_eq_append_run symbol start
    -- The run may have begun in front of these repetitions.
    refine ⟨front ++ List.replicate limit symbol,
      List.replicate (run symbol start) symbol ++ rest, ?_, ?_, ?_⟩
    · conv => lhs; rw [shape]
      simp only [List.append_assoc]
      rw [← List.append_assoc (List.replicate limit symbol),
        List.replicate_append_replicate,
        ← List.append_assoc (List.replicate _ symbol),
        List.replicate_append_replicate, Nat.add_comm]
    · intro empty
      have noLimit := (List.append_eq_nil_iff.mp empty).2
      rw [List.replicate_eq_nil_iff] at noLimit
      omega
    · rw [List.nil_append, run_append_replicate, noRun, Nat.zero_add]
      exact ⟨positiveLimit, Nat.dvd_refl limit⟩

end TrailingRun
