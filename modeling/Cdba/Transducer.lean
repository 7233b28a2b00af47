/-!
# Machines that read a stream in portions

A machine keeps a state, reads a stream item by item and may write output with
every item.  What it writes does not depend on how the stream is cut into the
portions in which the machine is given it.
-/

/-- A machine: the state an item leads to, and what is written with it. -/
structure Transducer (σ α β : Type) where
  step : σ → α → σ × List β

namespace Transducer

variable {σ α β : Type}
variable (machine : Transducer σ α β)

/-- The state behind some items. -/
def after : σ → List α → σ
  | state, [] => state
  | state, item :: rest => after (machine.step state item).1 rest

/-- What is written while some items are read. -/
def output : σ → List α → List β
  | _, [] => []
  | state, item :: rest =>
      (machine.step state item).2 ++ output (machine.step state item).1 rest

/-- What is written while the machine is given one portion after the other. -/
def outputs : σ → List (List α) → List β
  | _, [] => []
  | state, portion :: rest =>
      machine.output state portion ++
        outputs (machine.after state portion) rest

theorem after_append
    (state : σ)
    (before behind : List α) :
    machine.after state (before ++ behind) =
      machine.after (machine.after state before) behind := by
  induction before generalizing state with
  | nil =>
      rfl
  | cons item rest inductionHypothesis =>
      exact inductionHypothesis _

theorem output_append
    (state : σ)
    (before behind : List α) :
    machine.output state (before ++ behind) =
      machine.output state before ++
        machine.output (machine.after state before) behind := by
  induction before generalizing state with
  | nil =>
      rfl
  | cons item rest inductionHypothesis =>
      rw [List.cons_append, output, output, after, inductionHypothesis,
        List.append_assoc]

/-- Only the stream as a whole decides what is written. -/
theorem outputs_eq
    (state : σ)
    (portions : List (List α)) :
    machine.outputs state portions =
      machine.output state portions.flatten := by
  induction portions generalizing state with
  | nil =>
      rfl
  | cons portion rest inductionHypothesis =>
      rw [outputs, inductionHypothesis, List.flatten_cons, output_append]

variable {machine}

/-- From one state to another over some items, writing something. -/
structure Reads
    (machine : Transducer σ α β)
    (state : σ)
    (items : List α)
    (next : σ)
    (written : List β) :
    Prop where
  after : machine.after state items = next
  output : machine.output state items = written

namespace Reads

theorem one
    (machine : Transducer σ α β)
    (state : σ)
    (item : α) :
    machine.Reads state [item]
      (machine.step state item).1 (machine.step state item).2 :=
  ⟨rfl, List.append_nil _⟩

/-- Some items behind others. -/
theorem append
    {state middle next : σ}
    {before behind : List α}
    {written written' : List β}
    (first : machine.Reads state before middle written)
    (second : machine.Reads middle behind next written') :
    machine.Reads state (before ++ behind) next (written ++ written') where
  after := by
    rw [after_append, first.after, second.after]
  output := by
    rw [output_append, first.after, first.output, second.output]

/-- Items that a state ignores: it stays, and nothing is written. -/
theorem ignored
    {state : σ}
    {items : List α}
    (ignores :
      ∀ item, item ∈ items → machine.step state item = (state, [])) :
    machine.Reads state items state [] := by
  induction items with
  | nil =>
      exact ⟨rfl, rfl⟩
  | cons item rest inductionHypothesis =>
      have first := one machine state item
      rw [ignores item List.mem_cons_self] at first
      exact first.append (inductionHypothesis
        fun later member => ignores later (List.mem_cons_of_mem _ member))

end Reads

end Transducer
