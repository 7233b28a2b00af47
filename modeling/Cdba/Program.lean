/-!
# Stateful programs that may stop

A small calculus for programs in `EStateM ε σ`: programs that transform a
state and either return a value or stop with a reason, keeping the state in
both cases.  It provides primitive actions, a rule for running a program on a
component of a larger state, and compositional rules for relations between
the state before a program and the state it leaves behind.
-/

namespace Program

variable {ε σ τ α β ι : Type}

/-! ## Primitive actions -/

/-- Look at the state. -/
def read (view : σ → α) : EStateM ε σ α :=
  fun state => .ok (view state) state

/-- Change the state. -/
def update (change : σ → σ) : EStateM ε σ Unit :=
  fun state => .ok () (change state)

/-- Stop for a reason, leaving the state as it is. -/
def stop (reason : ε) : EStateM ε σ α :=
  fun state => .error reason state

/-- Run a program only under a condition. -/
def onlyIf (condition : Bool) (program : EStateM ε σ Unit) : EStateM ε σ Unit :=
  if condition then program else pure ()

/-- Run a program for each element of a list, in order. -/
def each (body : ι → EStateM ε σ Unit) : List ι → EStateM ε σ Unit
  | [] => pure ()
  | item :: rest => do
      body item
      each body rest

/-- The state a program leaves behind, whether it returns or stops. -/
def finalState : EStateM.Result ε σ α → σ
  | .ok _ state => state
  | .error _ state => state

/-- The value of a program that returned. -/
def returned? : EStateM.Result ε σ α → Option α
  | .ok value _ => some value
  | .error _ _ => none

/-- The reason of a program that stopped. -/
def stopped? : EStateM.Result ε σ α → Option ε
  | .ok _ _ => none
  | .error reason _ => some reason

@[simp] theorem pure_apply
    (value : α)
    (state : σ) :
    (pure value : EStateM ε σ α) state = .ok value state :=
  rfl

@[simp] theorem read_apply
    (view : σ → α)
    (state : σ) :
    (read view : EStateM ε σ α) state = .ok (view state) state :=
  rfl

@[simp] theorem update_apply
    (change : σ → σ)
    (state : σ) :
    (update change : EStateM ε σ Unit) state = .ok () (change state) :=
  rfl

@[simp] theorem stop_apply
    (reason : ε)
    (state : σ) :
    (stop reason : EStateM ε σ α) state = .error reason state :=
  rfl

/-- Sequencing, by cases on how the first program ends. -/
theorem bind_apply
    (first : EStateM ε σ α)
    (later : α → EStateM ε σ β)
    (state : σ) :
    (first >>= later) state =
      match first state with
      | .ok value middle => later value middle
      | .error reason middle => .error reason middle :=
  rfl

theorem bind_of_ok
    {first : EStateM ε σ α}
    {state middle : σ}
    {value : α}
    (result : first state = .ok value middle)
    (later : α → EStateM ε σ β) :
    (first >>= later) state = later value middle := by
  rw [bind_apply, result]

theorem bind_of_error
    {first : EStateM ε σ α}
    {state middle : σ}
    {reason : ε}
    (result : first state = .error reason middle)
    (later : α → EStateM ε σ β) :
    (first >>= later) state = .error reason middle := by
  rw [bind_apply, result]

/-- A sequence that returns consists of two programs that return. -/
theorem bind_eq_ok
    {first : EStateM ε σ α}
    {later : α → EStateM ε σ β}
    {state final : σ}
    {value : β}
    (result : (first >>= later) state = .ok value final) :
    ∃ middleValue middle,
      first state = .ok middleValue middle ∧
        later middleValue middle = .ok value final := by
  rw [bind_apply] at result
  cases outcome : first state with
  | ok middleValue middle =>
      rw [outcome] at result
      exact ⟨middleValue, middle, rfl, result⟩
  | error reason middle =>
      rw [outcome] at result
      cases result

/-- A run over two lists is the run over the first, then over the second. -/
theorem each_append
    (body : ι → EStateM ε σ Unit)
    (before after : List ι) :
    each body (before ++ after) =
      each body before >>= fun _ => each body after := by
  induction before with
  | nil =>
      rfl
  | cons item rest inductionHypothesis =>
      simp only [List.cons_append, each, inductionHypothesis, bind_assoc]

/-- A program that returned ended in its final state. -/
theorem eq_ok_of_returned
    {result : EStateM.Result ε σ α}
    {value : α}
    (returned : returned? result = some value) :
    result = .ok value (finalState result) := by
  cases result with
  | ok found state =>
      cases returned
      rfl
  | error reason state =>
      cases returned

/-! ## Components of a state -/

/-- A part of a state that can be read and replaced. -/
structure Component (σ τ : Type) where
  get : σ → τ
  set : σ → τ → σ
  get_set : ∀ state value, get (set state value) = value
  set_get : ∀ state, set state (get state) = state
  set_set :
    ∀ state first second,
      set (set state first) second = set state second

/-- Run a program on a component; the rest of the state stays as it is. -/
def within
    (component : Component σ τ)
    (program : EStateM ε τ α) :
    EStateM ε σ α :=
  fun state =>
    match program (component.get state) with
    | .ok value part => .ok value (component.set state part)
    | .error reason part => .error reason (component.set state part)

/-- What a program does on a component decides how it ends on the whole state. -/
theorem within_eq_ok
    {component : Component σ τ}
    {program : EStateM ε τ α}
    {state final : σ}
    {value : α}
    (result : within component program state = .ok value final) :
    program (component.get state) = .ok value (component.get final) ∧
      final = component.set state (component.get final) := by
  unfold within at result
  cases outcome : program (component.get state) with
  | ok returned part =>
      rw [outcome] at result
      cases result
      rw [component.get_set]
      exact ⟨rfl, rfl⟩
  | error reason part =>
      rw [outcome] at result
      cases result

/-! ## Relations between the states before and after -/

/-- A relation that holds over no step and composes over several. -/
class Composes (relation : σ → σ → Prop) : Prop where
  refl : ∀ state, relation state state
  trans :
    ∀ {first middle last},
      relation first middle →
      relation middle last →
      relation first last

/-- What a program does from one state: the state it leaves is related, and it
stops only for reasons that are allowed. -/
structure RelatesAt
    (relation : σ → σ → Prop)
    (mayStop : ε → Prop)
    (program : EStateM ε σ α)
    (state : σ) :
    Prop where
  related : relation state (finalState (program state))
  stops :
    ∀ reason, stopped? (program state) = some reason → mayStop reason

theorem RelatesAt.of_ok
    {relation : σ → σ → Prop}
    {mayStop : ε → Prop}
    {program : EStateM ε σ α}
    {state final : σ}
    {value : α}
    (result : program state = .ok value final)
    (related : relation state final) :
    RelatesAt relation mayStop program state where
  related := by
    rw [result]
    exact related
  stops := by
    rw [result]
    nofun

theorem RelatesAt.of_error
    {relation : σ → σ → Prop}
    {mayStop : ε → Prop}
    {program : EStateM ε σ α}
    {state final : σ}
    {reason : ε}
    (result : program state = .error reason final)
    (related : relation state final)
    (allowed : mayStop reason) :
    RelatesAt relation mayStop program state where
  related := by
    rw [result]
    exact related
  stops := by
    rw [result]
    rintro _ ⟨⟩
    exact allowed

/-- Programs that end alike from a state are related alike. -/
theorem RelatesAt.congr
    {relation : σ → σ → Prop}
    {mayStop : ε → Prop}
    {program program' : EStateM ε σ α}
    {state : σ}
    (relates : RelatesAt relation mayStop program' state)
    (same : program state = program' state) :
    RelatesAt relation mayStop program state where
  related := by
    rw [same]
    exact relates.related
  stops := by
    rw [same]
    exact relates.stops

/-- A program that nothing may stop succeeds. -/
theorem RelatesAt.succeeds
    {relation : σ → σ → Prop}
    {program : EStateM ε σ α}
    {state : σ}
    (relates : RelatesAt relation (fun _ => False) program state) :
    ∃ value final,
      program state = .ok value final ∧ relation state final := by
  cases outcome : program state with
  | error reason final =>
      have never := relates.stops reason
      rw [outcome] at never
      exact (never rfl).elim
  | ok value final =>
      have related := relates.related
      rw [outcome] at related
      exact ⟨value, final, rfl, related⟩

/-- What a program does from every state. -/
def Relates
    (relation : σ → σ → Prop)
    (mayStop : ε → Prop)
    (program : EStateM ε σ α) :
    Prop :=
  ∀ state, RelatesAt relation mayStop program state

/-- Sequencing from one state composes the relation. -/
theorem RelatesAt.bind
    {relation : σ → σ → Prop}
    {mayStop : ε → Prop}
    [Composes relation]
    {first : EStateM ε σ α}
    {later : α → EStateM ε σ β}
    {state : σ}
    (firstRelates : RelatesAt relation mayStop first state)
    (laterRelates :
      ∀ value middle,
        first state = .ok value middle →
        RelatesAt relation mayStop (later value) middle) :
    RelatesAt relation mayStop (first >>= later) state := by
  obtain ⟨step, stops⟩ := firstRelates
  cases outcome : first state with
  | ok value middle =>
      obtain ⟨laterStep, laterStops⟩ := laterRelates value middle outcome
      rw [outcome] at step
      refine ⟨?_, ?_⟩
      · rw [bind_of_ok outcome]
        exact Composes.trans step laterStep
      · rw [bind_of_ok outcome]
        exact laterStops
  | error reason middle =>
      rw [outcome] at step stops
      refine ⟨?_, ?_⟩
      · rw [bind_of_error outcome]
        exact step
      · rw [bind_of_error outcome]
        exact stops

namespace Relates

variable {relation : σ → σ → Prop} {mayStop : ε → Prop}

theorem update
    {change : σ → σ}
    (changes : ∀ state, relation state (change state)) :
    Relates relation mayStop
      (Program.update change : EStateM ε σ Unit) :=
  fun state => ⟨changes state, by simp [stopped?]⟩

theorem ite
    {condition : Prop}
    [Decidable condition]
    {whenTrue whenFalse : EStateM ε σ α}
    (trueRelates : Relates relation mayStop whenTrue)
    (falseRelates : Relates relation mayStop whenFalse) :
    Relates relation mayStop
      (if condition then whenTrue else whenFalse) := by
  split
  · exact trueRelates
  · exact falseRelates

/-- A program on a component relates whole states as it relates the parts. -/
theorem within
    {component : Component σ τ}
    {partRelation : τ → τ → Prop}
    {program : EStateM ε τ α}
    (lifts :
      ∀ state part,
        partRelation (component.get state) part →
        relation state (component.set state part))
    (programRelates : Relates partRelation mayStop program) :
    Relates relation mayStop (Program.within component program) := by
  intro state
  obtain ⟨step, stops⟩ := programRelates (component.get state)
  cases outcome : program (component.get state) with
  | ok value part =>
      rw [outcome] at step
      refine ⟨?_, ?_⟩
      · simp only [Program.within, outcome]
        exact lifts state part step
      · simp [Program.within, outcome, stopped?]
  | error reason part =>
      rw [outcome] at step stops
      refine ⟨?_, ?_⟩
      · simp only [Program.within, outcome]
        exact lifts state part step
      · simpa [Program.within, outcome, stopped?] using stops

/-- A weaker statement about a program follows. -/
theorem mono
    {weaker : σ → σ → Prop}
    {mayStop' : ε → Prop}
    {program : EStateM ε σ α}
    (programRelates : Relates relation mayStop program)
    (weaken : ∀ first last, relation first last → weaker first last)
    (allow : ∀ reason, mayStop reason → mayStop' reason) :
    Relates weaker mayStop' program :=
  fun state =>
    { related := weaken _ _ (programRelates state).related
      stops := fun reason stopped =>
        allow reason ((programRelates state).stops reason stopped) }

variable [Composes relation]

theorem pure
    (value : α) :
    Relates relation mayStop (Pure.pure value : EStateM ε σ α) :=
  fun state => ⟨Composes.refl state, by simp [stopped?]⟩

theorem read
    (view : σ → α) :
    Relates relation mayStop (Program.read view : EStateM ε σ α) :=
  fun state => ⟨Composes.refl state, by simp [stopped?]⟩

theorem stop
    {reason : ε}
    (allowed : mayStop reason) :
    Relates relation mayStop (Program.stop reason : EStateM ε σ α) :=
  fun state =>
    { related := Composes.refl state
      stops := by
        rintro reason' ⟨rfl⟩
        exact allowed }

/-- Sequencing composes the relation. -/
theorem bind
    {first : EStateM ε σ α}
    {later : α → EStateM ε σ β}
    (firstRelates : Relates relation mayStop first)
    (laterRelates : ∀ value, Relates relation mayStop (later value)) :
    Relates relation mayStop (first >>= later) :=
  fun state => (firstRelates state).bind
    (fun value middle _ => laterRelates value middle)

theorem onlyIf
    {condition : Bool}
    {program : EStateM ε σ Unit}
    (programRelates : Relates relation mayStop program) :
    Relates relation mayStop (Program.onlyIf condition program) :=
  ite programRelates (pure ())

/-- Repeating a program for each element of a list composes the relation. -/
theorem each
    {body : ι → EStateM ε σ Unit}
    {items : List ι}
    (bodyRelates :
      ∀ item, item ∈ items → Relates relation mayStop (body item)) :
    Relates relation mayStop (Program.each body items) := by
  induction items with
  | nil =>
      exact pure ()
  | cons item rest inductionHypothesis =>
      exact bind
        (bodyRelates item (by simp))
        (fun _ => inductionHypothesis
          (fun later member => bodyRelates later (by simp [member])))

end Relates

/-! ## Invariants -/

/--
From one state: a program that returns re-establishes the invariant, and one
that stops leaves a state that goes with its reason.
-/
def KeepsAt
    (invariant : σ → Prop)
    (stopped : ε → σ → Prop)
    (program : EStateM ε σ α)
    (state : σ) :
    Prop :=
  match program state with
  | .ok _ final => invariant final
  | .error reason final => stopped reason final

/-- From every state in which the invariant holds. -/
def Keeps
    (invariant : σ → Prop)
    (stopped : ε → σ → Prop)
    (program : EStateM ε σ α) :
    Prop :=
  ∀ state, invariant state → KeepsAt invariant stopped program state

section Keeps

variable {invariant : σ → Prop} {stopped : ε → σ → Prop}

theorem KeepsAt.of_ok
    {program : EStateM ε σ α}
    {state final : σ}
    {value : α}
    (result : program state = .ok value final)
    (holds : invariant final) :
    KeepsAt invariant stopped program state := by
  rw [KeepsAt, result]
  exact holds

theorem KeepsAt.of_error
    {program : EStateM ε σ α}
    {state final : σ}
    {reason : ε}
    (result : program state = .error reason final)
    (holds : stopped reason final) :
    KeepsAt invariant stopped program state := by
  rw [KeepsAt, result]
  exact holds

theorem KeepsAt.mono
    {weaker : σ → Prop}
    {stopped' : ε → σ → Prop}
    {program : EStateM ε σ α}
    {state : σ}
    (keeps : KeepsAt invariant stopped program state)
    (weaken : ∀ final, invariant final → weaker final)
    (weakenStopped :
      ∀ reason final, stopped reason final → stopped' reason final) :
    KeepsAt weaker stopped' program state := by
  unfold KeepsAt at keeps ⊢
  split at keeps
  · exact weaken _ keeps
  · exact weakenStopped _ _ keeps

/-- Sequencing: what the first program establishes holds in between. -/
theorem KeepsAt.seq
    {between : σ → Prop}
    {first : EStateM ε σ α}
    {later : α → EStateM ε σ β}
    {state : σ}
    (firstKeeps : KeepsAt between stopped first state)
    (laterKeeps :
      ∀ value middle,
        first state = .ok value middle →
        between middle →
        KeepsAt invariant stopped (later value) middle) :
    KeepsAt invariant stopped (first >>= later) state := by
  unfold KeepsAt at firstKeeps
  cases outcome : first state with
  | ok value middle =>
      rw [outcome] at firstKeeps
      unfold KeepsAt
      rw [bind_of_ok outcome]
      exact laterKeeps value middle outcome firstKeeps
  | error reason middle =>
      rw [outcome] at firstKeeps
      exact .of_error (bind_of_error outcome later) firstKeeps

/-- Sequencing: the invariant holds in between. -/
theorem KeepsAt.bind
    {first : EStateM ε σ α}
    {later : α → EStateM ε σ β}
    {state : σ}
    (firstKeeps : KeepsAt invariant stopped first state)
    (laterKeeps :
      ∀ value middle,
        first state = .ok value middle →
        invariant middle →
        KeepsAt invariant stopped (later value) middle) :
    KeepsAt invariant stopped (first >>= later) state :=
  firstKeeps.seq laterKeeps

theorem Keeps.bind
    {first : EStateM ε σ α}
    {later : α → EStateM ε σ β}
    (firstKeeps : Keeps invariant stopped first)
    (laterKeeps : ∀ value, Keeps invariant stopped (later value)) :
    Keeps invariant stopped (first >>= later) :=
  fun state holds => (firstKeeps state holds).bind
    (fun value middle _ => laterKeeps value middle)

/-- Looking at the state first. -/
theorem KeepsAt.read
    {view : σ → β}
    {later : β → EStateM ε σ α}
    {state : σ}
    (keeps : KeepsAt invariant stopped (later (view state)) state) :
    KeepsAt invariant stopped (Program.read view >>= later) state :=
  keeps

/-- Changing the state first. -/
theorem KeepsAt.update
    {change : σ → σ}
    {later : Unit → EStateM ε σ α}
    {state : σ}
    (keeps : KeepsAt invariant stopped (later ()) (change state)) :
    KeepsAt invariant stopped (Program.update change >>= later) state :=
  keeps

theorem Keeps.pure
    (value : α) :
    Keeps invariant stopped (Pure.pure value : EStateM ε σ α) :=
  fun _ holds => holds

theorem Keeps.read
    (view : σ → α) :
    Keeps invariant stopped (Program.read view : EStateM ε σ α) :=
  fun _ holds => holds

theorem Keeps.stop
    {reason : ε}
    (leaves : ∀ state, invariant state → stopped reason state) :
    Keeps invariant stopped (Program.stop reason : EStateM ε σ α) :=
  leaves

theorem Keeps.ite
    {condition : Prop}
    [Decidable condition]
    {whenTrue whenFalse : EStateM ε σ α}
    (trueKeeps : Keeps invariant stopped whenTrue)
    (falseKeeps : Keeps invariant stopped whenFalse) :
    Keeps invariant stopped (if condition then whenTrue else whenFalse) := by
  split
  · exact trueKeeps
  · exact falseKeeps

theorem Keeps.onlyIf
    {condition : Bool}
    {program : EStateM ε σ Unit}
    (programKeeps : Keeps invariant stopped program) :
    Keeps invariant stopped (Program.onlyIf condition program) :=
  .ite programKeeps (.pure ())

/-- An invariant of the body is an invariant of the repetition. -/
theorem Keeps.each
    {body : ι → EStateM ε σ Unit}
    (bodyKeeps : ∀ item, Keeps invariant stopped (body item))
    (items : List ι) :
    Keeps invariant stopped (Program.each body items) := by
  induction items with
  | nil =>
      exact fun _ holds => holds
  | cons item rest inductionHypothesis =>
      exact (bodyKeeps item).bind (fun _ => inductionHypothesis)

/-- An invariant of a component carries over to the whole state. -/
theorem KeepsAt.within
    (component : Component τ σ)
    {program : EStateM ε σ α}
    {whole : τ}
    (keeps :
      KeepsAt invariant stopped program (component.get whole)) :
    KeepsAt
      (fun whole => invariant (component.get whole))
      (fun reason whole => stopped reason (component.get whole))
      (Program.within component program) whole := by
  unfold KeepsAt at keeps ⊢
  unfold Program.within
  cases outcome : program (component.get whole) with
  | ok value part =>
      rw [outcome] at keeps
      simpa only [component.get_set] using keeps
  | error reason part =>
      rw [outcome] at keeps
      simpa only [component.get_set] using keeps

/--
A run keeps an invariant when each of its steps does, from the state in which
the steps before it leave the program.
-/
theorem KeepsAt.each
    {body : ι → EStateM ε σ Unit}
    {items : List ι}
    {state : σ}
    (steps :
      ∀ before item after middle,
        items = before ++ item :: after →
        Program.each body before state = .ok () middle →
        invariant middle →
        KeepsAt invariant stopped (body item) middle)
    (holds : invariant state) :
    KeepsAt invariant stopped (Program.each body items) state := by
  induction items generalizing state with
  | nil =>
      exact holds
  | cons item rest inductionHypothesis =>
      refine KeepsAt.bind (steps [] item rest state rfl rfl holds) ?_
      intro _ middle outcome kept
      refine inductionHypothesis ?_ kept
      intro before later after state shape reached
      refine steps (item :: before) later after state ?_ ?_
      · rw [shape, List.cons_append]
      · rw [Program.each, bind_of_ok outcome]
        exact reached

/-- Two things that are kept are kept together. -/
theorem KeepsAt.and
    {also : σ → Prop}
    {alsoStopped : ε → σ → Prop}
    {program : EStateM ε σ α}
    {state : σ}
    (first : KeepsAt invariant stopped program state)
    (second : KeepsAt also alsoStopped program state) :
    KeepsAt (fun final => invariant final ∧ also final)
      (fun reason final => stopped reason final ∧ alsoStopped reason final)
      program state := by
  unfold KeepsAt at first second ⊢
  split at first
  · rename_i outcome
    rw [outcome] at second
    exact ⟨first, second⟩
  · rename_i outcome
    rw [outcome] at second
    exact ⟨first, second⟩

/-- What also holds when the program stops holds of the state it leaves. -/
theorem KeepsAt.final
    (invariant : σ → Prop)
    {program : EStateM ε σ α}
    {state : σ}
    (keeps : KeepsAt invariant (fun _ => invariant) program state) :
    invariant (finalState (program state)) := by
  unfold KeepsAt at keeps
  split at keeps
  · rename_i outcome
    rw [outcome]
    exact keeps
  · rename_i outcome
    rw [outcome]
    exact keeps

/-- What holds of the state that a program leaves, whether it stops or not. -/
theorem KeepsAt.of_final
    {program : EStateM ε σ α}
    {state : σ}
    (holds : invariant (finalState (program state))) :
    KeepsAt invariant (fun _ => invariant) program state := by
  unfold KeepsAt
  split
  · rename_i outcome
    rwa [outcome] at holds
  · rename_i outcome
    rwa [outcome] at holds

/-- A program that returned has kept its invariant. -/
theorem KeepsAt.returned
    {program : EStateM ε σ α}
    {state final : σ}
    {value : α}
    (keeps : KeepsAt invariant stopped program state)
    (result : program state = .ok value final) :
    invariant final := by
  rwa [KeepsAt, result] at keeps

/-- The states that a program relates, and why it stops, decide what it keeps. -/
theorem RelatesAt.keepsAt
    {relation : σ → σ → Prop}
    {mayStop : ε → Prop}
    {program : EStateM ε σ α}
    {state : σ}
    (relates : RelatesAt relation mayStop program state)
    (returns : ∀ final, relation state final → invariant final)
    (stops :
      ∀ reason final,
        mayStop reason → relation state final → stopped reason final) :
    KeepsAt invariant stopped program state := by
  obtain ⟨related, mayStop⟩ := relates
  unfold KeepsAt
  split
  · rename_i outcome
    rw [outcome] at related
    exact returns _ related
  · rename_i outcome
    rw [outcome] at related mayStop
    exact stops _ _ (mayStop _ rfl) related

/-- A program that relates states keeps what the relation preserves. -/
theorem Keeps.of_relates
    {relation : σ → σ → Prop}
    {mayStop : ε → Prop}
    {program : EStateM ε σ α}
    (relates : Relates relation mayStop program)
    (preserves :
      ∀ first last, invariant first → relation first last → invariant last) :
    Keeps invariant (fun _ => invariant) program :=
  fun state holds =>
    (relates state).keepsAt (fun final => preserves state final holds)
      fun _ final _ => preserves state final holds

end Keeps

/-! ## What a program that returns ensures -/

/-- From states with the first property, a program that returns has the second
of its value and its final state. -/
def Ensures
    (before : σ → Prop)
    (program : EStateM ε σ α)
    (after : α → σ → Prop) :
    Prop :=
  ∀ state value final,
    before state →
    program state = .ok value final →
    after value final

namespace Ensures

variable {before : σ → Prop} {after : α → σ → Prop}

theorem pure
    {value : α}
    (holds : ∀ state, before state → after value state) :
    Ensures before (Pure.pure value : EStateM ε σ α) after := by
  rintro state _ _ holdsBefore ⟨⟩
  exact holds state holdsBefore

theorem update
    {after : Unit → σ → Prop}
    {change : σ → σ}
    (holds : ∀ state, before state → after () (change state)) :
    Ensures before (Program.update change : EStateM ε σ Unit) after := by
  rintro state _ _ holdsBefore ⟨⟩
  exact holds state holdsBefore

theorem stop
    (reason : ε) :
    Ensures before (Program.stop reason : EStateM ε σ α) after :=
  fun _ _ _ _ returns => nomatch returns

/-- Sequencing: what the first program ensures holds in between. -/
theorem bind
    {between : α → σ → Prop}
    {first : EStateM ε σ α}
    {later : α → EStateM ε σ β}
    {afterwards : β → σ → Prop}
    (firstEnsures : Ensures before first between)
    (laterEnsures :
      ∀ value, Ensures (between value) (later value) afterwards) :
    Ensures before (first >>= later) afterwards := by
  intro state value final holds returns
  obtain ⟨middleValue, middle, ran, rest⟩ := bind_eq_ok returns
  exact laterEnsures middleValue middle value final
    (firstEnsures state middleValue middle holds ran) rest

theorem ite
    {condition : Prop}
    [Decidable condition]
    {whenTrue whenFalse : EStateM ε σ α}
    (trueEnsures : condition → Ensures before whenTrue after)
    (falseEnsures : ¬ condition → Ensures before whenFalse after) :
    Ensures before (if condition then whenTrue else whenFalse) after := by
  split
  · rename_i holds
    exact trueEnsures holds
  · rename_i fails
    exact falseEnsures fails

/-- A fact that says nothing of the state stays true. -/
theorem fact
    {fact : Prop}
    {program : EStateM ε σ α} :
    Ensures (fun _ => fact) program fun _ _ => fact :=
  fun _ _ _ holds _ => holds

/-- A program that relates states carries over what the relation preserves. -/
theorem of_relates
    {relation : σ → σ → Prop}
    {mayStop : ε → Prop}
    {program : EStateM ε σ α}
    (relates : Relates relation mayStop program)
    (carries :
      ∀ first last value, before first → relation first last → after value last) :
    Ensures before program after := by
  intro state value final holds returns
  have related := (relates state).related
  rw [returns] at related
  exact carries state final value holds related

end Ensures

end Program
