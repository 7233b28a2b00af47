import Cdba.Program

/-!
# Programs that keep a record

A program on a larger state mirrors a program on a view of it when the view
cannot tell them apart.  So a record may be added to a program's state, and
what is proved with the help of the record holds of the program without it.
-/

namespace Program

variable {ε σ τ π ρ α β ι : Type}

/-- How a program ended, with a view of the state it left. -/
def viewed (view : σ → τ) :
    EStateM.Result ε σ α → EStateM.Result ε τ α
  | .ok value state => .ok value (view state)
  | .error reason state => .error reason (view state)

/-- In view of the state, one program does what another one does. -/
def Mirrors
    (view : σ → τ)
    (program : EStateM ε σ α)
    (image : EStateM ε τ α) :
    Prop :=
  ∀ state, viewed view (program state) = image (view state)

namespace Mirrors

variable {view : σ → τ}

theorem pure
    (value : α) :
    Mirrors view (ε := ε) (Pure.pure value) (Pure.pure value) :=
  fun _ => rfl

theorem stop
    (reason : ε) :
    Mirrors (α := α) view (Program.stop reason) (Program.stop reason) :=
  fun _ => rfl

theorem read
    {query : σ → α}
    {image : τ → α}
    (same : ∀ state, query state = image (view state)) :
    Mirrors (ε := ε) view (Program.read query) (Program.read image) := by
  intro state
  rw [read_apply, read_apply, ← same]
  rfl

theorem update
    {change : σ → σ}
    {image : τ → τ}
    (same : ∀ state, view (change state) = image (view state)) :
    Mirrors (ε := ε) view (Program.update change)
      (Program.update image) := by
  intro state
  rw [update_apply, update_apply, ← same]
  rfl

theorem bind
    {first : EStateM ε σ α}
    {firstImage : EStateM ε τ α}
    {later : α → EStateM ε σ β}
    {laterImage : α → EStateM ε τ β}
    (mirrorsFirst : Mirrors view first firstImage)
    (mirrorsLater : ∀ value, Mirrors view (later value) (laterImage value)) :
    Mirrors view (first >>= later) (firstImage >>= laterImage) := by
  intro state
  have ended := mirrorsFirst state
  cases outcome : first state with
  | ok value middle =>
      rw [outcome] at ended
      rw [bind_of_ok outcome, bind_of_ok ended.symm]
      exact mirrorsLater value middle
  | error reason middle =>
      rw [outcome] at ended
      rw [bind_of_error outcome, bind_of_error ended.symm]
      rfl

theorem ite
    {condition : Prop}
    [Decidable condition]
    {first later : EStateM ε σ α}
    {firstImage laterImage : EStateM ε τ α}
    (mirrorsFirst : Mirrors view first firstImage)
    (mirrorsLater : Mirrors view later laterImage) :
    Mirrors view (if condition then first else later)
      (if condition then firstImage else laterImage) := by
  split
  · exact mirrorsFirst
  · exact mirrorsLater

theorem each
    {body : ι → EStateM ε σ Unit}
    {image : ι → EStateM ε τ Unit}
    (mirrors : ∀ item, Mirrors view (body item) (image item))
    (items : List ι) :
    Mirrors view (Program.each body items) (Program.each image items) := by
  induction items with
  | nil =>
      exact .pure ()
  | cons item rest inductionHypothesis =>
      exact .bind (mirrors item) fun _ => inductionHypothesis

/-- Programs on components that are seen through a view of their own. -/
theorem within
    {component : Component σ π}
    {imageOf : Component τ ρ}
    {partView : π → ρ}
    {program : EStateM ε π α}
    {image : EStateM ε ρ α}
    (mirrors : Mirrors partView program image)
    (get : ∀ state, imageOf.get (view state) = partView (component.get state))
    (set :
      ∀ state part,
        view (component.set state part) =
          imageOf.set (view state) (partView part)) :
    Mirrors view (Program.within component program)
      (Program.within imageOf image) := by
  intro state
  have ended := mirrors (component.get state)
  unfold Program.within
  rw [get, ← ended]
  cases program (component.get state) with
  | ok value part => exact congrArg (EStateM.Result.ok value) (set _ _)
  | error reason part => exact congrArg (EStateM.Result.error reason) (set _ _)

/-- The state that a program leaves, in view. -/
theorem finalState
    {program : EStateM ε σ α}
    {image : EStateM ε τ α}
    (mirrors : Mirrors view program image)
    (state : σ) :
    view (Program.finalState (program state)) =
      Program.finalState (image (view state)) := by
  rw [← mirrors state]
  cases program state <;> rfl

end Mirrors

end Program
