import Cdba.Program
import Cdba.Timeval

namespace Cdba

/-!
# One-shot timers

The timer half of `watch.c`, over any program state that holds a list of
timers.  Timers fire in the order in which they were added, once their time
has passed; a callback may add timers behind the ones that are already queued.
-/

open Program

/-- `struct timer`; the callback and its data are one value. -/
structure Timer (κ : Type) where
  tv : Timeval
  cb : κ
  deriving DecidableEq

section Invoke

variable {ε σ κ : Type}
variable (timers : Component σ (List (Timer κ)))
variable (fire : κ → EStateM ε σ Unit)
variable (diverges : ε)

/--
`list_for_each_entry_safe` over `timer_watches`.  Callbacks only append to the
list, so the node that is visited keeps its position, and the next node is the
list head exactly when the visited node was the last one before its callback.
-/
def watchTimerInvokeLoop
    (now : Timeval) :
    Nat → Nat → EStateM ε σ Unit
  | 0, _ => stop diverges
  | fuel + 1, position => do
      let queue ← read timers.get
      match queue[position]? with
      | none => pure ()
      | some timer =>
          if timer.tv.lt now then do
            fire timer.cb
            update fun state =>
              timers.set state ((timers.get state).eraseIdx position)
            if position + 1 = queue.length then
              pure ()
            else
              watchTimerInvokeLoop now fuel position
          else if position + 1 = queue.length then
            pure ()
          else
            watchTimerInvokeLoop now fuel (position + 1)

/--
`watch_timer_invoke`.  The bound on visits leaves room for every queued timer
to arm a chain of further timers during the pass.
-/
def watchTimerInvoke
    (gettimeofday : EStateM ε σ Timeval) :
    EStateM ε σ Unit := do
  let now ← gettimeofday
  let queue ← read timers.get
  watchTimerInvokeLoop timers fire diverges now (8 * (queue.length + 1)) 0

/-! ## Rules for a pass -/

/-- All other timers stay when one is removed. -/
theorem mem_eraseIdx_of_ne
    {α : Type}
    {items : List α}
    {position : Nat}
    {item other : α}
    (found : items[position]? = some item)
    (differs : other ≠ item) :
    other ∈ items.eraseIdx position ↔ other ∈ items := by
  obtain ⟨inside, here⟩ := List.getElem?_eq_some_iff.mp found
  have split := List.take_append_drop position items
  rw [List.drop_eq_getElem_cons inside, here] at split
  have whole :
      other ∈ items ↔
        other ∈ items.take position ++ item :: items.drop (position + 1) := by
    rw [split]
  rw [List.eraseIdx_eq_take_drop_succ, whole]
  simp [differs]

variable {timers fire diverges}

/-- A pass relates states as the callbacks and removals from the queue do. -/
theorem watchTimerInvokeLoop_relates
    {relation : σ → σ → Prop}
    {mayStop : ε → Prop}
    [Composes relation]
    (fires : ∀ cb, Relates relation mayStop (fire cb))
    (removes : ∀ state queue, relation state (timers.set state queue))
    (mayDiverge : mayStop diverges)
    (now : Timeval)
    (fuel position : Nat) :
    Relates relation mayStop
      (watchTimerInvokeLoop timers fire diverges now fuel position) := by
  induction fuel generalizing position with
  | zero =>
      exact .stop mayDiverge
  | succ fuel inductionHypothesis =>
      refine .bind (.read _) fun queue => ?_
      split
      · exact .pure _
      · exact .ite
          (.bind (fires _) fun _ =>
            .bind (.update fun _ => removes _ _) fun _ =>
              .ite (.pure _) (inductionHypothesis _))
          (.ite (.pure _) (inductionHypothesis _))

/-- A whole invocation relates states as its parts do. -/
theorem watchTimerInvoke_relates
    {relation : σ → σ → Prop}
    {mayStop : ε → Prop}
    [Composes relation]
    {gettimeofday : EStateM ε σ Timeval}
    (reads : Relates relation mayStop gettimeofday)
    (fires : ∀ cb, Relates relation mayStop (fire cb))
    (removes : ∀ state queue, relation state (timers.set state queue))
    (mayDiverge : mayStop diverges) :
    Relates relation mayStop
      (watchTimerInvoke timers fire diverges gettimeofday) :=
  .bind reads fun _ =>
    .bind (.read _) fun _ =>
      watchTimerInvokeLoop_relates fires removes mayDiverge _ _ _

/--
A pass keeps an invariant when every visit to an expired timer does: its
callback, and then its removal from the queue.
-/
theorem watchTimerInvokeLoop_keeps
    {invariant : σ → Prop}
    {stopped : ε → σ → Prop}
    {now : Timeval}
    (visits :
      ∀ state position timer,
        invariant state →
        (timers.get state)[position]? = some timer →
        timer.tv.lt now = true →
        KeepsAt invariant stopped
          (do
            fire timer.cb
            update fun state =>
              timers.set state ((timers.get state).eraseIdx position))
          state)
    (mayDiverge : ∀ state, invariant state → stopped diverges state)
    (fuel position : Nat) :
    Keeps invariant stopped
      (watchTimerInvokeLoop timers fire diverges now fuel position) := by
  induction fuel generalizing position with
  | zero =>
      exact mayDiverge
  | succ fuel inductionHypothesis =>
      intro state holds
      have rest :
          ∀ (length next : Nat) (middle : σ),
            invariant middle →
            KeepsAt invariant stopped
              (if position + 1 = length then pure ()
                else watchTimerInvokeLoop timers fire diverges now
                  fuel next)
              middle := by
        intro length next middle holds
        split
        · exact holds
        · exact inductionHypothesis next middle holds
      unfold watchTimerInvokeLoop
      refine KeepsAt.bind holds ?_
      intro queue middle outcome _
      cases outcome
      split
      · exact holds
      · rename_i timer found
        split
        · rename_i expired
          rw [← bind_assoc]
          refine (visits state position timer holds found expired).bind ?_
          intro _ middle _ holds
          exact rest _ _ middle holds
        · exact rest _ _ state holds

/-- A pass ends with the timer that is the last one when it is visited. -/
theorem watchTimerInvokeLoop_last
    {now : Timeval}
    {position : Nat}
    {state : σ}
    {timer : Timer κ}
    (fuel : Nat)
    (found : (timers.get state)[position]? = some timer)
    (last : position + 1 = (timers.get state).length) :
    watchTimerInvokeLoop timers fire diverges now (fuel + 1) position state =
      if timer.tv.lt now then
        (do
          fire timer.cb
          update fun state =>
            timers.set state ((timers.get state).eraseIdx position))
          state
      else
        .ok () state := by
  rw [watchTimerInvokeLoop, bind_of_ok (read_apply _ _)]
  simp only [found, ← last, ↓reduceIte]
  split
  · simp only [bind_pure_unit]
  · rfl

/-- The visits that are left in a pass: expired timers may add one more each. -/
def visitsLeft
    (now : Timeval)
    (queue : List (Timer κ))
    (position : Nat) :
    Nat :=
  (queue.drop position).length +
    (queue.drop position).countP fun timer => timer.tv.lt now

/--
A pass returns, and keeps an invariant, when every visit to an expired timer
does, and adds at most one timer, which has not expired.
-/
theorem watchTimerInvokeLoop_returns
    {invariant : σ → Prop}
    {now : Timeval}
    (visits :
      ∀ state position timer,
        invariant state →
        (timers.get state)[position]? = some timer →
        timer.tv.lt now = true →
        ∃ fired added,
          fire timer.cb state = .ok () fired ∧
            timers.get fired = timers.get state ++ added ∧
            added.length ≤ 1 ∧
            (∀ timer, timer ∈ added → timer.tv.lt now = false) ∧
            invariant
              (timers.set fired ((timers.get fired).eraseIdx position)))
    (fuel : Nat)
    {position : Nat}
    {state : σ}
    (holds : invariant state)
    (enough : visitsLeft now (timers.get state) position < fuel) :
    ∃ final,
      watchTimerInvokeLoop timers fire diverges now fuel position state =
          .ok () final ∧
        invariant final := by
  induction fuel generalizing position state with
  | zero =>
      exact absurd enough (Nat.not_lt_zero _)
  | succ fuel inductionHypothesis =>
      unfold watchTimerInvokeLoop
      rw [bind_of_ok (read_apply _ _)]
      cases found : (timers.get state)[position]? with
      | none =>
          exact ⟨state, rfl, holds⟩
      | some timer =>
          have inside := (List.getElem?_eq_some_iff.mp found).1
          have here : (timers.get state)[position] = timer :=
            (List.getElem?_eq_some_iff.mp found).2
          have rest := List.drop_eq_getElem_cons inside
          rw [here] at rest
          dsimp only
          cases expired : timer.tv.lt now with
          | true =>
              obtain ⟨fired, added, fires, grown, atMostOne, later, kept⟩ :=
                visits state position timer holds found expired
              rw [if_pos rfl, bind_of_ok fires,
                bind_of_ok (update_apply _ _)]
              split
              · exact ⟨_, rfl, kept⟩
              · apply inductionHypothesis kept
                have none :
                    added.countP (fun timer => timer.tv.lt now) = 0 := by
                  rw [List.countP_eq_zero]
                  intro timer member
                  simp [later timer member]
                have left :
                    ((timers.get state ++ added).eraseIdx position).drop
                        position =
                      (timers.get state).drop (position + 1) ++ added := by
                  have short :
                      ((timers.get state).take position).length =
                        position := by
                    rw [List.length_take]
                    omega
                  rw [List.eraseIdx_append_of_lt_length inside,
                    List.eraseIdx_eq_take_drop_succ, List.append_assoc]
                  exact List.drop_left' short
                rw [timers.get_set, grown]
                unfold visitsLeft at enough ⊢
                rw [left, List.length_append, List.countP_append, none]
                rw [rest, List.length_cons, List.countP_cons, expired,
                  if_pos rfl] at enough
                omega
          | false =>
              rw [if_neg Bool.false_ne_true]
              split
              · exact ⟨state, rfl, holds⟩
              · apply inductionHypothesis holds
                unfold visitsLeft at enough ⊢
                rw [rest, List.length_cons, List.countP_cons] at enough
                omega

end Invoke

end Cdba
