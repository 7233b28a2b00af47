import Cdba.PowerSequence

namespace Cdba

/-!
# Overlapping boot sequences

While every power-on request finds no tick pending, the ticks of a device form
one chain and each phase lasts as long as the delay it was armed with.  A
request that finds a tick pending starts a second chain on the same state.
-/

open Program

variable {n : Nat}

/-! ## One chain in flight -/

/-- How long a phase of the sequence has to last, in microseconds. -/
def phaseDelay (dev : Device) : DeviceState → Nat
  | .connect => 10000
  | .press => 250000
  | .releasePwr => 100000
  | .releaseFastboot => dev.keyTimeoutMs.toNat * 1000
  | .start | .running => 0

/--
The times at which the sequence acts on the device: its ticks, switching power
on, and the power-key press, which follows directly on the mark of its tick.
-/
inductive ActsAt
    (device : Fin n)
    (log : List (Stamped (Event n)))
    (time : Nat) :
    Prop where
  | tick
      (state : DeviceState)
      (member : ⟨time, .tick device state⟩ ∈ log)
  | power
      (member : ⟨time, .power device true⟩ ∈ log)
  | press
      (before : List (Stamped (Event n)))
      (mark : Nat)
      (after : List (Stamped (Event n)))
      (shape :
        log =
          before ++
            ⟨mark, .tick device .press⟩ ::
              ⟨time, .key device deviceKeyPower true⟩ :: after)

/--
Every phase lasts its delay: when a tick ends it, everything the sequence has
done before is at least that long ago.
-/
def PhasesSpaced (device : Fin n) (hw : Hw n) : Prop :=
  ∀ before mark state after,
    hw.log = before ++ ⟨mark, .tick device state⟩ :: after →
    state ≠ .start →
    ∀ time,
      ActsAt device before time →
      time + phaseDelay (hw.devices device) state ≤ mark

/-- How many `device_tick` timers are pending for a device. -/
def pendingTicks (device : Fin n) (hw : Hw n) : Nat :=
  hw.timers.countP fun timer => timer.cb = .deviceTick device

theorem mem_of_actsAt
    {device : Fin n}
    {log : List (Stamped (Event n))}
    {time : Nat}
    (acts : ActsAt device log time) :
    ∃ event, (⟨time, event⟩ : Stamped (Event n)) ∈ log := by
  cases acts with
  | tick state member => exact ⟨_, member⟩
  | power member => exact ⟨_, member⟩
  | press before mark after shape =>
      exact ⟨.key device deviceKeyPower true, by simp [shape]⟩

/-- Two neighbours in a list that was appended to. -/
private theorem pair_in_append
    {α : Type}
    {log events before after : List α}
    {first second : α}
    (shape : log ++ events = before ++ first :: second :: after) :
    (∃ rest, log = before ++ first :: second :: rest) ∨
      second ∈ events ∧ (first ∈ events ∨ log = before ++ [first]) := by
  rcases List.append_eq_append_iff.mp shape with
    ⟨between, beforeShape, eventsShape⟩ | ⟨between, logShape, rest⟩
  · right
    simp [eventsShape]
  · match between, logShape, rest with
    | [], logShape, rest =>
        right
        simp [← show first :: second :: after = events from rest]
    | [head], logShape, rest =>
        right
        obtain ⟨sameFirst, rest⟩ := List.cons.inj rest
        rw [← sameFirst] at logShape
        exact ⟨by simp [← show second :: after = events from rest],
          .inr logShape⟩
    | head :: next :: tail, logShape, rest =>
        left
        obtain ⟨sameFirst, rest⟩ := List.cons.inj rest
        obtain ⟨sameSecond, _⟩ := List.cons.inj rest
        exact ⟨tail, by rw [logShape, sameFirst, sameSecond]⟩

/-- The state between steps while at most one chain is in flight. -/
structure InFlight (device : Fin n) (hw : Hw n) : Prop where
  powered : (hw.devices device).hasControl .power = true
  single : pendingTicks device hw ≤ 1
  sorted :
    hw.log.Pairwise fun earlier later => earlier.time ≤ later.time
  past : ∀ event, event ∈ hw.log → event.time ≤ hw.clock.now
  spaced : PhasesSpaced device hw
  /-- A tick that finds its timer expired comes after the delay of the phase. -/
  due :
    ∀ timer, timer ∈ hw.timers →
      timer.cb = .deviceTick device →
      ∀ now mark : Nat,
        timer.tv.lt (Timeval.ofMicros now) = true →
        now ≤ mark →
        hw.clock.now ≤ mark →
        ∀ time,
          ActsAt device hw.log time →
          time +
              phaseDelay (hw.devices device) (hw.devices device).state ≤
            mark
  /-- The key event of a press tick is not missing behind its mark. -/
  pressed :
    (hw.devices device).hasControl .key = true →
    ∀ before mark,
      hw.log ≠ before ++ [⟨mark, .tick device .press⟩]

theorem append_sorted
    {first last : Hw n}
    (extended : first.Extends last)
    (sorted :
      first.log.Pairwise fun earlier later => earlier.time ≤ later.time)
    (past : ∀ event, event ∈ first.log → event.time ≤ first.clock.now) :
    (last.log.Pairwise fun earlier later => earlier.time ≤ later.time) ∧
      ∀ event, event ∈ last.log → event.time ≤ last.clock.now := by
  obtain ⟨sortedSince, times⟩ := extended.times
  rw [extended.log_eq]
  refine ⟨List.pairwise_append.mpr ⟨sorted, sortedSince, ?_⟩, ?_⟩
  · intro earlier member later member'
    exact Nat.le_trans (past earlier member) (times later member').1
  · intro event member
    rcases List.mem_append.mp member with early | late
    · exact Nat.le_trans (past event early) extended.elapsed
    · exact (times event late).2

/-- A mark in a longer log was there before, or it is among the new events. -/
private theorem mark_in_append
    {α : Type}
    {log events before after : List α}
    {mark : α}
    (shape : log ++ events = before ++ mark :: after) :
    (∃ rest, log = before ++ mark :: rest) ∨
      ∃ between, before = log ++ between ∧
        events = between ++ mark :: after := by
  rcases List.append_eq_append_iff.mp shape with
    ⟨between, beforeShape, eventsShape⟩ | ⟨between, logShape, rest⟩
  · exact .inr ⟨between, beforeShape, eventsShape⟩
  · match between, logShape, rest with
    | [], logShape, rest =>
        exact .inr ⟨[], by simpa using logShape.symm, rest.symm⟩
    | head :: tail, logShape, rest =>
        obtain ⟨same, _⟩ := List.cons.inj rest
        exact .inl ⟨tail, by rw [logShape, same]⟩

/-- Beside the sequence, nothing counts as an act of it. -/
theorem InFlight.acts_aside
    {device : Fin n}
    {first last : Hw n}
    (inFlight : InFlight device first)
    (aside :
      Hw.Aside device ((first.devices device).hasControl .key) first last)
    {time : Nat}
    (acts : ActsAt device last.log time) :
    ActsAt device first.log time := by
  rw [aside.extended.log_eq] at acts
  cases acts with
  | tick state member =>
      rcases List.mem_append.mp member with early | late
      · exact .tick state early
      · exact (aside.aside _ late rfl).elim
  | power member =>
      rcases List.mem_append.mp member with early | late
      · exact .power early
      · have off := aside.aside _ late rfl
        contradiction
  | press before mark after shape =>
      rcases pair_in_append shape with ⟨rest, early⟩ | ⟨late, mark⟩
      · exact .press before mark rest early
      · have hasKey := aside.aside _ late rfl
        rcases mark with late | last
        · exact (aside.aside _ late rfl).elim
        · exact (inFlight.pressed hasKey before _ last).elim

theorem pendingTicks_aside
    {device : Fin n}
    {hasKey : Bool}
    {first last : Hw n}
    (aside : Hw.Aside device hasKey first last) :
    pendingTicks device last = pendingTicks device first := by
  obtain ⟨releases, timers, keys⟩ := aside.timers
  have none :
      releases.countP (fun timer => timer.cb = .deviceTick device) = 0 := by
    rw [List.countP_eq_zero]
    intro timer member
    obtain ⟨key, cb⟩ := keys timer member
    simp [cb]
  rw [pendingTicks, timers, List.countP_append, none]
  rfl

/-- Programs beside the sequence keep the invariant. -/
theorem InFlight.aside
    {device : Fin n}
    {first last : Hw n}
    (inFlight : InFlight device first)
    (aside :
      Hw.Aside device ((first.devices device).hasControl .key) first last) :
    InFlight device last := by
  obtain ⟨sorted, past⟩ :=
    append_sorted aside.extended inFlight.sorted inFlight.past
  have log := aside.extended.log_eq
  refine
    { powered := by rw [aside.devices]; exact inFlight.powered
      single := by
        rw [pendingTicks_aside aside]
        exact inFlight.single
      sorted := sorted
      past := past
      spaced := ?_
      due := ?_
      pressed := ?_ }
  · intro before mark state after shape notStart time acts
    rw [log] at shape
    rw [aside.devices]
    rcases mark_in_append shape with ⟨rest, early⟩ | ⟨between, _, late⟩
    · exact inFlight.spaced before mark state rest early notStart time acts
    · have foreign := aside.aside ⟨mark, .tick device state⟩
        (by simp [late])
      exact (foreign rfl).elim
  · intro timer member cb now mark expired after clock time acts
    rw [aside.devices]
    obtain ⟨releases, timers, keys⟩ := aside.timers
    rw [timers] at member
    rcases List.mem_append.mp member with old | new
    · exact inFlight.due timer old cb now mark expired after
        (Nat.le_trans aside.extended.elapsed clock) time
        (inFlight.acts_aside aside acts)
    · obtain ⟨key, release⟩ := keys timer new
      rw [release] at cb
      cases cb
  · intro hasKey before mark shape
    rw [aside.devices] at hasKey
    rw [log] at shape
    rcases mark_in_append shape with ⟨rest, early⟩ | ⟨between, _, late⟩
    · have lengths := congrArg List.length shape
      simp only [early, List.length_append, List.length_cons,
        List.length_nil] at lengths
      have noRest : rest = [] :=
        List.eq_nil_of_length_eq_zero (by omega)
      rw [noRest] at early
      exact inFlight.pressed hasKey before mark early
    · have foreign := aside.aside ⟨mark, .tick device .press⟩
        (by simp [late])
      exact (foreign rfl).elim

/-- The delay of a phase is the one its timer is armed with. -/
theorem phaseDelay_eq
    {dev : Device}
    {state : DeviceState}
    {delayMs : Int}
    (phase : nextPhase dev = (state, some delayMs)) :
    phaseDelay dev state = delayMs.toNat * 1000 := by
  have later :
      afterKey dev = (state, some delayMs) →
        phaseDelay dev state = delayMs.toNat * 1000 := by
    intro phase
    unfold afterKey at phase
    split at phase
    · simp only [Prod.mk.injEq, Option.some.injEq] at phase
      rw [← phase.1, ← phase.2, phaseDelay]
    · simp at phase
  have fixed :
      ∀ {phase : DeviceState} (ms : Nat),
        (phase, some (ms : Int)) = (state, some delayMs) →
        phaseDelay dev phase = ms * 1000 →
        phaseDelay dev state = delayMs.toNat * 1000 := by
    intro fixedPhase ms same delay
    simp only [Prod.mk.injEq, Option.some.injEq] at same
    rw [← same.1, ← same.2, delay, Int.toNat_natCast]
  unfold nextPhase at phase
  split at phase
  · exact fixed 10 phase rfl
  · split at phase
    · exact fixed 250 phase rfl
    · exact later phase
  · exact fixed 100 phase rfl
  · exact later phase
  · simp at phase
  · simp at phase

/-- A timer of a phase has not expired before the delay of the phase is over. -/
theorem armedTimer_due
    {device : Fin n}
    {dev : Device}
    {armedAt now mark : Nat}
    {state : DeviceState}
    {delayMs : Int}
    (phase : nextPhase dev = (state, some delayMs))
    (expired :
      (armedTimer armedAt device delayMs).tv.lt (Timeval.ofMicros now) =
        true)
    (after : now ≤ mark)
    (later : armedAt ≤ mark) :
    armedAt + phaseDelay dev state ≤ mark := by
  rw [phaseDelay_eq phase]
  rcases Int.lt_or_le delayMs 0 with negative | nonneg
  · have noDelay : delayMs.toNat = 0 := by omega
    omega
  · have quotient := Int.tdiv_eq_ediv_of_nonneg (b := 1000) nonneg
    have remainder := Int.tmod_eq_emod_of_nonneg (b := 1000) nonneg
    simp only [armedTimer, quotient, remainder] at expired
    have normalised :
        Timeval.Normalised ⟨delayMs / 1000, delayMs % 1000 * 1000⟩ := by
      simp only [Timeval.Normalised]
      omega
    rw [Timeval.lt_iff
      (Timeval.normalised_add (Timeval.normalised_ofMicros _) normalised)
      (Timeval.normalised_ofMicros _)] at expired
    simp only [Timeval.micros_add, Timeval.micros_ofMicros] at expired
    simp only [Timeval.micros] at expired
    omega

theorem phaseDelay_sameConfig
    {first last : Device}
    (same : first.SameConfig last)
    (state : DeviceState) :
    phaseDelay last state = phaseDelay first state := by
  rw [same]
  rfl

/--
A tick keeps the invariant when the delay before it was respected and its own
timer is then the only one pending.
-/
theorem InFlight.tick
    {device : Fin n}
    {first last : Hw n}
    {others : List (Timer (TimerCallback n))}
    (inFlight : InFlight device first)
    (step : TickStep device first last)
    (alone :
      ∀ timer, timer ∈ others → timer.cb ≠ .deviceTick device)
    (ripe :
      (first.devices device).state ≠ .start →
      ∀ mark time,
        first.clock.now ≤ mark →
        ActsAt device first.log time →
        time +
            phaseDelay (first.devices device)
              (first.devices device).state ≤
          mark) :
    InFlight device
      { last with
        timers :=
          others ++
            armedBy last.clock.now device
              (nextPhase (first.devices device)) } := by
  obtain ⟨sorted, past⟩ :=
    append_sorted step.extended inFlight.sorted inFlight.past
  obtain ⟨mark, events, log, ofTick, pressed⟩ := step.logged
  have same := step.extended.config device
  have clockMark : first.clock.now ≤ mark := by
    refine (step.extended.times.2
      ⟨mark, .tick device (first.devices device).state⟩ ?_).1
    simp [Hw.since, log]
  refine
    { powered := (same.hasControl .power).trans inFlight.powered
      single := ?_
      sorted := sorted
      past := past
      spaced := ?_
      due := ?_
      pressed := ?_ }
  · have none :
        others.countP (fun timer => timer.cb = .deviceTick device) = 0 := by
      rw [List.countP_eq_zero]
      intro timer member
      simpa using alone timer member
    rw [pendingTicks, List.countP_append, none, Nat.zero_add]
    refine Nat.le_trans List.countP_le_length ?_
    rw [armedBy, List.length_map]
    cases (nextPhase (first.devices device)).2 <;> simp
  · intro before mark' state after shape notStart time acts
    rw [phaseDelay_sameConfig same]
    simp only [log] at shape
    rcases mark_in_append shape with ⟨rest, early⟩ | ⟨between, here, late⟩
    · exact inFlight.spaced before mark' state rest early notStart time acts
    · cases between with
      | nil =>
          obtain ⟨same, _⟩ := List.cons.inj late
          cases same
          rw [here, List.append_nil] at acts
          exact ripe notStart mark time clockMark acts
      | cons head tail =>
          obtain ⟨_, late⟩ := List.cons.inj late
          exact (ofTick ⟨mark', .tick device state⟩
            (by simp [late])).elim
  · intro timer member cb now mark' expired after clock time acts
    rw [phaseDelay_sameConfig same, step.state]
    rcases List.mem_append.mp member with old | new
    · exact absurd cb (alone timer old)
    · simp only [armedBy, List.mem_map, Option.mem_toList] at new
      obtain ⟨delayMs, phase, rfl⟩ := new
      have bound := armedTimer_due (Prod.ext rfl phase) expired after clock
      obtain ⟨event, logged⟩ := mem_of_actsAt acts
      have before := past _ logged
      simp only at before
      exact Nat.le_trans (Nat.add_le_add_right before _) bound
  · intro hasKey before mark' shape
    rw [same.hasControl] at hasKey
    simp only [log] at shape
    rcases List.eq_nil_or_concat events with noEvents | ⟨init, final, rfl⟩
    · rw [noEvents] at shape
      obtain ⟨_, last⟩ := List.append_inj' shape rfl
      simp only [List.cons.injEq, Stamped.mk.injEq, Event.tick.injEq,
        and_true, true_and] at last
      exact pressed last.2 hasKey noEvents
    · rw [List.concat_eq_append, ← List.cons_append,
        ← List.append_assoc] at shape
      obtain ⟨_, last⟩ := List.append_inj' shape rfl
      have ofLast := ofTick final (by simp)
      rw [(List.cons.inj last).1] at ofLast
      exact ofLast

/-- Taking timers off the queue keeps the invariant. -/
theorem InFlight.of_sublist
    {device : Fin n}
    {hw : Hw n}
    {timers : List (Timer (TimerCallback n))}
    (inFlight : InFlight device hw)
    (fewer : timers.Sublist hw.timers) :
    InFlight device { hw with timers := timers } :=
  { inFlight with
    single := Nat.le_trans (fewer.countP_le) inFlight.single
    due := fun timer member =>
      inFlight.due timer (fewer.subset member) }

/-! ## Chains do not overlap -/

/-- Without the one timer of a chain, no timer of the chain is left. -/
theorem alone_of_single
    {device : Fin n}
    {timers : List (Timer (TimerCallback n))}
    {position : Nat}
    {timer : Timer (TimerCallback n)}
    (single :
      timers.countP (fun timer => timer.cb = .deviceTick device) ≤ 1)
    (found : timers[position]? = some timer)
    (tick : timer.cb = .deviceTick device) :
    ∀ other,
      other ∈ timers.eraseIdx position →
      other.cb ≠ .deviceTick device := by
  obtain ⟨inside, isTimer⟩ := List.getElem?_eq_some_iff.mp found
  have split :
      timers =
        timers.take position ++ timer :: timers.drop (position + 1) := by
    rw [← isTimer, List.getElem_cons_drop, List.take_append_drop]
  rw [split, List.countP_append, List.countP_cons_of_pos (by simpa)]
    at single
  intro other member isTick
  rw [List.eraseIdx_eq_take_drop_succ, List.mem_append] at member
  have none :
      (timers.take position).countP
          (fun timer => timer.cb = .deviceTick device) = 0 ∧
        (timers.drop (position + 1)).countP
          (fun timer => timer.cb = .deviceTick device) = 0 := by
    omega
  rw [List.countP_eq_zero, List.countP_eq_zero] at none
  rcases member with early | late
  · exact none.1 other early (by simpa using isTick)
  · exact none.2 other late (by simpa using isTick)

/-- Ticks of expired timers keep the one chain in flight. -/
theorem inFlight_invariant
    (device : Fin n) :
    BoardInvariant device (InFlight device) where
  aside := fun inFlight aside => inFlight.aside aside
  tick := by
    intro first last position timer now inFlight found cb expired clock step
    have member := List.mem_of_getElem? found
    refine inFlight.tick step
      (alone_of_single inFlight.single found cb) ?_
    intro _ mark time later acts
    exact inFlight.due timer member cb now mark expired
      (Nat.le_trans clock later) later time acts
  drop := fun inFlight fewer => inFlight.of_sublist fewer

/-- The invariant holds right after the selection of a board. -/
theorem Selected.inFlight
    {device : Fin n}
    {server : Server n}
    (isSelected : Selected device server) :
    InFlight device server.hw where
  powered := isSelected.powered
  single := by simp [pendingTicks, isSelected.timers]
  sorted := isSelected.sorted.1
  past := isSelected.sorted.2
  spaced := by
    intro before mark state after shape
    exact (isSelected.idle ⟨mark, .tick device state⟩
      (by simp [shape])).elim
  due := by simp [isSelected.timers]
  pressed := by
    intro _ before mark shape
    exact isSelected.idle ⟨mark, .tick device .press⟩ (by simp [shape])

/-- Without a pending tick the state of a device may be reset. -/
theorem InFlight.restarted
    {device : Fin n}
    {hw : Hw n}
    (inFlight : InFlight device hw)
    (none : pendingTicks device hw = 0) :
    InFlight device (hw.restarted device) where
  powered := by
    simpa [Hw.restarted, Device.hasControl] using inFlight.powered
  single := inFlight.single
  sorted := inFlight.sorted
  past := inFlight.past
  spaced := by
    intro before mark state after shape notStart time acts
    have spaced :=
      inFlight.spaced before mark state after shape notStart time acts
    cases state <;>
      simpa [Hw.restarted, phaseDelay, Device.keyTimeoutMs] using spaced
  due := by
    intro timer member cb
    rw [pendingTicks, List.countP_eq_zero] at none
    exact absurd (by simpa using cb) (none timer member)
  pressed := by
    intro hasKey
    exact inFlight.pressed
      (by simpa [Hw.restarted, Device.hasControl] using hasKey)

/-- A power-on request that finds no tick pending starts the only chain. -/
theorem InFlight.powerOn
    {device : Fin n}
    {hw last : Hw n}
    (inFlight : InFlight device hw)
    (none : pendingTicks device hw = 0)
    (step : TickStep device (hw.restarted device) last) :
    InFlight device last := by
  have started : ((hw.restarted device).devices device).state = .start := by
    simp [Hw.restarted]
  have alone :
      ∀ timer, timer ∈ hw.timers → timer.cb ≠ .deviceTick device := by
    rw [pendingTicks, List.countP_eq_zero] at none
    intro timer member isTick
    exact none timer member (by simpa using isTick)
  have kept := (inFlight.restarted none).tick step alone
    (fun notStart => absurd started notStart)
  have timers :
      last.timers =
        hw.timers ++
          armedBy last.clock.now device
            (nextPhase ((hw.restarted device).devices device)) :=
    step.armed
  rw [← timers] at kept
  exact kept

/-- A power-on request arms one more tick. -/
theorem pendingTicks_powerOn
    {device : Fin n}
    {hw last : Hw n}
    (step : TickStep device (hw.restarted device) last) :
    pendingTicks device last = pendingTicks device hw + 1 := by
  have started :
      nextPhase ((hw.restarted device).devices device) =
        (.connect, some 10) := by
    simp [Hw.restarted, nextPhase]
  rw [pendingTicks, step.armed, started, List.countP_append]
  simp [pendingTicks, Hw.restarted, armedBy, armedTimer]

/-- A power-on request after some inputs leaves one more tick pending. -/
theorem powerOn_reached
    {device : Fin n}
    {server middle : Server n}
    {before : List BoardInput}
    (isSelected : Selected device server)
    (reached : each boardInput before server = .ok () middle) :
    pendingTicks device
        (afterInputs server (before ++ [.powerOn])).hw =
      pendingTicks device middle.hw + 1 := by
  have always : BoardInvariant (n := n) device fun _ => True :=
    { aside := fun _ _ => trivial
      tick := fun _ _ _ _ _ _ => trivial
      drop := fun _ _ => trivial }
  have kept := always.run before
    ⟨isSelected.onBoard, trivial⟩ (fun _ _ _ _ _ _ _ _ => trivial)
  have same : afterInputs server before = middle := by
    rw [afterInputs, reached]
    rfl
  rw [same] at kept
  obtain ⟨last, step, _, request⟩ := kept.1.powerOn
  have final :
      (afterInputs server (before ++ [.powerOn])).hw.timers =
        last.timers := by
    rw [afterInputs, each_append, bind_of_ok reached, each,
      bind_apply, request]
    rfl
  rw [← pendingTicks_powerOn step, pendingTicks, final]
  rfl

/-- What there being one boot sequence means between two inputs. -/
structure OneSequence (device : Fin n) (hw : Hw n) : Prop where
  single : pendingTicks device hw ≤ 1
  sorted :
    hw.log.Pairwise fun earlier later => earlier.time ≤ later.time
  spaced : PhasesSpaced device hw

/--
Over any inputs to a freshly selected board there is one boot sequence at a
time, with each phase as long as its delay, if and only if every power-on
request that is handled finds no tick pending.
-/
theorem oneSequence_iff
    {device : Fin n}
    {server : Server n}
    {inputs : List BoardInput}
    (isSelected : Selected device server) :
    (∀ seen later,
        inputs = seen ++ later →
        OneSequence device (afterInputs server seen).hw) ↔
      ∀ before after middle,
        inputs = before ++ .powerOn :: after →
        each boardInput before server = .ok () middle →
        pendingTicks device middle.hw = 0 := by
  constructor
  · intro one before after middle shape reached
    have pending := powerOn_reached isSelected reached
    have single :=
      (one (before ++ [.powerOn]) after (by simp [shape])).single
    omega
  · intro free seen later shape
    have kept := (inFlight_invariant device).run seen
      ⟨isSelected.onBoard, isSelected.inFlight⟩
      (fun before after middle seenShape reached kept last step =>
        kept.2.powerOn
          (free before (after ++ later) middle
            (by simp [shape, seenShape]) reached)
          step)
    exact
      { single := kept.2.single
        sorted := kept.2.sorted
        spaced := kept.2.spaced }

/--
One power-on request, a power-off and an expiration: a single sequence.
-/
theorem onePowerOn_oneSequence :
    Selected 0 (selectedBench (pauseAfter 11)) ∧
      ∀ seen later,
        [BoardInput.powerOn, .powerOff, .expire] = seen ++ later →
        OneSequence 0
          (afterInputs (selectedBench (pauseAfter 11)) seen).hw := by
  have selected : Selected 0 (selectedBench (pauseAfter 11)) :=
    selectedBench_selected (by decide +kernel) (by decide +kernel)
      (by decide +kernel)
  refine ⟨selected, (oneSequence_iff selected).mpr ?_⟩
  intro before after middle shape reached
  cases before with
  | nil =>
      cases reached
      decide +kernel
  | cons head tail =>
      have member :
          BoardInput.powerOn ∈ [BoardInput.powerOff, .expire] := by
        rw [(List.cons.inj shape).2]
        simp
      exact absurd member (by decide)

/--
The second of two power-on requests finds the tick of the first pending: both
chains advance the same state, and the power key is pressed in the very moment
in which power is switched on.
-/
theorem secondPowerOn_overlaps :
    Selected 0 (selectedBench (pauseAfter 11)) ∧
      pendingTicks 0
          (afterInputs (selectedBench (pauseAfter 11))
            [.powerOn, .powerOn]).hw = 2 ∧
      ¬PhasesSpaced 0
        (afterInputs (selectedBench (pauseAfter 11))
          [.powerOn, .powerOn, .expire]).hw := by
  refine
    ⟨selectedBench_selected (by decide +kernel) (by decide +kernel)
      (by decide +kernel), by decide +kernel, ?_⟩
  intro spaced
  let hw :=
    (afterInputs (selectedBench (pauseAfter 11))
      [.powerOn, .powerOn, .expire]).hw
  have tooSoon :=
    spaced (hw.log.take 12) 20000 .press (hw.log.drop 13)
      (by decide +kernel) (by decide) 20000
      (.power (by decide +kernel))
  revert tooSoon
  decide +kernel

end Cdba
