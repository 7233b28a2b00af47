import Cdba.PowerSequence

namespace Cdba

/-!
# Switching a board off

Power-off neither removes the pending tick nor changes the phase.  Only the
tick of the connect phase switches power on, so a power-off that comes in any
other phase is final; one that comes in the connect phase is undone by the
tick that ends it.
-/

open Program

variable {n : Nat}

/-- A device in its first phase has no tick pending. -/
def StartsIdle (device : Fin n) (hw : Hw n) : Prop :=
  (hw.devices device).state = .start →
    ∀ timer, timer ∈ hw.timers → timer.cb ≠ .deviceTick device

/-- A tick enters its first phase at most by the reset of a power-on request. -/
theorem nextPhase_ne_start
    (dev : Device) :
    (nextPhase dev).1 ≠ .start := by
  have later : (afterKey dev).1 ≠ .start := by
    unfold afterKey
    split <;> simp
  unfold nextPhase
  split
  · simp
  · split
    · simp
    · exact later
  · simp
  · exact later
  · simp
  · simp

/-- Only the first phase leads to the connect phase. -/
theorem nextPhase_ne_connect
    {dev : Device}
    (notStart : dev.state ≠ .start) :
    (nextPhase dev).1 ≠ .connect := by
  have later : (afterKey dev).1 ≠ .connect := by
    unfold afterKey
    split <;> simp
  unfold nextPhase
  split
  · rename_i start
    exact absurd start notStart
  · split
    · simp
    · exact later
  · simp
  · exact later
  · simp
  · simp

theorem startsIdle_invariant
    (device : Fin n) :
    BoardInvariant device (StartsIdle device) where
  aside := by
    intro first last idle aside start timer member
    rw [aside.devices] at start
    obtain ⟨releases, timers, keys⟩ := aside.timers
    rw [timers] at member
    rcases List.mem_append.mp member with old | new
    · exact idle start timer old
    · obtain ⟨key, release⟩ := keys timer new
      simp [release]
  tick := by
    intro first last position timer now idle found cb expired clock step
      start
    exact absurd (step.state.symm.trans start) (nextPhase_ne_start _)
  drop := fun idle fewer start timer member =>
    idle start timer (fewer.subset member)

/-- Since a power-off, the board was not switched on and will not be. -/
structure StaysOff (device : Fin n) (off hw : Hw n) : Prop where
  extended : off.Extends hw
  notConnect : (hw.devices device).state ≠ .connect
  idle : StartsIdle device hw
  noPower :
    ∀ event, event ∈ off.since hw → event.value ≠ .power device true

/-- Outside the connect phase nothing but a power-on request switches on. -/
theorem staysOff_invariant
    (device : Fin n)
    (off : Hw n) :
    BoardInvariant device (StaysOff device off) where
  aside := by
    intro first last stays aside
    refine
      { extended := Composes.trans stays.extended aside.extended
        notConnect := by
          rw [aside.devices]
          exact stays.notConnect
        idle := (startsIdle_invariant device).aside stays.idle aside
        noPower := ?_ }
    intro event member isPower
    rw [since_append stays.extended aside.extended,
      List.mem_append] at member
    rcases member with early | late
    · exact stays.noPower event early isPower
    · have foreign := aside.aside event late
      rw [isPower] at foreign
      exact absurd (foreign rfl) (by decide)
  tick := by
    intro first last position timer now stays found cb expired clock step
    have notStart : (first.devices device).state ≠ .start := fun start =>
      stays.idle start timer (List.mem_of_getElem? found) cb
    have extended := Composes.trans stays.extended step.extended
    refine
      { extended :=
          { logged := extended.logged
            elapsed := extended.elapsed
            config := extended.config
            beyond := extended.beyond
            grants := extended.grants }
        notConnect := by
          rw [show (_ : Device).state = _ from step.state]
          exact nextPhase_ne_connect notStart
        idle :=
          (startsIdle_invariant device).tick stays.idle found cb expired
            clock step
        noPower := ?_ }
    intro event member isPower
    have sinceLast : event ∈ off.since last := member
    rw [since_append stays.extended step.extended,
      List.mem_append] at sinceLast
    rcases sinceLast with early | late
    · exact stays.noPower event early isPower
    · obtain ⟨mark, events, log, ofTick, _⟩ := step.logged
      have isSince :
          first.since last =
            ⟨mark, .tick device (first.devices device).state⟩ ::
              events := by
        simp [Hw.since, log]
      rw [isSince] at late
      rcases List.mem_cons.mp late with isMark | acted
      · rw [isMark] at isPower
        cases isPower
      · have powers := ofTick event acted
        rw [isPower] at powers
        exact stays.notConnect powers.2.2
  drop := fun stays fewer =>
    { extended :=
        { logged := stays.extended.logged
          elapsed := stays.extended.elapsed
          config := stays.extended.config
          beyond := stays.extended.beyond
          grants := stays.extended.grants }
      notConnect := stays.notConnect
      idle := (startsIdle_invariant device).drop stays.idle fewer
      noPower := stays.noPower }

/-- A power-on request leaves the first phase at once. -/
theorem startsIdle_powerOn
    {device : Fin n}
    {hw last : Hw n}
    (step : TickStep device (hw.restarted device) last) :
    StartsIdle device last := by
  intro start
  exact absurd (step.state.symm.trans start) (nextPhase_ne_start _)

/--
In every run of inputs to a freshly selected board: if each power-off comes
while the device is not in its connect phase, then after a power-off nothing
switches the board on until the next power-on request.
-/
theorem powerOff_final
    {device : Fin n}
    {server : Server n}
    {inputs : List BoardInput}
    (isSelected : Selected device server)
    (settled :
      ∀ before after middle,
        inputs = before ++ .powerOff :: after →
        each boardInput before server = .ok () middle →
        (middle.hw.devices device).state ≠ .connect) :
    ∀ before between after middle,
      inputs = before ++ .powerOff :: between ++ after →
      .powerOn ∉ between →
      each boardInput before server = .ok () middle →
      ∀ event,
        event ∈
          middle.hw.since
            (afterInputs middle (.powerOff :: between)).hw →
        event.value ≠ .power device true := by
  intro before between after middle shape noPowerOn reached
  have idle := (startsIdle_invariant device).run before
    ⟨isSelected.onBoard, by simp [StartsIdle, isSelected.timers]⟩
    (fun _ _ _ _ _ _ _ step => startsIdle_powerOn step)
  have same : afterInputs server before = middle := by
    rw [afterInputs, reached]
    rfl
  rw [same] at idle
  have kept := (staysOff_invariant device middle.hw).run
    (.powerOff :: between)
    ⟨idle.1,
      { extended := Composes.refl _
        notConnect :=
          settled before (between ++ after) middle (by simp [shape]) reached
        idle := idle.2
        noPower := by simp [Hw.since] }⟩
    (fun _ _ _ shape => by
      have member : BoardInput.powerOn ∈ BoardInput.powerOff :: between := by
        rw [shape]
        simp
      simp [noPowerOn] at member)
  exact kept.2.noPower

/-- A power-off that follows the tick of the connect phase is final. -/
theorem powerOffAfterConnect_final :
    Selected 0 (selectedBench (pauseAfter 7)) ∧
      ∀ event,
        event ∈
          (afterInputs (selectedBench (pauseAfter 7))
              [.powerOn, .expire]).hw.since
            (afterInputs
              (afterInputs (selectedBench (pauseAfter 7)) [.powerOn, .expire])
              [.powerOff, .expire]).hw →
        event.value ≠ .power 0 true := by
  have selected : Selected 0 (selectedBench (pauseAfter 7)) :=
    selectedBench_selected (by decide +kernel) (by decide +kernel)
      (by decide +kernel)
  refine ⟨selected,
    powerOff_final selected ?_
      [.powerOn, .expire] [.expire] [] _ rfl (by decide)
      (eq_ok_of_returned (show returned? _ = some () by decide +kernel))⟩
  intro before after middle shape reached
  change [BoardInput.powerOn, .expire, .powerOff, .expire] = _ at shape
  rcases before with _ | ⟨first, _ | ⟨second, _ | ⟨third, rest⟩⟩⟩
  · simp at shape
  · simp at shape
  · simp only [List.cons_append, List.nil_append, List.cons.injEq] at shape
    obtain ⟨rfl, rfl, _⟩ := shape
    have final :
        middle =
          afterInputs (selectedBench (pauseAfter 7)) [.powerOn, .expire] := by
      rw [afterInputs, reached]
      rfl
    rw [final]
    decide +kernel
  · simp only [List.cons_append, List.cons.injEq] at shape
    have member : BoardInput.powerOff ∈ [BoardInput.expire] := by
      rw [shape.2.2.2]
      simp
    exact absurd member (by decide)

/--
A power-off between a power-on request and the end of its connect phase: the
tick that was pending switches the board on again.
-/
theorem powerOffInConnect_undone :
    Selected 0 (selectedBench (pauseAfter 9)) ∧
      ((afterInputs (selectedBench (pauseAfter 9)) [.powerOn]).hw.since
          (afterInputs (selectedBench (pauseAfter 9))
            [.powerOn, .powerOff, .expire]).hw).map Stamped.value =
        [.power 0 false, .send .powerOff [], .tick 0 .connect,
          .power 0 true, .usb 0 true] :=
  ⟨selectedBench_selected (by decide +kernel) (by decide +kernel)
    (by decide +kernel), by decide +kernel⟩

end Cdba
