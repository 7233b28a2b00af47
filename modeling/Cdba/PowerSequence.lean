import Cdba.FirstSelection

namespace Cdba

/-!
# The power-on sequence

`device_tick` is a chain of one-shot timers that drive one state variable.  The
abstract chain says which phase follows which and after what delay; each tick
of the code is one step of it.  Over runs of requests, key messages and timer
expirations this decides what a power-off leaves behind, and how many chains
can be in flight.
-/

open Program

variable {n : Nat}

/-! ## The abstract chain -/

/-- What follows once the power key has been dealt with. -/
def afterKey (dev : Device) : DeviceState × Option Int :=
  if dev.fastbootKeyTimeout ≠ 0 then
    (.releaseFastboot, some dev.keyTimeoutMs)
  else
    (.running, none)

/-- The phase a tick enters, and the delay in milliseconds after which it ends. -/
def nextPhase (dev : Device) : DeviceState × Option Int :=
  match dev.state with
  | .start => (.connect, some 10)
  | .connect =>
      if dev.hasPowerKey then (.press, some 250) else afterKey dev
  | .press => (.releasePwr, some 100)
  | .releasePwr => afterKey dev
  | .releaseFastboot => (.running, none)
  | .running => (.running, none)

/-- What a tick may do to the outside besides leaving its mark. -/
def Event.OfTick
    (device : Fin n)
    (state : DeviceState)
    (event : Event n) :
    Prop :=
  match event with
  | .key d _ _ => d = device
  | .usb d _ => d = device
  | .pppsPower d _ => d = device
  | .power d on => d = device ∧ on = true ∧ state = .connect
  | _ => False

/-- Everything in between is output of a given kind; devices and timers stay. -/
structure Hw.Acts
    (allowed : Event n → Prop)
    (first last : Hw n) :
    Prop where
  extended : first.Extends last
  devices : last.devices = first.devices
  timers : last.timers = first.timers
  allowed : ∀ event, event ∈ first.since last → allowed event.value

instance Hw.Acts.composes
    (allowed : Event n → Prop) :
    Composes (Hw.Acts allowed) where
  refl := fun hw =>
    { extended := Composes.refl hw
      devices := rfl
      timers := rfl
      allowed := by simp [Hw.since] }
  trans := by
    intro first middle last firstStep laterStep
    refine
      { extended :=
          Composes.trans firstStep.extended laterStep.extended
        devices := laterStep.devices.trans firstStep.devices
        timers := laterStep.timers.trans firstStep.timers
        allowed := ?_ }
    intro event member
    rw [since_append firstStep.extended laterStep.extended,
      List.mem_append] at member
    rcases member with early | late
    · exact firstStep.allowed event early
    · exact laterStep.allowed event late

/-- A program that never stops. -/
abbrev Stop.Never (_ : Stop) : Prop :=
  False

theorem emit_acts
    (allowed : Event n → Prop)
    {event : Event n}
    (isAllowed : allowed event) :
    Relates (Hw.Acts allowed) Stop.Never (emit event) :=
  fun hw =>
    { related :=
        { extended := (emit_extends event hw).related
          devices := rfl
          timers := rfl
          allowed := by simpa [emit, finalState, Hw.since] using isAllowed }
      stops := by simp [emit, stopped?] }

theorem deviceKey_acts
    {allowed : Event n → Prop}
    {device : Fin n}
    {key : Nat}
    {asserted : Bool}
    (isAllowed : allowed (.key device key asserted)) :
    Relates (Hw.Acts allowed) Stop.Never
      (deviceKey (some device) key asserted) := by
  unfold deviceKey deref
  rw [pure_bind]
  exact .bind (.read _) fun _ => .onlyIf (emit_acts _ isAllowed)

theorem deviceUsb_acts
    {allowed : Event n → Prop}
    {device : Fin n}
    {on : Bool}
    (usb : allowed (.usb device on))
    (ppps : allowed (.pppsPower device on)) :
    Relates (Hw.Acts allowed) Stop.Never (deviceUsb (some device) on) := by
  unfold deviceUsb deref
  rw [pure_bind]
  exact .bind (.read _) fun _ =>
    .bind (.onlyIf (emit_acts _ ppps)) fun _ => .onlyIf (emit_acts _ usb)

/-- What a tick does besides leaving its mark and entering the next phase. -/
def tickActions (device : Fin n) (dev : Device) : HwM n Unit :=
  match dev.state with
  | .start => do
      onlyIf (dev.fastbootKeyTimeout ≠ 0)
        (deviceKey (some device) deviceKeyFastboot true)
      onlyIf dev.hasPowerKey
        (deviceKey (some device) deviceKeyPower false)
  | .connect => do
      deviceImplPower device true
      deviceUsb (some device) true
  | .press => deviceKey (some device) deviceKeyPower true
  | .releasePwr => deviceKey (some device) deviceKeyPower false
  | .releaseFastboot => deviceKey (some device) deviceKeyFastboot false
  | .running => pure ()

/-- Enter a phase and arm the timer that ends it. -/
def enterPhase
    (device : Fin n)
    (phase : DeviceState × Option Int) :
    HwM n Unit := do
  setState device phase.1
  match phase.2 with
  | some delayMs => watchTimerAdd delayMs (.deviceTick device)
  | none => pure ()

/-- A device with power control has a table of control operations. -/
theorem control_ne_none
    {dev : Device}
    (powered : dev.hasControl .power = true) :
    dev.control ≠ none := by
  intro none
  simp [Device.hasControl, none] at powered

/-- The actions of a tick are output about its device, and they all succeed. -/
theorem tickActions_acts
    {device : Fin n}
    (hw : Hw n)
    (powered : (hw.devices device).hasControl .power = true) :
    RelatesAt
      (Hw.Acts (Event.OfTick device (hw.devices device).state))
      Stop.Never
      (tickActions device (hw.devices device)) hw := by
  have key :
      ∀ state key asserted,
        Event.OfTick device state (.key device key asserted) :=
    fun _ _ _ => rfl
  cases state : (hw.devices device).state with
  | start =>
      simp only [tickActions, state]
      exact Relates.bind (.onlyIf (deviceKey_acts (key _ _ _)))
        (fun _ => .onlyIf (deviceKey_acts (key _ _ _))) hw
  | connect =>
      have usb : Event.OfTick device .connect (.usb device true) := rfl
      have ppps : Event.OfTick device .connect (.pppsPower device true) :=
        rfl
      have power : Event.OfTick device .connect (.power device true) :=
        ⟨rfl, rfl, rfl⟩
      simp only [tickActions, state]
      refine RelatesAt.bind ?_
        (fun _ middle _ => deviceUsb_acts usb ppps middle)
      refine (Relates.read _ hw).bind fun control middle outcome => ?_
      cases outcome
      simp only [if_neg (control_ne_none powered)]
      exact emit_acts _ power hw
  | press =>
      simp only [tickActions, state]
      exact deviceKey_acts (key _ _ _) hw
  | releasePwr =>
      simp only [tickActions, state]
      exact deviceKey_acts (key _ _ _) hw
  | releaseFastboot =>
      simp only [tickActions, state]
      exact deviceKey_acts (key _ _ _) hw
  | running =>
      simp only [tickActions, state]
      exact Relates.pure () hw

/-- The state in which a tick has left its mark. -/
def Hw.marked (device : Fin n) (hw : Hw n) : Hw n :=
  { hw with
    clock := hw.clock.tick
    log :=
      hw.log ++
        [⟨hw.clock.tick.now, .tick device (hw.devices device).state⟩] }

theorem releaseFastbootLater_eq
    (device : Fin n)
    (hw : Hw n) :
    releaseFastbootLater device hw =
      enterPhase device (afterKey (hw.devices device)) hw := by
  unfold releaseFastbootLater
  rw [bind_of_ok (read_apply _ _)]
  unfold afterKey
  split
  · rfl
  · rfl

/-- Entering the phase a device is in changes nothing. -/
theorem setState_same
    {device : Fin n}
    (hw : Hw n)
    {state : DeviceState}
    (same : (hw.devices device).state = state) :
    setState device state hw = .ok () hw := by
  have unchanged :
      (fun query =>
        if query = device then
          { hw.devices query with state := state }
        else
          hw.devices query) = hw.devices := by
    funext query
    split
    · rename_i here
      rw [here, ← same]
    · rfl
  unfold setState updateDevice
  rw [update_apply, unchanged]

/-- After its mark and its actions, a tick enters the next phase of the chain. -/
theorem deviceTick_enters
    {device : Fin n}
    {hw acted : Hw n}
    (actions :
      tickActions device (hw.devices device) (hw.marked device) =
        .ok () acted)
    (devices : acted.devices = hw.devices) :
    deviceTick device hw =
      enterPhase device (nextPhase (hw.devices device)) acted := by
  have later := releaseFastbootLater_eq device acted
  rw [devices] at later
  unfold deviceTick
  rw [bind_of_ok (read_apply _ _),
    bind_of_ok (show emit _ hw = .ok () (hw.marked device) from rfl)]
  unfold tickActions at actions
  unfold nextPhase
  cases state : (hw.devices device).state with
  | start =>
      simp only [state] at actions ⊢
      rw [← bind_assoc, bind_of_ok actions]
      rfl
  | connect =>
      simp only [state] at actions ⊢
      rw [← bind_assoc, bind_of_ok actions]
      split
      · rfl
      · exact later
  | press =>
      simp only [state] at actions ⊢
      rw [bind_of_ok actions]
      rfl
  | releasePwr =>
      simp only [state] at actions ⊢
      rw [bind_of_ok actions]
      exact later
  | releaseFastboot =>
      simp only [state] at actions ⊢
      rw [bind_of_ok actions]
      rfl
  | running =>
      simp only [state] at actions ⊢
      cases actions
      exact (bind_of_ok
        (setState_same (hw.marked device) state)
        (fun _ => pure ())).symm

/-- The timer that a tick arms, given its reading of the clock. -/
def armedTimer
    (now : Nat)
    (device : Fin n)
    (delayMs : Int) :
    Timer (TimerCallback n) where
  tv :=
    (Timeval.ofMicros now).add
      ⟨delayMs.tdiv 1000, delayMs.tmod 1000 * 1000⟩
  cb := .deviceTick device

/-- The timers that a phase of the chain has armed. -/
def armedBy
    (now : Nat)
    (device : Fin n)
    (phase : DeviceState × Option Int) :
    List (Timer (TimerCallback n)) :=
  phase.2.toList.map (armedTimer now device)

/-- What one tick of a device with power control does to the hardware. -/
structure TickStep (device : Fin n) (first last : Hw n) : Prop where
  extended : first.Extends last
  logged :
    ∃ mark events,
      last.log =
          first.log ++
            ⟨mark, .tick device (first.devices device).state⟩ :: events ∧
        (∀ event, event ∈ events →
          event.value.OfTick device (first.devices device).state) ∧
        ((first.devices device).state = .press →
          (first.devices device).hasControl .key = true →
          events ≠ [])
  state :
    (last.devices device).state = (nextPhase (first.devices device)).1
  armed :
    last.timers =
      first.timers ++
        armedBy last.clock.now device (nextPhase (first.devices device))

/-- Entering a phase sets the state and arms the timer of the phase. -/
theorem enterPhase_eq
    (device : Fin n)
    (phase : DeviceState × Option Int)
    (hw : Hw n) :
    ∃ final,
      enterPhase device phase hw = .ok () final ∧
        final.log = hw.log ∧
        (final.devices device).state = phase.1 ∧
        final.timers =
          hw.timers ++ armedBy final.clock.now device phase := by
  obtain ⟨state, delay⟩ := phase
  cases delay with
  | none =>
      refine ⟨_, rfl, rfl, ?_, ?_⟩
      · simp
      · simp [armedBy]
  | some delayMs =>
      refine ⟨_, rfl, rfl, ?_, ?_⟩
      · simp
      · simp [armedBy, armedTimer]

/-- Pressing the power key shows in the log if the device has keys. -/
theorem tickActions_press
    {device : Fin n}
    {dev : Device}
    {hw final : Hw n}
    (state : dev.state = .press)
    (key : (hw.devices device).hasControl .key = true)
    (result : tickActions device dev hw = .ok () final) :
    final.log =
      hw.log ++
        [⟨hw.clock.tick.now, .key device deviceKeyPower true⟩] := by
  simp only [tickActions, state, deviceKey, deref, pure_bind] at result
  rw [bind_of_ok (read_apply _ _)] at result
  simp only [key, onlyIf, ↓reduceIte] at result
  cases result
  rfl

theorem deviceTick_step
    {device : Fin n}
    {hw : Hw n}
    (powered : (hw.devices device).hasControl .power = true) :
    ∃ final,
      deviceTick device hw = .ok () final ∧ TickStep device hw final := by
  have acts := tickActions_acts (hw.marked device) powered
  rw [show (hw.marked device).devices = hw.devices from rfl] at acts
  obtain ⟨_, acted, outcome, related⟩ := acts.succeeds
  have enters := deviceTick_enters outcome related.devices
  obtain ⟨final, entered, log, state, armed⟩ :=
    enterPhase_eq device (nextPhase (hw.devices device)) acted
  have result : deviceTick device hw = .ok () final :=
    enters.trans entered
  have extended := (deviceTick_extends device hw).related
  rw [result] at extended
  refine ⟨final, result, ?_⟩
  refine
    { extended := extended
      logged :=
        ⟨hw.clock.tick.now, (hw.marked device).since acted, ?_, ?_, ?_⟩
      state := state
      armed := ?_ }
  · rw [log, related.extended.log_eq]
    simp [Hw.marked]
  · exact related.allowed
  · intro press key
    have pressed := tickActions_press press
      (show ((hw.marked device).devices device).hasControl .key = true
        from key) outcome
    simp [Hw.since, show acted.log = _ from pressed]
  · rw [armed, related.timers]
    rfl

/-! ## What leaves the sequence alone -/

/-- Output that is not the sequence's; key events need a device with keys. -/
def Event.Aside
    (device : Fin n)
    (hasKey : Bool)
    (event : Event n) :
    Prop :=
  match event with
  | .tick d _ => d ≠ device
  | .power d on => d = device → on = false
  | .key d _ _ => d = device → hasKey = true
  | _ => True

/-- Programs beside the sequence: other output, and timers that release keys. -/
structure Hw.Aside
    (device : Fin n)
    (hasKey : Bool)
    (first last : Hw n) :
    Prop where
  extended : first.Extends last
  devices : last.devices = first.devices
  timers :
    ∃ releases,
      last.timers = first.timers ++ releases ∧
        ∀ timer, timer ∈ releases → ∃ key, timer.cb = .msgKeyRelease key
  aside :
    ∀ event, event ∈ first.since last → event.value.Aside device hasKey

instance Hw.Aside.composes
    (device : Fin n)
    (hasKey : Bool) :
    Composes (Hw.Aside device hasKey) where
  refl := fun hw =>
    { extended := Composes.refl hw
      devices := rfl
      timers := ⟨[], by simp, by simp⟩
      aside := by simp [Hw.since] }
  trans := by
    intro first middle last firstStep laterStep
    obtain ⟨releases, timers, keys⟩ := firstStep.timers
    obtain ⟨releases', timers', keys'⟩ := laterStep.timers
    refine
      { extended :=
          Composes.trans firstStep.extended laterStep.extended
        devices := laterStep.devices.trans firstStep.devices
        timers := ⟨releases ++ releases', ?_, ?_⟩
        aside := ?_ }
    · rw [timers', timers, List.append_assoc]
    · intro timer member
      rcases List.mem_append.mp member with early | late
      · exact keys timer early
      · exact keys' timer late
    · intro event member
      rw [since_append firstStep.extended laterStep.extended,
        List.mem_append] at member
      rcases member with early | late
      · exact firstStep.aside event early
      · exact laterStep.aside event late

theorem Hw.Acts.toAside
    {device : Fin n}
    {hasKey : Bool}
    {allowed : Event n → Prop}
    {first last : Hw n}
    (acts : Hw.Acts allowed first last)
    (isAside : ∀ event, allowed event → event.Aside device hasKey) :
    Hw.Aside device hasKey first last where
  extended := acts.extended
  devices := acts.devices
  timers := ⟨[], by simp [acts.timers], by simp⟩
  aside := fun event member => isAside _ (acts.allowed event member)

theorem emit_aside
    {device : Fin n}
    {hasKey : Bool}
    (event : Event n)
    (isAside : event.Aside device hasKey) :
    Relates (Hw.Aside device hasKey) Stop.Never (emit event) :=
  fun hw =>
    { related :=
        (emit_acts (Event.Aside device hasKey) isAside
          hw).related.toAside fun _ => id
      stops := by simp [emit, stopped?] }

/-- A key operation of the device is only logged if the device has keys. -/
theorem deviceKey_aside
    {device : Fin n}
    {hw : Hw n}
    (key : Nat)
    (asserted : Bool) :
    RelatesAt
      (Hw.Aside device ((hw.devices device).hasControl .key))
      Stop.Never
      (deviceKey (some device) key asserted) hw := by
  unfold deviceKey deref
  rw [pure_bind]
  refine (Relates.read _ hw).bind fun hasKey middle outcome => ?_
  cases outcome
  dsimp only
  cases (hw.devices device).hasControl .key with
  | true =>
      have isAside :
          (Event.key device key asserted).Aside device true :=
        fun _ => rfl
      exact emit_aside _ isAside hw
  | false =>
      exact Relates.pure () hw

theorem watchTimerAdd_aside
    {device : Fin n}
    {hasKey : Bool}
    (timeoutMs : Int)
    (key : Nat) :
    Relates (Hw.Aside device hasKey) Stop.Never
      (watchTimerAdd timeoutMs (.msgKeyRelease (n := n) key)) := by
  intro hw
  have extended :=
    (watchTimerAdd_extends timeoutMs
      (.msgKeyRelease (n := n) key) hw).related
  refine
    { related :=
        { extended := extended
          devices := rfl
          timers := ⟨[_], rfl, ?_⟩
          aside := ?_ }
      stops := by
        simp [watchTimerAdd, gettimeofday, bind_apply, stopped?] }
  · intro timer member
    rw [List.mem_singleton.mp member]
    exact ⟨key, rfl⟩
  · intro event member
    simp [watchTimerAdd, gettimeofday, bind_apply, finalState,
      Hw.since] at member

/-- Key messages leave the sequence alone. -/
theorem msgKeyPress_aside
    {device : Fin n}
    {hw : Hw n}
    (data : List UInt8) :
    RelatesAt
      (Hw.Aside device ((hw.devices device).hasControl .key))
      Stop.Never
      (msgKeyPress (some device) data) hw := by
  unfold msgKeyPress
  split
  · split
    · exact (deviceKey_aside _ _).bind
        fun _ middle _ => watchTimerAdd_aside _ _ middle
    · exact deviceKey_aside _ _
  · exact Relates.pure () hw

/-- Switching a device off leaves the sequence alone. -/
theorem powerOff_aside
    {device : Fin n}
    {hasKey : Bool} :
    Relates (Hw.Aside device hasKey) Stop.Never
      (do
        devicePower (some device) false
        cdbaSend .powerOff) := by
  refine .bind (.bind (.read _) fun powered => ?_)
    fun _ => emit_aside _ trivial
  cases powered with
  | none => exact .pure ()
  | some other => exact emit_aside _ fun _ => rfl

/-! ## Runs -/

/-- What reaches a selected board: requests, key messages and expirations. -/
inductive BoardInput where
  | powerOn
  | powerOff
  | key (data : List UInt8)
  | expire
  deriving DecidableEq

/-- How the server takes such an input. -/
def boardInput : BoardInput → ServerM n Unit
  | .powerOn => handleType .powerOn []
  | .powerOff => handleType .powerOff []
  | .key data => handleType .keyPress data
  | .expire => invokeTimers

/-- The state in which a sequence of inputs leaves the server. -/
def afterInputs (server : Server n) (inputs : List BoardInput) : Server n :=
  finalState (each boardInput inputs server)

/-- A board with power control is selected, and the timers are its own. -/
structure OnBoard (device : Fin n) (server : Server n) : Prop where
  selected : server.selectedDevice = some device
  powered : (server.hw.devices device).hasControl .power = true
  own :
    ∀ timer, timer ∈ server.hw.timers →
      timer.cb = .deviceTick device ∨
        ∃ key, timer.cb = .msgKeyRelease key

/--
An invariant of the hardware under everything but a power-on request: output
beside the sequence, ticks of expired timers, and timers that are dropped.
-/
structure BoardInvariant
    (device : Fin n)
    (invariant : Hw n → Prop) :
    Prop where
  aside :
    ∀ {first last},
      invariant first →
      Hw.Aside device ((first.devices device).hasControl .key) first last →
      invariant last
  tick :
    ∀ {first last : Hw n} {position : Nat}
      {timer : Timer (TimerCallback n)} {now : Nat},
      invariant first →
      first.timers[position]? = some timer →
      timer.cb = .deviceTick device →
      timer.tv.lt (Timeval.ofMicros now) = true →
      now ≤ first.clock.now →
      TickStep device first last →
      invariant
        { last with
          timers :=
            first.timers.eraseIdx position ++
              armedBy last.clock.now device
                (nextPhase (first.devices device)) }
  drop :
    ∀ {hw timers},
      invariant hw →
      timers.Sublist hw.timers →
      invariant { hw with timers := timers }

section BoardInvariant

variable {device : Fin n} {invariant : Hw n → Prop}

/-- The state between inputs, for an invariant of the hardware. -/
abbrev OnBoardWith
    (device : Fin n)
    (invariant : Hw n → Prop)
    (server : Server n) :
    Prop :=
  OnBoard device server ∧ invariant server.hw

/-- Output beside the sequence always succeeds and keeps the invariant. -/
theorem BoardInvariant.of_aside
    (isInvariant : BoardInvariant device invariant)
    {server : Server n}
    {program : HwM n α}
    (holds : OnBoardWith device invariant server)
    (aside :
      RelatesAt
        (Hw.Aside device
          ((server.hw.devices device).hasControl .key))
        Stop.Never program server.hw) :
    KeepsAt (OnBoardWith device invariant)
      (fun _ => OnBoardWith device invariant) (onHw program) server := by
  obtain ⟨onBoard, hw⟩ := holds
  obtain ⟨value, last, outcome, step⟩ := aside.succeeds
  refine .of_ok (onHw_of_ok outcome)
    ⟨{ selected := onBoard.selected
       powered := ?_
       own := ?_ },
      isInvariant.aside hw step⟩
  · rw [step.devices]
    exact onBoard.powered
  · intro timer member
    obtain ⟨releases, timers, keys⟩ := step.timers
    simp only [timers] at member
    rcases List.mem_append.mp member with old | new
    · exact onBoard.own timer old
    · exact .inr (keys timer new)

/-- A handler of the selected device runs on the board. -/
theorem BoardInvariant.of_onSelected
    (isInvariant : BoardInvariant device invariant)
    {server : Server n}
    {handler : Option (Fin n) → HwM n Unit}
    (holds : OnBoardWith device invariant server)
    (aside :
      RelatesAt
        (Hw.Aside device
          ((server.hw.devices device).hasControl .key))
        Stop.Never (handler (some device)) server.hw) :
    KeepsAt (OnBoardWith device invariant)
      (fun _ => OnBoardWith device invariant)
      (onSelected handler) server := by
  have kept := isInvariant.of_aside holds aside
  unfold KeepsAt at kept ⊢
  rw [onSelected_some _ holds.1.selected]
  exact kept

theorem OnBoard.drop
    {server : Server n}
    {timers : List (Timer (TimerCallback n))}
    (onBoard : OnBoard device server)
    (fewer : timers.Sublist server.hw.timers) :
    OnBoard device
      { server with hw := { server.hw with timers := timers } } where
  selected := onBoard.selected
  powered := onBoard.powered
  own := fun timer member => onBoard.own timer (fewer.subset member)

/-- Visiting an expired timer: its callback, and its removal from the queue. -/
theorem BoardInvariant.visit
    (isInvariant : BoardInvariant device invariant)
    {server : Server n}
    {position now : Nat}
    {timer : Timer (TimerCallback n)}
    (holds : OnBoardWith device invariant server)
    (clock : now ≤ server.hw.clock.now)
    (found : server.hw.timers[position]? = some timer)
    (expired : timer.tv.lt (Timeval.ofMicros now) = true) :
    KeepsAt (OnBoardWith device invariant)
      (fun _ => OnBoardWith device invariant)
      (do
        fireTimer timer.cb
        update fun server =>
          Server.timersOf.set server
            ((Server.timersOf.get server).eraseIdx position))
      server := by
  have ⟨onBoard, hw⟩ := holds
  rcases onBoard.own timer (List.mem_of_getElem? found) with
    tick | ⟨key, release⟩
  · obtain ⟨last, result, step⟩ := deviceTick_step onBoard.powered
    have fired :
        fireTimer timer.cb server = .ok () { server with hw := last } := by
      rw [tick]
      exact onHw_of_ok result
    have erased :
        last.timers.eraseIdx position =
          server.hw.timers.eraseIdx position ++
            armedBy last.clock.now device
              (nextPhase (server.hw.devices device)) := by
      rw [step.armed, List.eraseIdx_append_of_lt_length
        (List.getElem?_eq_some_iff.mp found).1]
    have kept := isInvariant.tick hw found tick expired clock step
    rw [← erased] at kept
    refine .of_ok (bind_of_ok fired _) ⟨
      { selected := onBoard.selected
        powered :=
          ((step.extended.config device).hasControl .power).trans
            onBoard.powered
        own := ?_ },
      kept⟩
    intro timer' member
    simp only [Server.timersOf, erased, armedBy, List.mem_append,
      List.mem_map] at member
    rcases member with old | ⟨delayMs, _, rfl⟩
    · exact onBoard.own timer' (List.mem_of_mem_eraseIdx old)
    · exact .inl rfl
  · rw [release]
    refine KeepsAt.bind
      (isInvariant.of_onSelected holds (deviceKey_aside key false)) ?_
    intro _ fired _ kept
    have fewer :
        (fired.hw.timers.eraseIdx position).Sublist fired.hw.timers :=
      List.eraseIdx_sublist _ _
    exact .of_ok (update_apply _ _)
      ⟨kept.1.drop fewer, isInvariant.drop kept.2 fewer⟩

/-- A reading of the clock is never later than the clock. -/
theorem BoardInvariant.clocked
    (isInvariant : BoardInvariant device invariant)
    (now : Nat) :
    BoardInvariant device
      fun hw => invariant hw ∧ now ≤ hw.clock.now where
  aside := fun holds aside =>
    ⟨isInvariant.aside holds.1 aside,
      Nat.le_trans holds.2 aside.extended.elapsed⟩
  tick := fun holds found cb expired clock step =>
    ⟨isInvariant.tick holds.1 found cb expired clock step,
      Nat.le_trans holds.2 step.extended.elapsed⟩
  drop := fun holds fewer => ⟨isInvariant.drop holds.1 fewer, holds.2⟩

theorem gettimeofday_aside
    {hasKey : Bool} :
    Relates (Hw.Aside device hasKey) Stop.Never
      (gettimeofday (n := n)) :=
  fun hw =>
    { related :=
        { extended := (gettimeofday_extends hw).related
          devices := rfl
          timers := ⟨[], (List.append_nil _).symm, by simp⟩
          aside := by
            simp [gettimeofday, bind_apply, finalState, Hw.since] }
      stops := by simp [gettimeofday, bind_apply, stopped?] }

theorem gettimeofday_reads
    {hw final : Hw n}
    {now : Timeval}
    (result : gettimeofday hw = .ok now final) :
    now = Timeval.ofMicros final.clock.now := by
  cases result
  rfl

/-- A pass over the timers keeps every invariant of the board. -/
theorem BoardInvariant.expire
    (isInvariant : BoardInvariant device invariant)
    {server : Server n}
    (holds : OnBoardWith device invariant server) :
    KeepsAt (OnBoardWith device invariant)
      (fun _ => OnBoardWith device invariant) invokeTimers server := by
  refine KeepsAt.bind
    (isInvariant.of_aside holds (gettimeofday_aside _)) ?_
  intro now clocked reading kept
  obtain ⟨reading, _⟩ := within_eq_ok reading
  rw [gettimeofday_reads reading]
  refine KeepsAt.bind (.of_ok (read_apply _ _) kept) ?_
  intro queue middle outcome kept
  cases outcome
  have clock := isInvariant.clocked clocked.hw.clock.now
  refine KeepsAt.mono
    (watchTimerInvokeLoop_keeps
      (fun server position timer holds found expired =>
        clock.visit holds holds.2.2 found expired)
      (fun server holds => holds) _ _ clocked
      ⟨kept.1, kept.2, Nat.le_refl _⟩)
    (fun final holds => ⟨holds.1, holds.2.1⟩)
    (fun _ final holds => ⟨holds.1, holds.2.1⟩)

/-- The state in which `device_power_on` enters `device_tick`. -/
def Hw.restarted (device : Fin n) (hw : Hw n) : Hw n :=
  { hw with
    devices := fun query =>
      if query = device then
        { hw.devices query with state := .start }
      else
        hw.devices query }

/-- Restarting leaves the configuration of the device alone. -/
theorem restarted_hasControl
    (hw : Hw n)
    (op : ControlOp) :
    ((hw.restarted device).devices device).hasControl op =
      (hw.devices device).hasControl op := by
  simp [Hw.restarted, Device.hasControl]

/-- `device_power_on` restarts the chain with a tick in its first state. -/
theorem devicePower_restarts
    {hw : Hw n}
    (powered : (hw.devices device).hasControl .power = true) :
    ∃ last,
      devicePower (some device) true hw = .ok () last ∧
        TickStep device (hw.restarted device) last := by
  obtain ⟨last, result, step⟩ :=
    deviceTick_step ((restarted_hasControl hw .power).trans powered)
  have isPowered : poweredDevice? (some device) hw = some device := by
    simp [poweredDevice?, powered]
  refine ⟨last, ?_, step⟩
  simp only [devicePower, devicePowerOn, ↓reduceIte]
  rw [bind_of_ok (read_apply _ _), isPowered]
  exact result

/-- A power-on request restarts the chain of a board. -/
theorem OnBoard.powerOn
    {server : Server n}
    (onBoard : OnBoard device server) :
    ∃ last,
      TickStep device (server.hw.restarted device) last ∧
        OnBoard device { server with hw := last } ∧
        boardInput .powerOn server =
          onHw (emit (.send .powerOn [])) { server with hw := last } := by
  obtain ⟨last, poweredOn, step⟩ := devicePower_restarts onBoard.powered
  refine ⟨last, step,
    { selected := onBoard.selected
      powered :=
        ((step.extended.config device).hasControl .power).trans
          ((restarted_hasControl server.hw .power).trans onBoard.powered)
      own := ?_ },
    (onSelected_some _ onBoard.selected).trans
      (onHw_bind_of_ok poweredOn)⟩
  intro timer member
  simp only [step.armed, armedBy, List.mem_append, List.mem_map] at member
  rcases member with old | ⟨delayMs, _, rfl⟩
  · exact onBoard.own timer old
  · exact .inl rfl

/-- A power-on request keeps what its tick re-establishes. -/
theorem BoardInvariant.powerOn
    (isInvariant : BoardInvariant device invariant)
    {server : Server n}
    (onBoard : OnBoard device server)
    (restarts :
      ∀ last,
        TickStep device (server.hw.restarted device) last →
        invariant last) :
    KeepsAt (OnBoardWith device invariant)
      (fun _ => OnBoardWith device invariant)
      (boardInput .powerOn) server := by
  obtain ⟨last, step, kept, request⟩ := onBoard.powerOn
  have sent := isInvariant.of_aside ⟨kept, restarts last step⟩
    (emit_aside (.send .powerOn []) trivial last)
  unfold KeepsAt at sent ⊢
  rw [request]
  exact sent

/-- Every other input keeps every invariant of the board. -/
theorem BoardInvariant.input
    (isInvariant : BoardInvariant device invariant)
    {server : Server n}
    (holds : OnBoardWith device invariant server)
    {input : BoardInput}
    (other : input ≠ .powerOn) :
    KeepsAt (OnBoardWith device invariant)
      (fun _ => OnBoardWith device invariant)
      (boardInput input) server := by
  cases input with
  | powerOn => exact absurd rfl other
  | powerOff =>
      exact isInvariant.of_onSelected holds (powerOff_aside _)
  | key data =>
      exact isInvariant.of_onSelected holds (msgKeyPress_aside data)
  | expire => exact isInvariant.expire holds

/-- A selected board, before anything has been asked of it. -/
theorem Selected.onBoard
    {server : Server n}
    (isSelected : Selected device server) :
    OnBoard device server where
  selected := isSelected.selected
  powered := isSelected.powered
  own := by simp [isSelected.timers]

/--
An invariant of the board holds throughout a run whose power-on requests
re-establish it.
-/
theorem BoardInvariant.run
    (isInvariant : BoardInvariant device invariant)
    {server : Server n}
    (inputs : List BoardInput)
    (holds : OnBoardWith device invariant server)
    (restarts :
      ∀ before after middle,
        inputs = before ++ .powerOn :: after →
        each boardInput before server = .ok () middle →
        OnBoardWith device invariant middle →
        ∀ last,
          TickStep device (middle.hw.restarted device) last →
          invariant last) :
    OnBoardWith device invariant (afterInputs server inputs) := by
  refine KeepsAt.final _ (KeepsAt.each ?_ holds)
  intro before input after middle shape reached kept
  by_cases on : input = .powerOn
  · rw [on] at shape ⊢
    exact isInvariant.powerOn kept.1
      (restarts before after middle shape reached kept)
  · exact isInvariant.input kept on

end BoardInvariant

end Cdba
