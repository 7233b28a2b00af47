import Cdba.CdbaPower
import Cdba.PowerSequence
import Cdba.Unpowered

namespace Cdba

/-!
# Progress of the power-on sequence

Once a device with power control has been asked to power on, it either runs or
has a tick pending, in every state that timer expirations lead to, and four
ticks later it runs.  The loop of `cdba-power` then never waits without a
timeout.  A device without power control never gets there.
-/

open Program

variable {n : Nat}

/-! ## Phases -/

/-- How many more ticks a device needs. -/
def DeviceState.ticksLeft : DeviceState → Nat
  | .start => 5
  | .connect => 4
  | .press => 3
  | .releasePwr => 2
  | .releaseFastboot => 1
  | .running => 0

theorem ticksLeft_eq_zero_iff
    {state : DeviceState} :
    state.ticksLeft = 0 ↔ state = .running := by
  cases state <;> simp [DeviceState.ticksLeft]

theorem ticksLeft_afterKey
    (dev : Device) :
    (afterKey dev).1.ticksLeft ≤ 1 := by
  unfold afterKey
  split
  · exact Nat.le_refl 1
  · exact Nat.zero_le 1

/-- A tick takes a device closer to running. -/
theorem ticksLeft_nextPhase
    (dev : Device) :
    (nextPhase dev).1.ticksLeft ≤ dev.state.ticksLeft - 1 := by
  have later := ticksLeft_afterKey dev
  unfold nextPhase
  cases state : dev.state with
  | start => exact Nat.le_refl 4
  | connect =>
      dsimp only
      split
      · exact Nat.le_refl 3
      · exact Nat.le_trans later (by decide)
  | press => exact Nat.le_refl 2
  | releasePwr => exact later
  | releaseFastboot => exact Nat.le_refl 0
  | running => exact Nat.le_refl 0

/-- Every phase but the last has a timer that ends it. -/
theorem nextPhase_armed
    (dev : Device) :
    nextPhase dev = (.running, none) ∨
      ∃ state delay, nextPhase dev = (state, some delay) := by
  have later :
      afterKey dev = (.running, none) ∨
        ∃ state delay, afterKey dev = (state, some delay) := by
    unfold afterKey
    split
    · exact .inr ⟨_, _, rfl⟩
    · exact .inl rfl
  unfold nextPhase
  cases dev.state with
  | start => exact .inr ⟨_, _, rfl⟩
  | connect =>
      dsimp only
      split
      · exact .inr ⟨_, _, rfl⟩
      · exact later
  | press => exact .inr ⟨_, _, rfl⟩
  | releasePwr => exact later
  | releaseFastboot => exact .inl rfl
  | running => exact .inl rfl

/-! ## Expirations -/

/-- The same state at another time. -/
def Server.atTime (server : Server n) (clock : Clock) : Server n :=
  { server with hw := { server.hw with clock := clock } }

/-- The state in which a timer has been taken off the queue. -/
def Server.dequeue (server : Server n) (position : Nat) : Server n :=
  Server.timersOf.set server
    ((Server.timersOf.get server).eraseIdx position)

/--
The states that timer expirations alone lead to, with what has expired: time
passes, and any timer whose time has passed may be the next to be called and
removed.
-/
inductive Expirations
    (called : Server n) :
    List (TimerCallback n) → Server n → Prop where
  | none :
      Expirations called [] called
  | wait
      {expired : List (TimerCallback n)}
      {server : Server n}
      {clock : Clock}
      (run : Expirations called expired server)
      (elapsed : server.hw.clock.now ≤ clock.now) :
      Expirations called expired (server.atTime clock)
  | expire
      {expired : List (TimerCallback n)}
      {server fired : Server n}
      {position : Nat}
      {timer : Timer (TimerCallback n)}
      (run : Expirations called expired server)
      (found : server.hw.timers[position]? = some timer)
      (due : timer.tv.lt (Timeval.ofMicros server.hw.clock.now) = true)
      (fires : fireTimer timer.cb server = .ok () fired) :
      Expirations called (expired ++ [timer.cb]) (fired.dequeue position)

/-- A tick of a device is pending. -/
def Server.TickPending (device : Fin n) (server : Server n) : Prop :=
  ∃ timer,
    timer ∈ server.hw.timers ∧ timer.cb = .deviceTick device

/-- A device on its way, with at most so many ticks to go. -/
structure PoweringUp
    (device : Fin n)
    (ticks : Nat)
    (server : Server n) :
    Prop where
  powered : (server.hw.devices device).hasControl .power = true
  left : (server.hw.devices device).state.ticksLeft ≤ ticks
  pending :
    deviceIsRunning (server.hw.devices device) = true ∨
      server.TickPending device

section Expirations

variable {device : Fin n}

theorem deviceIsRunning_iff
    {dev : Device} :
    deviceIsRunning dev = true ↔ dev.state = .running := by
  simp [deviceIsRunning]

/-- Once all ticks have been taken, the device runs. -/
theorem PoweringUp.running
    {server : Server n}
    (poweringUp : PoweringUp device 0 server) :
    deviceIsRunning (server.hw.devices device) = true :=
  deviceIsRunning_iff.mpr
    (ticksLeft_eq_zero_iff.mp (Nat.le_zero.mp poweringUp.left))

/-- After a tick, one tick less is left, and the next one is armed. -/
theorem TickStep.poweringUp
    {first last : Hw n}
    {final : Server n}
    {ticks : Nat}
    (step : TickStep device first last)
    (powered : (first.devices device).hasControl .power = true)
    (left : (first.devices device).state.ticksLeft ≤ ticks)
    (devices : final.hw.devices = last.devices)
    (armed :
      ∀ timer,
        timer ∈
            armedBy last.clock.now device
              (nextPhase (first.devices device)) →
          timer ∈ final.hw.timers) :
    PoweringUp device (ticks - 1) final := by
  have fewer := ticksLeft_nextPhase (first.devices device)
  refine
    { powered := ?_
      left := ?_
      pending := ?_ }
  · rw [devices]
    exact ((step.extended.config device).hasControl .power).trans powered
  · rw [devices, step.state]
    omega
  · rcases nextPhase_armed (first.devices device) with
      final | ⟨state, delay, phase⟩
    · left
      rw [devices, deviceIsRunning_iff]
      exact step.state.trans (congrArg Prod.fst final)
    · right
      rw [phase] at armed
      exact ⟨armedTimer last.clock.now device delay,
        armed _ (by simp [armedBy]), rfl⟩

/-- The tick of the device expires. -/
theorem PoweringUp.tick
    {server fired : Server n}
    {position ticks : Nat}
    {timer : Timer (TimerCallback n)}
    (poweringUp : PoweringUp device ticks server)
    (found : server.hw.timers[position]? = some timer)
    (tick : timer.cb = .deviceTick device)
    (fires : fireTimer timer.cb server = .ok () fired) :
    PoweringUp device (ticks - 1) (fired.dequeue position) := by
  obtain ⟨last, result, step⟩ := deviceTick_step poweringUp.powered
  have ticked :
      fireTimer timer.cb server = .ok () { server with hw := last } := by
    rw [tick]
    exact onHw_of_ok result
  rw [ticked] at fires
  cases fires
  refine step.poweringUp poweringUp.powered poweringUp.left rfl ?_
  intro armed member
  change armed ∈ last.timers.eraseIdx position
  rw [step.armed, List.eraseIdx_append_of_lt_length
    (List.getElem?_eq_some_iff.mp found).1]
  exact List.mem_append_right _ member

/-- Another timer expires: the pending tick stays where it is. -/
theorem PoweringUp.other
    {server fired : Server n}
    {position ticks : Nat}
    {timer : Timer (TimerCallback n)}
    (poweringUp : PoweringUp device ticks server)
    (found : server.hw.timers[position]? = some timer)
    (other : timer.cb ≠ .deviceTick device)
    (fires : fireTimer timer.cb server = .ok () fired) :
    PoweringUp device ticks (fired.dequeue position) := by
  have spares := (fireTimer_sparesTicks other server).related
  rw [fires] at spares
  obtain ⟨armed, queue, _⟩ := spares.armed
  refine
    { powered := (spares.config.hasControl .power).trans poweringUp.powered
      left := ?_
      pending := ?_ }
  · have same : (fired.hw.devices device).state = _ := spares.state
    change (fired.hw.devices device).state.ticksLeft ≤ ticks
    rw [same]
    exact poweringUp.left
  · refine poweringUp.pending.imp ?_ ?_
    · intro running
      rw [deviceIsRunning_iff] at running ⊢
      exact spares.state.trans running
    · rintro ⟨pending, member, tick⟩
      refine ⟨pending, ?_, tick⟩
      change pending ∈ fired.hw.timers.eraseIdx position
      rw [show fired.hw.timers = _ from queue,
        List.eraseIdx_append_of_lt_length
          (List.getElem?_eq_some_iff.mp found).1]
      refine List.mem_append_left _ ((mem_eraseIdx_of_ne found ?_).mpr member)
      rintro rfl
      exact other tick

/-- Each expired tick of the device is one tick less to go. -/
theorem Expirations.poweringUp
    {called server : Server n}
    {expired : List (TimerCallback n)}
    {ticks : Nat}
    (run : Expirations called expired server)
    (poweringUp : PoweringUp device ticks called) :
    PoweringUp device (ticks - expired.count (.deviceTick device))
      server := by
  induction run with
  | none =>
      exact poweringUp
  | wait run elapsed inductionHypothesis =>
      exact
        { powered := inductionHypothesis.powered
          left := inductionHypothesis.left
          pending := inductionHypothesis.pending }
  | @expire expired server fired position timer run found due fires
      inductionHypothesis =>
      rw [List.count_append]
      by_cases tick : timer.cb = .deviceTick device
      · have ticked := inductionHypothesis.tick found tick fires
        rw [tick, List.count_singleton_self]
        rwa [Nat.sub_sub] at ticked
      · rw [List.count_singleton, beq_false_of_ne tick]
        exact inductionHypothesis.other found tick fires

/-- A pending tick does expire, once its time has passed. -/
theorem PoweringUp.expires
    {called server : Server n}
    {expired : List (TimerCallback n)}
    {ticks : Nat}
    (poweringUp : PoweringUp device ticks server)
    (run : Expirations called expired server)
    (tickPending : server.TickPending device) :
    ∃ next, Expirations called (expired ++ [.deviceTick device]) next := by
  obtain ⟨timer, member, tick⟩ := tickPending
  obtain ⟨position, found⟩ := List.mem_iff_getElem?.mp member
  obtain ⟨later, elapsed, due⟩ :=
    timer.tv.exists_later server.hw.clock.now
  let clock : Clock := ⟨later, []⟩
  obtain ⟨last, result, _⟩ :=
    deviceTick_step
      (show ((server.atTime clock).hw.devices device).hasControl .power =
        true from poweringUp.powered)
  have fires :
      fireTimer timer.cb (server.atTime clock) =
        .ok () { server.atTime clock with hw := last } := by
    rw [tick]
    exact onHw_of_ok result
  have waited : Expirations called expired (server.atTime clock) :=
    run.wait elapsed
  have next := waited.expire found due fires
  rw [tick] at next
  exact ⟨_, next⟩

/-- `device_power(device, true)` starts the sequence of a powered device. -/
theorem devicePower_poweringUp
    {server : Server n}
    (powered : (server.hw.devices device).hasControl .power = true) :
    ∃ last,
      onHw (devicePower (some device) true) server =
          .ok () { server with hw := last } ∧
        TickStep device (server.hw.restarted device) last ∧
        PoweringUp device 4 { server with hw := last } := by
  obtain ⟨last, poweredOn, step⟩ := devicePower_restarts powered
  have poweringUp : PoweringUp device (5 - 1) { server with hw := last } := by
    refine step.poweringUp
      ((restarted_hasControl server.hw .power).trans powered) ?_ rfl ?_
    · simp [Hw.restarted, DeviceState.ticksLeft]
    · intro timer member
      rw [step.armed]
      exact List.mem_append_right _ member
  exact ⟨last, onHw_of_ok poweredOn, step, poweringUp⟩

/-! ## A pass over the timers -/

/-- Calling the function of a timer takes time. -/
theorem fireTimer_elapsed
    {server fired : Server n}
    {cb : TimerCallback n}
    (fires : fireTimer cb server = .ok () fired) :
    server.hw.clock.now ≤ fired.hw.clock.now := by
  have elapsed :
      ∀ program : HwM n Unit,
        Extending program →
        fireTimer cb server = onHw program server →
        server.hw.clock.now ≤ fired.hw.clock.now := by
    intro program extending same
    have extended := (onHw_extends extending server).related
    rw [← same, fires] at extended
    exact extended.hw.elapsed
  cases cb with
  | deviceTick device =>
      exact elapsed _ (deviceTick_extends device) rfl
  | msgKeyRelease key =>
      rcases Option.eq_none_or_eq_some server.selectedDevice with
        selected | ⟨device, selected⟩
      · rw [fireTimer, onSelected_apply, selected] at fires
        cases fires
      · refine elapsed _ (deviceKey_extends device key false) ?_
        rw [fireTimer, onSelected_apply, selected]
  | cdbAssistPrintStatus device =>
      exact elapsed _ (emit_extends _) rfl
  | qcomltDbgRequestStatus device =>
      exact elapsed _ (watchTimerAdd_extends _ _) rfl

/-- What holds between the visits of a pass that began at some time. -/
def DuringPass
    (called : Server n)
    (began : Nat)
    (server : Server n) :
    Prop :=
  (∃ expired, Expirations called expired server) ∧
    began ≤ server.hw.clock.now

/-- Each visit to an expired timer is an expiration. -/
theorem DuringPass.visit
    {called server : Server n}
    {began position : Nat}
    {timer : Timer (TimerCallback n)}
    (passing : DuringPass called began server)
    (found : server.hw.timers[position]? = some timer)
    (due : timer.tv.lt (Timeval.ofMicros began) = true) :
    KeepsAt (DuringPass called began) (fun _ _ => True)
      (do
        fireTimer timer.cb
        update fun server => server.dequeue position)
      server := by
  obtain ⟨⟨expired, run⟩, elapsed⟩ := passing
  cases outcome : fireTimer timer.cb server with
  | ok value fired =>
      have isDue :
          timer.tv.lt (Timeval.ofMicros server.hw.clock.now) = true :=
        Timeval.lt_of_later due elapsed
      have later := fireTimer_elapsed outcome
      exact .of_ok (bind_of_ok outcome _)
        ⟨⟨_, run.expire found isDue outcome⟩, Nat.le_trans elapsed later⟩
  | error reason fired =>
      exact .of_error (bind_of_error outcome _) trivial

/-- A pass reads the clock and visits the timers that are queued. -/
theorem invokeTimers_apply
    (server : Server n) :
    invokeTimers server =
      watchTimerInvokeLoop Server.timersOf fireTimer .diverges
        (Timeval.ofMicros server.hw.clock.tick.now)
        (8 * (server.hw.timers.length + 1)) 0
        (server.atTime server.hw.clock.tick) :=
  rfl

/-- A pass of `watch_timer_invoke` is made of expirations. -/
theorem Expirations.pass
    {called server final : Server n}
    {expired : List (TimerCallback n)}
    (run : Expirations called expired server)
    (result : invokeTimers server = .ok () final) :
    ∃ expired, Expirations called expired final := by
  have began :
      DuringPass called server.hw.clock.tick.now
        (server.atTime server.hw.clock.tick) :=
    ⟨⟨expired, run.wait (Clock.now_le_tick _)⟩, Nat.le_refl _⟩
  have kept :
      KeepsAt (DuringPass called server.hw.clock.tick.now) (fun _ _ => True)
        (watchTimerInvokeLoop Server.timersOf fireTimer .diverges
          (Timeval.ofMicros server.hw.clock.tick.now)
          (8 * (server.hw.timers.length + 1)) 0)
        (server.atTime server.hw.clock.tick) :=
    watchTimerInvokeLoop_keeps
      (fun _ _ _ passing found due => passing.visit found due)
      (fun _ _ => trivial) _ 0 _ began
  exact (kept.returned result).1

end Expirations

/-! ## The loop of `cdba-power` -/

/-- Only the tick that ends its phase is pending, unless the device runs. -/
structure OnlyTick (device : Fin n) (server : Server n) : Prop where
  powered : (server.hw.devices device).hasControl .power = true
  queue :
    (server.hw.devices device).state = .running ∧ server.hw.timers = [] ∨
      ∃ armed delay,
        armed ≤ server.hw.clock.now ∧
          server.hw.timers = [armedTimer armed device delay]

section Loop

variable {device : Fin n}

/-- A tick arms the timer of the next phase and no other. -/
theorem TickStep.onlyTick
    {first last : Hw n}
    {server : Server n}
    (step : TickStep device first last)
    (powered : (first.devices device).hasControl .power = true)
    (devices : server.hw.devices = last.devices)
    (clock : server.hw.clock = last.clock)
    (armed :
      server.hw.timers =
        armedBy last.clock.now device
          (nextPhase (first.devices device))) :
    OnlyTick device server := by
  refine
    { powered := ?_
      queue := ?_ }
  · rw [devices]
    exact ((step.extended.config device).hasControl .power).trans powered
  · rcases nextPhase_armed (first.devices device) with
      final | ⟨state, delay, phase⟩
    · left
      rw [devices, step.state, armed, final]
      exact ⟨rfl, rfl⟩
    · right
      refine ⟨last.clock.now, delay, ?_, ?_⟩
      · exact clock ▸ Nat.le_refl _
      · rw [armed, phase]
        rfl

/-- How long `watch_timer_next` says to wait for a timer. -/
def timeoutOf (tv : Timeval) (now : Nat) : Timeval :=
  if (tv.sub (Timeval.ofMicros now)).sec < 0 then
    ⟨0, 0⟩
  else
    tv.sub (Timeval.ofMicros now)

/-- Waiting longer than the timeout of a time leaves it in the past. -/
theorem lt_of_waited
    {tv : Timeval}
    {now waited : Nat}
    (normalised : tv.Normalised)
    (longer : now + (timeoutOf tv now).micros.toNat < waited) :
    tv.lt (Timeval.ofMicros waited) = true := by
  have clock := Timeval.normalised_ofMicros now
  have remaining := Timeval.normalised_sub normalised clock
  have micros := Timeval.micros_sub tv (Timeval.ofMicros now)
  rw [Timeval.micros_ofMicros] at micros
  rw [Timeval.lt_iff normalised (Timeval.normalised_ofMicros waited),
    Timeval.micros_ofMicros]
  unfold timeoutOf at longer
  split at longer
  · rename_i past
    unfold Timeval.Normalised at remaining
    unfold Timeval.micros at micros longer ⊢
    simp only at longer
    omega
  · rw [micros] at longer
    omega

/-- A timer that was armed expires once one has waited for longer. -/
theorem armedTimer_expires
    {armed now waited : Nat}
    (delay : Int)
    (elapsed : armed ≤ now)
    (longer :
      now +
          (timeoutOf (armedTimer armed device delay).tv now).micros.toNat <
        waited) :
    (armedTimer armed device delay).tv.lt (Timeval.ofMicros waited) =
      true := by
  have clock := Timeval.normalised_ofMicros armed
  by_cases forward : 0 ≤ delay
  · apply lt_of_waited (Timeval.normalised_add clock ?_) longer
    rw [Int.tmod_eq_emod_of_nonneg forward]
    unfold Timeval.Normalised
    simp only
    omega
  · -- A negative delay is over before it has begun.
    obtain ⟨back, rfl⟩ : ∃ back : Nat, delay = -back :=
      ⟨delay.natAbs, by omega⟩
    apply Timeval.lt_of_advanced
    · rw [Int.neg_tdiv, Int.tdiv_eq_ediv_of_nonneg (by omega)]
      simp only
      omega
    · rw [Int.neg_tmod, Int.tmod_eq_emod_of_nonneg (by omega)]
      simp only
      omega
    · omega

/-- A queue of one timer is its own earliest timer. -/
theorem watchTimerNext_single
    {server : Server n}
    {timer : Timer (TimerCallback n)}
    (queue : server.hw.timers = [timer]) :
    onHw watchTimerNext server =
      .ok (some (timeoutOf timer.tv server.hw.clock.tick.now))
        (server.atTime server.hw.clock.tick) := by
  apply onHw_of_ok
  unfold watchTimerNext
  rw [bind_of_ok (read_apply _ _), queue]
  simp only [earliestTimer, List.foldl_cons, List.foldl_nil, ite_self]
  rfl

/-- A pass over one timer calls it and removes it if it has expired. -/
theorem invokeTimers_single
    {server : Server n}
    {timer : Timer (TimerCallback n)}
    (queue : server.hw.timers = [timer]) :
    invokeTimers server =
      if timer.tv.lt (Timeval.ofMicros server.hw.clock.tick.now) then
        (do
          fireTimer timer.cb
          update fun server => server.dequeue 0)
          (server.atTime server.hw.clock.tick)
      else
        .ok () (server.atTime server.hw.clock.tick) := by
  have found :
      Server.timersOf.get (server.atTime server.hw.clock.tick) = [timer] :=
    queue
  rw [invokeTimers_apply, queue]
  refine watchTimerInvokeLoop_last 15 ?_ ?_
  · rw [found]
    rfl
  · rw [found]
    rfl

/-- A pass takes the pending tick if it is due. -/
theorem OnlyTick.pass
    {server : Server n}
    {armed : Nat}
    {delay : Int}
    (powered : (server.hw.devices device).hasControl .power = true)
    (goesOn : (server.hw.devices device).state ≠ .running)
    (elapsed : armed ≤ server.hw.clock.now)
    (queue : server.hw.timers = [armedTimer armed device delay]) :
    ∃ final,
      invokeTimers server = .ok () final ∧
        OnlyTick device final ∧
        (final.hw.devices device).state.ticksLeft ≤
          (server.hw.devices device).state.ticksLeft ∧
        ((armedTimer armed device delay).tv.lt
              (Timeval.ofMicros server.hw.clock.tick.now) = true →
          (final.hw.devices device).state.ticksLeft <
            (server.hw.devices device).state.ticksLeft) := by
  let began := server.atTime server.hw.clock.tick
  have pass := invokeTimers_single queue
  cases due :
      (armedTimer armed device delay).tv.lt
        (Timeval.ofMicros server.hw.clock.tick.now) with
  | true =>
      obtain ⟨last, result, step⟩ :=
        deviceTick_step
          (show (began.hw.devices device).hasControl .power = true
            from powered)
      have fires :
          fireTimer (armedTimer armed device delay).cb
              (server.atTime server.hw.clock.tick) =
            .ok () { began with hw := last } :=
        onHw_of_ok result
      let final := Server.dequeue { began with hw := last } 0
      rw [if_pos due, bind_of_ok fires] at pass
      have armedNext :
          final.hw.timers =
            armedBy last.clock.now device
              (nextPhase (server.hw.devices device)) := by
        change last.timers.eraseIdx 0 = _
        rw [step.armed, show began.hw.timers = _ from queue]
        rfl
      have entered :
          (final.hw.devices device).state =
            (nextPhase (server.hw.devices device)).1 :=
        step.state
      have fewer := ticksLeft_nextPhase (server.hw.devices device)
      have positive : 0 < (server.hw.devices device).state.ticksLeft :=
        Nat.pos_of_ne_zero fun none => goesOn (ticksLeft_eq_zero_iff.mp none)
      refine ⟨final, pass, step.onlyTick powered rfl rfl armedNext, ?_, ?_⟩
      · rw [entered]
        omega
      · intro _
        rw [entered]
        omega
  | false =>
      rw [if_neg (by rw [due]; nofun)] at pass
      refine ⟨began, pass,
        { powered := powered
          queue := .inr ⟨armed, delay, ?_, queue⟩ },
        Nat.le_refl _, nofun⟩
      exact Nat.le_trans elapsed (Clock.now_le_tick _)

/-- A turn of the loop waits for the tick; it expires if `select()` is late. -/
theorem OnlyTick.turn
    {server : Server n}
    (only : OnlyTick device server)
    (goesOn : (server.hw.devices device).state ≠ .running)
    (late : Nat) :
    ∃ timeout asked waited final,
      onHw watchTimerNext server = .ok (some timeout) asked ∧
        onHw (selectTimesOut timeout late) asked = .ok () waited ∧
        invokeTimers waited = .ok () final ∧
        OnlyTick device final ∧
        (final.hw.devices device).state.ticksLeft ≤
          (server.hw.devices device).state.ticksLeft ∧
        (0 < late →
          (final.hw.devices device).state.ticksLeft <
            (server.hw.devices device).state.ticksLeft) := by
  obtain ⟨armed, delay, elapsed, queue⟩ :
      ∃ armed delay,
        armed ≤ server.hw.clock.now ∧
          server.hw.timers = [armedTimer armed device delay] :=
    only.queue.resolve_left fun running => goesOn running.1
  let asked := server.atTime server.hw.clock.tick
  let timeout :=
    timeoutOf (armedTimer armed device delay).tv asked.hw.clock.now
  let waited :=
    asked.atTime (asked.hw.clock.sleep (timeout.micros.toNat + late))
  have askedAt : server.hw.clock.now ≤ asked.hw.clock.now :=
    Clock.now_le_tick _
  have waitedAt :
      asked.hw.clock.now + (timeout.micros.toNat + late) ≤
        waited.hw.clock.now :=
    Nat.add_le_add_right (Clock.now_le_tick asked.hw.clock) _
  have beganAt : waited.hw.clock.now ≤ waited.hw.clock.tick.now :=
    Clock.now_le_tick _
  have waitedElapsed : armed ≤ waited.hw.clock.now := by
    omega
  obtain ⟨final, passes, onlyTick, notMore, ticks⟩ :=
    OnlyTick.pass (show (waited.hw.devices device).hasControl .power = true
      from only.powered) goesOn waitedElapsed queue
  refine ⟨timeout, asked, waited, final, watchTimerNext_single queue,
    onHw_of_ok rfl, passes, onlyTick, notMore, fun isLate => ticks ?_⟩
  refine armedTimer_expires delay (Nat.le_trans elapsed askedAt)
    (show asked.hw.clock.now + timeout.micros.toNat <
      waited.hw.clock.tick.now from ?_)
  omega

/-- A running device lets the loop be left. -/
theorem watchMainLoopReady_running
    {server : Server n}
    (running : (server.hw.devices device).state = .running)
    (lates : List Nat) :
    watchMainLoopReady device lates server = .ok .ready server := by
  have ready : beforeSelect device server = .ok (.error .ready) server := by
    unfold beforeSelect
    rw [bind_of_ok (read_apply _ _), if_pos (deviceIsRunning_iff.mpr running)]
    rfl
  cases lates with
  | nil => exact bind_of_ok ready _
  | cons late lates => exact bind_of_ok ready _

/-- Until then, the loop asks for the next timer. -/
theorem beforeSelect_asks
    {server asked : Server n}
    {timeout : Timeval}
    (goesOn : (server.hw.devices device).state ≠ .running)
    (asks : onHw watchTimerNext server = .ok (some timeout) asked) :
    beforeSelect device server = .ok (.ok timeout) asked := by
  unfold beforeSelect
  rw [bind_of_ok (read_apply _ _),
    if_neg (mt deviceIsRunning_iff.mp goesOn), bind_of_ok asks]
  rfl

/-- The loop never waits without a timeout, and is left after enough ticks. -/
theorem OnlyTick.loop
    (lates : List Nat)
    {server : Server n}
    (only : OnlyTick device server) :
    ∃ status final,
      watchMainLoopReady device lates server = .ok status final ∧
        status ≠ .asleep ∧
        ((server.hw.devices device).state.ticksLeft ≤
            lates.countP (0 < ·) →
          status = .ready) := by
  induction lates generalizing server with
  | nil =>
      by_cases running : (server.hw.devices device).state = .running
      · exact ⟨_, _, watchMainLoopReady_running running [], nofun,
          fun _ => rfl⟩
      obtain ⟨timeout, asked, _, _, asks, _⟩ := only.turn running 0
      refine ⟨.waiting, asked,
        bind_of_ok (beforeSelect_asks running asks) _, nofun, ?_⟩
      intro none
      exact absurd (ticksLeft_eq_zero_iff.mp (Nat.le_zero.mp none)) running
  | cons late lates inductionHypothesis =>
      by_cases running : (server.hw.devices device).state = .running
      · exact ⟨_, _, watchMainLoopReady_running running _, nofun,
          fun _ => rfl⟩
      obtain ⟨timeout, asked, waited, middle, asks, waits, passes, onlyNext,
        notMore, ticks⟩ := only.turn running late
      obtain ⟨status, final, rest, awake, left⟩ :=
        inductionHypothesis onlyNext
      refine ⟨status, final, ?_, awake, fun enough => left ?_⟩
      · unfold watchMainLoopReady
        rw [bind_of_ok (beforeSelect_asks running asks)]
        dsimp only
        rw [bind_of_ok waits, bind_of_ok passes]
        exact rest
      · rw [List.countP_cons] at enough
        by_cases isLate : 0 < late
        · have fewer := ticks isLate
          rw [if_pos (decide_eq_true isLate)] at enough
          omega
        · rw [if_neg (by simpa using isLate)] at enough
          omega

end Loop

/-! ## Progress -/

/--
What a caller of `device_power(device, true)` counts on.  The call returns.  In
every state that expirations lead to from there, the device runs or a tick is
pending for it, which can expire; and after four ticks it runs.  When nothing
else was pending, the loop of `cdba-power` never sleeps without a timeout and
is left once `select()` has been late four times.
-/
def PowerOnProgresses (device : Fin n) (server : Server n) : Prop :=
  ∃ called,
    onHw (devicePower (some device) true) server = .ok () called ∧
      (∀ expired later,
        Expirations called expired later →
        (deviceIsRunning (later.hw.devices device) = true ∨
          later.TickPending device ∧
            ∃ next,
              Expirations called (expired ++ [.deviceTick device]) next) ∧
        (4 ≤ expired.count (.deviceTick device) →
          deviceIsRunning (later.hw.devices device) = true)) ∧
      (server.hw.timers = [] →
        ∀ lates, ∃ status final,
          watchMainLoopReady device lates called = .ok status final ∧
            status ≠ .asleep ∧
            (4 ≤ lates.countP (0 < ·) → status = .ready))

section Progress

variable {device : Fin n}

/-- With power control, a device always makes progress. -/
theorem powered_progresses
    {server : Server n}
    (powered : (server.hw.devices device).hasControl .power = true) :
    PowerOnProgresses device server := by
  obtain ⟨last, calls, step, poweringUp⟩ := devicePower_poweringUp powered
  refine ⟨_, calls, ?_, ?_⟩
  · intro expired later run
    have up := run.poweringUp poweringUp
    refine ⟨up.pending.imp_right fun pending => ⟨pending, ?_⟩,
      fun enough => ?_⟩
    · exact up.expires run pending
    · rw [Nat.sub_eq_zero_of_le enough] at up
      exact up.running
  · intro noTimers lates
    have only : OnlyTick device { server with hw := last } := by
      refine step.onlyTick
        ((restarted_hasControl server.hw .power).trans powered) rfl rfl ?_
      rw [step.armed, show (server.hw.restarted device).timers = _ from
        noTimers]
      rfl
    obtain ⟨status, final, result, awake, left⟩ := only.loop lates
    exact ⟨status, final, result, awake, fun enough =>
      left (Nat.le_trans poweringUp.left enough)⟩

/-- Without power control, `device_power(device, true)` does nothing. -/
theorem devicePower_unpowered
    {server : Server n}
    (unpowered : (server.hw.devices device).hasControl .power = false) :
    onHw (devicePower (some device) true) server = .ok () server := by
  have none : poweredDevice? (some device) server.hw = none := by
    simp [poweredDevice?, unpowered]
  have nothing :
      devicePower (some device) true server.hw = .ok () server.hw := by
    simp only [devicePower, devicePowerOn, ↓reduceIte]
    rw [bind_of_ok (read_apply _ _), none]
    rfl
  exact onHw_of_ok nothing

/-- Without power control, a device that was never ticked makes none. -/
theorem unticked_not_progresses
    {server : Server n}
    (unticked : server.hw.Unticked device) :
    ¬ PowerOnProgresses device server := by
  rintro ⟨called, calls, runs, _⟩
  rw [devicePower_unpowered unticked.unpowered] at calls
  cases calls
  rcases (runs [] _ .none).1 with running | ⟨⟨timer, member, tick⟩, _⟩
  · rw [deviceIsRunning_iff, unticked.state] at running
    contradiction
  · exact unticked.noTicks timer member tick

/-- The loop of `cdba-power` then sleeps, with no timer to wake it. -/
theorem Hw.Unticked.asleep
    {server : Server n}
    (unticked : server.hw.Unticked device)
    (noTimers : server.hw.timers = [])
    (lates : List Nat) :
    watchMainLoopReady device lates server = .ok .asleep server := by
  have asks : onHw watchTimerNext server = .ok none server := by
    apply onHw_of_ok
    unfold watchTimerNext
    rw [bind_of_ok (read_apply _ _), noTimers]
    rfl
  have goesOn : ¬ deviceIsRunning (server.hw.devices device) = true := by
    rw [deviceIsRunning_iff, unticked.state]
    nofun
  have sleeps : beforeSelect device server = .ok (.error .asleep) server := by
    unfold beforeSelect
    rw [bind_of_ok (read_apply _ _), if_neg goesOn, bind_of_ok asks]
    rfl
  cases lates with
  | nil => exact bind_of_ok sleeps _
  | cons late lates => exact bind_of_ok sleeps _

end Progress

end Cdba
