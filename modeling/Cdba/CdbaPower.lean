import Cdba.Server

namespace Cdba

/-!
# Switching a board from the command line

`cdba-power.c`: open a board, power it on and wait until it runs, or power it
off.  It works on the same devices and timers as the server; the main loop is
the one of `watch.c`, here with `ready` as its way to be left.
-/

open Program

variable {n : Nat}

/-- The first timer to expire; the earlier one of two with the same time. -/
def earliestTimer
    (first : Timer (TimerCallback n))
    (timers : List (Timer (TimerCallback n))) :
    Timer (TimerCallback n) :=
  timers.foldl (fun next timer => if timer.tv.lt next.tv then timer else next)
    first

/-- `watch_timer_next`: NULL if no timer is pending. -/
def watchTimerNext : HwM n (Option Timeval) := do
  let queue ← read Hw.timers
  match queue with
  | [] => pure none
  | first :: _ => do
      let now ← gettimeofday
      let timeout := (earliestTimer first queue).tv.sub now
      pure (some (if timeout.sec < 0 then ⟨0, 0⟩ else timeout))

/-- `select()` returns when its timeout is over, or some microseconds later. -/
def selectTimesOut (timeout : Timeval) (late : Nat) : HwM n Unit :=
  update fun hw =>
    { hw with clock := hw.clock.sleep (timeout.micros.toNat + late) }

/-- How far `watch_main_loop(ready)` has got. -/
inductive LoopStatus where
  /-- `ready()` returned true, and the loop was left. -/
  | ready
  /-- A timer is pending, and `select()` waits for it. -/
  | waiting
  /-- No timer is pending: `select()` has no timeout. -/
  | asleep
  deriving DecidableEq, Repr

/-- A turn of the loop up to `select()`: its timeout, unless it ends here. -/
def beforeSelect (device : Fin n) : ServerM n (Except LoopStatus Timeval) := do
  let ready ← read fun server => deviceIsRunning (server.hw.devices device)
  if ready then
    pure (.error .ready)
  else do
    let timeout ← onHw watchTimerNext
    match timeout with
    | none => pure (.error .asleep)
    | some timeout => pure (.ok timeout)

/--
`watch_main_loop(ready)` while no descriptor becomes ready, given how late each
`select()` returns.
-/
def watchMainLoopReady (device : Fin n) : List Nat → ServerM n LoopStatus
  | [] => do
      let next ← beforeSelect device
      match next with
      | .error status => pure status
      | .ok _ => pure .waiting
  | late :: lates => do
      let next ← beforeSelect device
      match next with
      | .error status => pure status
      | .ok timeout => do
          onHw (selectTimesOut timeout late)
          invokeTimers
          watchMainLoopReady device lates

/-- `usb_always_on` and `power_always_on` make `device_close` leave it on. -/
def keepOn (device : Fin n) : HwM n Unit :=
  updateDevice device fun dev =>
    { dev with usbAlwaysOn := true, powerAlwaysOn := true }

/-- `main` of `cdba-power`, once its configuration has been read. -/
def cdbaPower
    (name : CString)
    (on : Bool)
    (lates : List Nat) :
    ServerM n LoopStatus := do
  let beyond ← read fun server => server.hw.beyond
  let selected ← deviceOpen (memoryAt (name ++ [0]) beyond)
  match selected with
  | none => stop (.exit 1)
  | some device =>
      if on then do
        onHw (devicePower (some device) true)
        let status ← watchMainLoopReady device lates
        if status = .ready then do
          onHw (keepOn device)
          onHw (deviceClose device)
          pure .ready
        else
          pure status
      else do
        onHw (deviceUsb (some device) false)
        onHw (devicePower (some device) false)
        onHw (deviceClose device)
        pure .ready

end Cdba
