import Cdba.Configuration
import Cdba.PowerProgress

namespace Cdba

/-!
# Where boards are powered on

`cdba-power` powers on the board it has opened, and the server the board that
its client has selected.  Either way the board is one of the configured ones,
and without a control driver it was never ticked; so the configuration decides
whether the power-on makes progress.
-/

open Program

variable {n : Nat}

/-- What `device_power(device, true)` finds where it is called. -/
inductive CallsPowerOn
    (devices : Fin n → Device)
    (device : Fin n) :
    Server n → Prop where
  /-- `main` of `cdba-power`, behind `device_open`. -/
  | cdbaPower
      {board : Nat → UInt8}
      {username : CString}
      {stdin : Input}
      {hw : Hw n}
      {lockOpens flocks : List Bool}
      {server : Server n}
      (opens :
        deviceOpen board
            (Server.start devices username stdin hw lockOpens flocks).state =
          .ok (some device) server) :
      CallsPowerOn devices device server
  /-- `handle_stdin` of the server, behind some messages of one wakeup. -/
  | cdbaServer
      {username : CString}
      {stdin : Input}
      {hw : Hw n}
      {lockOpens flocks : List Bool}
      {iterations : List (List Callback)}
      {loop : ServerLoop n}
      {messages : List Msg}
      {server : Server n}
      (runs :
        watchMainLoop iterations
            (Server.start devices username stdin hw lockOpens flocks) =
          .ok () loop)
      (dispatches : each dispatch messages loop.state = .ok () server)
      (selected : server.selectedDevice = some device) :
      CallsPowerOn devices device server

section CallsPowerOn

variable {devices : Fin n → Device} {device : Fin n} {server : Server n}

/-- The configuration of a device is the one that the session started with. -/
theorem CallsPowerOn.config
    (calls : CallsPowerOn devices device server) :
    (devices device).SameConfig (server.hw.devices device) := by
  cases calls with
  | @cdbaPower board username stdin hw lockOpens flocks _ opens =>
      have waits := (deviceOpen_waits board
        (Server.start devices username stdin hw lockOpens
          flocks).state).related
      rw [opens] at waits
      exact waits.extended.hw.config device
  | @cdbaServer username stdin hw lockOpens flocks iterations loop messages _
      runs dispatches selected =>
      let start :=
        (Server.start devices username stdin hw lockOpens flocks).state
      have guards := watchMainLoop_guards
        (everything_publishes start.hw start.username)
        (fun _ _ _ => trivial) (everything_forwardsAll iterations)
        (Permission.everything.guards_start devices username stdin hw
          lockOpens flocks)
      rw [runs] at guards
      have dispatching :=
        Keeps.each
          (dispatch_guarding
            (Permission.everything.messagesMayStop_any start.hw)
            (everything_publishes start.hw start.username)
            fun _ _ _ => trivial)
          messages loop.state guards
      exact (dispatching.returned dispatches).hw.extended.config device

/-- Without power control, a device is as the session started with it. -/
theorem CallsPowerOn.unticked
    (calls : CallsPowerOn devices device server)
    (fresh : (devices device).Fresh)
    (unpowered : (devices device).hasControl .power = false) :
    server.hw.Unticked device := by
  have started :
      ∀ username stdin hw lockOpens flocks,
        (Server.start devices username stdin hw lockOpens
          flocks).state.hw.Unticked device :=
    fun _ _ _ _ _ =>
      { unpowered := unpowered
        state := fresh.2.1
        noTicks := nofun }
  cases calls with
  | @cdbaPower board username stdin hw lockOpens flocks _ opens =>
      have opening :=
        leavesUnticked_of_spares
          (server_sparesTicks_of_background (deviceOpen_background board))
          _ (started username stdin hw lockOpens flocks)
      exact opening.returned opens
  | @cdbaServer username stdin hw lockOpens flocks iterations loop messages _
      runs dispatches selected =>
      have kept := watchMainLoop_untickedThroughout iterations _
        (started username stdin hw lockOpens flocks)
      have dispatching :=
        Keeps.each dispatch_leavesUnticked messages loop.state
          (kept.returned runs)
      exact dispatching.returned dispatches

/-- Every control driver has a `power` operation. -/
theorem hasControl_power
    (dev : Device) :
    dev.hasControl .power = true ↔ dev.control ≠ none := by
  unfold Device.hasControl
  cases dev.control with
  | none => simp
  | some driver => cases driver <;> simp [ControlDriver.has]

/--
Powering on a board of a configuration makes progress, wherever it is called
from, if and only if the configuration gives the board a control driver.
-/
theorem powerOn_progresses_iff
    {added : List DeviceConfig}
    (configured : Configured added devices)
    (calls : CallsPowerOn devices device server) :
    PowerOnProgresses device server ↔ (devices device).control ≠ none := by
  rw [← hasControl_power]
  constructor
  · intro progresses
    obtain ⟨dev, _, isDevice⟩ := configured device
    have fresh := (console_toDevice? isDevice).2
    cases powered : (devices device).hasControl .power with
    | true => rfl
    | false =>
        exact absurd progresses
          (unticked_not_progresses (calls.unticked fresh powered))
  · intro powered
    exact powered_progresses
      ((calls.config.hasControl .power).trans powered)

end CallsPowerOn

/-- The board of the bench, opened by `cdba-power`, makes progress. -/
theorem ftdiBoard_progresses :
    ∃ server : Server 1,
      CallsPowerOn (fun _ => ftdiBoard) 0 server ∧
        PowerOnProgresses 0 server := by
  let start : Server 1 :=
    (Server.start (fun _ => ftdiBoard) (ascii "nobody") ⟨⟨[], false⟩, []⟩
      (Hw.initial fun _ => ftdiBoard) [] []).state
  let opened := deviceOpen (memoryAt (ascii "db410c" ++ [0]) fun _ => 0) start
  have calls : CallsPowerOn (fun _ => ftdiBoard) 0 (finalState opened) :=
    .cdbaPower (eq_ok_of_returned
      (show returned? opened = some (some 0) by decide +kernel))
  have one :
      (finalState
        (deviceParser (some ftdiBoardEvents) freshParser)).devices.map
          DeviceConfig.toDevice? =
        [some ftdiBoard] := by
    decide +kernel
  have configured :
      Configured
        (finalState
          (deviceParser (some ftdiBoardEvents) freshParser)).devices
        (fun _ : Fin 1 => ftdiBoard) := by
    intro device
    have member : some ftdiBoard ∈ [some ftdiBoard] :=
      List.mem_singleton_self _
    rw [← one] at member
    exact List.mem_map.mp member
  exact ⟨_, calls, (powerOn_progresses_iff configured calls).mpr nofun⟩

/-! ## The whole of `cdba-power` -/

/-- A device that is kept on is closed without switching anything off. -/
theorem deviceClose_keptOn
    {device : Fin n}
    {hw : Hw n}
    (usb : (hw.devices device).usbAlwaysOn = true)
    (power : (hw.devices device).powerAlwaysOn = true) :
    ∃ last, deviceClose device hw = .ok () last := by
  unfold deviceClose
  rw [bind_of_ok (read_apply _ _), usb, power]
  simp only [onlyIf, Bool.not_true, Bool.false_eq_true, ↓reduceIte,
    pure_bind]
  split
  · exact ⟨_, rfl⟩
  · exact ⟨_, rfl⟩

section CdbaPower

variable {name : CString} {device : Fin n} {start opened : Server n}

/-- `cdba-power <board> on` ends as its loop does. -/
theorem cdbaPower_of_loop
    {lates : List Nat}
    {status : LoopStatus}
    {called waited : Server n}
    (opens :
      deviceOpen (memoryAt (name ++ [0]) start.hw.beyond) start =
        .ok (some device) opened)
    (calls :
      onHw (devicePower (some device) true) opened = .ok () called)
    (loops :
      watchMainLoopReady device lates called = .ok status waited) :
    ∃ final, cdbaPower name true lates start = .ok status final := by
  unfold cdbaPower
  rw [bind_of_ok (read_apply _ _), bind_of_ok opens]
  simp only [↓reduceIte]
  rw [bind_of_ok calls, bind_of_ok loops]
  split
  · rename_i ready
    let kept : Hw n :=
      { waited.hw with
        devices := fun query =>
          if query = device then
            { waited.hw.devices query with
              usbAlwaysOn := true
              powerAlwaysOn := true }
          else
            waited.hw.devices query }
    have keeps : keepOn device waited.hw = .ok () kept := rfl
    have usb : (kept.devices device).usbAlwaysOn = true := by
      simp [kept]
    have power : (kept.devices device).powerAlwaysOn = true := by
      simp [kept]
    obtain ⟨last, closes⟩ := deviceClose_keptOn usb power
    rw [bind_of_ok (onHw_of_ok keeps), bind_of_ok (onHw_of_ok closes), ready]
    exact ⟨_, rfl⟩
  · exact ⟨_, rfl⟩

/-- Opening a board arms no timer. -/
theorem deviceOpen_noTimers
    {board : Nat → UInt8}
    (noTimers : start.hw.timers = [])
    (opens : deviceOpen board start = .ok (some device) opened) :
    opened.hw.timers = [] := by
  have idles := (deviceOpen_idles board start).related
  rw [opens] at idles
  exact idles.timers.trans noTimers

end CdbaPower

section Session

variable {name : CString} {devices : Fin n → Device} {device : Fin n}
variable {username : CString} {stdin : Input} {hw : Hw n}
variable {lockOpens flocks : List Bool} {opened : Server n}

/--
With a control driver, `cdba-power <board> on` never sleeps without a timeout,
and it returns once `select()` has been late four times.
-/
theorem cdbaPower_powered
    (opens :
      deviceOpen (memoryAt (name ++ [0]) hw.beyond)
          (Server.start devices username stdin hw lockOpens flocks).state =
        .ok (some device) opened)
    (powered : (devices device).control ≠ none)
    (lates : List Nat) :
    ∃ status final,
      cdbaPower name true lates
          (Server.start devices username stdin hw lockOpens flocks).state =
        .ok status final ∧
        status ≠ .asleep ∧
        (4 ≤ lates.countP (0 < ·) → status = .ready) := by
  have callsOn : CallsPowerOn devices device opened := .cdbaPower opens
  have control : (opened.hw.devices device).hasControl .power = true :=
    (callsOn.config.hasControl .power).trans
      ((hasControl_power _).mpr powered)
  obtain ⟨called, calls, _, loop⟩ := powered_progresses control
  obtain ⟨status, waited, loops, awake, left⟩ :=
    loop (deviceOpen_noTimers rfl opens) lates
  obtain ⟨final, ends⟩ := cdbaPower_of_loop opens calls loops
  exact ⟨status, final, ends, awake, left⟩

/-- Without one it sleeps, however long one waits. -/
theorem cdbaPower_unpowered
    (opens :
      deviceOpen (memoryAt (name ++ [0]) hw.beyond)
          (Server.start devices username stdin hw lockOpens flocks).state =
        .ok (some device) opened)
    (fresh : (devices device).Fresh)
    (unpowered : (devices device).control = none)
    (lates : List Nat) :
    ∃ final,
      cdbaPower name true lates
          (Server.start devices username stdin hw lockOpens flocks).state =
        .ok .asleep final := by
  have callsOn : CallsPowerOn devices device opened := .cdbaPower opens
  have unticked : opened.hw.Unticked device :=
    callsOn.unticked fresh (by simp [Device.hasControl, unpowered])
  exact cdbaPower_of_loop opens (devicePower_unpowered unticked.unpowered)
    (unticked.asleep (deviceOpen_noTimers rfl opens) lates)

end Session

/-! ## A board with a console only -/

/-- A stream with one board that has a console and nothing to control it. -/
def consoleBoardEvents : List YamlEvent :=
  [.streamStart, .documentStart, .mappingStart, .scalar (ascii "devices"),
    .sequenceStart, .mappingStart,
    .scalar (ascii "board"), .scalar (ascii "db410c"),
    .scalar (ascii "fastboot"), .scalar (ascii "5350ce01"),
    .scalar (ascii "console"), .scalar (ascii "/dev/ttyUSB0"),
    .mappingEnd, .sequenceEnd, .mappingEnd, .documentEnd, .streamEnd]

/-- The device that the parser makes of it. -/
def consoleBoard : Device :=
  { ftdiBoard with control := none, powerKeyGpio := false }

/-- `cdba-power` before it opens that board. -/
def consoleBoardStart : Server 1 :=
  (Server.start (fun _ => consoleBoard) (ascii "nobody") ⟨⟨[], false⟩, []⟩
    (Hw.initial fun _ => consoleBoard) [] []).state

/-- And after it has. -/
def consoleBoardOpened : EStateM.Result Stop (Server 1) (Option (Fin 1)) :=
  deviceOpen (memoryAt (ascii "db410c" ++ [0]) fun _ => 0) consoleBoardStart

/--
The configuration is accepted, and `cdba-power db410c on` opens the board; the
power-on makes no progress, and the loop sleeps with no timer to wake it.
-/
theorem consoleBoard_neverRuns :
    returned? (deviceParser (some consoleBoardEvents) freshParser) = some 0 ∧
      (finalState
          (deviceParser (some consoleBoardEvents)
            freshParser)).devices.map DeviceConfig.toDevice? =
        [some consoleBoard] ∧
      returned? consoleBoardOpened = some (some 0) ∧
      ¬ PowerOnProgresses 0 (finalState consoleBoardOpened) ∧
      ∀ lates,
        returned? (cdbaPower (ascii "db410c") true lates consoleBoardStart) =
          some .asleep := by
  have opens :
      deviceOpen (memoryAt (ascii "db410c" ++ [0]) fun _ => 0)
          consoleBoardStart =
        .ok (some 0) (finalState consoleBoardOpened) :=
    eq_ok_of_returned (show returned? consoleBoardOpened = some (some 0)
      by decide +kernel)
  have fresh : consoleBoard.Fresh := ⟨rfl, rfl, rfl, rfl⟩
  have calls : CallsPowerOn (fun _ => consoleBoard) 0 _ :=
    .cdbaPower opens
  have unticked := calls.unticked fresh rfl
  refine ⟨by decide +kernel, by decide +kernel, by decide +kernel,
    unticked_not_progresses unticked, fun lates => ?_⟩
  have ends :
      ∃ final,
        cdbaPower (ascii "db410c") true lates consoleBoardStart =
          .ok .asleep final :=
    cdbaPower_of_loop opens (devicePower_unpowered unticked.unpowered)
      (unticked.asleep (deviceOpen_noTimers rfl opens) lates)
  obtain ⟨final, sleeps⟩ := ends
  rw [sleeps]
  rfl

end Cdba
