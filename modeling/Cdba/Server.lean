import Cdba.Device
import Cdba.Receive

namespace Cdba

/-!
# The server

`cdba-server.c`, with `device_open` and `device_lock` of `device.c` because
they read standard input and use the server's globals.  A run of the server is
a list of main-loop iterations; each invokes the expired timers and then the
callbacks of the descriptors that `select()` reported.

The fields `dispatched` and `probed` are not part of the program: they record
the messages that were dispatched and the bytes that `device_lock` read.
-/

open Program

/-- The globals of the server and the state they act on. -/
structure Server (n : Nat) where
  hw : Hw n
  username : CString
  selectedDevice : Option (Fin n)
  fastbootPayload : List UInt8
  quitInvoked : Bool
  stdin : Input
  lockOpens : List Bool
  flocks : List Bool
  dispatched : List Msg
  probed : List UInt8

variable {n : Nat}

/-- Programs over the whole server, without its receive buffer. -/
abbrev ServerM (n : Nat) :=
  EStateM Stop (Server n)

namespace Server

/-- The devices, timers and USB part of the server. -/
def hwOf : Component (Server n) (Hw n) where
  get := Server.hw
  set := fun server hw => { server with hw := hw }
  get_set := fun _ _ => rfl
  set_get := fun _ => rfl
  set_set := fun _ _ _ => rfl

/-- The standard input of the server. -/
def stdinOf : Component (Server n) Input where
  get := Server.stdin
  set := fun server input => { server with stdin := input }
  get_set := fun _ _ => rfl
  set_get := fun _ => rfl
  set_set := fun _ _ _ => rfl

/-- The timers of the server. -/
def timersOf :
    Component (Server n) (List (Timer (TimerCallback n))) where
  get := fun server => server.hw.timers
  set := fun server timers =>
    { server with hw := { server.hw with timers := timers } }
  get_set := fun _ _ => rfl
  set_get := fun _ => rfl
  set_set := fun _ _ _ => rfl

end Server

/-- Run a program on devices, timers and USB. -/
def onHw (program : HwM n α) : ServerM n α :=
  within Server.hwOf program

/-! ## Selecting a board -/

/-- `read(STDIN_FILENO, &c, 1)` in `device_lock`; the byte is thrown away. -/
def probeConnection : ServerM n Unit := do
  let input ← read Server.stdin
  match input.script with
  | [] => pure ()
  | choice :: script =>
      match input.fd.read choice 1 with
      | (.data bytes, fd) =>
          update fun server =>
            { server with
              stdin := ⟨fd, script⟩
              probed := server.probed ++ bytes }
      | (.error _, fd) =>
          update fun server => { server with stdin := ⟨fd, script⟩ }
      | (.eof, fd) => do
          update fun server => { server with stdin := ⟨fd, script⟩ }
          stop (.exit 1)

/-- The `while (1)` loop of `device_lock` over the results of `flock()`. -/
def deviceLockLoop : List Bool → ServerM n Unit
  | [] => pure ()
  | locked :: flocks => do
      update fun server => { server with flocks := flocks }
      if locked then
        pure ()
      else do
        onHw (sleep 3)
        probeConnection
        deviceLockLoop flocks

/-- `PATH_MAX` -/
def pathMax : Nat :=
  4096

/-- `"/tmp/cdba-%s.lock"` -/
def lockPath (board : CString) : CString :=
  ascii "/tmp/cdba-" ++ board ++ ascii ".lock"

/-- `device_lock` -/
def deviceLock (device : Fin n) : ServerM n Unit := do
  let board ← read fun server => (server.hw.devices device).board
  if (lockPath board).length ≥ pathMax then
    stop (.exit 1)
  else do
    let opens ← read Server.lockOpens
    update fun server => { server with lockOpens := opens.tail }
    if opens.headD true then do
      let flocks ← read Server.flocks
      deviceLockLoop flocks
    else
      stop (.exit 1)

/-- Whether opening a driver sets `has_power_key`. -/
def ControlDriver.setsPowerKey
    (driver : ControlDriver)
    (powerKeyGpio : Bool) :
    Bool :=
  match driver with
  | .alpaca | .external | .qcomltDbg => true
  | .ftdiGpio | .localGpio => powerKeyGpio
  | .cdbAssist | .conmux | .laurent => false

/-- Open the control driver of a device, if it has one. -/
def openControl (device : Fin n) : HwM n Unit := do
  let dev ← read fun hw => hw.devices device
  match dev.control with
  | none => pure ()
  | some driver => do
      let opened ← nextAnswer Hw.controlOpens
        (fun hw answers => { hw with controlOpens := answers }) true
      if opened then do
        emit (.controlOpen device)
        updateDevice device fun dev =>
          { dev with
            hasPowerKey :=
              dev.hasPowerKey || driver.setsPowerKey dev.powerKeyGpio }
      else
        stop (.exit 1)

/-- Open the console driver of a device. -/
def openConsole (device : Fin n) : HwM n Unit := do
  let opened ← nextAnswer Hw.consoleOpens
    (fun hw answers => { hw with consoleOpens := answers }) true
  if opened then
    emit (.consoleOpen device)
  else
    stop (.exit 1)

/-- The part of `device_open` after the lock. -/
def openLocked (device : Fin n) : HwM n Unit := do
  openControl device
  openConsole device
  let dev ← read fun hw => hw.devices device
  onlyIf dev.powerAlwaysOn do
    devicePowerOff (some device)
    sleep 2
  onlyIf dev.usbAlwaysOn (deviceUsb (some device) true)

/-- The first device with a given name. -/
def findBoard (hw : Hw n) (board : Nat → UInt8) : Option (Fin n) :=
  (List.finRange n).find? fun device =>
    strcmpEq (hw.devices device).board board

/-- The device that `device_open` goes on to open: it exists and may be used. -/
def accessibleBoard?
    (hw : Hw n)
    (username : CString)
    (board : Nat → UInt8) :
    Option (Fin n) :=
  (findBoard hw board).filter fun device =>
    deviceCheckAccess (hw.devices device) (some username)

/-- `device_open` -/
def deviceOpen (board : Nat → UInt8) : ServerM n (Option (Fin n)) := do
  let found ← read fun server =>
    accessibleBoard? server.hw server.username board
  match found with
  | none => pure none
  | some device => do
      let console ← read fun server => (server.hw.devices device).console
      if console = none then
        stop .assertFailed
      else do
        deviceLock device
        onHw (openLocked device)
        pure (some device)

/-! ## Message handlers -/

/-- `watch_quit` -/
def watchQuit : ServerM n Unit :=
  update fun server => { server with quitInvoked := true }

/-- `msg_select_board` -/
def msgSelectBoard (data : List UInt8) : ServerM n Unit := do
  let beyond ← read fun server => server.hw.beyond
  let device ← deviceOpen (memoryAt data beyond)
  update fun server => { server with selectedDevice := device }
  match device with
  | none => watchQuit
  | some device => onHw (deviceFastbootOpen device)
  onHw (cdbaSend .selectBoard)

/-- `msg_fastboot_download`: only a chunk needs more memory. -/
def msgFastbootDownload (data : List UInt8) : ServerM n Unit := do
  onlyIf (data ≠ []) (onHw (acquire .memory))
  update fun server =>
    { server with fastbootPayload := server.fastbootPayload ++ data }
  if data = [] then do
    let selected ← read Server.selectedDevice
    let payload ← read Server.fastbootPayload
    onHw (deviceBoot selected payload)
    onHw (cdbaSend .fastbootDownload)
    update fun server => { server with fastbootPayload := [] }
  else
    pure ()

/-- An empty frame needs no memory: it ends the upload. -/
theorem msgFastbootDownload_nil :
    msgFastbootDownload (n := n) [] = (do
      update fun server =>
        { server with fastbootPayload := server.fastbootPayload ++ [] }
      let selected ← read Server.selectedDevice
      let payload ← read Server.fastbootPayload
      onHw (deviceBoot selected payload)
      onHw (cdbaSend .fastbootDownload)
      update fun server => { server with fastbootPayload := [] }) :=
  rfl

/-- A chunk only makes the image longer, if there is memory for that. -/
theorem msgFastbootDownload_chunk
    {data : List UInt8}
    (chunk : data ≠ []) :
    msgFastbootDownload (n := n) data = (do
      onHw (acquire .memory)
      update fun server =>
        { server with fastbootPayload := server.fastbootPayload ++ data }) := by
  simp [msgFastbootDownload, onlyIf, chunk]

/-- `KEY_PRESS_PULSE` -/
def keyPressPulse : UInt8 :=
  2

/-- `msg_key_press` -/
def msgKeyPress (selected : Option (Fin n)) (data : List UInt8) : HwM n Unit :=
  match data with
  | [key, state] =>
      if state = keyPressPulse then do
        deviceKey selected key.toNat true
        watchTimerAdd 100 (.msgKeyRelease key.toNat)
      else
        deviceKey selected key.toNat (state ≠ 0)
  | _ => pure ()

/-- A handler that only works on the selected device. -/
def onSelected (handler : Option (Fin n) → HwM n Unit) : ServerM n Unit := do
  let selected ← read Server.selectedDevice
  onHw (handler selected)

/-- The `switch (msg->type)` of `handle_stdin`. -/
def handleType (type : MsgType) (data : List UInt8) : ServerM n Unit :=
  match type with
  | .console => onSelected fun selected => deviceWrite selected data
  | .fastbootPresent => pure ()
  | .selectBoard => msgSelectBoard data
  | .hardreset => pure ()
  | .powerOn => onSelected fun selected => do
      devicePower selected true
      cdbaSend .powerOn
  | .powerOff => onSelected fun selected => do
      devicePower selected false
      cdbaSend .powerOff
  | .fastbootDownload => msgFastbootDownload data
  | .fastbootBoot => pure ()
  | .statusUpdate => onSelected deviceStatusEnable
  | .vbusOn => onSelected fun selected => deviceUsb selected true
  | .vbusOff => onSelected fun selected => deviceUsb selected false
  | .sendBreak => onSelected deviceSendBreak
  | .listDevices => do
      let username ← read Server.username
      onHw (deviceListDevices (some username))
  | .boardInfo => do
      let username ← read Server.username
      let beyond ← read fun server => server.hw.beyond
      onHw (deviceInfo (some username) (memoryAt data beyond) data.length)
  | .fastbootContinue => onSelected fun selected => do
      deviceFastbootContinue selected
      cdbaSend .fastbootContinue
  | .keyPress => onSelected fun selected => msgKeyPress selected data
  | .fastbootReboot => stop (.exit 1)

/-- Dispatch one message; unknown types end the process. -/
def dispatch (msg : Msg) : ServerM n Unit := do
  update fun server =>
    { server with dispatched := server.dispatched ++ [msg] }
  match MsgType.ofCode? msg.type with
  | some type => handleType type msg.data
  | none => stop (.exit 1)

/-! ## The main loop -/

/-- The server with the receive buffer of `handle_stdin`. -/
abbrev ServerLoop (n : Nat) :=
  Receiver (Server n)

/-- `handle_stdin` -/
def handleStdin : EStateM Stop (ServerLoop n) Unit :=
  receive Server.stdinOf .leaveLoop dispatch

/-- The callback of an expired timer. -/
def fireTimer : TimerCallback n → ServerM n Unit
  | .deviceTick device => onHw (deviceTick device)
  | .msgKeyRelease key =>
      onSelected fun selected => deviceKey selected key false
  | .cdbAssistPrintStatus device => onHw (emit (.statusValues device))
  | .qcomltDbgRequestStatus device =>
      onHw (watchTimerAdd 200 (.qcomltDbgRequestStatus device))

/-- `watch_timer_invoke` -/
def invokeTimers : ServerM n Unit :=
  watchTimerInvoke Server.timersOf fireTimer .diverges (onHw gettimeofday)

/-- The callbacks registered with `watch_add_readfd`, with what they read. -/
inductive Callback where
  | stdin
  | udev (index : Nat) (event : UdevEvent)
  /-- `console_data` or `conmux_data`; `none` is a failing `read()`. -/
  | consoleData (bytes : Option (List UInt8))
  /-- `status_data` -/
  | statusData (bytes : Option (List UInt8))
  /-- A control driver's data callback and the status lines it sends. -/
  | controlData (lines : Option (List (List UInt8)))
  /-- `sigpipe_handler`, between two callbacks. -/
  | sigpipe

/-- Forward what a descriptor delivered, or leave the loop on an error. -/
def forwardData
    (forward : α → HwM n Unit)
    (result : Option α) :
    ServerM n Unit :=
  match result with
  | some value => onHw (forward value)
  | none => stop .leaveLoop

/-- Run the callback of a ready descriptor. -/
def runCallback : Callback → EStateM Stop (ServerLoop n) Unit
  | .stdin => handleStdin
  | .udev index event =>
      within Receiver.stateOf (onHw (handleUdevEvent index event))
  | .consoleData bytes =>
      within Receiver.stateOf (forwardData (cdbaSendBuf .console) bytes)
  | .statusData bytes =>
      within Receiver.stateOf
        (forwardData
          (fun bytes => onlyIf (bytes ≠ []) (cdbaSendBuf .statusUpdate bytes))
          bytes)
  | .controlData lines =>
      within Receiver.stateOf
        (forwardData (each (cdbaSendBuf .statusUpdate)) lines)
  | .sigpipe => within Receiver.stateOf watchQuit

/-- One iteration of `watch_main_loop` after `select()` returned. -/
def iteration (ready : List Callback) : EStateM Stop (ServerLoop n) Unit := do
  within Receiver.stateOf invokeTimers
  each runCallback ready

/-- `watch_main_loop(NULL)`, given what `select()` reports each time. -/
def watchMainLoop : List (List Callback) → EStateM Stop (ServerLoop n) Unit
  | [] => pure ()
  | ready :: rest => do
      let quitting ← read fun loop : ServerLoop n => loop.state.quitInvoked
      if quitting then
        pure ()
      else do
        iteration ready
        watchMainLoop rest

/-- The server right after `main` has set it up, with its input still to come. -/
def Server.start
    (devices : Fin n → Device)
    (username : CString)
    (stdin : Input)
    (hw : Hw n)
    (lockOpens flocks : List Bool) :
    ServerLoop n where
  state :=
    { hw :=
        { hw with
          devices := devices
          fastbootCount := 0
          timers := []
          log := [] }
      username := username
      selectedDevice := none
      fastbootPayload := []
      quitInvoked := false
      stdin := stdin
      lockOpens := lockOpens
      flocks := flocks
      dispatched := []
      probed := [] }
  recvBuf := CircBuf.empty

/-! ## A bench for concrete runs -/

/-- Hardware on which nothing has happened and no answer is scripted. -/
def Hw.initial (devices : Fin n → Device) : Hw n where
  devices := devices
  fastboots := fun _ =>
    { serial := [], fd := .zero, devPath := none, state := .start }
  fastbootCount := 0
  timers := []
  clock := ⟨0, []⟩
  log := []
  controlOpens := []
  consoleOpens := []
  grants := fun _ => []
  enumerations := []
  bulks := []
  beyond := fun _ => 0

/-- A board behind an FTDI adapter with a power key wired up. -/
def ftdiBoard : Device where
  board := ascii "db410c"
  name := none
  description := none
  serial := ascii "5350ce01"
  users := none
  pppsPath := none
  usbAlwaysOn := false
  powerAlwaysOn := false
  fastbootKeyTimeout := 0
  powerKeyGpio := true
  boot := .fastbootBoot
  control := some .ftdiGpio
  console := some .console
  setActive := none
  statusCmd := none
  fastboot := none
  state := .start
  hasPowerKey := false
  statusEnabled := false

/-- A server for one such board, with its input still to come. -/
def benchServer (stdin : Input) (flocks : List Bool) : ServerLoop 1 :=
  Server.start (fun _ => ftdiBoard) (ascii "user") stdin
    (Hw.initial fun _ => ftdiBoard) [] flocks

theorem ftdiName_fits :
    (ascii "db410c" ++ [0]).length < 2 ^ 16 := by
  decide

/-- The frame with which a client selects that board. -/
def selectFtdiBoard : Msg :=
  Msg.ofData MsgType.selectBoard.code (ascii "db410c" ++ [0]) ftdiName_fits

end Cdba
