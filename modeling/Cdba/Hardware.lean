import Cdba.FastbootTransfer
import Cdba.Message
import Cdba.Program
import Cdba.Watch

namespace Cdba

/-!
# What the server works on

The state behind `device.c`, `fastboot.c` and `watch.c`: the configured
devices, the fastboot objects, the pending timers, the clock and a log of
everything the server does to the outside.  What the outside answers (driver
opens, USB transfers, enumeration results) is a script in the state.
-/

open Program

/-! ## Drivers -/

/-- The `control_ops` tables, one per driver. -/
inductive ControlDriver where
  | alpaca
  | cdbAssist
  | conmux
  | ftdiGpio
  | localGpio
  | external
  | qcomltDbg
  | laurent
  deriving DecidableEq, Repr

/-- The members of `struct control_ops` that may be absent. -/
inductive ControlOp where
  | close
  | power
  | usb
  | key
  | statusEnable
  deriving DecidableEq, Repr

/-- Which members each table sets. -/
def ControlDriver.has : ControlDriver → ControlOp → Bool
  | .alpaca, op => op = .power || op = .usb || op = .key
  | .cdbAssist, _ => true
  | .conmux, op => op = .power
  | .ftdiGpio, op => op = .power || op = .usb || op = .key
  | .localGpio, op => op = .power || op = .usb || op = .key
  | .external, op => op = .power || op = .usb || op = .key
  | .qcomltDbg, op =>
      op = .power || op = .usb || op = .key || op = .statusEnable
  | .laurent, op => op = .power || op = .usb

/-- The `console_ops` tables. -/
inductive ConsoleDriver where
  | console
  | conmuxConsole
  deriving DecidableEq, Repr

/-- Only the serial console can send a break. -/
def ConsoleDriver.hasSendBreak : ConsoleDriver → Bool
  | .console => true
  | .conmuxConsole => false

/-! ## Devices -/

/-- The `DEVICE_STATE_*` enum of the power-on sequence. -/
inductive DeviceState where
  | start
  | connect
  | press
  | releasePwr
  | releaseFastboot
  | running
  deriving DecidableEq, Repr

/-- The two functions `device->boot` can point to. -/
inductive BootMethod where
  | fastbootBoot
  | fastbootFlashReboot
  deriving DecidableEq, Repr

/-- `DEVICE_KEY_FASTBOOT` -/
def deviceKeyFastboot : Nat :=
  0

/-- `DEVICE_KEY_POWER` -/
def deviceKeyPower : Nat :=
  1

/--
`struct device`.  `powerKeyGpio` stands for the driver options of the GPIO
drivers, of which the power-on sequence only depends on whether a power key is
wired up.  `fastboot` is the index of the fastboot object the device points to.
-/
structure Device where
  board : CString
  name : Option CString
  description : Option CString
  serial : CString
  users : Option (List CString)
  pppsPath : Option CString
  usbAlwaysOn : Bool
  powerAlwaysOn : Bool
  fastbootKeyTimeout : UInt32
  powerKeyGpio : Bool
  boot : BootMethod
  control : Option ControlDriver
  console : Option ConsoleDriver
  setActive : Option CString
  statusCmd : Option CString
  fastboot : Option Nat
  state : DeviceState
  hasPowerKey : Bool
  statusEnabled : Bool

/-- The fields that the parser leaves zero have their zero value. -/
def Device.Fresh (device : Device) : Prop :=
  device.fastboot = none ∧
    device.state = .start ∧
    device.hasPowerKey = false ∧
    device.statusEnabled = false

/-- `device_has_control(device, op)` -/
def Device.hasControl (device : Device) (op : ControlOp) : Bool :=
  device.control.any (·.has op)

/-! ## Fastboot objects -/

/-- The endpoint addresses `parse_usb_desc` returns; -1 where it found none. -/
structure Endpoints where
  epIn : UInt32
  epOut : UInt32
  deriving DecidableEq

/-- `FASTBOOT_STATE_*` -/
inductive FastbootState where
  | start
  | opened
  | closed
  deriving DecidableEq, Repr

/-- The descriptor of the USB device: zero from `calloc`, open, or -1. -/
inductive UsbFd where
  | zero
  | open (endpoints : Endpoints)
  | minusOne
  deriving DecidableEq

/-- `struct fastboot` -/
structure Fastboot where
  serial : CString
  fd : UsbFd
  devPath : Option CString
  state : FastbootState
  deriving DecidableEq

/--
A USB device that matches the serial of a fastboot object: its path, and the
endpoints if opening the node and parsing its descriptors succeed.
-/
structure UsbNode where
  path : CString
  probe : Option Endpoints
  deriving DecidableEq

/-- A message of the udev monitor. -/
inductive UdevEvent where
  | add (serial : Option CString) (node : UsbNode)
  | remove (path : CString)
  | other
  deriving DecidableEq

/-! ## Timers and events -/

/-- The callbacks handed to `watch_timer_add`, with their data. -/
inductive TimerCallback (n : Nat) where
  | deviceTick (device : Fin n)
  | msgKeyRelease (key : Nat)
  | cdbAssistPrintStatus (device : Fin n)
  | qcomltDbgRequestStatus (device : Fin n)
  deriving DecidableEq

/-- What the server does to the outside. -/
inductive Event (n : Nat) where
  | send (type : MsgType) (payload : List UInt8)
  | controlOpen (device : Fin n)
  | controlClose (device : Fin n)
  | power (device : Fin n) (on : Bool)
  | usb (device : Fin n) (on : Bool)
  | pppsPower (device : Fin n) (on : Bool)
  | key (device : Fin n) (key : Nat) (asserted : Bool)
  | statusEnable (device : Fin n)
  | statusCmdOpen (device : Fin n)
  | statusValues (device : Fin n)
  | consoleOpen (device : Fin n)
  | consoleWrite (device : Fin n) (buf : List UInt8)
  | sendBreak (device : Fin n)
  | tick (device : Fin n) (state : DeviceState)
  | bulk (device : Fin n) (transfer : BulkEvent)
  | deviceBoot (device : Fin n) (image : List UInt8)
  | boot (device : Fin n) (method : BootMethod)
  deriving DecidableEq

/-- A value with the time at which it came about. -/
structure Stamped (α : Type) where
  time : Nat
  value : α
  deriving DecidableEq

/-- What the server asks the system for and cannot do without. -/
inductive Resource where
  /-- A checked allocation, or a context for udev. -/
  | memory
  /-- A terminal and a process for a status command. -/
  | terminal
  deriving DecidableEq

/-- The state of devices, timers and USB, and the scripts of the outside. -/
structure Hw (n : Nat) where
  devices : Fin n → Device
  fastboots : Nat → Fastboot
  fastbootCount : Nat
  timers : List (Timer (TimerCallback n))
  clock : Clock
  log : List (Stamped (Event n))
  controlOpens : List Bool
  consoleOpens : List Bool
  grants : Resource → List Bool
  enumerations : List (List UsbNode)
  bulks : BulkScript
  beyond : Nat → UInt8

/-! ## Stopping -/

/-- The pointers a program can dereference while they are NULL. -/
inductive Pointer where
  | device
  | fastboot
  | controlOps
  | consoleOps
  deriving DecidableEq, Repr

/-- Why a program does not go on. -/
inductive Stop where
  /-- A watch callback failed and the main loop returns. -/
  | leaveLoop
  /-- `exit()`, `err()` or `errx()` -/
  | exit (status : Nat)
  | assertFailed
  | nullDeref (pointer : Pointer)
  /-- A bound of the model was hit; the code would still be running. -/
  | diverges
  deriving DecidableEq, Repr

variable {n : Nat}

/-- Programs over devices, timers and USB. -/
abbrev HwM (n : Nat) :=
  EStateM Stop (Hw n)

/-- Record what the server does; doing it takes time. -/
def emit (event : Event n) : HwM n Unit :=
  update fun hw =>
    { hw with
      clock := hw.clock.tick
      log := hw.log ++ [⟨hw.clock.tick.now, event⟩] }

/-- `sleep(seconds)` -/
def sleep (seconds : Nat) : HwM n Unit :=
  update fun hw =>
    { hw with clock := hw.clock.sleep (seconds * 1000000) }

/-- `gettimeofday(&now, NULL)` -/
def gettimeofday : HwM n Timeval := do
  update fun hw => { hw with clock := hw.clock.tick }
  read fun hw => Timeval.ofMicros hw.clock.now

/-- Change one device. -/
def updateDevice (device : Fin n) (change : Device → Device) : HwM n Unit :=
  update fun hw =>
    { hw with
      devices := fun query =>
        if query = device then
          change (hw.devices query)
        else
          hw.devices query }

/-- Change one fastboot object. -/
def updateFastboot (index : Nat) (change : Fastboot → Fastboot) : HwM n Unit :=
  update fun hw =>
    { hw with
      fastboots := fun query =>
        if query = index then
          change (hw.fastboots query)
        else
          hw.fastboots query }

/-- Follow a `struct device *`. -/
def deref (device : Option (Fin n)) : HwM n (Fin n) :=
  match device with
  | some device => pure device
  | none => stop (.nullDeref .device)

/-- Take the next answer of a script, or a default when there is none left. -/
def nextAnswer
    (script : Hw n → List α)
    (replace : Hw n → List α → Hw n)
    (default : α) :
    HwM n α := do
  let answers ← read script
  update fun hw => replace hw answers.tail
  pure (answers.headD default)

/-- The next answer to a request for a resource is used up. -/
def Hw.spend (hw : Hw n) (resource : Resource) : Hw n :=
  { hw with
    grants := fun query =>
      if query = resource then
        (hw.grants query).tail
      else
        hw.grants query }

/-- Ask for a resource: where the system refuses it, `err()` ends the process. -/
def acquire (resource : Resource) : HwM n Unit := do
  let answers ← read fun hw => hw.grants resource
  update fun hw => hw.spend resource
  if answers.headD true then
    pure ()
  else
    stop (.exit 1)

theorem acquire_apply
    (resource : Resource)
    (hw : Hw n) :
    acquire resource hw =
      if (hw.grants resource).headD true = true then
        .ok () (hw.spend resource)
      else
        .error (.exit 1) (hw.spend resource) := by
  unfold acquire
  rw [bind_of_ok (read_apply _ _), bind_of_ok (update_apply _ _)]
  split
  · rfl
  · rfl

/-- It takes the next answer, and stops if that is a refusal. -/
theorem acquire_relates
    {relation : Hw n → Hw n → Prop}
    {mayStop : Stop → Prop}
    {resource : Resource}
    (spent : ∀ hw : Hw n, relation hw (hw.spend resource))
    (refused : mayStop (.exit 1)) :
    Relates relation mayStop (acquire resource) := by
  intro hw
  by_cases granted : (hw.grants resource).headD true = true
  · exact .of_ok ((acquire_apply resource hw).trans (if_pos granted))
      (spent hw)
  · exact .of_error ((acquire_apply resource hw).trans (if_neg granted))
      (spent hw) refused

/-- An invariant outlives the next answer, or the stop after a refusal. -/
theorem acquire_keeps
    {invariant : Hw n → Prop}
    {stopped : Stop → Hw n → Prop}
    {resource : Resource}
    (spent :
      ∀ hw : Hw n, invariant hw → invariant (hw.spend resource))
    (refused :
      ∀ hw : Hw n, invariant hw →
        (hw.grants resource).headD true ≠ true →
        stopped (.exit 1) (hw.spend resource)) :
    Keeps invariant stopped (acquire resource) := by
  intro hw holds
  by_cases granted : (hw.grants resource).headD true = true
  · exact .of_ok ((acquire_apply resource hw).trans (if_pos granted))
      (spent hw holds)
  · exact .of_error ((acquire_apply resource hw).trans (if_neg granted))
      (refused hw holds granted)

/-- Run USB transfers of a device against the script of bulk ioctls. -/
def runBulk
    (device : Fin n)
    (transfer : BulkScript → BulkRun α) :
    HwM n α := do
  let run ← read fun hw => transfer hw.bulks
  update fun hw =>
    { hw with
      bulks := run.script
      clock := hw.clock.tick
      log := hw.log ++
        run.trace.map fun made =>
          ⟨hw.clock.tick.now, .bulk device made⟩ }
  pure run.value

/--
`cdba_send_buf` on the server: the header and `len` bytes of the buffer go to
standard output.
-/
def cdbaSendBuf (type : MsgType) (buf : List UInt8) : HwM n Unit :=
  emit (.send type buf)

/-- `cdba_send` -/
def cdbaSend (type : MsgType) : HwM n Unit :=
  cdbaSendBuf type []

/-- `watch_timer_add` -/
def watchTimerAdd (timeoutMs : Int) (cb : TimerCallback n) : HwM n Unit := do
  let now ← gettimeofday
  let tvTimeout : Timeval :=
    ⟨timeoutMs.tdiv 1000, timeoutMs.tmod 1000 * 1000⟩
  update fun hw =>
    { hw with timers := hw.timers ++ [⟨now.add tvTimeout, cb⟩] }

end Cdba
