import Cdba.Hardware

namespace Cdba

/-!
# Operations on a device

`device.c` apart from the board lock, and the fastboot objects of
`fastboot.c`.  Functions that the server calls with its global
`selected_device` take an optional device, the `struct device *`, and follow
the pointer where the source does.
-/

open Program

variable {n : Nat}

/-- `device_check_access` -/
def deviceCheckAccess
    (device : Device)
    (username : Option CString) :
    Bool :=
  match device.users, username with
  | none, _ => true
  | some _, none => false
  | some users, some username => users.any (· == username)

/-- `device_impl_power` -/
def deviceImplPower (device : Fin n) (on : Bool) : HwM n Unit := do
  let control ← read fun hw => (hw.devices device).control
  if control = none then
    stop (.nullDeref .controlOps)
  else
    emit (.power device on)

/-- `device_key` -/
def deviceKey
    (device : Option (Fin n))
    (key : Nat)
    (asserted : Bool) :
    HwM n Unit := do
  let device ← deref device
  let hasKey ← read fun hw => (hw.devices device).hasControl .key
  onlyIf hasKey (emit (.key device key asserted))

/-- `device_usb` -/
def deviceUsb (device : Option (Fin n)) (on : Bool) : HwM n Unit := do
  let device ← deref device
  let dev ← read fun hw => hw.devices device
  onlyIf dev.pppsPath.isSome (emit (.pppsPower device on))
  onlyIf (dev.hasControl .usb) (emit (.usb device on))

/-! ## The power-on sequence -/

/-- `device->fastboot_key_timeout * 1000`, as the `int` parameter receives it. -/
def Device.keyTimeoutMs (device : Device) : Int :=
  toInt32 (device.fastbootKeyTimeout * 1000).toNat

/-- Enter a phase of the power-on sequence. -/
def setState (device : Fin n) (state : DeviceState) : HwM n Unit :=
  updateDevice device fun dev => { dev with state := state }

/-- Hold the fastboot key for its timeout, or be done at once. -/
def releaseFastbootLater (device : Fin n) : HwM n Unit := do
  let dev ← read fun hw => hw.devices device
  if dev.fastbootKeyTimeout ≠ 0 then do
    setState device .releaseFastboot
    watchTimerAdd dev.keyTimeoutMs (.deviceTick device)
  else
    setState device .running

/-- `device_tick`; the log marks in which state it was entered. -/
def deviceTick (device : Fin n) : HwM n Unit := do
  let dev ← read fun hw => hw.devices device
  emit (.tick device dev.state)
  match dev.state with
  | .start => do
      onlyIf (dev.fastbootKeyTimeout ≠ 0)
        (deviceKey (some device) deviceKeyFastboot true)
      onlyIf dev.hasPowerKey
        (deviceKey (some device) deviceKeyPower false)
      setState device .connect
      watchTimerAdd 10 (.deviceTick device)
  | .connect => do
      deviceImplPower device true
      deviceUsb (some device) true
      if dev.hasPowerKey then do
        setState device .press
        watchTimerAdd 250 (.deviceTick device)
      else
        releaseFastbootLater device
  | .press => do
      deviceKey (some device) deviceKeyPower true
      setState device .releasePwr
      watchTimerAdd 100 (.deviceTick device)
  | .releasePwr => do
      deviceKey (some device) deviceKeyPower false
      releaseFastbootLater device
  | .releaseFastboot => do
      deviceKey (some device) deviceKeyFastboot false
      setState device .running
  | .running => pure ()

/-- `device_is_running` -/
def deviceIsRunning (device : Device) : Bool :=
  device.state = .running

/-- Whether `!device || !device_has_control(device, power)` fails. -/
def poweredDevice? (device : Option (Fin n)) (hw : Hw n) : Option (Fin n) :=
  device.filter fun device => (hw.devices device).hasControl .power

/-- `device_power_on` -/
def devicePowerOn (device : Option (Fin n)) : HwM n Unit := do
  let powered ← read (poweredDevice? device)
  match powered with
  | none => pure ()
  | some device => do
      setState device .start
      deviceTick device

/-- `device_power_off` -/
def devicePowerOff (device : Option (Fin n)) : HwM n Unit := do
  let powered ← read (poweredDevice? device)
  match powered with
  | none => pure ()
  | some device => emit (.power device false)

/-- `device_power` -/
def devicePower (device : Option (Fin n)) (on : Bool) : HwM n Unit :=
  if on then devicePowerOn device else devicePowerOff device

/-! ## Console and status -/

/-- `device_write` -/
def deviceWrite (device : Option (Fin n)) (buf : List UInt8) : HwM n Unit :=
  match device with
  | none => pure ()
  | some device => do
      let console ← read fun hw => (hw.devices device).console
      if console = none then
        stop (.nullDeref .consoleOps)
      else
        emit (.consoleWrite device buf)

/-- `device_send_break` -/
def deviceSendBreak (device : Option (Fin n)) : HwM n Unit := do
  let device ← deref device
  let dev ← read fun hw => hw.devices device
  onlyIf (dev.console.any ConsoleDriver.hasSendBreak)
    (emit (.sendBreak device))

/-- The `status_enable` member of the control operations. -/
def controlStatusEnable (device : Fin n) : HwM n Unit := do
  emit (.statusEnable device)
  let control ← read fun hw => (hw.devices device).control
  match control with
  | some .cdbAssist =>
      watchTimerAdd 1000 (.cdbAssistPrintStatus device)
  | some .qcomltDbg =>
      watchTimerAdd 200 (.qcomltDbgRequestStatus device)
  | _ => pure ()

/-- `status_cmd_open`: it needs a terminal for the command. -/
def statusCmdOpen (device : Fin n) : HwM n Unit := do
  acquire .terminal
  emit (.statusCmdOpen device)

/-- `device_status_enable` -/
def deviceStatusEnable (device : Option (Fin n)) : HwM n Unit := do
  let device ← deref device
  let dev ← read fun hw => hw.devices device
  if dev.statusEnabled then
    pure ()
  else do
    onlyIf (dev.hasControl .statusEnable) (controlStatusEnable device)
    onlyIf dev.statusCmd.isSome (statusCmdOpen device)
    updateDevice device fun dev => { dev with statusEnabled := true }

/-! ## Fastboot objects -/

/-- `handle_fastboot_add`, with `fastboot_opened` as its callback. -/
def handleFastbootAdd (index : Nat) (node : UsbNode) : HwM n Unit :=
  match node.probe with
  | none => pure ()
  | some endpoints => do
      updateFastboot index fun fb =>
        { fb with
          fd := .open endpoints
          devPath := some node.path
          state := .opened }
      cdbaSendBuf .fastbootPresent [1]

/-- `handle_udev_event`, with `fastboot_disconnect` as its callback. -/
def handleUdevEvent (index : Nat) (event : UdevEvent) : HwM n Unit := do
  let fb ← read fun hw => hw.fastboots index
  match event with
  | .add serial node =>
      onlyIf (serial = some fb.serial) (handleFastbootAdd index node)
  | .remove path =>
      onlyIf (fb.devPath = some path) do
        updateFastboot index fun fb =>
          { fb with fd := .minusOne, devPath := none }
        cdbaSendBuf .fastbootPresent [0]
        updateFastboot index fun fb => { fb with state := .closed }
  | .other => pure ()

/-- The rest of `fastboot_open`: the devices that are already there. -/
def fastbootEnumerate (serial : CString) : HwM n Nat := do
  let index ← read Hw.fastbootCount
  update fun hw => { hw with fastbootCount := index + 1 }
  updateFastboot index fun _ =>
    { serial := serial, fd := .zero, devPath := none, state := .start }
  let nodes ← nextAnswer Hw.enumerations
    (fun hw answers => { hw with enumerations := answers }) []
  each (handleFastbootAdd index) nodes
  pure index

/-- `fastboot_open`: a new object, if there is a context for udev and memory. -/
def fastbootOpen (serial : CString) : HwM n Nat := do
  acquire .memory
  fastbootEnumerate serial

/-- `device_fastboot_open` -/
def deviceFastbootOpen (device : Fin n) : HwM n Unit := do
  let serial ← read fun hw => (hw.devices device).serial
  let index ← fastbootOpen serial
  updateDevice device fun dev => { dev with fastboot := some index }

/-- `device_fastboot_boot` -/
def deviceFastbootBoot (device : Fin n) : HwM n Unit := do
  let fastboot ← read fun hw => (hw.devices device).fastboot
  onlyIf fastboot.isSome (runBulk device fastbootBoot)

/-- `device_fastboot_continue` -/
def deviceFastbootContinue (device : Option (Fin n)) : HwM n Unit := do
  let device ← deref device
  let fastboot ← read fun hw => (hw.devices device).fastboot
  onlyIf fastboot.isSome (runBulk device fastbootContinue)

/-- `device_fastboot_flash_reboot` -/
def deviceFastbootFlashReboot (device : Fin n) : HwM n Unit := do
  let fastboot ← read fun hw => (hw.devices device).fastboot
  onlyIf fastboot.isSome do
    runBulk device (fastbootFlash (ascii "boot"))
    runBulk device fastbootReboot

/-- `device->boot(device)` -/
def bootMethod (device : Fin n) : HwM n Unit := do
  let method ← read fun hw => (hw.devices device).boot
  emit (.boot device method)
  match method with
  | .fastbootBoot => deviceFastbootBoot device
  | .fastbootFlashReboot => deviceFastbootFlashReboot device

/-- The command that selects the slot, when the board has one configured. -/
def setActiveTransfer (active : Option CString) : BulkScript → BulkRun Unit :=
  match active with
  | none => fun script => ⟨(), script, []⟩
  | some active => fastbootSetActive active

/-- `device_boot` -/
def deviceBoot (device : Option (Fin n)) (image : List UInt8) : HwM n Unit := do
  let device ← deref device
  let dev ← read fun hw => hw.devices device
  emit (.deviceBoot device image)
  if dev.fastboot = none then
    stop (.nullDeref .fastboot)
  else do
    runBulk device (setActiveTransfer dev.setActive)
    -- `fastboot_download` begins with a scratch buffer.
    acquire .memory
    let _ ← runBulk device (fastbootDownload image)
    bootMethod device
    onlyIf (dev.statusEnabled && !dev.usbAlwaysOn)
      (deviceUsb (some device) false)

/-! ## Listing -/

/-- `%-20s` -/
def padRight20 (string : CString) : CString :=
  string ++ List.replicate (20 - string.length) 0x20

/-- The text `device_list_devices` formats for a device. -/
def listingText (device : Device) : CString :=
  match device.name with
  | some name => padRight20 device.board ++ [0x20] ++ name
  | none => device.board

/-- What `snprintf` leaves in a buffer of a given size. -/
def snprintfBuf (size : Nat) (text : CString) : List UInt8 :=
  text.take (size - 1) ++ [0]

/-- One line of `device_list_devices`: `len` comes from `snprintf`, unclamped. -/
def listDevice (username : Option CString) (device : Fin n) : HwM n Unit := do
  let dev ← read fun hw => hw.devices device
  let beyond ← read Hw.beyond
  onlyIf (deviceCheckAccess dev username)
    (cdbaSendBuf .listDevices
      (readMemory (memoryAt (snprintfBuf 80 (listingText dev)) beyond)
        (listingText dev).length))

/-- `device_list_devices` -/
def deviceListDevices (username : Option CString) : HwM n Unit := do
  each (listDevice username) (List.finRange n)
  cdbaSendBuf .listDevices []

/-- `device_info`: the description of the first match that has one. -/
def deviceInfo
    (username : Option CString)
    (data : Nat → UInt8)
    (dlen : Nat) :
    HwM n Unit := do
  let found ← read fun hw =>
    (List.finRange n).find? fun device =>
      strncmpEq (hw.devices device).board data dlen &&
        deviceCheckAccess (hw.devices device) username &&
        (hw.devices device).description.isSome
  let description ← read fun hw =>
    found.bind fun device => (hw.devices device).description
  cdbaSendBuf .boardInfo (description.getD [])

/-- `device_close` -/
def deviceClose (device : Fin n) : HwM n Unit := do
  let dev ← read fun hw => hw.devices device
  onlyIf (!dev.usbAlwaysOn) (deviceUsb (some device) false)
  onlyIf (!dev.powerAlwaysOn) (devicePower (some device) false)
  onlyIf (dev.hasControl .close) (emit (.controlClose device))

end Cdba
