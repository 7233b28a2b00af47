import Cdba.DriverOptions

namespace Cdba

/-!
# The configuration of the boards

`device_parser.c`: a mapping from one key to a sequence of boards, each of them
a mapping.  At the end of a board only its name, serial and console are checked;
what else a device needs must have been set along with these.
-/

open Program
open DeviceParser

/-! ## A device while it is parsed -/

/-- What `control_options` points to. -/
inductive ControlOptions where
  | localGpio (options : LocalGpioOptions)
  | ftdiGpio (options : FtdiGpioOptions)
  | laurent (options : LaurentOptions)

/-- The driver whose options these are. -/
def ControlOptions.driver : ControlOptions → ControlDriver
  | .localGpio _ => .localGpio
  | .ftdiGpio _ => .ftdiGpio
  | .laurent _ => .laurent

/-- Whether a `control_ops` table sets `parse_options`. -/
def ControlDriver.parsesOptions : ControlDriver → Bool
  | .localGpio => true
  | .ftdiGpio => true
  | .laurent => true
  | _ => false

/-- The members of `struct device` that the parser sets. -/
structure DeviceConfig where
  board : Option CString
  controlDev : Option CString
  controlOptions : Option ControlOptions
  consoleDev : Option CString
  name : Option CString
  serial : Option CString
  description : Option CString
  pppsPath : Option CString
  ppps3Path : Option CString
  users : Option (List CString)
  voltage : UInt32
  usbAlwaysOn : Bool
  powerAlwaysOn : Bool
  fastbootKeyTimeout : UInt32
  boot : Option BootMethod
  controlOps : Option ControlDriver
  consoleOps : Option ConsoleDriver
  setActive : Option CString
  statusCmd : Option CString

/-- A device as `calloc` leaves it. -/
def DeviceConfig.zero : DeviceConfig where
  board := none
  controlDev := none
  controlOptions := none
  consoleDev := none
  name := none
  serial := none
  description := none
  pppsPath := none
  ppps3Path := none
  users := none
  voltage := 0
  usbAlwaysOn := false
  powerAlwaysOn := false
  fastbootKeyTimeout := 0
  boot := none
  controlOps := none
  consoleOps := none
  setActive := none
  statusCmd := none

/-- Programs that add devices to the global list. -/
abbrev ConfigM :=
  ParserM DeviceConfig

/-- `device_add` -/
def deviceAdd (dev : DeviceConfig) : ConfigM Unit :=
  update fun parser => { parser with devices := parser.devices ++ [dev] }

/-- `set_control_ops` -/
def setControlOps (dev : DeviceConfig) (ops : ControlDriver) :
    ConfigM DeviceConfig :=
  if dev.controlOps.isSome then
    stop (.exit 1)
  else
    pure { dev with controlOps := some ops }

/-- `set_console_ops` -/
def setConsoleOps (dev : DeviceConfig) (ops : ConsoleDriver) :
    ConfigM DeviceConfig :=
  if dev.consoleOps.isSome then
    stop (.exit 1)
  else
    pure { dev with consoleOps := some ops }

/-! ## The keys of a board -/

/-- The `users` key: a scalar stands for an empty list. -/
def parseUsers (dev : DeviceConfig) : ConfigM DeviceConfig := do
  let empty ← deviceParserAccept (scalar 0)
  match empty with
  | some _ => pure { dev with users := some [] }
  | none => do
      deviceParserExpect (ofType .sequenceStart)
      let users ←
        whileAccepted (scalar tokenLength)
          (fun users username => pure (users ++ [username])) []
      deviceParserExpect (ofType .sequenceEnd)
      pure { dev with users := some users }

/-- `parse_options` of a driver, and the driver itself if it returned any. -/
def parseControlOptions
    (dev : DeviceConfig)
    (parseOptions : ConfigM (Option ControlOptions))
    (ops : ControlDriver) :
    ConfigM DeviceConfig := do
  let options ← parseOptions
  let dev := { dev with controlOptions := options }
  if options.isSome then
    setControlOps dev ops
  else
    pure dev

/-- A control driver that only needs the name of its device. -/
def setControlDev (dev : DeviceConfig) (value : CString) (ops : ControlDriver) :
    ConfigM DeviceConfig :=
  setControlOps { dev with controlDev := some value } ops

/-- The keys with a scalar behind them. -/
def scalarKey (dev : DeviceConfig) (key value : CString) :
    ConfigM DeviceConfig :=
  if key = ascii "board" then
    pure { dev with board := some value }
  else if key = ascii "name" then
    pure { dev with name := some value }
  else if key = ascii "cdba" then
    setControlDev dev value .cdbAssist
  else if key = ascii "conmux" then do
    let dev := { dev with controlDev := some value, consoleDev := some value }
    let dev ← setControlOps dev .conmux
    setConsoleOps dev .conmuxConsole
  else if key = ascii "alpaca" then
    setControlDev dev value .alpaca
  else if key = ascii "external" then
    setControlDev dev value .external
  else if key = ascii "qcomlt_debug_board" then
    setControlDev dev value .qcomltDbg
  else if key = ascii "console" then
    setConsoleOps { dev with consoleDev := some value } .console
  else if key = ascii "voltage" then
    pure { dev with voltage := unsignedOf 10 value }
  else if key = ascii "fastboot" then
    pure
      { dev with
        serial := some value
        boot := some (dev.boot.getD .fastbootBoot) }
  else if key = ascii "fastboot_set_active" then
    if value = ascii "true" then
      pure { dev with setActive := some (ascii "a") }
    else
      pure { dev with setActive := some value }
  else if key = ascii "broken_fastboot_boot" then
    if value = ascii "true" then
      pure { dev with boot := some .fastbootFlashReboot }
    else
      pure dev
  else if key = ascii "description" then
    pure { dev with description := some value }
  else if key = ascii "fastboot_key_timeout" then
    pure { dev with fastbootKeyTimeout := unsignedOf 10 value }
  else if key = ascii "usb_always_on" then
    pure { dev with usbAlwaysOn := value = ascii "true" }
  else if key = ascii "ppps_path" then
    pure { dev with pppsPath := some value }
  else if key = ascii "ppps3_path" then
    pure { dev with ppps3Path := some value }
  else if key = ascii "status-cmd" then
    pure { dev with statusCmd := some value }
  else if key = ascii "power_always_on" then
    pure { dev with powerAlwaysOn := value = ascii "true" }
  else
    stop (.exit 1)

/-- One turn of the loop of `parse_board`. -/
def boardKey (dev : DeviceConfig) (key : CString) : ConfigM DeviceConfig :=
  if key = ascii "users" then
    parseUsers dev
  else if key = ascii "local_gpio" then
    parseControlOptions dev
      (do
        let options ← localGpioParseOptions
        pure (some (.localGpio options)))
      .localGpio
  else if key = ascii "ftdi_gpio" then
    parseControlOptions dev
      (do
        let options ← ftdiGpioParseOptions
        pure (some (.ftdiGpio options)))
      .ftdiGpio
  else if key = ascii "laurent" then
    parseControlOptions dev
      (do
        let options ← laurentParseOptions
        pure (some (.laurent options)))
      .laurent
  else do
    let value ← deviceParserExpect (scalar tokenLength)
    scalarKey dev key value

/-- `parse_board` -/
def parseBoard : ConfigM Unit := do
  let dev ← whileAccepted (scalar tokenLength) boardKey .zero
  if dev.board = none ∨ dev.serial = none ∨ dev.consoleDev = none then
    stop (.exit 1)
  else
    deviceAdd dev

/-- The sequence of boards behind the first key. -/
def parseBoards : ConfigM Unit := do
  deviceParserExpect (ofType .sequenceStart)
  whileAccepted (ofType .mappingStart)
    (fun _ _ => do
      parseBoard
      deviceParserExpect (ofType .mappingEnd)) ()
  deviceParserExpect (ofType .sequenceEnd)

/-- `device_parser`: -1 when the file cannot be opened. -/
def deviceParser (file : Option (List YamlEvent)) : ConfigM Int :=
  match file with
  | none => pure (-1)
  | some events => do
      update fun parser =>
        { parser with event := .noEvent, upcoming := events }
      nextsym
      deviceParserExpect (ofType .streamStart)
      deviceParserExpect (ofType .documentStart)
      deviceParserExpect (ofType .mappingStart)
      let key ← deviceParserAccept (scalar tokenLength)
      onlyIf key.isSome parseBoards
      deviceParserExpect (ofType .mappingEnd)
      deviceParserExpect (ofType .documentEnd)
      deviceParserExpect (ofType .streamEnd)
      pure 0

end Cdba
