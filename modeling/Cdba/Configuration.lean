import Cdba.DeviceParser
import Cdba.Supervision

namespace Cdba

/-!
# Accepted configurations

The parser only checks the name, the serial and the console of a board.  The
other pointers that the server follows are set along with these, whichever keys
a board has and in whichever order, so that a device from the configuration
never sends the server through a NULL pointer to its console or its boot method.
-/

open Program
open DeviceParser

variable {n : Nat}

/-! ## Usable devices -/

/-- Which `console_ops` tables set `open`. -/
def ConsoleDriver.hasOpen : ConsoleDriver → Bool
  | .console => true
  | .conmuxConsole => true

/-- Which `console_ops` tables set `write`. -/
def ConsoleDriver.hasWrite : ConsoleDriver → Bool
  | .console => true
  | .conmuxConsole => true

/-- A driver that parses options finds its own. -/
def DeviceConfig.OptionsFor (dev : DeviceConfig) (driver : ControlDriver) :
    Prop :=
  driver.parsesOptions = true →
    ∃ options, dev.controlOptions = some options ∧ options.driver = driver

/-- Every pointer that the server follows without a check is set. -/
structure DeviceConfig.Usable (dev : DeviceConfig) : Prop where
  board : dev.board ≠ none
  serial : dev.serial ≠ none
  consoleDev : dev.consoleDev ≠ none
  console :
    ∃ driver,
      dev.consoleOps = some driver ∧
        driver.hasOpen = true ∧ driver.hasWrite = true
  boot : dev.boot ≠ none
  options : ∀ driver, dev.controlOps = some driver → dev.OptionsFor driver

/-- Whether the options have a power key wired up. -/
def ControlOptions.powerKeyPresent : ControlOptions → Bool
  | .localGpio options => (options.gpios .powerKey).present
  | .ftdiGpio options => (options.gpios .powerKey).present
  | .laurent _ => false

/-- The device that the server works on, if its name, serial and `boot` are set. -/
def DeviceConfig.toDevice? (dev : DeviceConfig) : Option Device := do
  let board ← dev.board
  let serial ← dev.serial
  let boot ← dev.boot
  some
    { board := board
      name := dev.name
      description := dev.description
      serial := serial
      users := dev.users
      pppsPath := dev.pppsPath
      usbAlwaysOn := dev.usbAlwaysOn
      powerAlwaysOn := dev.powerAlwaysOn
      fastbootKeyTimeout := dev.fastbootKeyTimeout
      powerKeyGpio := dev.controlOptions.any ControlOptions.powerKeyPresent
      boot := boot
      control := dev.controlOps
      console := dev.consoleOps
      setActive := dev.setActive
      statusCmd := dev.statusCmd
      fastboot := none
      state := .start
      hasPowerKey := false
      statusEnabled := false }

theorem toDevice?_usable
    {dev : DeviceConfig}
    (usable : dev.Usable) :
    ∃ device, dev.toDevice? = some device := by
  obtain ⟨board, isBoard⟩ := Option.ne_none_iff_exists'.mp usable.board
  obtain ⟨serial, isSerial⟩ := Option.ne_none_iff_exists'.mp usable.serial
  obtain ⟨boot, isBoot⟩ := Option.ne_none_iff_exists'.mp usable.boot
  simp [DeviceConfig.toDevice?, isBoard, isSerial, isBoot]

/-- A device has the console that was configured, and was not opened yet. -/
theorem console_toDevice?
    {dev : DeviceConfig}
    {device : Device}
    (configured : dev.toDevice? = some device) :
    device.console = dev.consoleOps ∧ device.Fresh := by
  simp only [DeviceConfig.toDevice?, Option.bind_eq_bind,
    Option.bind_eq_some_iff] at configured
  obtain ⟨_, _, _, _, _, _, isDevice⟩ := configured
  cases isDevice
  exact ⟨rfl, rfl, rfl, rfl, rfl⟩

/-! ## What goes with what -/

/--
While a board is parsed, each pointer that the check at its end does not look at
is set along with one that it does.
-/
structure DeviceConfig.Linked (dev : DeviceConfig) : Prop where
  console : dev.consoleDev ≠ none → dev.consoleOps ≠ none
  boot : dev.serial ≠ none → dev.boot ≠ none
  options : ∀ driver, dev.controlOps = some driver → dev.OptionsFor driver

theorem zero_linked :
    DeviceConfig.zero.Linked where
  console := fun set => absurd rfl set
  boot := fun set => absurd rfl set
  options := nofun

/-- The check at the end of a board makes a usable device of it. -/
theorem DeviceConfig.Linked.usable
    {dev : DeviceConfig}
    (linked : dev.Linked)
    (checked :
      ¬ (dev.board = none ∨ dev.serial = none ∨ dev.consoleDev = none)) :
    dev.Usable := by
  simp only [not_or] at checked
  obtain ⟨board, serial, consoleDev⟩ := checked
  obtain ⟨driver, isDriver⟩ :=
    Option.ne_none_iff_exists'.mp (linked.console consoleDev)
  refine ⟨board, serial, consoleDev, ⟨driver, isDriver, ?_⟩,
    linked.boot serial, linked.options⟩
  cases driver with
  | console => exact ⟨rfl, rfl⟩
  | conmuxConsole => exact ⟨rfl, rfl⟩

section Keys

variable {before : DeviceParser DeviceConfig → Prop}
variable {after : DeviceConfig → DeviceParser DeviceConfig → Prop}

theorem setControlOps_ensures
    {dev : DeviceConfig}
    {ops : ControlDriver}
    (holds :
      ∀ parser, before parser →
        after { dev with controlOps := some ops } parser) :
    Ensures before (setControlOps dev ops) after :=
  .ite (fun _ => .stop _) fun _ => .pure holds

theorem setConsoleOps_ensures
    {dev : DeviceConfig}
    {ops : ConsoleDriver}
    (holds :
      ∀ parser, before parser →
        after { dev with consoleOps := some ops } parser) :
    Ensures before (setConsoleOps dev ops) after :=
  .ite (fun _ => .stop _) fun _ => .pure holds

end Keys

/-- Programs that keep the pointers of a device together. -/
abbrev Links (dev : DeviceConfig) (program : ConfigM DeviceConfig) : Prop :=
  Ensures (fun _ => dev.Linked) program fun dev _ => dev.Linked

/-- A driver that only needs the name of its device parses no options. -/
theorem setControlDev_links
    (dev : DeviceConfig)
    (value : CString)
    {ops : ControlDriver}
    (optionless : ops.parsesOptions = false) :
    Links dev (setControlDev dev value ops) := by
  refine setControlOps_ensures fun _ linked => { linked with options := ?_ }
  rintro driver ⟨⟩ parses
  rw [optionless] at parses
  cases parses

/-- The options of a driver come with the driver, or the parser gives up. -/
theorem parseControlOptions_links
    (dev : DeviceConfig)
    {parseOptions : ConfigM α}
    {wrap : α → ControlOptions}
    {ops : ControlDriver}
    (driver : ∀ options, (wrap options).driver = ops) :
    Links dev
      (parseControlOptions dev
        (do
          let options ← parseOptions
          pure (some (wrap options)))
        ops) := by
  have reads :
      Ensures (fun _ => dev.Linked)
        (do
          let options ← parseOptions
          pure (some (wrap options)))
        fun parsed _ =>
          dev.Linked ∧
            ∃ options, parsed = some options ∧ options.driver = ops := by
    rintro parser parsed final linked returns
    obtain ⟨options, middle, _, wrapped⟩ := bind_eq_ok returns
    cases wrapped
    exact ⟨linked, wrap options, rfl, driver options⟩
  refine Ensures.bind reads fun parsed => .ite ?_ ?_
  · intro _
    refine setControlOps_ensures ?_
    rintro _ ⟨linked, options, isOptions, ofDriver⟩
    refine { linked with options := ?_ }
    rintro driver ⟨⟩ _
    exact ⟨options, isOptions, ofDriver⟩
  · rintro missing _ _ _ ⟨_, options, isOptions, _⟩ _
    exact absurd (isOptions ▸ rfl) missing

/-- Of the keys with a scalar, those for the console and the board bring more. -/
theorem scalarKey_links
    (dev : DeviceConfig)
    (key value : CString) :
    Links dev (scalarKey dev key value) := by
  refine .ite (fun _ => ?board) fun _ => .ite (fun _ => ?name) fun _ =>
    .ite (fun _ => ?cdba) fun _ => .ite (fun _ => ?conmux) fun _ =>
    .ite (fun _ => ?alpaca) fun _ => .ite (fun _ => ?external) fun _ =>
    .ite (fun _ => ?qcomltDbg) fun _ => .ite (fun _ => ?console) fun _ =>
    .ite (fun _ => ?voltage) fun _ => .ite (fun _ => ?fastboot) fun _ =>
    .ite (fun _ => ?setActive) fun _ => .ite (fun _ => ?broken) fun _ =>
    .ite (fun _ => ?description) fun _ => .ite (fun _ => ?timeout) fun _ =>
    .ite (fun _ => ?usbAlwaysOn) fun _ => .ite (fun _ => ?ppps) fun _ =>
    .ite (fun _ => ?ppps3) fun _ => .ite (fun _ => ?statusCmd) fun _ =>
    .ite (fun _ => ?powerAlwaysOn) fun _ => .stop _
  case cdba => exact setControlDev_links dev value rfl
  case alpaca => exact setControlDev_links dev value rfl
  case external => exact setControlDev_links dev value rfl
  case qcomltDbg => exact setControlDev_links dev value rfl
  case conmux =>
    -- Between the two the device has a console, but nothing to open it with.
    have control :
        Ensures (fun _ => dev.Linked)
          (setControlOps
            { dev with controlDev := some value, consoleDev := some value }
            .conmux)
          fun next _ =>
            dev.Linked ∧
              next =
                { dev with
                  controlDev := some value
                  consoleDev := some value
                  controlOps := some .conmux } :=
      setControlOps_ensures fun _ linked => ⟨linked, rfl⟩
    refine Ensures.bind control fun next => setConsoleOps_ensures ?_
    rintro _ ⟨linked, rfl⟩
    refine { linked with console := nofun, options := ?_ }
    rintro driver ⟨⟩ parses
    cases parses
  case console =>
    exact setConsoleOps_ensures fun _ linked =>
      { linked with console := nofun }
  case fastboot =>
    exact .pure fun _ linked => { linked with boot := nofun }
  case broken =>
    exact .ite (fun _ => .pure fun _ linked => { linked with boot := nofun })
      fun _ => .pure fun _ => id
  case setActive =>
    exact .ite (fun _ => .pure fun _ linked => { linked with })
      fun _ => .pure fun _ linked => { linked with }
  all_goals exact .pure fun _ linked => { linked with }

theorem parseUsers_links
    (dev : DeviceConfig) :
    Links dev (parseUsers dev) := by
  refine Ensures.bind .fact fun empty => ?_
  cases empty with
  | some _ => exact .pure fun _ linked => { linked with }
  | none =>
      exact Ensures.bind .fact fun _ => Ensures.bind .fact fun _ =>
        Ensures.bind .fact fun _ => .pure fun _ linked => { linked with }

/-- Every key keeps the pointers of a device together. -/
theorem boardKey_links
    (dev : DeviceConfig)
    (key : CString) :
    Links dev (boardKey dev key) := by
  refine .ite (fun _ => parseUsers_links dev) fun _ => ?_
  refine .ite (fun _ => parseControlOptions_links dev fun _ => rfl)
    fun _ => ?_
  refine .ite (fun _ => parseControlOptions_links dev fun _ => rfl)
    fun _ => ?_
  refine .ite (fun _ => parseControlOptions_links dev fun _ => rfl)
    fun _ => ?_
  exact Ensures.bind .fact fun value => scalarKey_links dev key value

/-! ## The keys of a board are read to their end -/

theorem setControlOps_reading
    (dev : DeviceConfig)
    (ops : ControlDriver) :
    Reading (setControlOps dev ops) :=
  .ite (.stop (exit_terminates 1)) (.pure _)

theorem setConsoleOps_reading
    (dev : DeviceConfig)
    (ops : ConsoleDriver) :
    Reading (setConsoleOps dev ops) :=
  .ite (.stop (exit_terminates 1)) (.pure _)

theorem parseUsers_reading
    (dev : DeviceConfig) :
    Reading (parseUsers dev) := by
  refine Relates.bind (deviceParserAccept_reading (scalar_never _))
    fun empty => ?_
  cases empty with
  | some _ => exact .pure _
  | none =>
      exact Relates.bind (deviceParserExpect_reading (ofType_never nofun))
        fun _ => Relates.bind
          (whileAccepted_reading (scalar_never _) (fun _ _ => .pure _) _)
          fun _ => Relates.bind
            (deviceParserExpect_reading (ofType_never nofun))
            fun _ => .pure _

theorem parseControlOptions_reading
    (dev : DeviceConfig)
    {parseOptions : ConfigM α}
    {wrap : α → ControlOptions}
    (ops : ControlDriver)
    (reads : Reading parseOptions) :
    Reading
      (parseControlOptions dev
        (do
          let options ← parseOptions
          pure (some (wrap options)))
        ops) :=
  Relates.bind (Relates.bind reads fun _ => .pure _) fun _ =>
    .ite (setControlOps_reading _ ops) (.pure _)

theorem scalarKey_reading
    (dev : DeviceConfig)
    (key value : CString) :
    Reading (scalarKey dev key value) := by
  refine .ite (.pure _) (.ite (.pure _)
    (.ite (setControlOps_reading _ _) (.ite ?conmux
    (.ite (setControlOps_reading _ _) (.ite (setControlOps_reading _ _)
    (.ite (setControlOps_reading _ _) (.ite (setConsoleOps_reading _ _)
    (.ite (.pure _) (.ite (.pure _) (.ite (.ite (.pure _) (.pure _))
    (.ite (.ite (.pure _) (.pure _)) (.ite (.pure _) (.ite (.pure _)
    (.ite (.pure _) (.ite (.pure _) (.ite (.pure _) (.ite (.pure _)
    (.ite (.pure _) (.stop (exit_terminates 1))))))))))))))))))))
  exact Relates.bind (setControlOps_reading _ _) fun _ =>
    setConsoleOps_reading _ _

/-- A key only takes events, and devices are not added before the board ends. -/
theorem boardKey_reading
    (dev : DeviceConfig)
    (key : CString) :
    Reading (boardKey dev key) :=
  .ite (parseUsers_reading dev)
    (.ite (parseControlOptions_reading dev _ localGpioParseOptions_reading)
      (.ite (parseControlOptions_reading dev _ ftdiGpioParseOptions_reading)
        (.ite (parseControlOptions_reading dev _ laurentParseOptions_reading)
          (value_reading fun value => scalarKey_reading dev key value))))

/-! ## Boards -/

/-- The devices that were added to those there before are usable. -/
def AddsUsable
    (existing : List DeviceConfig)
    (parser : DeviceParser DeviceConfig) :
    Prop :=
  ∃ added,
    parser.devices = existing ++ added ∧ ∀ dev, dev ∈ added → dev.Usable

/-- What holds while the keys of a board are read. -/
def Parsing
    (existing : List DeviceConfig)
    (dev : DeviceConfig)
    (parser : DeviceParser DeviceConfig) :
    Prop :=
  dev.Linked ∧ AddsUsable existing parser

/-- Reading adds no device. -/
theorem AddsUsable.advance
    {existing : List DeviceConfig}
    {first last : DeviceParser DeviceConfig}
    (adds : AddsUsable existing first)
    (advances : Advances first last) :
    AddsUsable existing last := by
  unfold AddsUsable
  rw [advances.devices]
  exact adds

theorem addsUsable_of_reading
    {existing : List DeviceConfig}
    {program : ConfigM α}
    (reads : Reading program) :
    Ensures (AddsUsable existing) program fun _ => AddsUsable existing :=
  Ensures.of_relates reads fun _ _ _ adds => adds.advance

/-- The start or the end of a mapping or a sequence adds no device. -/
theorem expect_addsUsable
    {existing : List DeviceConfig}
    (type : YamlEvent)
    (some_ : type ≠ .noEvent) :
    Ensures (AddsUsable existing) (deviceParserExpect (ofType type))
      fun _ => AddsUsable existing :=
  addsUsable_of_reading (deviceParserExpect_reading (ofType_never some_))

theorem boardKey_parsing
    (existing : List DeviceConfig)
    (dev : DeviceConfig)
    (key : CString) :
    Ensures (Parsing existing dev) (boardKey dev key) (Parsing existing) := by
  rintro parser next final ⟨linked, adds⟩ returns
  exact ⟨boardKey_links dev key parser next final linked returns,
    addsUsable_of_reading (boardKey_reading dev key) parser next final adds
      returns⟩

/-- A board is only added when it has become usable. -/
theorem parseBoard_addsUsable
    (existing : List DeviceConfig) :
    Ensures (AddsUsable existing) parseBoard
      fun _ => AddsUsable existing := by
  have keys :
      Ensures (Parsing existing .zero)
        (whileAccepted (scalar tokenLength) boardKey .zero)
        (Parsing existing) :=
    whileAccepted_ensures
      (fun _ _ _ parsing advances =>
        ⟨parsing.1, parsing.2.advance advances⟩)
      (scalar_never _) (boardKey_parsing existing) _
  intro parser value final adds returns
  obtain ⟨dev, middle, ran, rest⟩ := bind_eq_ok returns
  obtain ⟨linked, added, devices, usable⟩ :=
    keys parser dev middle ⟨zero_linked, adds⟩ ran
  split at rest
  · cases rest
  · rename_i checked
    cases rest
    refine ⟨added ++ [dev], by simp [devices], ?_⟩
    intro query member
    rcases List.mem_append.mp member with before | last
    · exact usable query before
    · rw [List.mem_singleton.mp last]
      exact linked.usable checked

theorem parseBoards_addsUsable
    (existing : List DeviceConfig) :
    Ensures (AddsUsable existing) parseBoards
      fun _ => AddsUsable existing :=
  Ensures.bind (expect_addsUsable .sequenceStart nofun) fun _ =>
    Ensures.bind
      (whileAccepted_ensures (fun _ _ _ => AddsUsable.advance)
        (show ofType .mappingStart .noEvent = none from rfl)
        (fun _ _ => Ensures.bind (parseBoard_addsUsable existing)
          fun _ => expect_addsUsable .mappingEnd nofun)
        ())
      fun _ => expect_addsUsable .sequenceEnd nofun

/-- Whatever the parser adds, if it returns, is usable. -/
theorem deviceParser_addsUsable
    (file : Option (List YamlEvent))
    (existing : List DeviceConfig) :
    Ensures (AddsUsable existing) (deviceParser file)
      fun _ => AddsUsable existing := by
  cases file with
  | none => exact .pure fun _ => id
  | some events =>
      have opens :
          Ensures (AddsUsable existing)
            (update (fun parser =>
              { parser with event := .noEvent, upcoming := events }) :
                ConfigM Unit)
            fun _ => AddsUsable existing :=
        .update fun _ adds => adds
      refine Ensures.bind opens fun _ => ?_
      refine Ensures.bind (addsUsable_of_reading nextsym_reading) fun _ => ?_
      refine Ensures.bind (expect_addsUsable .streamStart nofun) fun _ =>
        Ensures.bind (expect_addsUsable .documentStart nofun) fun _ =>
        Ensures.bind (expect_addsUsable .mappingStart nofun) fun _ => ?_
      refine Ensures.bind (addsUsable_of_reading
        (deviceParserAccept_reading (scalar_never _))) fun key => ?_
      refine Ensures.bind ?_ fun _ =>
        Ensures.bind (expect_addsUsable .mappingEnd nofun) fun _ =>
        Ensures.bind (expect_addsUsable .documentEnd nofun) fun _ =>
        Ensures.bind (expect_addsUsable .streamEnd nofun) fun _ =>
        .pure fun _ => id
      exact .ite (fun _ => parseBoards_addsUsable existing)
        fun _ => .pure fun _ => id

/-! ## The parser always ends -/

/-- Events are only taken. -/
structure Consumes (first last : DeviceParser DeviceConfig) : Prop where
  remaining : last.remaining ≤ first.remaining

instance : Composes Consumes where
  refl := fun _ => ⟨Nat.le_refl _⟩
  trans := fun first second =>
    ⟨Nat.le_trans second.remaining first.remaining⟩

/-- Programs that take events, and do not go on forever. -/
abbrev Consuming (program : ConfigM α) : Prop :=
  Relates Consumes Terminates program

theorem consuming_of_reading
    {program : ConfigM α}
    (reads : Reading program) :
    Consuming program :=
  fun parser => ⟨⟨(reads parser).related.remaining⟩, (reads parser).stops⟩

theorem expect_consuming
    (type : YamlEvent)
    (some_ : type ≠ .noEvent) :
    Consuming (deviceParserExpect (ofType type)) :=
  consuming_of_reading (deviceParserExpect_reading (ofType_never some_))

theorem parseBoard_consuming :
    Consuming parseBoard := by
  refine Relates.bind (consuming_of_reading
    (whileAccepted_reading (scalar_never _) boardKey_reading _)) fun dev => ?_
  refine .ite (.stop (exit_terminates 1)) ?_
  exact fun parser => .of_ok (update_apply _ parser) ⟨Nat.le_refl _⟩

theorem parseBoards_consuming :
    Consuming parseBoards :=
  Relates.bind (expect_consuming .sequenceStart nofun) fun _ =>
    Relates.bind
      (whileAccepted_relates (fun _ _ advances => ⟨advances.remaining⟩)
        (fun _ _ consumes => consumes.remaining)
        (show ofType .mappingStart .noEvent = none from rfl)
        (fun _ _ => Relates.bind parseBoard_consuming
          fun _ => expect_consuming .mappingEnd nofun)
        ())
      fun _ => expect_consuming .sequenceEnd nofun

/-- On every stream of events the parser returns or ends the process. -/
theorem deviceParser_terminates
    (file : Option (List YamlEvent))
    (parser : DeviceParser DeviceConfig) :
    stopped? (deviceParser file parser) ≠ some .diverges := by
  intro diverges
  cases file with
  | none => cases diverges
  | some events =>
      have boards :
          ∀ key : Option CString,
            Consuming (onlyIf key.isSome parseBoards) :=
        fun _ => .ite parseBoards_consuming (.pure ())
      have reads :=
        Relates.bind (consuming_of_reading nextsym_reading) fun _ =>
          Relates.bind (expect_consuming .streamStart nofun) fun _ =>
          Relates.bind (expect_consuming .documentStart nofun) fun _ =>
          Relates.bind (expect_consuming .mappingStart nofun) fun _ =>
          Relates.bind (consuming_of_reading
            (deviceParserAccept_reading (scalar_never tokenLength)))
            fun key => Relates.bind (boards key) fun _ =>
          Relates.bind (expect_consuming .mappingEnd nofun) fun _ =>
          Relates.bind (expect_consuming .documentEnd nofun) fun _ =>
          Relates.bind (expect_consuming .streamEnd nofun) fun _ =>
          Relates.pure (0 : Int)
      exact (reads { parser with event := .noEvent, upcoming := events }).stops
        .diverges diverges rfl

/-! ## Sessions with configured devices -/

/-- A reason to stop other than a NULL console. -/
def Stop.NotConsole (reason : Stop) : Prop :=
  reason ≠ .assertFailed ∧ reason ≠ .nullDeref .consoleOps

/-- Without a device that lacks a console, no message stops at one. -/
theorem messagesMayStop_notConsole
    {start : Hw n}
    (consoles : ∀ device, (start.devices device).console ≠ none) :
    Permission.everything.MessagesMayStop Stop.NotConsole start where
  null := by
    intro pointer missing
    refine ⟨nofun, ?_⟩
    rintro ⟨⟩
    obtain ⟨device, _, missing⟩ := missing rfl
    exact consoles device missing
  exits := fun _ => ⟨nofun, nofun⟩
  asserts := fun device _ missing => absurd missing (consoles device)

/-- A session with devices that have a console never stops at a NULL one. -/
theorem watchMainLoop_notConsole
    {start : ServerLoop n}
    (consoles :
      ∀ device, (start.state.hw.devices device).console ≠ none)
    {iterations : List (List Callback)}
    {reason : Stop}
    (stopped : stopped? (watchMainLoop iterations start) = some reason) :
    reason.NotConsole := by
  have guards :
      Permission.everything.Guards start.state start.state :=
    ⟨everything_kept _, fun _ _ => trivial, rfl⟩
  have run := watchMainLoop_guarding (messagesMayStop_notConsole consoles)
    ⟨nofun, nofun⟩ ⟨nofun, nofun⟩ (everything_publishes _ _)
    (fun _ _ _ => trivial) (everything_forwardsAll iterations) start guards
  unfold KeepsAt at run
  cases outcome : watchMainLoop iterations start with
  | ok value final =>
      rw [outcome] at stopped
      cases stopped
  | error reason final =>
      rw [outcome] at stopped run
      cases stopped
      exact run.1

/-- The devices of a server are devices that the parser has added. -/
def Configured
    (added : List DeviceConfig)
    (devices : Fin n → Device) :
    Prop :=
  ∀ device, ∃ dev, dev ∈ added ∧ dev.toDevice? = some (devices device)

/--
Every device that the parser adds from a stream of events that it accepts is
usable and makes a device for the server; and with such devices, in no session
do the assertions of `device_open` fail, nor does a write go to a NULL console.
-/
theorem deviceParser_usable
    {file : Option (List YamlEvent)}
    {parser final : DeviceParser DeviceConfig}
    {status : Int}
    (accepted : deviceParser file parser = .ok status final) :
    ∃ added,
      final.devices = parser.devices ++ added ∧
        (∀ dev, dev ∈ added →
          dev.Usable ∧ ∃ device, dev.toDevice? = some device) ∧
        ∀ (n : Nat) (devices : Fin n → Device),
          Configured added devices →
          ∀ username stdin hw lockOpens flocks iterations reason,
            stopped?
              (watchMainLoop iterations
                (Server.start devices username stdin hw lockOpens flocks)) =
              some reason →
            reason ≠ .assertFailed ∧ reason ≠ .nullDeref .consoleOps := by
  have nothingYet : AddsUsable parser.devices parser :=
    ⟨[], (List.append_nil _).symm, fun _ member => nomatch member⟩
  obtain ⟨added, isAdded, usable⟩ :=
    deviceParser_addsUsable file parser.devices parser status final
      nothingYet accepted
  refine ⟨added, isAdded,
    fun dev member => ⟨usable dev member, toDevice?_usable (usable dev member)⟩,
    ?_⟩
  intro n devices configured username stdin hw lockOpens flocks iterations
    reason stopped
  have consoles : ∀ device, (devices device).console ≠ none := by
    intro device
    obtain ⟨dev, member, isDevice⟩ := configured device
    obtain ⟨driver, isDriver, _⟩ := (usable dev member).console
    rw [(console_toDevice? isDevice).1, isDriver]
    exact Option.some_ne_none driver
  exact watchMainLoop_notConsole consoles stopped

/-- A stream with one board, behind an FTDI adapter with a power key. -/
def ftdiBoardEvents : List YamlEvent :=
  [.streamStart, .documentStart, .mappingStart, .scalar (ascii "devices"),
    .sequenceStart, .mappingStart,
    .scalar (ascii "fastboot"), .scalar (ascii "5350ce01"),
    .scalar (ascii "ftdi_gpio"), .mappingStart,
    .scalar (ascii "power_key"), .mappingStart,
    .scalar (ascii "line"), .scalar (ascii "3"), .mappingEnd,
    .scalar (ascii "vendor"), .scalar (ascii "0x0403"), .mappingEnd,
    .scalar (ascii "console"), .scalar (ascii "/dev/ttyUSB0"),
    .scalar (ascii "board"), .scalar (ascii "db410c"),
    .mappingEnd, .sequenceEnd, .mappingEnd, .documentEnd, .streamEnd]

/-- Nothing has been read and no device added. -/
def freshParser : DeviceParser DeviceConfig where
  event := .noEvent
  upcoming := []
  uninitialised := []
  devices := []

deriving instance DecidableEq for Device

/-- From that stream comes one usable device, the board of the bench. -/
theorem ftdiBoardEvents_usable :
    ∃ dev,
      (finalState (deviceParser (some ftdiBoardEvents) freshParser)).devices =
        [dev] ∧
        dev.Usable ∧
        ∀ stdin flocks iterations reason,
          stopped? (watchMainLoop iterations (benchServer stdin flocks)) =
            some reason →
          reason ≠ .assertFailed ∧ reason ≠ .nullDeref .consoleOps := by
  obtain ⟨added, isAdded, usable, sessions⟩ :=
    deviceParser_usable
      (eq_ok_of_returned
        (show returned? (deviceParser (some ftdiBoardEvents) freshParser) =
            some 0 by decide +kernel))
  have one :
      (finalState
        (deviceParser (some ftdiBoardEvents) freshParser)).devices.map
          DeviceConfig.toDevice? =
        [some ftdiBoard] := by
    decide +kernel
  obtain ⟨dev, rest, isDevices, isBoard, isRest⟩ := List.map_eq_cons_iff.mp one
  cases List.map_eq_nil_iff.mp isRest
  rw [isDevices] at isAdded ⊢
  cases isAdded
  exact ⟨dev, rfl, (usable dev List.mem_cons_self).1,
    fun stdin flocks => sessions 1 (fun _ => ftdiBoard)
      (fun _ => ⟨dev, List.mem_cons_self, isBoard⟩) _ stdin _ [] flocks⟩

end Cdba
