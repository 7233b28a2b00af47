import Cdba.ControlTty
import Cdba.DriverOptions
import Cdba.OutputPins
import Cdba.ShadowLines

namespace Cdba

/-!
# The lines of the local GPIO driver

`local-gpio.c` drives GPIOs of the host through libgpiod, of which there are two
versions with a file each.  Unlike the lines behind an FTDI adapter, each of
these lines is requested for itself and driven alone.

libgpiod is a parameter.  What the driver relies on is what its documentation
says: a line in use cannot be requested, a requested line drives the value that
was set last, inverted if it was requested as active low, and a call that fails
changes nothing.
-/

/-! ## libgpiod -/

/-- The functions of libgpiod 1 that the driver calls; `none` is a failure. -/
structure Gpiod1 (State Chip Line : Type) where
  chipOpenLookup : Option CString → Option Chip
  chipGetLine : Chip → UInt32 → Option Line
  /-- for an output, with the flag for active low and the first value -/
  lineRequest : State → Line → Bool → Bool → Option State
  /-- the state afterwards, and what is returned -/
  lineSetValue : State → Line → Bool → State × Int

/-- The functions of libgpiod 2 that the driver calls; `none` is a failure. -/
structure Gpiod2 (State Chip Line : Type) where
  chipOpen : CString → Option Chip
  /-- for one output, with the setting for active low and the first value -/
  chipRequestLines :
    State → Chip → UInt32 → Bool → Bool → Option (Line × State)
  lineRequestSetValue : State → Line → UInt32 → Bool → State × Int

/-- What can be seen of libgpiod's state from outside. -/
structure GpioView (State Line Pin : Type) where
  pin : Line → Pin
  pins : State → OutputPins Pin
  activeLow : State → Line → Bool

section Views

variable {State Chip Line Pin : Type}

/-- A line comes into use as an output. -/
structure GpioView.Requested
    (view : GpioView State Line Pin)
    (before after : State)
    (line : Line)
    (activeLow value : Bool) : Prop where
  pins :
    OutputPins.Requests (view.pins before) (view.pins after) (view.pin line)
      (value ^^ activeLow)
  activeLow : view.activeLow after line = activeLow
  others :
    ∀ other, view.pin other ≠ view.pin line →
      view.activeLow after other = view.activeLow before other

/-- What setting the value of a line does, by what is returned. -/
structure GpioView.ValueSet
    (view : GpioView State Line Pin)
    (before : State)
    (line : Line)
    (value : Bool)
    (result : State × Int) : Prop where
  done :
    0 ≤ result.2 →
      OutputPins.Drives (view.pins before) (view.pins result.1)
        (view.pin line) (value ^^ view.activeLow before line)
  failed : result.2 < 0 → view.pins result.1 = view.pins before
  activeLow : view.activeLow result.1 = view.activeLow before

/-- libgpiod 1 behaves as documented. -/
structure Gpiod1.Documented
    (gpiod : Gpiod1 State Chip Line)
    (view : GpioView State Line Pin) : Prop where
  lineRequest :
    ∀ before line activeLow value after,
      gpiod.lineRequest before line activeLow value = some after →
      view.Requested before after line activeLow value
  lineSetValue :
    ∀ before line value,
      (view.pins before (view.pin line)).isSome = true →
      view.ValueSet before line value
        (gpiod.lineSetValue before line value)

/-- libgpiod 2 behaves as documented. -/
structure Gpiod2.Documented
    (gpiod : Gpiod2 State Chip Line)
    (view : GpioView State Line Pin) : Prop where
  chipRequestLines :
    ∀ before chip offset activeLow value line after,
      gpiod.chipRequestLines before chip offset activeLow value =
        some (line, after) →
      view.Requested before after line activeLow value
  lineRequestSetValue :
    ∀ before line offset value,
      (view.pins before (view.pin line)).isSome = true →
      view.ValueSet before line value
        (gpiod.lineRequestSetValue before line offset value)

/-- libgpiod, of the version that the driver was built for. -/
inductive Gpiod (State Chip Line : Type) where
  | v1 (gpiod : Gpiod1 State Chip Line)
  | v2 (gpiod : Gpiod2 State Chip Line)

/-- Either version behaves as documented. -/
def Gpiod.Documented
    (view : GpioView State Line Pin) :
    Gpiod State Chip Line → Prop
  | .v1 gpiod => gpiod.Documented view
  | .v2 gpiod => gpiod.Documented view

/-! ## The driver -/

/-- `struct local_gpio`, with the state of libgpiod.  `attempts` is not part of
the program: it records the values that were set, and whether that succeeded. -/
structure LocalGpioState (State Line : Type) where
  options : LocalGpioOptions
  lines : LocalGpio → Option Line
  host : State
  attempts : List ((LocalGpio × Bool) × Bool)

/-- The GPIOs in the order of their enumeration. -/
def localGpios : List LocalGpio :=
  [.power, .fastbootKey, .powerKey, .usbDisconnect]

namespace Gpiod

variable (gpiod : Gpiod State Chip Line)

/-- The body of the loop of either `local_gpio_init` for a present GPIO. -/
def requestLine (host : State) (line : LocalGpioLine) :
    Option (Line × State) :=
  match gpiod with
  | .v1 gpiod => do
      let chip ← gpiod.chipOpenLookup line.chip
      let found ← gpiod.chipGetLine chip line.offset
      let requested ← gpiod.lineRequest host found line.activeLow false
      some (found, requested)
  | .v2 gpiod => do
      let name := line.chip.getD (ascii "(null)")
      let chip ← gpiod.chipOpen (ascii "/dev/" ++ name)
      gpiod.chipRequestLines host chip line.offset line.activeLow false

/-- `local_gpio_set_value` on the line of a GPIO -/
def setValue (host : State) (line : LocalGpioLine) (found : Line)
    (on : Bool) : State × Int :=
  match gpiod with
  | .v1 gpiod => gpiod.lineSetValue host found on
  | .v2 gpiod => gpiod.lineRequestSetValue host found line.offset on

/-- One round of the loop of `local_gpio_init` -/
def initLine
    (localGpio : LocalGpioState State Line)
    (gpio : LocalGpio) :
    Option (LocalGpioState State Line) :=
  let line := localGpio.options.gpios gpio
  if !line.present then
    some localGpio
  else do
    let (found, host) ← gpiod.requestLine localGpio.host line
    some
      { localGpio with
        lines := Function.update localGpio.lines gpio (some found)
        host := host }

/-- `local_gpio_init`; `none` is an `err()`, which ends the server -/
def localGpioInit
    (localGpio : LocalGpioState State Line) :
    Option (LocalGpioState State Line) :=
  localGpios.foldlM gpiod.initLine localGpio

/--
`local_gpio_toggle_io`.  If the value cannot be set, there is a warning and
nothing else.
-/
def localGpioToggleIo
    (localGpio : LocalGpioState State Line)
    (gpio : LocalGpio)
    (on : Bool) :
    LocalGpioState State Line :=
  let line := localGpio.options.gpios gpio
  match line.present, localGpio.lines gpio with
  | true, some found =>
      let result := gpiod.setValue localGpio.host line found on
      { localGpio with
        host := result.1
        attempts :=
          localGpio.attempts ++ [((gpio, on), decide (0 ≤ result.2))] }
  -- a present GPIO has a line once local_gpio_init has returned
  | _, _ => localGpio

/-- `local_gpio_device_power` -/
def localGpioDevicePower
    (localGpio : LocalGpioState State Line)
    (on : Bool) :
    LocalGpioState State Line :=
  gpiod.localGpioToggleIo localGpio .power on

/-- `local_gpio_device_usb` -/
def localGpioDeviceUsb
    (localGpio : LocalGpioState State Line)
    (on : Bool) :
    LocalGpioState State Line :=
  gpiod.localGpioToggleIo localGpio .usbDisconnect on

/-- `local_gpio_open` -/
def localGpioOpen
    (options : LocalGpioOptions)
    (usbAlwaysOn : Bool)
    (host : State) :
    Option (LocalGpioState State Line) := do
  let localGpio ← gpiod.localGpioInit ⟨options, fun _ => none, host, []⟩
  let localGpio := gpiod.localGpioDevicePower localGpio false
  some (if usbAlwaysOn then
    gpiod.localGpioDeviceUsb localGpio true
  else
    gpiod.localGpioDeviceUsb localGpio false)

/-- `local_gpio_power`, `local_gpio_usb` and `local_gpio_key` -/
def localGpioCall
    (localGpio : LocalGpioState State Line) :
    ControlCall → LocalGpioState State Line
  | .power on => gpiod.localGpioDevicePower localGpio on
  | .usb on => gpiod.localGpioDeviceUsb localGpio on
  | .key pressed asserted =>
      if pressed = deviceKeyFastboot then
        gpiod.localGpioToggleIo localGpio .fastbootKey asserted
      else if pressed = deviceKeyPower then
        gpiod.localGpioToggleIo localGpio .powerKey asserted
      else
        localGpio
  | .requestStatus => localGpio

/-- Any number of calls. -/
def localGpioCalls
    (localGpio : LocalGpioState State Line)
    (calls : List ControlCall) :
    LocalGpioState State Line :=
  calls.foldl gpiod.localGpioCall localGpio

end Gpiod

/-! ## What is requested of the GPIOs -/

/-- The GPIO of what a call switches. -/
def ControlLine.localGpio : ControlLine → LocalGpio
  | .power => .power
  | .usb => .usbDisconnect
  | .fastbootKey => .fastbootKey
  | .powerKey => .powerKey

/-- The levels that opening the driver and some calls request. -/
def localRequests
    (usbAlwaysOn : Bool)
    (calls : List ControlCall) :
    List (LocalGpio × Bool) :=
  [(.power, false), (.usbDisconnect, usbAlwaysOn)] ++
    calls.filterMap fun call =>
      call.sets.map fun switch => (switch.1.localGpio, switch.2)

/-- Those of the requests that are about a present GPIO. -/
def LocalGpioOptions.wanted
    (options : LocalGpioOptions)
    (made : List (LocalGpio × Bool)) :
    List (LocalGpio × Bool) :=
  made.filter fun request => (options.gpios request.1).present

/-- The values that were set. -/
def LocalGpioState.succeeded
    (localGpio : LocalGpioState State Line) :
    List (LocalGpio × Bool) :=
  (localGpio.attempts.filter Prod.snd).map Prod.fst

/--
Every present GPIO of those that were looked at has a line of its own, which
drives a level.
-/
structure LocalGpioState.Drives
    (view : GpioView State Line Pin)
    (options : LocalGpioOptions)
    (opened : List LocalGpio)
    (level : LocalGpio → Bool)
    (localGpio : LocalGpioState State Line) :
    Prop where
  configured : localGpio.options = options
  wired :
    ∀ gpio, gpio ∈ opened → (options.gpios gpio).present = true →
      (localGpio.lines gpio).isSome = true
  absent :
    ∀ gpio, (options.gpios gpio).present = false →
      localGpio.lines gpio = none
  activeLow :
    ∀ gpio line, localGpio.lines gpio = some line →
      view.activeLow localGpio.host line =
        (options.gpios gpio).activeLow
  carries :
    (view.pins localGpio.host).Carries
      (fun gpio => (localGpio.lines gpio).map view.pin)
      fun gpio => level gpio ^^ (options.gpios gpio).activeLow

/-- Every present GPIO drives the last value that was set, as was requested. -/
structure LocalGpioState.Follows
    (view : GpioView State Line Pin)
    (options : LocalGpioOptions)
    (made : List (LocalGpio × Bool))
    (localGpio : LocalGpioState State Line) :
    Prop where
  drives :
    localGpio.Drives view options localGpios
      fun gpio => Wiring.level gpio localGpio.succeeded
  attempted :
    localGpio.attempts.map Prod.fst = options.wanted made

section Follows

variable {view : GpioView State Line Pin}
variable {gpiod : Gpiod State Chip Line}
variable {options : LocalGpioOptions}

theorem Gpiod.Documented.requested
    (documented : gpiod.Documented view)
    {host after : State}
    {line : LocalGpioLine}
    {found : Line}
    (request : gpiod.requestLine host line = some (found, after)) :
    view.Requested host after found line.activeLow false := by
  cases gpiod with
  | v1 gpiod =>
      simp only [requestLine, Option.bind_eq_bind,
        Option.bind_eq_some_iff, Option.some.injEq, Prod.mk.injEq] at request
      obtain ⟨chip, _, line, _, requested, granted, rfl, rfl⟩ := request
      exact documented.lineRequest _ _ _ _ _ granted
  | v2 gpiod =>
      simp only [requestLine, Option.bind_eq_bind,
        Option.bind_eq_some_iff] at request
      obtain ⟨chip, _, granted⟩ := request
      exact documented.chipRequestLines _ _ _ _ _ _ _ granted

theorem Gpiod.Documented.valueSet
    (documented : gpiod.Documented view)
    {host : State}
    {found : Line}
    (used : (view.pins host (view.pin found)).isSome = true)
    (line : LocalGpioLine)
    (on : Bool) :
    view.ValueSet host found on (gpiod.setValue host line found on) := by
  cases gpiod with
  | v1 gpiod => exact documented.lineSetValue _ _ _ used
  | v2 gpiod => exact documented.lineRequestSetValue _ _ _ _ used

/-- An absent GPIO needs no line. -/
theorem LocalGpioState.Drives.skip
    {seen : List LocalGpio}
    {level : LocalGpio → Bool}
    {localGpio : LocalGpioState State Line}
    {gpio : LocalGpio}
    (drives : localGpio.Drives view options seen level)
    (absent : (options.gpios gpio).present = false) :
    localGpio.Drives view options (seen ++ [gpio]) level := by
  refine { drives with wired := fun other member isPresent => ?_ }
  rcases List.mem_append.mp member with before | last
  · exact drives.wired other before isPresent
  · rw [List.mem_singleton.mp last, absent] at isPresent
    cases isPresent

/-- The pins of the GPIOs, once one more line was requested. -/
theorem pins_update
    (view : GpioView State Line Pin)
    (lines : LocalGpio → Option Line)
    (gpio : LocalGpio)
    (found : Line) :
    (fun other =>
        (Function.update lines gpio (some found) other).map view.pin) =
      Function.update (fun other => (lines other).map view.pin) gpio
        (some (view.pin found)) := by
  funext other
  by_cases isNew : other = gpio
  · rw [isNew, Function.update_self, Function.update_self]
    rfl
  · rw [Function.update_of_ne isNew, Function.update_of_ne isNew]

/-- A present GPIO has a line of its own, once it was requested. -/
theorem LocalGpioState.Drives.request
    {seen : List LocalGpio}
    {localGpio : LocalGpioState State Line}
    {gpio : LocalGpio}
    (drives : localGpio.Drives view options seen fun _ => false)
    (present : (options.gpios gpio).present = true)
    {found : Line}
    {host : State}
    (comes :
      view.Requested localGpio.host host found
        (options.gpios gpio).activeLow false) :
    LocalGpioState.Drives view options (seen ++ [gpio]) (fun _ => false)
      { localGpio with
        lines := Function.update localGpio.lines gpio (some found)
        host := host } := by
  refine ⟨drives.configured, fun other member isPresent => ?_,
    fun other isAbsent => ?_, fun other line wired => ?_, ?_⟩
  · dsimp only
    by_cases isNew : other = gpio
    · rw [isNew, Function.update_self]
      rfl
    · rw [Function.update_of_ne isNew]
      refine drives.wired other ?_ isPresent
      exact (List.mem_append.mp member).resolve_right
        fun last => isNew (List.mem_singleton.mp last)
  · have apart : other ≠ gpio := by
      rintro rfl
      rw [present] at isAbsent
      cases isAbsent
    exact (Function.update_of_ne apart _ _).trans
      (drives.absent other isAbsent)
  · dsimp only at wired ⊢
    by_cases isNew : other = gpio
    · rw [isNew, Function.update_self] at wired
      cases wired
      rw [isNew]
      exact comes.activeLow
    · rw [Function.update_of_ne isNew] at wired
      -- A pin in use is not the one that was free.
      have used := drives.carries.driven other (view.pin line)
        (by rw [wired]; rfl)
      have apart : view.pin line ≠ view.pin found := by
        intro eq
        rw [eq, comes.pins.free] at used
        cases used
      rw [comes.others line apart]
      exact drives.activeLow other line wired
  · have carries := drives.carries.request comes.pins gpio
    rw [Function.update_eq_self gpio
      fun other => false ^^ (options.gpios other).activeLow] at carries
    dsimp only
    rw [pins_update]
    exact carries

/-- A GPIO is looked at, and its line is requested if it is present. -/
theorem initLine_drives
    (documented : gpiod.Documented view)
    {seen : List LocalGpio}
    {localGpio requested : LocalGpioState State Line}
    {gpio : LocalGpio}
    (drives : localGpio.Drives view options seen fun _ => false)
    (request : gpiod.initLine localGpio gpio = some requested) :
    requested.Drives view options (seen ++ [gpio]) (fun _ => false) ∧
      requested.attempts = localGpio.attempts := by
  unfold Gpiod.initLine at request
  rw [drives.configured] at request
  dsimp only at request
  cases present : (options.gpios gpio).present with
  | false =>
      rw [present] at request
      cases request
      exact ⟨drives.skip present, rfl⟩
  | true =>
      rw [present] at request
      simp only [Bool.not_true, Bool.false_eq_true, if_false,
        Option.bind_eq_bind, Option.bind_eq_some_iff,
        Option.some.injEq, Prod.exists] at request
      obtain ⟨found, host, granted, rfl⟩ := request
      have configured := drives.configured
      subst configured
      exact ⟨drives.request present (documented.requested granted), rfl⟩

theorem initLines_drive
    (documented : gpiod.Documented view)
    {seen gpios : List LocalGpio}
    {localGpio requested : LocalGpioState State Line}
    (drives : localGpio.Drives view options seen fun _ => false)
    (requests : gpios.foldlM gpiod.initLine localGpio = some requested) :
    requested.Drives view options (seen ++ gpios) (fun _ => false) ∧
      requested.attempts = localGpio.attempts := by
  induction gpios generalizing seen localGpio with
  | nil =>
      cases requests
      rw [List.append_nil]
      exact ⟨drives, rfl⟩
  | cons gpio rest inductionHypothesis =>
      rw [List.foldlM_cons, Option.bind_eq_bind,
        Option.bind_eq_some_iff] at requests
      obtain ⟨middle, request, later⟩ := requests
      obtain ⟨first, none⟩ := initLine_drives documented drives request
      obtain ⟨all, none'⟩ := inductionHypothesis first later
      rw [List.append_assoc] at all
      exact ⟨all, none'.trans none⟩

/-- One more value that was set changes one voltage. -/
theorem voltage_concat
    (made : List (LocalGpio × Bool))
    (activeLow : LocalGpio → Bool)
    (gpio : LocalGpio)
    (on : Bool) :
    (fun other =>
        Wiring.level other (made ++ [(gpio, on)]) ^^ activeLow other) =
      Function.update
        (fun other => Wiring.level other made ^^ activeLow other) gpio
        (on ^^ activeLow gpio) := by
  funext other
  rw [Wiring.level, Wiring.lastRequest_concat]
  by_cases same : gpio = other
  · rw [if_pos same, same, Function.update_self]
    rfl
  · rw [if_neg same, Function.update_of_ne (Ne.symm same)]
    rfl

/-- One more attempt counts if it succeeded. -/
theorem succeeded_concat
    (options : LocalGpioOptions)
    (lines : LocalGpio → Option Line)
    (host : State)
    (attempts : List ((LocalGpio × Bool) × Bool))
    (request : LocalGpio × Bool)
    (done : Bool) :
    LocalGpioState.succeeded
        ⟨options, lines, host, attempts ++ [(request, done)]⟩ =
      (attempts.filter Prod.snd).map Prod.fst ++
        if done then [request] else [] := by
  cases done <;> simp [LocalGpioState.succeeded, List.filter_append]

/-- A GPIO is toggled if that succeeds, and no other one. -/
theorem localGpioToggleIo_follows
    (documented : gpiod.Documented view)
    {made : List (LocalGpio × Bool)}
    {localGpio : LocalGpioState State Line}
    (follows : localGpio.Follows view options made)
    (gpio : LocalGpio)
    (on : Bool) :
    (gpiod.localGpioToggleIo localGpio gpio on).Follows view options
      (made ++ [(gpio, on)]) := by
  obtain ⟨drives, attempted⟩ := follows
  have isKnown : gpio ∈ localGpios := by
    cases gpio <;> decide
  have wants :
      options.wanted (made ++ [(gpio, on)]) =
        options.wanted made ++
          if (options.gpios gpio).present then [(gpio, on)] else [] := by
    simp [LocalGpioOptions.wanted, List.filter_cons]
  unfold Gpiod.localGpioToggleIo
  rw [drives.configured]
  dsimp only
  cases present : (options.gpios gpio).present with
  | false =>
      refine ⟨drives, ?_⟩
      rw [wants, present, attempted]
      exact (List.append_nil _).symm
  | true =>
      obtain ⟨found, wired⟩ :=
        Option.isSome_iff_exists.mp (drives.wired gpio isKnown present)
      have isWired :
          (localGpio.lines gpio).map view.pin = some (view.pin found) := by
        rw [wired]
        rfl
      have used := drives.carries.driven gpio _ isWired
      have sets := documented.valueSet (by rw [used]; rfl)
        (options.gpios gpio) on
      rw [wired]
      dsimp only
      generalize gpiod.setValue localGpio.host (options.gpios gpio) found
        on = result at sets ⊢
      refine
        { drives :=
            { configured := rfl
              wired := drives.wired
              absent := drives.absent
              activeLow := fun other line isLine => ?_
              carries := ?_ }
          attempted := ?_ }
      · dsimp only
        rw [sets.activeLow]
        exact drives.activeLow other line isLine
      · dsimp only
        by_cases succeeds : 0 ≤ result.2
        · rw [decide_eq_true succeeds, succeeded_concat, if_pos rfl,
            voltage_concat _ fun other => (options.gpios other).activeLow]
          have driven := sets.done succeeds
          rw [drives.activeLow gpio found wired] at driven
          exact drives.carries.drive isWired driven
        · rw [decide_eq_false succeeds, succeeded_concat,
            if_neg Bool.false_ne_true, List.append_nil,
            sets.failed (Int.not_le.mp succeeds)]
          exact drives.carries
      · rw [wants, present, List.map_append, attempted]
        rfl

/-- One call of the driver. -/
theorem localGpioCall_follows
    (documented : gpiod.Documented view)
    {made : List (LocalGpio × Bool)}
    {localGpio : LocalGpioState State Line}
    (follows : localGpio.Follows view options made)
    (call : ControlCall) :
    (gpiod.localGpioCall localGpio call).Follows view options
      (made ++
        (call.sets.map fun switch =>
          (switch.1.localGpio, switch.2)).toList) := by
  have toggled := localGpioToggleIo_follows documented follows
  have untouched : localGpio.Follows view options (made ++ []) := by
    rw [List.append_nil]
    exact follows
  cases call with
  | power on => exact toggled .power on
  | usb on => exact toggled .usbDisconnect on
  | key pressed asserted =>
      unfold Gpiod.localGpioCall ControlCall.sets
      dsimp only
      split
      · exact toggled .fastbootKey asserted
      · split
        · exact toggled .powerKey asserted
        · exact untouched
  | requestStatus => exact untouched

theorem localGpioCalls_follow
    (documented : gpiod.Documented view)
    {made : List (LocalGpio × Bool)}
    {localGpio : LocalGpioState State Line}
    (follows : localGpio.Follows view options made)
    (calls : List ControlCall) :
    (gpiod.localGpioCalls localGpio calls).Follows view options
      (made ++ calls.filterMap fun call =>
        call.sets.map fun switch => (switch.1.localGpio, switch.2)) := by
  unfold Gpiod.localGpioCalls
  induction calls generalizing made localGpio with
  | nil =>
      rw [List.filterMap_nil, List.append_nil]
      exact follows
  | cons call rest inductionHypothesis =>
      have later :=
        inductionHypothesis (localGpioCall_follows documented follows call)
      rw [List.append_assoc] at later
      rw [List.foldl_cons, List.filterMap_cons]
      cases asked : call.sets with
      | none =>
          rw [asked] at later
          exact later
      | some switch =>
          rw [asked] at later
          exact later

theorem localGpioOpen_follows
    (documented : gpiod.Documented view)
    {usbAlwaysOn : Bool}
    {host : State}
    {localGpio : LocalGpioState State Line}
    (opened :
      gpiod.localGpioOpen options usbAlwaysOn host = some localGpio) :
    localGpio.Follows view options
      [(.power, false), (.usbDisconnect, usbAlwaysOn)] := by
  simp only [Gpiod.localGpioOpen, Option.bind_eq_bind,
    Option.bind_eq_some_iff, Option.some.injEq] at opened
  obtain ⟨requested, requests, rfl⟩ := opened
  have fresh :
      LocalGpioState.Drives view options [] (fun _ => false)
        ⟨options, fun _ => none, host, []⟩ :=
    { configured := rfl
      wired := fun _ member => absurd member List.not_mem_nil
      absent := fun _ _ => rfl
      activeLow := fun _ _ none => by cases none
      carries := OutputPins.Carries.nothing _ _ }
  obtain ⟨inactive, none⟩ := initLines_drive documented fresh requests
  have idle : requested.Follows view options [] :=
    { drives := by
        rw [LocalGpioState.succeeded, none]
        exact inactive
      attempted := by
        rw [none]
        rfl }
  have powered := localGpioCall_follows documented idle (.power false)
  have connected := localGpioCall_follows documented powered
    (.usb usbAlwaysOn)
  have usb :
      (if usbAlwaysOn then
          gpiod.localGpioDeviceUsb
            (gpiod.localGpioDevicePower requested false) true
        else
          gpiod.localGpioDeviceUsb
            (gpiod.localGpioDevicePower requested false) false) =
        gpiod.localGpioDeviceUsb
          (gpiod.localGpioDevicePower requested false) usbAlwaysOn := by
    cases usbAlwaysOn <;> rfl
  rw [usb]
  exact connected

/-- A present GPIO has a line of its own, which drives its level. -/
theorem LocalGpioState.Drives.pin
    {localGpio : LocalGpioState State Line}
    {level : LocalGpio → Bool}
    (drives : localGpio.Drives view options localGpios level)
    {gpio : LocalGpio}
    (present : (options.gpios gpio).present = true) :
    ∃ line,
      localGpio.lines gpio = some line ∧
        view.pins localGpio.host (view.pin line) =
          some (level gpio ^^ (options.gpios gpio).activeLow) ∧
        ∀ other line',
          localGpio.lines other = some line' →
          view.pin line' = view.pin line →
          other = gpio := by
  have isKnown : gpio ∈ localGpios := by
    cases gpio <;> decide
  obtain ⟨line, wired⟩ :=
    Option.isSome_iff_exists.mp (drives.wired gpio isKnown present)
  have isWired :
      (localGpio.lines gpio).map view.pin = some (view.pin line) := by
    rw [wired]
    rfl
  refine ⟨line, wired, drives.carries.driven gpio _ isWired,
    fun other line' wired' samePin => ?_⟩
  refine drives.carries.own other gpio _ ?_ isWired
  rw [wired', ← samePin]
  rfl

end Follows

end Views

/-- The lines in use of a chip: what they drive, and whether low is active. -/
abbrev ChipLines :=
  UInt32 → Option (Bool × Bool)

/-- libgpiod 2 on a host with a single chip. -/
def singleChip : Gpiod2 ChipLines Unit UInt32 where
  chipOpen := fun path =>
    if path = ascii "/dev/gpiochip0" then some () else none
  chipRequestLines := fun lines _ offset activeLow value =>
    if lines offset = none then
      some
        (offset,
          Function.update lines offset (some (value ^^ activeLow, activeLow)))
    else
      none
  lineRequestSetValue := fun lines line offset value =>
    match lines line with
    | some (_, activeLow) =>
        if offset = line then
          (Function.update lines line (some (value ^^ activeLow, activeLow)),
            0)
        else
          (lines, -1)
    | none => (lines, -1)

/-- The levels of its lines. -/
def chipView : GpioView ChipLines UInt32 UInt32 where
  pin := id
  pins := fun lines line => (lines line).map Prod.fst
  activeLow := fun lines line => ((lines line).map Prod.snd).getD false

theorem singleChip_documented :
    (Gpiod.v2 singleChip).Documented chipView where
  chipRequestLines := by
    intro before chip offset activeLow value line after request
    simp only [singleChip] at request
    split at request
    next free =>
      simp only [Option.some.injEq, Prod.mk.injEq] at request
      obtain ⟨rfl, rfl⟩ := request
      refine ⟨⟨?_, ?_, fun other apart => ?_⟩, ?_, fun other apart => ?_⟩
      · simp [chipView, free]
      · simp [chipView]
      · simp only [chipView, id_eq] at apart ⊢
        rw [Function.update_of_ne apart]
      · simp [chipView]
      · simp only [chipView, id_eq] at apart ⊢
        rw [Function.update_of_ne apart]
    next => cases request
  lineRequestSetValue := by
    intro before line offset value used
    obtain ⟨⟨level, activeLow⟩, isUsed⟩ :
        ∃ use, before line = some use := by
      refine Option.isSome_iff_exists.mp ?_
      simpa [chipView] using used
    simp only [singleChip, isUsed]
    split
    next =>
      refine ⟨fun _ => ⟨?_, fun other apart => ?_⟩,
        fun failed => absurd failed (lt_irrefl _), ?_⟩
      · simp [chipView, isUsed]
      · simp only [chipView, id_eq] at apart ⊢
        rw [Function.update_of_ne apart]
      · funext other
        by_cases same : other = line
        · simp [chipView, same, isUsed]
        · simp [chipView, Function.update_of_ne same]
    next =>
      exact ⟨fun done => absurd done (by simp), fun _ => rfl, rfl⟩

/-- A power line that is active low, and nothing else. -/
def powerOnly : LocalGpioOptions where
  gpios := fun gpio =>
    if gpio = .power then
      ⟨some (ascii "gpiochip0"), true, 3, true⟩
    else
      ⟨none, false, 0, false⟩

end Cdba
