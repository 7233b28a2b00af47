import Cdba.DriverOptions
import Cdba.Hardware
import Cdba.ShadowLines
import Cdba.Status

namespace Cdba

/-!
# The lines of the FTDI driver

`ftdi-gpio.c` drives its GPIOs through one byte per interface.  Opening the
driver requests levels for all GPIOs but the two keys, so a key that is active
low is held down by the first byte that is written to its interface, until it
is first pressed or released.
-/

/-! ## The driver -/

/--
`struct ftdi_gpio`.  `written` is not part of the program: it records the bytes
that were written with `ftdi_write_data`, with their interfaces.
-/
structure FtdiGpioState where
  options : FtdiGpioOptions
  interface : Nat → Bool
  gpioLines : Nat → UInt8
  written : List (Nat × UInt8)

/-- The GPIOs in the order of their enumeration. -/
def ftdiGpios : List FtdiGpio :=
  [.power, .fastbootKey, .powerKey, .usb0Disconnect, .usb1Disconnect,
    .outputEnable]

/-- The libftdi string that `ftdi_gpio_open` sets up, if it can. -/
def FtdiGpioOptions.libftdi? (options : FtdiGpioOptions) : Option CString :=
  match options.description, options.devicenode, options.vendor,
      options.product with
  | some description, _, _, _ => some description
  | none, some devicenode, _, _ => some (ascii "d:" ++ devicenode)
  | none, none, some vendor, some product =>
      match options.serial with
      | some serial =>
          some (ascii "s:" ++ vendor ++ ascii ":" ++ product ++ ascii ":" ++
            serial)
      | none =>
          if options.index > 0 then
            some (ascii "i:" ++ vendor ++ ascii ":" ++ product ++
              ascii ":" ++ decimal options.index.toNat)
          else
            some (ascii "i:" ++ vendor ++ ascii ":" ++ product)
  | none, none, _, _ => none

/--
Open the interfaces of the GPIOs that are present, each of them once; `opens`
is whether libftdi can open an interface.
-/
def openInterfaces
    (opens : Nat → Bool)
    (options : FtdiGpioOptions) :
    List FtdiGpio → (Nat → Bool) → Option (Nat → Bool)
  | [], interface => some interface
  | gpio :: rest, interface =>
      let line := options.gpios gpio
      if !line.present || interface line.interface then
        openInterfaces opens options rest interface
      else if opens line.interface then
        openInterfaces opens options rest fun query =>
          query = line.interface || interface query
      else
        none

/-- `ftdi_gpio_toggle_io` -/
def ftdiGpioToggleIo
    (ftdi : FtdiGpioState)
    (gpio : FtdiGpio)
    (on : Bool) :
    FtdiGpioState :=
  let line := ftdi.options.gpios gpio
  if !line.present then
    ftdi
  else
    let on := if line.activeLow then !on else on
    let byte :=
      (ftdi.gpioLines line.interface).drive line.offset.toNat on
    { ftdi with
      gpioLines := fun query =>
        if query = line.interface then byte else ftdi.gpioLines query
      written := ftdi.written ++ [(line.interface, byte)] }

/-- `ftdi_gpio_device_power` -/
def ftdiGpioDevicePower (ftdi : FtdiGpioState) (on : Bool) : FtdiGpioState :=
  ftdiGpioToggleIo ftdi .power on

/-- `ftdi_gpio_device_usb` -/
def ftdiGpioDeviceUsb (ftdi : FtdiGpioState) (on : Bool) : FtdiGpioState :=
  let ftdi := ftdiGpioToggleIo ftdi .usb0Disconnect on
  ftdiGpioToggleIo ftdi .usb1Disconnect on

/--
`ftdi_gpio_open`; without a result it ends in `errx()`.  That it sets
`has_power_key` is `ControlDriver.setsPowerKey`.
-/
def ftdiGpioOpen
    (options : FtdiGpioOptions)
    (usbAlwaysOn : Bool)
    (opens : Nat → Bool) :
    Option FtdiGpioState := do
  let description ← options.libftdi?
  let options := { options with description := some description }
  let interface ← openInterfaces opens options ftdiGpios fun _ => false
  let ftdi : FtdiGpioState := ⟨options, interface, fun _ => 0, []⟩
  let ftdi :=
    if (options.gpios .outputEnable).present then
      ftdiGpioToggleIo ftdi .outputEnable true
    else
      ftdi
  let ftdi := ftdiGpioDevicePower ftdi false
  some (if usbAlwaysOn then
    ftdiGpioDeviceUsb ftdi true
  else
    ftdiGpioDeviceUsb ftdi false)

/-- The calls that `device.c` makes to the driver once it is open. -/
inductive FtdiGpioCall where
  | power (on : Bool)
  | usb (on : Bool)
  | key (key : Nat) (asserted : Bool)
  deriving DecidableEq

/-- `ftdi_gpio_power`, `ftdi_gpio_usb` and `ftdi_gpio_key` -/
def ftdiGpioCall (ftdi : FtdiGpioState) : FtdiGpioCall → FtdiGpioState
  | .power on => ftdiGpioDevicePower ftdi on
  | .usb on => ftdiGpioDeviceUsb ftdi on
  | .key pressed asserted =>
      if pressed = deviceKeyFastboot then
        ftdiGpioToggleIo ftdi .fastbootKey asserted
      else if pressed = deviceKeyPower then
        ftdiGpioToggleIo ftdi .powerKey asserted
      else
        ftdi

/-- The driver after a sequence of calls. -/
def ftdiGpioCalls
    (ftdi : FtdiGpioState)
    (calls : List FtdiGpioCall) :
    FtdiGpioState :=
  calls.foldl ftdiGpioCall ftdi

/-! ## What is requested of the GPIOs -/

/-- The levels that opening the driver requests. -/
def openRequests (usbAlwaysOn : Bool) : List (FtdiGpio × Bool) :=
  [(.outputEnable, true), (.power, false), (.usb0Disconnect, usbAlwaysOn),
    (.usb1Disconnect, usbAlwaysOn)]

/-- The levels that a call requests. -/
def FtdiGpioCall.requests : FtdiGpioCall → List (FtdiGpio × Bool)
  | .power on => [(.power, on)]
  | .usb on => [(.usb0Disconnect, on), (.usb1Disconnect, on)]
  | .key pressed asserted =>
      if pressed = deviceKeyFastboot then
        [(.fastbootKey, asserted)]
      else if pressed = deviceKeyPower then
        [(.powerKey, asserted)]
      else
        []

/-- The levels that opening the driver and some calls request. -/
def ftdiRequests
    (usbAlwaysOn : Bool)
    (calls : List FtdiGpioCall) :
    List (FtdiGpio × Bool) :=
  openRequests usbAlwaysOn ++ calls.flatMap FtdiGpioCall.requests

/-- How the options wire the GPIOs up. -/
def FtdiGpioOptions.wiring (options : FtdiGpioOptions) : Wiring FtdiGpio where
  present := fun gpio => (options.gpios gpio).present
  bank := fun gpio => (options.gpios gpio).interface
  line := fun gpio => (options.gpios gpio).offset.toNat
  activeLow := fun gpio => (options.gpios gpio).activeLow

/-- The registers behind the interfaces. -/
def FtdiGpioState.banks (ftdi : FtdiGpioState) : Banks :=
  ⟨ftdi.gpioLines, ftdi.written⟩

/-- The driver has made some requests of its GPIOs. -/
structure FtdiGpioState.HasMade
    (ftdi : FtdiGpioState)
    (wiring : Wiring FtdiGpio)
    (made : List (FtdiGpio × Bool)) :
    Prop where
  wired : ftdi.options.wiring = wiring
  banks : ftdi.banks = wiring.requests .zero made

theorem FtdiGpioState.HasMade.toggle
    {ftdi : FtdiGpioState}
    {wiring : Wiring FtdiGpio}
    {made : List (FtdiGpio × Bool)}
    (hasMade : ftdi.HasMade wiring made)
    (gpio : FtdiGpio)
    (on : Bool) :
    (ftdiGpioToggleIo ftdi gpio on).HasMade wiring
      (made ++ [(gpio, on)]) where
  wired := by
    rw [← hasMade.wired, ftdiGpioToggleIo]
    dsimp only
    split <;> rfl
  banks := by
    rw [Wiring.requests_concat, ← hasMade.banks, ← hasMade.wired,
      ftdiGpioToggleIo, Wiring.request]
    have level :
        (if (ftdi.options.gpios gpio).activeLow then !on else on) =
          (on ^^ (ftdi.options.gpios gpio).activeLow) := by
      cases (ftdi.options.gpios gpio).activeLow <;> cases on <;> rfl
    simp only [level]
    cases present : (ftdi.options.gpios gpio).present with
    | false => simp [FtdiGpioOptions.wiring, present]
    | true =>
        simp only [FtdiGpioOptions.wiring, present, FtdiGpioState.banks,
          Bool.not_true, Bool.false_eq_true, ↓reduceIte, Wiring.nextByte,
          Banks.mk.injEq, and_true]
        rfl

theorem FtdiGpioState.HasMade.call
    {ftdi : FtdiGpioState}
    {wiring : Wiring FtdiGpio}
    {made : List (FtdiGpio × Bool)}
    (hasMade : ftdi.HasMade wiring made)
    (call : FtdiGpioCall) :
    (ftdiGpioCall ftdi call).HasMade wiring (made ++ call.requests) := by
  cases call with
  | power on => exact hasMade.toggle .power on
  | usb on =>
      have both :=
        (hasMade.toggle .usb0Disconnect on).toggle .usb1Disconnect on
      rw [List.append_assoc] at both
      exact both
  | key key asserted =>
      simp only [ftdiGpioCall, FtdiGpioCall.requests]
      split
      · exact hasMade.toggle .fastbootKey asserted
      · split
        · exact hasMade.toggle .powerKey asserted
        · rw [List.append_nil]
          exact hasMade

theorem FtdiGpioState.HasMade.calls
    {ftdi : FtdiGpioState}
    {wiring : Wiring FtdiGpio}
    {made : List (FtdiGpio × Bool)}
    (hasMade : ftdi.HasMade wiring made)
    (calls : List FtdiGpioCall) :
    (ftdiGpioCalls ftdi calls).HasMade wiring
      (made ++ calls.flatMap FtdiGpioCall.requests) := by
  induction calls generalizing ftdi made with
  | nil =>
      rw [List.flatMap_nil, List.append_nil]
      exact hasMade
  | cons call rest inductionHypothesis =>
      rw [List.flatMap_cons, ← List.append_assoc]
      exact inductionHypothesis (hasMade.call call)

/-- An absent GPIO does not notice a request. -/
theorem toggle_absent
    {ftdi : FtdiGpioState}
    {gpio : FtdiGpio}
    (absent : (ftdi.options.gpios gpio).present = false)
    (on : Bool) :
    ftdiGpioToggleIo ftdi gpio on = ftdi := by
  simp [ftdiGpioToggleIo, absent]

theorem ftdiGpioOpen_hasMade
    {options : FtdiGpioOptions}
    {usbAlwaysOn : Bool}
    {opens : Nat → Bool}
    {ftdi : FtdiGpioState}
    (opened : ftdiGpioOpen options usbAlwaysOn opens = some ftdi) :
    ftdi.HasMade options.wiring (openRequests usbAlwaysOn) := by
  simp only [ftdiGpioOpen, Option.bind_eq_bind, Option.bind_eq_some_iff,
    Option.some.injEq] at opened
  obtain ⟨description, _, interface, _, rfl⟩ := opened
  have usb :
      ∀ ftdi : FtdiGpioState,
        (if usbAlwaysOn then
            ftdiGpioDeviceUsb ftdi true
          else
            ftdiGpioDeviceUsb ftdi false) =
          ftdiGpioDeviceUsb ftdi usbAlwaysOn := by
    cases usbAlwaysOn <;> simp
  rw [usb]
  have start :
      FtdiGpioState.HasMade
        ⟨{ options with description := some description }, interface,
          fun _ => 0, []⟩
        options.wiring [] :=
    ⟨rfl, rfl⟩
  have enabled := start.toggle .outputEnable true
  have enabledIfPresent :
      (if (options.gpios .outputEnable).present then
          ftdiGpioToggleIo
            ⟨{ options with description := some description }, interface,
              fun _ => 0, []⟩
            .outputEnable true
        else
          ⟨{ options with description := some description }, interface,
            fun _ => 0, []⟩ : FtdiGpioState).HasMade options.wiring
        [(.outputEnable, true)] := by
    cases present : (options.gpios .outputEnable).present with
    | true => exact enabled
    | false =>
        rw [toggle_absent present] at enabled
        exact enabled
  have powered := enabledIfPresent.toggle .power false
  exact (powered.toggle .usb0Disconnect usbAlwaysOn).toggle
    .usb1Disconnect usbAlwaysOn

/--
After the driver was opened and some calls were made, the last byte written to
every interface drives each of its GPIOs as last requested, exactly when every
active-low GPIO of an interface that was written has been requested itself.
-/
theorem ftdiGpio_follows_iff
    {options : FtdiGpioOptions}
    {usbAlwaysOn : Bool}
    {opens : Nat → Bool}
    {ftdi : FtdiGpioState}
    (separate : options.wiring.Separate)
    (opened : ftdiGpioOpen options usbAlwaysOn opens = some ftdi)
    (calls : List FtdiGpioCall) :
    options.wiring.Follows (ftdiRequests usbAlwaysOn calls)
        (ftdiGpioCalls ftdi calls).written ↔
      ∀ gpio,
        (options.gpios gpio).present = true →
        (options.gpios gpio).activeLow = true →
        options.wiring.Touched (ftdiRequests usbAlwaysOn calls)
          (options.gpios gpio).interface →
        gpio ∈ (ftdiRequests usbAlwaysOn calls).map Prod.fst := by
  have hasMade := (ftdiGpioOpen_hasMade opened).calls calls
  have requested := Wiring.requested_requests separate
    (ftdiRequests usbAlwaysOn calls)
  rw [show options.wiring.requests .zero (ftdiRequests usbAlwaysOn calls) =
    (ftdiGpioCalls ftdi calls).banks from hasMade.banks.symm] at requested
  exact requested.follows_iff

/-- A power switch and an active-low key that share the first interface. -/
def sharedOptions : FtdiGpioOptions :=
  { FtdiGpioOptions.zero with
    devicenode := some (ascii "001/004")
    gpios := fun gpio =>
      match gpio with
      | .power => ⟨true, 0, 0, false⟩
      | .fastbootKey => ⟨true, 0, 1, true⟩
      | _ => ⟨false, 0, 0, false⟩ }

/-- The two GPIOs have lines of their own. -/
theorem sharedOptions_separate :
    sharedOptions.wiring.Separate where
  inside := by
    intro gpio _
    cases gpio <;> decide
  distinct := by
    intro first second _ _ _
    cases first <;> cases second <;> simp_all [sharedOptions,
      FtdiGpioOptions.wiring]

/-- The driver of the two GPIOs, once it is open. -/
def sharedFtdi : FtdiGpioState where
  options :=
    { sharedOptions with description := some (ascii "d:001/004") }
  interface := fun query => query = 0 || false
  gpioLines := fun query => if query = 0 then 0 else 0
  written := [(0, 0)]

/-- Once the key has been released, both lines are where they should be. -/
theorem releasedKey_follows :
    ftdiGpioOpen sharedOptions false (fun _ => true) =
        some sharedFtdi ∧
      sharedOptions.wiring.Follows
        (ftdiRequests false [.key deviceKeyFastboot false, .power true])
        (ftdiGpioCalls sharedFtdi
          [.key deviceKeyFastboot false, .power true]).written := by
  have opened :
      ftdiGpioOpen sharedOptions false (fun _ => true) =
        some sharedFtdi :=
    rfl
  apply And.intro opened
  apply (ftdiGpio_follows_iff sharedOptions_separate opened _).mpr
  intro gpio present activeLow _
  cases gpio <;> first | decide | contradiction

/-- Opening the driver holds an active-low key down. -/
theorem activeLowKey_heldDown :
    sharedOptions.wiring.Separate ∧
      ftdiGpioOpen sharedOptions false (fun _ => true) =
        some sharedFtdi ∧
      ¬ sharedOptions.wiring.Follows (ftdiRequests false [])
        (ftdiGpioCalls sharedFtdi []).written := by
  apply And.intro sharedOptions_separate
  apply And.intro rfl
  intro follows
  have key := follows 0 0 rfl .fastbootKey rfl rfl
  contradiction

end Cdba
