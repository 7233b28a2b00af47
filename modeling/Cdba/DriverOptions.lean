import Cdba.Yaml

namespace Cdba

/-!
# Options of the control drivers

Three drivers have options of their own in the configuration.  Each reads them
from the events behind its key; an option that it does not know, or a value
that it does not take, ends the program.
-/

open Program
open DeviceParser

variable {δ : Type}

/-- `TOKEN_LENGTH` -/
def tokenLength : Nat :=
  16384

/-- `(unsigned int)strtoul(value, NULL, base)` -/
def unsignedOf (base : Nat) (value : CString) : UInt32 :=
  UInt32.ofNat (strtoul base value)

/-- `';'` -/
def semicolon : UInt8 :=
  0x3b

/-- `','` -/
def comma : UInt8 :=
  0x2c

/-- `!strncmp(literal, text, len)` for a text that ends with its NUL. -/
def startsLike (literal : String) (text : CString) (len : Nat) : Bool :=
  strncmpEq (ascii literal) (memoryAt (text ++ [0]) fun _ => 0) len

/-! ## FTDI GPIOs -/

/-- The GPIOs of `ftdi-gpio.c`. -/
inductive FtdiGpio where
  | power
  | fastbootKey
  | powerKey
  | usb0Disconnect
  | usb1Disconnect
  | outputEnable
  deriving DecidableEq, Repr

/-- One entry of `gpios` in `struct ftdi_gpio_options`. -/
structure FtdiGpioLine where
  present : Bool
  interface : Nat
  offset : UInt32
  activeLow : Bool
  deriving DecidableEq

/-- `struct ftdi_gpio_options` -/
structure FtdiGpioOptions where
  description : Option CString
  vendor : Option CString
  product : Option CString
  serial : Option CString
  index : UInt32
  devicenode : Option CString
  gpios : FtdiGpio → FtdiGpioLine

/-- The options as `calloc` leaves them. -/
def FtdiGpioOptions.zero : FtdiGpioOptions where
  description := none
  vendor := none
  product := none
  serial := none
  index := 0
  devicenode := none
  gpios := fun _ => ⟨false, 0, 0, false⟩

/-- Change one GPIO. -/
def FtdiGpioOptions.setGpio
    (options : FtdiGpioOptions)
    (gpio : FtdiGpio)
    (change : FtdiGpioLine → FtdiGpioLine) :
    FtdiGpioOptions :=
  { options with
    gpios := fun query =>
      if query = gpio then change (options.gpios query) else options.gpios query }

/-- The `interface` a letter names. -/
def ftdiInterface? (value : CString) : Option Nat :=
  match value.head? with
  | some letter =>
      if 0x41 ≤ letter ∧ letter ≤ 0x44 then
        some (letter.toNat - 0x41)
      else
        none
  | none => none

/-- The type of a GPIO in the legacy string: the first name that begins so. -/
def legacyGpioType? (name : CString) (len : Nat) : Option FtdiGpio :=
  if startsLike "POWER" name len then
    some .power
  else if startsLike "FASTBOOT_KEY" name len then
    some .fastbootKey
  else if startsLike "POWER_KEY" name len then
    some .powerKey
  else if startsLike "USB_DISCONNECT" name len then
    some .usb0Disconnect
  else if startsLike "OUTPUT_ENABLE" name len then
    some .outputEnable
  else
    none

/--
The length with which the polarity is compared.  It is one too short, and wraps
to a huge number when the text is empty or no `';'` follows.
-/
def polarityLength (polarity : CString) : Nat :=
  let len := (polarity.takeWhile (· ≠ semicolon)).length
  if len = 0 ∨ len = polarity.length then 2 ^ 64 - 1 else len - 1

/-- Whether the polarity is active low, if it is one. -/
def legacyActiveLow? (polarity : CString) : Option Bool :=
  if startsLike "ACTIVE_HIGH" polarity (polarityLength polarity) then
    some false
  else if startsLike "ACTIVE_LOW" polarity (polarityLength polarity) then
    some true
  else
    none

/-- Behind the next separator, if there is one: `strchr() + 1`. -/
def behind? (separator : UInt8) (text : CString) : Option CString :=
  match text.dropWhile (· ≠ separator) with
  | [] => none
  | _ :: rest => some rest

/-- One GPIO of the legacy string, and what stands behind its `';'`. -/
def legacyGpio?
    (interface : Nat)
    (options : FtdiGpioOptions)
    (name : CString) :
    Option (FtdiGpioOptions × Option CString) := do
  let off ← behind? comma name
  let polarity ← behind? comma off
  let gpio ← legacyGpioType? name (name.takeWhile (· ≠ comma)).length
  let offset := unsignedOf 0 off
  if offset > 7 then
    none
  else do
    let activeLow ← legacyActiveLow? polarity
    some
      (options.setGpio gpio fun _ => ⟨true, interface, offset, activeLow⟩,
        behind? semicolon polarity)

/-- The loop of `ftdi_gpio_parse_config` over the GPIOs. -/
def legacyGpios
    (interface : Nat) :
    Nat → FtdiGpioOptions → Option CString → ParserM δ FtdiGpioOptions
  | _, options, none => pure options
  | 0, _, some _ => stop .diverges
  | fuel + 1, options, some name =>
      match legacyGpio? interface options name with
      | none => stop (.exit 1)
      | some (options, rest) => legacyGpios interface fuel options rest

/-- `ftdi_gpio_parse_config` -/
def ftdiGpioParseConfig
    (options : FtdiGpioOptions)
    (value : CString) :
    ParserM δ FtdiGpioOptions :=
  let options :=
    { options with description := some (value.takeWhile (· ≠ semicolon)) }
  match behind? semicolon value with
  | none => pure options
  | some config =>
      match ftdiInterface? config with
      | none => stop (.exit 1)
      | some interface =>
          legacyGpios interface (value.length + 1) options
            (behind? semicolon config)

/-- The GPIO that a key names. -/
def ftdiGpioKey? (key : CString) : Option FtdiGpio :=
  if key = ascii "power" then
    some .power
  else if key = ascii "fastboot_key" then
    some .fastbootKey
  else if key = ascii "power_key" then
    some .powerKey
  else if key = ascii "usb_disconnect" then
    some .usb0Disconnect
  else if key = ascii "usb0_disconnect" then
    some .usb0Disconnect
  else if key = ascii "usb1_disconnect" then
    some .usb1Disconnect
  else if key = ascii "output_enable" then
    some .outputEnable
  else
    none

/-- One option of a GPIO; without a scalar behind it, `value` stays as it was. -/
def ftdiGpioOption
    (gpio : FtdiGpio)
    (read_ : FtdiGpioOptions × CString)
    (key : CString) :
    ParserM δ (FtdiGpioOptions × CString) := do
  let accepted ← deviceParserAccept (scalar tokenLength)
  let value := accepted.getD read_.2
  if key = ascii "line" then
    pure
      (read_.1.setGpio gpio fun line =>
        { line with offset := unsignedOf 0 value }, value)
  else if key = ascii "interface" then
    match ftdiInterface? value with
    | none => stop (.exit 1)
    | some interface =>
        pure
          (read_.1.setGpio gpio fun line =>
            { line with interface := interface }, value)
  else if key = ascii "active_low" then
    if value = ascii "true" then
      pure
        (read_.1.setGpio gpio fun line => { line with activeLow := true },
          value)
    else
      pure (read_.1, value)
  else
    stop (.exit 1)

/-- One key of `ftdi_gpio`. -/
def ftdiGpioKey
    (read_ : FtdiGpioOptions × CString)
    (key : CString) :
    ParserM δ (FtdiGpioOptions × CString) :=
  match ftdiGpioKey? key with
  | some gpio => do
      deviceParserExpect (ofType .mappingStart)
      let read_ ←
        whileAccepted (scalar tokenLength) (ftdiGpioOption gpio) read_
      deviceParserExpect (ofType .mappingEnd)
      pure
        (read_.1.setGpio gpio fun line => { line with present := true },
          read_.2)
  | none => do
      let value ← deviceParserExpect (scalar tokenLength)
      if key = ascii "vendor" then
        pure ({ read_.1 with vendor := some value }, value)
      else if key = ascii "product" then
        pure ({ read_.1 with product := some value }, value)
      else if key = ascii "index" then
        pure ({ read_.1 with index := unsignedOf 0 value }, value)
      else if key = ascii "serial" then
        pure ({ read_.1 with serial := some value }, value)
      else if key = ascii "devicenode" then
        pure ({ read_.1 with devicenode := some value }, value)
      else
        stop (.exit 1)

/-- `ftdi_gpio_parse_options` -/
def ftdiGpioParseOptions : ParserM δ FtdiGpioOptions := do
  let uninitialised ← read DeviceParser.uninitialised
  let legacy ← deviceParserAccept (scalar tokenLength)
  match legacy with
  | some value => ftdiGpioParseConfig .zero value
  | none => do
      let _ ← deviceParserAccept (ofType .mappingStart)
      let read_ ←
        whileAccepted (scalar tokenLength) ftdiGpioKey (.zero, uninitialised)
      deviceParserExpect (ofType .mappingEnd)
      pure read_.1

/-! ## Local GPIOs -/

/-- The GPIOs of `local-gpio.h`. -/
inductive LocalGpio where
  | power
  | fastbootKey
  | powerKey
  | usbDisconnect
  deriving DecidableEq, Repr

/-- One entry of `gpios` in `struct local_gpio_options`. -/
structure LocalGpioLine where
  chip : Option CString
  present : Bool
  offset : UInt32
  activeLow : Bool
  deriving DecidableEq

/-- `struct local_gpio_options` -/
structure LocalGpioOptions where
  gpios : LocalGpio → LocalGpioLine

/-- Change one GPIO. -/
def LocalGpioOptions.setGpio
    (options : LocalGpioOptions)
    (gpio : LocalGpio)
    (change : LocalGpioLine → LocalGpioLine) :
    LocalGpioOptions where
  gpios := fun query =>
    if query = gpio then change (options.gpios query) else options.gpios query

/-- The GPIO that a key names. -/
def localGpioKey? (key : CString) : Option LocalGpio :=
  if key = ascii "power" then
    some .power
  else if key = ascii "fastboot_key" then
    some .fastbootKey
  else if key = ascii "power_key" then
    some .powerKey
  else if key = ascii "usb_disconnect" then
    some .usbDisconnect
  else
    none

/-- One option of a GPIO; without a scalar behind it, `value` stays as it was. -/
def localGpioOption
    (gpio : LocalGpio)
    (read_ : LocalGpioOptions × CString)
    (key : CString) :
    ParserM δ (LocalGpioOptions × CString) := do
  let accepted ← deviceParserAccept (scalar tokenLength)
  let value := accepted.getD read_.2
  if key = ascii "chip" then
    pure
      (read_.1.setGpio gpio fun line => { line with chip := some value }, value)
  else if key = ascii "line" then
    pure
      (read_.1.setGpio gpio fun line =>
        { line with offset := unsignedOf 0 value }, value)
  else if key = ascii "active_low" then
    if value = ascii "true" then
      pure
        (read_.1.setGpio gpio fun line => { line with activeLow := true },
          value)
    else
      pure (read_.1, value)
  else
    stop (.exit 1)

/-- One key of `local_gpio`; whether a mapping starts behind it is not checked. -/
def localGpioKey
    (read_ : LocalGpioOptions × CString)
    (key : CString) :
    ParserM δ (LocalGpioOptions × CString) :=
  match localGpioKey? key with
  | none => stop (.exit 1)
  | some gpio => do
      let _ ← deviceParserAccept (ofType .mappingStart)
      let read_ ←
        whileAccepted (scalar tokenLength) (localGpioOption gpio) read_
      deviceParserExpect (ofType .mappingEnd)
      pure
        (read_.1.setGpio gpio fun line => { line with present := true },
          read_.2)

/-- `local_gpio_parse_options` -/
def localGpioParseOptions : ParserM δ LocalGpioOptions := do
  let uninitialised ← read DeviceParser.uninitialised
  deviceParserExpect (ofType .mappingStart)
  let read_ ←
    whileAccepted (scalar tokenLength) localGpioKey
      (⟨fun _ => ⟨none, false, 0, false⟩⟩, uninitialised)
  deviceParserExpect (ofType .mappingEnd)
  pure read_.1

/-! ## Laurent relays -/

/-- `TOKEN_LENGTH` of `laurent.c` -/
def laurentTokenLength : Nat :=
  128

/-- `struct laurent_options` -/
structure LaurentOptions where
  server : Option CString
  password : CString
  relay : UInt32
  usbRelay : Int
  deriving DecidableEq

/-- One key of `laurent`. -/
def laurentKey
    (options : LaurentOptions)
    (key : CString) :
    ParserM δ LaurentOptions := do
  let value ← deviceParserExpect (scalar laurentTokenLength)
  if key = ascii "server" then
    pure { options with server := some value }
  else if key = ascii "password" then
    pure { options with password := value }
  else if key = ascii "relay" then
    pure { options with relay := unsignedOf 0 value }
  else if key = ascii "usb_relay" then
    pure { options with usbRelay := toInt32 (strtoul 0 value) }
  else
    stop (.exit 1)

/-- `laurent_parse_options` -/
def laurentParseOptions : ParserM δ LaurentOptions := do
  let _ ← deviceParserAccept (ofType .mappingStart)
  let options ←
    whileAccepted (scalar laurentTokenLength) laurentKey
      ⟨none, ascii "Laurent", 0, -1⟩
  deviceParserExpect (ofType .mappingEnd)
  if options.server = none then
    stop (.exit 1)
  else
    pure options

/-! ## The parsers only read -/

theorem scalar_never
    (size : Nat) :
    scalar size .noEvent = none :=
  rfl

theorem ofType_never
    {type : YamlEvent}
    (some_ : type ≠ .noEvent) :
    ofType type .noEvent = none :=
  if_neg (Ne.symm some_)

/-- What stands behind a separator is shorter. -/
theorem length_behind?
    {separator : UInt8}
    {text rest : CString}
    (found : behind? separator text = some rest) :
    rest.length < text.length := by
  have shorter : (text.dropWhile (· ≠ separator)).length ≤ text.length :=
    (List.dropWhile_sublist _).length_le
  unfold behind? at found
  split at found
  · cases found
  · rename_i shape
    cases found
    rw [shape, List.length_cons] at shorter
    exact shorter

/-- Each GPIO of the legacy string uses up a part of it. -/
theorem length_legacyGpio?
    {interface : Nat}
    {options next : FtdiGpioOptions}
    {name rest : CString}
    (read_ : legacyGpio? interface options name = some (next, some rest)) :
    rest.length < name.length := by
  simp only [legacyGpio?, Option.bind_eq_bind, Option.bind_eq_some_iff] at read_
  obtain ⟨off, foundOff, polarity, foundPolarity, _, _, later⟩ := read_
  split at later
  · cases later
  · obtain ⟨_, _, last⟩ := Option.bind_eq_some_iff.mp later
    simp only [Option.some.injEq, Prod.mk.injEq] at last
    have first := length_behind? foundOff
    have second := length_behind? foundPolarity
    have third := length_behind? last.2
    omega

theorem legacyGpios_reading
    {interface fuel : Nat}
    {options : FtdiGpioOptions}
    {name : Option CString}
    (enough : ∀ text, name = some text → text.length < fuel) :
    Reading (δ := δ) (legacyGpios interface fuel options name) := by
  induction fuel generalizing options name with
  | zero =>
      cases name with
      | none => exact Relates.pure options
      | some text => exact absurd (enough text rfl) (Nat.not_lt_zero _)
  | succ fuel inductionHypothesis =>
      cases name with
      | none => exact Relates.pure options
      | some text =>
          rw [legacyGpios]
          cases read_ : legacyGpio? interface options text with
          | none => exact Relates.stop (exit_terminates 1)
          | some found =>
              refine inductionHypothesis fun rest isRest => ?_
              have whole := enough text rfl
              rw [show found = (found.1, some rest) from
                Prod.ext rfl isRest] at read_
              have shorter := length_legacyGpio? read_
              omega

theorem ftdiGpioParseConfig_reading
    (options : FtdiGpioOptions)
    (value : CString) :
    Reading (δ := δ) (ftdiGpioParseConfig options value) := by
  unfold ftdiGpioParseConfig
  dsimp only
  cases behind : behind? semicolon value with
  | none => exact Relates.pure _
  | some config =>
      dsimp only
      cases ftdiInterface? config with
      | none => exact Relates.stop (exit_terminates 1)
      | some interface =>
          refine legacyGpios_reading fun name found => ?_
          have first := length_behind? behind
          have second := length_behind? found
          omega

/-- Whatever a key sets, its value is read before. -/
theorem value_reading
    {size : Nat}
    {later : CString → ParserM δ α}
    (laterReads : ∀ value, Reading (later value)) :
    Reading (do
      let value ← deviceParserExpect (scalar size)
      later value) :=
  Relates.bind (deviceParserExpect_reading (scalar_never size)) laterReads

theorem ftdiGpioOption_reading
    (gpio : FtdiGpio)
    (read_ : FtdiGpioOptions × CString)
    (key : CString) :
    Reading (δ := δ) (ftdiGpioOption gpio read_ key) := by
  refine Relates.bind (deviceParserAccept_reading (scalar_never _))
    fun accepted => ?_
  refine .ite (.pure _) (.ite ?_ (.ite (.ite (.pure _) (.pure _))
    (.stop (exit_terminates 1))))
  split
  · exact .stop (exit_terminates 1)
  · exact .pure _

/-- A mapping is read from its start to its end. -/
theorem mappingEnd_reading :
    Reading (δ := δ) (deviceParserExpect (ofType .mappingEnd)) :=
  deviceParserExpect_reading (ofType_never nofun)

theorem ftdiGpioKey_reading
    (read_ : FtdiGpioOptions × CString)
    (key : CString) :
    Reading (δ := δ) (ftdiGpioKey read_ key) := by
  unfold ftdiGpioKey
  split
  · rename_i gpio _
    exact Relates.bind (deviceParserExpect_reading (ofType_never nofun))
      fun _ => Relates.bind
        (whileAccepted_reading (scalar_never _) (ftdiGpioOption_reading gpio) _)
        fun _ => Relates.bind mappingEnd_reading fun _ => .pure _
  · exact value_reading fun _ =>
      .ite (.pure _) (.ite (.pure _) (.ite (.pure _) (.ite (.pure _)
        (.ite (.pure _) (.stop (exit_terminates 1))))))

theorem ftdiGpioParseOptions_reading :
    Reading (δ := δ) ftdiGpioParseOptions := by
  refine Relates.bind (.read _) fun _ => Relates.bind
    (deviceParserAccept_reading (scalar_never _)) fun legacy => ?_
  cases legacy with
  | some value => exact ftdiGpioParseConfig_reading _ value
  | none =>
      exact Relates.bind (deviceParserAccept_reading (ofType_never nofun))
        fun _ => Relates.bind
          (whileAccepted_reading (scalar_never _) ftdiGpioKey_reading _)
          fun _ => Relates.bind mappingEnd_reading fun _ => .pure _

theorem localGpioOption_reading
    (gpio : LocalGpio)
    (read_ : LocalGpioOptions × CString)
    (key : CString) :
    Reading (δ := δ) (localGpioOption gpio read_ key) :=
  Relates.bind (deviceParserAccept_reading (scalar_never _)) fun _ =>
    .ite (.pure _) (.ite (.pure _) (.ite (.ite (.pure _) (.pure _))
      (.stop (exit_terminates 1))))

theorem localGpioKey_reading
    (read_ : LocalGpioOptions × CString)
    (key : CString) :
    Reading (δ := δ) (localGpioKey read_ key) := by
  unfold localGpioKey
  split
  · exact .stop (exit_terminates 1)
  · rename_i gpio _
    exact Relates.bind (deviceParserAccept_reading (ofType_never nofun))
      fun _ => Relates.bind
        (whileAccepted_reading (scalar_never _) (localGpioOption_reading gpio)
          _)
        fun _ => Relates.bind mappingEnd_reading fun _ => .pure _

theorem localGpioParseOptions_reading :
    Reading (δ := δ) localGpioParseOptions :=
  Relates.bind (.read _) fun _ =>
    Relates.bind (deviceParserExpect_reading (ofType_never nofun)) fun _ =>
      Relates.bind
        (whileAccepted_reading (scalar_never _) localGpioKey_reading _)
        fun _ => Relates.bind mappingEnd_reading fun _ => .pure _

theorem laurentKey_reading
    (options : LaurentOptions)
    (key : CString) :
    Reading (δ := δ) (laurentKey options key) :=
  value_reading fun _ =>
    .ite (.pure _) (.ite (.pure _) (.ite (.pure _) (.ite (.pure _)
      (.stop (exit_terminates 1)))))

theorem laurentParseOptions_reading :
    Reading (δ := δ) laurentParseOptions :=
  Relates.bind (deviceParserAccept_reading (ofType_never nofun)) fun _ =>
    Relates.bind (whileAccepted_reading (scalar_never _) laurentKey_reading _)
      fun _ => Relates.bind mappingEnd_reading fun _ =>
        .ite (.stop (exit_terminates 1)) (.pure _)

end Cdba
