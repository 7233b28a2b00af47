import Cdba.Hardware
import Cdba.PrefixCode
import Cdba.QcomltDbg
import Mathlib.Data.Fintype.Option
import Mathlib.Data.Fintype.Prod

namespace Cdba

/-!
# Controllers on a serial line

Three control drivers write commands to a tty: `qcomlt_dbg.c` and `cdb_assist.c`
mostly single letters, `alpaca.c` lines.  No command begins another one, so a
controller that reads commands off its line can only read those that the driver
was called for.
-/

/-! ## The drivers -/

/-- `&(letters[on])`, of which one character is written. -/
def letterAt (letters : CString) (on : Bool) : List UInt8 :=
  (letters.drop on.toNat).take 1

/-- What a control driver writes to its tty, by the call it gets. -/
structure TtyDriver where
  opened : List UInt8
  power : Bool → List UInt8
  usb : Bool → List UInt8
  key : Nat → Bool → List UInt8
  requestStatus : List UInt8

/-- The calls of an open control driver. -/
inductive ControlCall where
  | power (on : Bool)
  | usb (on : Bool)
  | key (key : Nat) (asserted : Bool)
  | requestStatus
  deriving DecidableEq

/-- What a call writes. -/
def TtyDriver.writes (driver : TtyDriver) : ControlCall → List UInt8
  | .power on => driver.power on
  | .usb on => driver.usb on
  | .key pressed asserted => driver.key pressed asserted
  | .requestStatus => driver.requestStatus

/-- What is on the line after some calls. -/
def TtyDriver.line
    (driver : TtyDriver)
    (calls : List ControlCall) :
    List UInt8 :=
  driver.opened ++ calls.flatMap driver.writes

/-- A driver that has something to write for each of the two keys. -/
def keySwitch
    (fastboot power : Bool → List UInt8)
    (key : Nat)
    (asserted : Bool) :
    List UInt8 :=
  if key = deviceKeyFastboot then
    fastboot asserted
  else if key = deviceKeyPower then
    power asserted
  else
    []

/--
`qcomlt_dbg_open`, `qcomlt_dbg_power`, `qcomlt_dbg_usb`, `qcomlt_dbg_key` and
`qcomlt_dbg_request_status`
-/
def qcomltDbgTty : TtyDriver where
  opened := ascii "brpu"
  power := letterAt (ascii "pP")
  usb := letterAt (ascii "uU")
  key := keySwitch (letterAt (ascii "rR")) (letterAt (ascii "bB"))
  requestStatus := ascii "s"

/-- `cdb_set_voltage` -/
def cdbSetVoltage (mV : UInt32) : List UInt8 :=
  ascii "u" ++ decimal mV.toNat ++ ascii "\r\n"

/--
`cdb_assist_open`, `cdb_power`, `cdb_vbus` and `cdb_gpio`.  Its status timer
writes nothing.
-/
def cdbAssistTty (voltage : UInt32) : TtyDriver where
  opened := ascii "vpabc" ++ cdbSetVoltage voltage
  power := letterAt (ascii "pP")
  usb := letterAt (ascii "vV")
  key := keySwitch (letterAt (ascii "bB")) (letterAt (ascii "aA"))
  requestStatus := []

/-- `alpaca_device_power` -/
def alpacaDevicePower (on : Bool) : List UInt8 :=
  ascii "devicePower " ++ decimal on.toNat ++ ascii "\r"

/-- `alpaca_usb_device_power` -/
def alpacaUsbDevicePower (on : Bool) : List UInt8 :=
  ascii "usbDevicePower " ++ decimal on.toNat ++ ascii "\r"

/-- `alpaca_output_bit` -/
def alpacaOutputBit (bit : Nat) (value : Bool) : List UInt8 :=
  ascii "ttl outputBit " ++ decimal bit ++ ascii " " ++
    decimal value.toNat ++ ascii "\r"

/-- `alpaca_open`, `alpaca_power`, `alpaca_usb` and `alpaca_key` -/
def alpacaTty (usbAlwaysOn : Bool) : TtyDriver where
  opened :=
    alpacaDevicePower false ++
      if usbAlwaysOn then
        alpacaUsbDevicePower true
      else
        alpacaUsbDevicePower false
  power := alpacaDevicePower
  usb := alpacaUsbDevicePower
  key := keySwitch (alpacaOutputBit 2) (alpacaOutputBit 1)
  requestStatus := []

/-- The control drivers that write to a tty. -/
def ControlDriver.tty?
    (voltage : UInt32)
    (usbAlwaysOn : Bool) :
    ControlDriver → Option TtyDriver
  | .qcomltDbg => some qcomltDbgTty
  | .cdbAssist => some (cdbAssistTty voltage)
  | .alpaca => some (alpacaTty usbAlwaysOn)
  | _ => none

/-! ## Languages of commands -/

/-- What a controller switches for a board. -/
inductive ControlLine where
  | power
  | usb
  | fastbootKey
  | powerKey
  deriving DecidableEq

instance : Fintype ControlLine where
  elems := {.power, .usb, .fastbootKey, .powerKey}
  complete := by
    intro line
    cases line <;> decide

/-- What a call asks the controller to switch. -/
def ControlCall.sets : ControlCall → Option (ControlLine × Bool)
  | .power on => some (.power, on)
  | .usb on => some (.usb, on)
  | .key pressed asserted =>
      if pressed = deviceKeyFastboot then
        some (.fastbootKey, asserted)
      else if pressed = deviceKeyPower then
        some (.powerKey, asserted)
      else
        none
  | .requestStatus => none

/--
The commands of a driver: how they are written and what they switch.  Each call
of the driver writes commands that switch what the call asks for.
-/
structure TtyLanguage where
  driver : TtyDriver
  Command : Type
  encode : Command → List UInt8
  prefixFree : PrefixFree encode
  sets : Command → Option (ControlLine × Bool)
  opening : List Command
  commands : ControlCall → List Command
  opened_eq : driver.opened = opening.flatMap encode
  writes_eq : ∀ call, driver.writes call = (commands call).flatMap encode
  sets_eq : ∀ call, (commands call).filterMap sets = call.sets.toList

theorem TtyLanguage.line_eq
    (language : TtyLanguage)
    (calls : List ControlCall) :
    language.driver.line calls =
      (language.opening ++ calls.flatMap language.commands).flatMap
        language.encode := by
  rw [TtyDriver.line, language.opened_eq, List.flatMap_append,
    List.flatMap_assoc]
  congr 2
  funext call
  exact language.writes_eq call

theorem TtyLanguage.sets_calls
    (language : TtyLanguage)
    (calls : List ControlCall) :
    (calls.flatMap language.commands).filterMap language.sets =
      calls.filterMap ControlCall.sets := by
  induction calls with
  | nil =>
      rfl
  | cons call rest inductionHypothesis =>
      rw [List.flatMap_cons, List.filterMap_append, language.sets_eq,
        inductionHypothesis, List.filterMap_cons]
      cases call.sets <;> rfl

/-- Lines of which one begins the other switch the same, as far as it goes. -/
theorem TtyLanguage.sets_begin
    (language : TtyLanguage)
    {calls more : List ControlCall}
    (begins : language.driver.line calls <+: language.driver.line more) :
    calls.filterMap ControlCall.sets <+:
      more.filterMap ControlCall.sets := by
  rw [language.line_eq, language.line_eq] at begins
  have commands :=
    (List.prefix_append_right_inj _).mp (language.prefixFree.begins begins)
  rw [← language.sets_calls, ← language.sets_calls]
  exact commands.filterMap _

/-! ## The three languages -/

/-- One letter of a pair. -/
def letterOf (off on : UInt8) (asserted : Bool) : UInt8 :=
  if asserted then on else off

/-- The letters of the debug board; without a line, the request for status. -/
def qcomltLetter : Option (ControlLine × Bool) → UInt8
  | none => 0x73
  | some (.power, on) => letterOf 0x70 0x50 on
  | some (.usb, on) => letterOf 0x75 0x55 on
  | some (.fastbootKey, on) => letterOf 0x72 0x52 on
  | some (.powerKey, on) => letterOf 0x62 0x42 on

/-- The letters of the CDB Assist; without a line, those of its third key. -/
def cdbLetter : Option ControlLine × Bool → UInt8
  | (none, on) => letterOf 0x63 0x43 on
  | (some .power, on) => letterOf 0x70 0x50 on
  | (some .usb, on) => letterOf 0x76 0x56 on
  | (some .fastbootKey, on) => letterOf 0x62 0x42 on
  | (some .powerKey, on) => letterOf 0x61 0x41 on

/-- The lines of the alpaca. -/
def alpacaLine : ControlLine × Bool → List UInt8
  | (.power, on) => alpacaDevicePower on
  | (.usb, on) => alpacaUsbDevicePower on
  | (.fastbootKey, on) => alpacaOutputBit 2 on
  | (.powerKey, on) => alpacaOutputBit 1 on

variable {Command : Type}

/-- The commands of a call, if one command switches one line. -/
def ControlCall.commandsBy
    (command : ControlLine × Bool → Command)
    (status : List Command) :
    ControlCall → List Command
  | .requestStatus => status
  | call => call.sets.toList.map command

theorem letterAt_eq
    (off on : UInt8)
    (asserted : Bool) :
    letterAt [off, on] asserted = [letterOf off on asserted] := by
  cases asserted <;> rfl

/-- A driver that writes a call as the command of its line. -/
theorem writes_commandsBy
    {driver : TtyDriver}
    {encode : Command → List UInt8}
    {command : ControlLine × Bool → Command}
    {status : List Command}
    (power : ∀ on, driver.power on = encode (command (.power, on)))
    (usb : ∀ on, driver.usb on = encode (command (.usb, on)))
    (key :
      driver.key =
        keySwitch (fun on => encode (command (.fastbootKey, on)))
          fun on => encode (command (.powerKey, on)))
    (requests : driver.requestStatus = status.flatMap encode)
    (call : ControlCall) :
    driver.writes call = (call.commandsBy command status).flatMap encode := by
  cases call with
  | power on =>
      rw [TtyDriver.writes, power]
      exact (List.flatMap_singleton ..).symm
  | usb on =>
      rw [TtyDriver.writes, usb]
      exact (List.flatMap_singleton ..).symm
  | key pressed asserted =>
      rw [TtyDriver.writes, key, keySwitch]
      unfold ControlCall.commandsBy ControlCall.sets
      dsimp only
      split
      · exact (List.flatMap_singleton ..).symm
      · split
        · exact (List.flatMap_singleton ..).symm
        · rfl
  | requestStatus => exact requests

/-- Commands that switch the line of a call. -/
theorem sets_commandsBy
    {sets : Command → Option (ControlLine × Bool)}
    {command : ControlLine × Bool → Command}
    {status : List Command}
    (switches : ∀ switch, sets (command switch) = some switch)
    (requests : status.filterMap sets = [])
    (call : ControlCall) :
    (call.commandsBy command status).filterMap sets =
      call.sets.toList := by
  unfold ControlCall.commandsBy
  split
  · exact requests
  · cases call.sets with
    | none => rfl
    | some switch => simp [switches]

/-- The commands of the debug board. -/
def qcomltLanguage : TtyLanguage where
  driver := qcomltDbgTty
  Command := Option (ControlLine × Bool)
  encode := fun command => [qcomltLetter command]
  prefixFree := .of_single (by decide)
  sets := id
  opening :=
    [some (.powerKey, false), some (.fastbootKey, false),
      some (.power, false), some (.usb, false)]
  commands := ControlCall.commandsBy some [none]
  opened_eq := rfl
  writes_eq :=
    writes_commandsBy (letterAt_eq _ _) (letterAt_eq _ _)
      (congrArg₂ keySwitch (funext (letterAt_eq _ _))
        (funext (letterAt_eq _ _))) rfl
  sets_eq := sets_commandsBy (fun _ => rfl) rfl

theorem decimal_distinct
    {first second : UInt32}
    (same : decimal first.toNat = decimal second.toNat) :
    first = second := by
  have values := congrArg (QcomltDbg.accumulate 0) same
  rw [QcomltDbg.accumulate_decimal, QcomltDbg.accumulate_decimal] at values
  have numbers := congrArg UInt64.toNat values
  have bound := first.toNat_lt
  have bound' := second.toNat_lt
  simp only [UInt64.toNat_ofNat'] at numbers
  exact UInt32.toNat_inj.mp (by omega)

/-- A voltage ends with the only line feed in it. -/
theorem cdbSetVoltage_prefixFree :
    PrefixFree cdbSetVoltage := by
  have terminated :
      PrefixFree fun mV : UInt32 =>
        ascii "u" ++ decimal mV.toNat ++ ascii "\r" ++ [0x0a] := by
    refine .of_terminated (fun mV member => ?_) fun same => ?_
    · simp only [List.mem_append] at member
      rcases member with (letter | digit) | ending
      · exact absurd letter (by decide)
      · exact absurd (QcomltDbg.decimal_isDigit digit) (by decide)
      · exact absurd ending (by decide)
    · exact decimal_distinct
        (List.append_cancel_left (List.append_cancel_right same))
  have same :
      (fun mV : UInt32 =>
          ascii "u" ++ decimal mV.toNat ++ ascii "\r" ++ [0x0a]) =
        cdbSetVoltage := by
    funext mV
    rw [cdbSetVoltage, show ascii "\r\n" = ascii "\r" ++ [0x0a] from rfl,
      ← List.append_assoc]
  exact same ▸ terminated

/-- The commands of the CDB Assist: letters, and voltages. -/
def cdbAssistLanguage (voltage : UInt32) : TtyLanguage where
  driver := cdbAssistTty voltage
  Command := (Option ControlLine × Bool) ⊕ UInt32
  encode := Sum.elim (fun letter => [cdbLetter letter]) cdbSetVoltage
  prefixFree := by
    refine .sum (.of_single (by decide)) cdbSetVoltage_prefixFree ?_
    intro letter mV
    have other : ∀ letter, cdbLetter letter ≠ 0x75 := by decide
    intro same
    exact other letter (Option.some.inj same)
  sets := Sum.elim (fun letter => letter.1.map fun line => (line, letter.2))
    fun _ => none
  opening :=
    [.inl (some .usb, false), .inl (some .power, false),
      .inl (some .powerKey, false), .inl (some .fastbootKey, false),
      .inl (none, false), .inr voltage]
  commands :=
    ControlCall.commandsBy (fun switch => .inl (some switch.1, switch.2)) []
  opened_eq := by
    simp only [List.flatMap_cons, List.flatMap_nil, Sum.elim_inl,
      Sum.elim_inr, List.append_nil]
    rfl
  writes_eq :=
    writes_commandsBy (letterAt_eq _ _) (letterAt_eq _ _)
      (congrArg₂ keySwitch (funext (letterAt_eq _ _))
        (funext (letterAt_eq _ _))) rfl
  sets_eq := sets_commandsBy (fun _ => rfl) rfl

/-- The commands of the alpaca. -/
def alpacaLanguage (usbAlwaysOn : Bool) : TtyLanguage where
  driver := alpacaTty usbAlwaysOn
  Command := ControlLine × Bool
  encode := alpacaLine
  prefixFree := ⟨by decide, by decide⟩
  sets := some
  opening := [(.power, false), (.usb, usbAlwaysOn)]
  commands := ControlCall.commandsBy id []
  opened_eq := by
    cases usbAlwaysOn <;> decide
  writes_eq :=
    writes_commandsBy (fun _ => rfl) (fun _ => rfl) rfl rfl
  sets_eq := sets_commandsBy (fun _ => rfl) rfl

/-- Every driver that writes to a tty speaks one of the languages. -/
theorem exists_language
    {control : ControlDriver}
    {voltage : UInt32}
    {usbAlwaysOn : Bool}
    {driver : TtyDriver}
    (tty : control.tty? voltage usbAlwaysOn = some driver) :
    ∃ language : TtyLanguage, language.driver = driver := by
  cases control with
  | qcomltDbg =>
      cases tty
      exact ⟨qcomltLanguage, rfl⟩
  | cdbAssist =>
      cases tty
      exact ⟨cdbAssistLanguage voltage, rfl⟩
  | alpaca =>
      cases tty
      exact ⟨alpacaLanguage usbAlwaysOn, rfl⟩
  | _ => cases tty

/--
The bytes on the line tell what was asked for: if the bytes of some calls are
the first bytes of other calls, then these calls have switched the same, in the
same order, and possibly more behind it.
-/
theorem ttyLine_tells
    {control : ControlDriver}
    {voltage : UInt32}
    {usbAlwaysOn : Bool}
    {driver : TtyDriver}
    (tty : control.tty? voltage usbAlwaysOn = some driver)
    {calls more : List ControlCall}
    (begins : driver.line calls <+: driver.line more) :
    calls.filterMap ControlCall.sets <+:
      more.filterMap ControlCall.sets := by
  obtain ⟨language, rfl⟩ := exists_language tty
  exact language.sets_begin begins

/-- Lines that an alpaca is written tell that the power is on. -/
theorem alpacaLine_tells :
    [ControlCall.power true].filterMap ControlCall.sets <+:
      [ControlCall.power true, .key 1 true].filterMap ControlCall.sets :=
  ttyLine_tells
    (show ControlDriver.alpaca.tty? 0 false = some (alpacaTty false) from rfl)
    (by decide)

end Cdba
