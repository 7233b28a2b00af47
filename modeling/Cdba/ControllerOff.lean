import Cdba.ControlTty
import Cdba.Farewell
import Cdba.LocalGpioLines

namespace Cdba

/-!
# What the controller of a board is left with

The session of a board as its controller sees it, from the bytes on its serial
line or the levels of its GPIOs: when the server's process ends, these have the
power and the USB port off.
-/

open Program

variable {n : Nat}

/-- The call of the control driver of a device. -/
def Event.controlCall? (device : Fin n) : Event n → Option ControlCall
  | .power called on => if called = device then some (.power on) else none
  | .usb called on => if called = device then some (.usb on) else none
  | .key called pressed asserted =>
      if called = device then some (.key pressed asserted) else none
  | _ => none

/-- The calls of the control driver of a device, in order. -/
def controlCalls
    (device : Fin n)
    (log : List (Stamped (Event n))) :
    List ControlCall :=
  log.filterMap fun event => event.value.controlCall? device

/-- Requests for status come from a timer. -/
theorem controlCalls_withoutStatus
    (device : Fin n)
    (log : List (Stamped (Event n))) :
    (controlCalls device log).filter (· ≠ .requestStatus) =
      controlCalls device log := by
  refine List.filter_eq_self.mpr fun call member => ?_
  obtain ⟨event, _, called⟩ := List.mem_filterMap.mp member
  refine decide_eq_true fun request => ?_
  rw [request] at called
  unfold Event.controlCall? at called
  split at called <;> simp at called

/-- The level that a call asks of a line. -/
def ControlCall.level? (line : ControlLine) (call : ControlCall) :
    Option Bool :=
  call.sets.bind fun switch =>
    if switch.1 = line then some switch.2 else none

/-- The last call that switches a line is the last call of its operation. -/
theorem lastRequest_controlCalls
    {line : ControlLine}
    {call : Event n → Option Bool}
    {device : Fin n}
    (switches :
      ∀ event,
        call event =
          (event.controlCall? device).bind (ControlCall.level? line))
    (log : List (Stamped (Event n))) :
    Wiring.lastRequest line
        ((controlCalls device log).filterMap ControlCall.sets) =
      lastCall call log := by
  unfold Wiring.lastRequest lastCall controlCalls
  rw [List.filterMap_filterMap, List.filterMap_filterMap]
  congr 2
  funext event
  rw [switches]
  rfl

/-- A key is neither the power nor the USB port. -/
theorem level?_key
    {line : ControlLine}
    (power : line ≠ .fastbootKey)
    (usb : line ≠ .powerKey)
    (pressed : Nat)
    (asserted : Bool) :
    (ControlCall.key pressed asserted).level? line = none := by
  unfold ControlCall.level? ControlCall.sets
  dsimp only
  split
  · simp [power.symm]
  · split
    · simp [usb.symm]
    · rfl

theorem called_level?
    {device called : Fin n}
    (line : ControlLine)
    (call : ControlCall) :
    (if called = device then some call else none).bind
        (ControlCall.level? line) =
      if called = device then call.level? line else none := by
  split <;> rfl

theorem powerCall_switches
    (device : Fin n)
    (event : Event n) :
    event.powerCall device =
      (event.controlCall? device).bind (ControlCall.level? .power) := by
  cases event with
  | power called on =>
      rw [Event.controlCall?, called_level?]
      rfl
  | usb called on =>
      rw [Event.controlCall?, called_level?]
      exact (ite_self _).symm
  | key called pressed asserted =>
      rw [Event.controlCall?, called_level?,
        level?_key (by decide) (by decide)]
      exact (ite_self _).symm
  | _ => rfl

theorem usbCall_switches
    (device : Fin n)
    (event : Event n) :
    event.usbCall device =
      (event.controlCall? device).bind (ControlCall.level? .usb) := by
  cases event with
  | power called on =>
      rw [Event.controlCall?, called_level?]
      exact (ite_self _).symm
  | usb called on =>
      rw [Event.controlCall?, called_level?]
      rfl
  | key called pressed asserted =>
      rw [Event.controlCall?, called_level?,
        level?_key (by decide) (by decide)]
      exact (ite_self _).symm
  | _ => rfl

/-- Requests for status switch nothing. -/
theorem sets_withoutStatus
    (calls : List ControlCall) :
    (calls.filter (· ≠ .requestStatus)).filterMap ControlCall.sets =
      calls.filterMap ControlCall.sets := by
  rw [List.filterMap_filter]
  congr 1
  funext call
  cases call <;> rfl

/-- What is requested last of a GPIO is what is asked last of its line. -/
theorem level_localRequests
    {usbAlwaysOn : Bool}
    {calls : List ControlCall}
    {line : ControlLine}
    {on : Bool}
    (last :
      Wiring.lastRequest line (calls.filterMap ControlCall.sets) = some on) :
    Wiring.level line.localGpio (localRequests usbAlwaysOn calls) = on := by
  have same :
      ∀ other : ControlLine,
        (other.localGpio = line.localGpio) = (other = line) := by
    intro other
    cases other <;> cases line <;> simp [ControlLine.localGpio]
  unfold Wiring.lastRequest at last
  rw [List.filterMap_filterMap] at last
  unfold Wiring.level Wiring.lastRequest localRequests
  rw [List.filterMap_append, List.getLast?_append, List.filterMap_filterMap]
  simp only [Option.bind_map, Function.comp_def, same]
  rw [last]
  rfl

section LocalGpio

variable {State Line Pin : Type} {options : LocalGpioOptions}

/-- Of a present GPIO everything that was requested is wanted. -/
theorem level_wanted
    {gpio : LocalGpio}
    (present : (options.gpios gpio).present = true)
    (made : List (LocalGpio × Bool)) :
    Wiring.level gpio (options.wanted made) = Wiring.level gpio made := by
  unfold Wiring.level Wiring.lastRequest LocalGpioOptions.wanted
  rw [List.filterMap_filter]
  congr 3
  funext request
  by_cases same : request.1 = gpio
  · rw [if_pos same, same, if_pos present]
  · rw [if_neg same, ite_self]

/-- If every attempt succeeded, all values that were tried are set. -/
theorem LocalGpioState.succeeded_all
    {localGpio : LocalGpioState State Line}
    (works : ∀ attempt, attempt ∈ localGpio.attempts → attempt.2 = true) :
    localGpio.succeeded = localGpio.attempts.map Prod.fst := by
  rw [LocalGpioState.succeeded, List.filter_eq_self.mpr works]

/-- If a GPIO is present, its line drives the level of an inactive one. -/
def LocalGpioState.Idles
    (view : GpioView State Line Pin)
    (options : LocalGpioOptions)
    (gpio : LocalGpio)
    (localGpio : LocalGpioState State Line) :
    Prop :=
  (options.gpios gpio).present = true →
    ∃ line,
      localGpio.lines gpio = some line ∧
        view.pins localGpio.host (view.pin line) =
          some (options.gpios gpio).activeLow

theorem LocalGpioState.Follows.idles
    {view : GpioView State Line Pin}
    {usbAlwaysOn : Bool}
    {calls : List ControlCall}
    {localGpio : LocalGpioState State Line}
    (follows :
      localGpio.Follows view options (localRequests usbAlwaysOn calls))
    (works : ∀ attempt, attempt ∈ localGpio.attempts → attempt.2 = true)
    {line : ControlLine}
    (last :
      Wiring.lastRequest line (calls.filterMap ControlCall.sets) =
        some false) :
    localGpio.Idles view options line.localGpio := by
  intro present
  obtain ⟨found, wired, drives, _⟩ := follows.drives.pin present
  rw [LocalGpioState.succeeded_all works, follows.attempted,
    level_wanted present, level_localRequests last,
    Bool.false_xor] at drives
  exact ⟨found, wired, drives⟩

end LocalGpio

/-- Every driver that writes to a tty switches the power and the USB port. -/
theorem tty_has
    {control : ControlDriver}
    {voltage : UInt32}
    {usbAlwaysOn : Bool}
    {driver : TtyDriver}
    (tty : control.tty? voltage usbAlwaysOn = some driver) :
    control.has .power = true ∧ control.has .usb = true := by
  cases control with
  | qcomltDbg => exact ⟨rfl, rfl⟩
  | cdbAssist => exact ⟨rfl, rfl⟩
  | alpaca => exact ⟨rfl, rfl⟩
  | _ => cases tty

section Ending

variable {call : Call} {host : Host n} {turns : List Turn}
variable {ready : List Callback} {reads : List ReadChoice}
variable {ended : Server n}

/--
However a conversation goes: when the server's process ends, the line of the
controller of each board that was opened says that the board is off.  Whatever
calls would have put the same bytes on the line, with requests for status at any
place between them: the last one of them for the power and the last one for the
USB port switch them off, unless the board is configured to keep them on.
-/
theorem conversation_controllerOff
    (fits : Client.VerbFits call.verb)
    (writable : ∀ outcome, outcome ∈ call.writes → outcome = .done)
    (granted : ∀ resource, false ∉ host.hw.grants resource)
    (runs : ((Conversation.start call host).after turns).serverLeft = false)
    (ends :
      endOfProcess?
          (watchMainLoop [ready]
            (((Conversation.start call host).after turns).server.onInput
              Server.stdinOf (Input.reading reads))) =
        some ended)
    (unprobed : ended.probed = [])
    {device : Fin n}
    (opened : ended.hw.Opened device)
    {control : ControlDriver}
    (controlled : (ended.hw.devices device).control = some control)
    {voltage : UInt32}
    {driver : TtyDriver}
    (tty :
      control.tty? voltage (ended.hw.devices device).usbAlwaysOn =
        some driver)
    {calls told : List ControlCall}
    (made :
      calls.filter (· ≠ .requestStatus) =
        controlCalls device ended.hw.log)
    (sameLine : driver.line told = driver.line calls) :
    ((ended.hw.devices device).powerAlwaysOn = false →
        Wiring.lastRequest .power (told.filterMap ControlCall.sets) =
          some false) ∧
      ((ended.hw.devices device).usbAlwaysOn = false →
        Wiring.lastRequest .usb (told.filterMap ControlCall.sets) =
          some false) := by
  have down := Conversation.ended_poweredDown fits writable granted runs
    ends unprobed device opened
  have has := tty_has tty
  have asked :
      told.filterMap ControlCall.sets =
        (controlCalls device ended.hw.log).filterMap ControlCall.sets := by
    obtain ⟨language, rfl⟩ := exists_language tty
    have forth :
        told.filterMap ControlCall.sets <+:
          calls.filterMap ControlCall.sets :=
      language.sets_begin (sameLine ▸ List.prefix_rfl)
    have back :
        calls.filterMap ControlCall.sets <+:
          told.filterMap ControlCall.sets :=
      language.sets_begin (sameLine ▸ List.prefix_rfl)
    rw [forth.eq_of_length_le back.length_le, ← sets_withoutStatus, made]
  rw [asked]
  constructor
  · intro switched
    rw [lastRequest_controlCalls (powerCall_switches device)]
    exact down.power switched (by
      rw [Device.hasControl, controlled]
      exact has.1)
  · intro switched
    rw [lastRequest_controlCalls (usbCall_switches device)]
    exact down.usb switched (by
      rw [Device.hasControl, controlled]
      exact has.2)

/--
However a conversation goes, for a board behind GPIOs of the server's host: when
the server's process ends and every value could be set, the line of the power
GPIO drives the level at which it is inactive, and so does the line of the USB
GPIO, unless the board is configured to keep them on.
-/
theorem conversation_gpioOff
    (fits : Client.VerbFits call.verb)
    (writable : ∀ outcome, outcome ∈ call.writes → outcome = .done)
    (granted : ∀ resource, false ∉ host.hw.grants resource)
    (runs : ((Conversation.start call host).after turns).serverLeft = false)
    (ends :
      endOfProcess?
          (watchMainLoop [ready]
            (((Conversation.start call host).after turns).server.onInput
              Server.stdinOf (Input.reading reads))) =
        some ended)
    (unprobed : ended.probed = [])
    {device : Fin n}
    (opened : ended.hw.Opened device)
    (controlled : (ended.hw.devices device).control = some .localGpio)
    {State Chip Line Pin : Type}
    {gpiod : Gpiod State Chip Line}
    {view : GpioView State Line Pin}
    (documented : gpiod.Documented view)
    {options : LocalGpioOptions}
    {lines : State}
    {localGpio : LocalGpioState State Line}
    (driver :
      gpiod.localGpioOpen options (ended.hw.devices device).usbAlwaysOn
          lines =
        some localGpio)
    (works :
      ∀ attempt,
        attempt ∈
            (gpiod.localGpioCalls localGpio
              (controlCalls device ended.hw.log)).attempts →
          attempt.2 = true) :
    let later :=
      gpiod.localGpioCalls localGpio (controlCalls device ended.hw.log)
    ((ended.hw.devices device).powerAlwaysOn = false →
        later.Idles view options .power) ∧
      ((ended.hw.devices device).usbAlwaysOn = false →
        later.Idles view options .usbDisconnect) := by
  intro later
  have down := Conversation.ended_poweredDown fits writable granted runs
    ends unprobed device opened
  have follows := localGpioCalls_follow documented
    (localGpioOpen_follows documented driver)
    (controlCalls device ended.hw.log)
  have has :
      ∀ {op}, ControlDriver.localGpio.has op = true →
        (ended.hw.devices device).hasControl op = true := by
    intro op implemented
    rw [Device.hasControl, controlled]
    exact implemented
  constructor
  · intro switched
    refine @LocalGpioState.Follows.idles _ _ _ _ _ _ _ _ follows works
      .power ?_
    rw [lastRequest_controlCalls (powerCall_switches device)]
    exact down.power switched (has rfl)
  · intro switched
    refine @LocalGpioState.Follows.idles _ _ _ _ _ _ _ _ follows works
      .usb ?_
    rw [lastRequest_controlCalls (usbCall_switches device)]
    exact down.usb switched (has rfl)

end Ending

/-- The board of the bench, behind a controller. -/
def controlledBoard (control : ControlDriver) : Device where
  __ := ftdiBoard
  control := some control

/-- A server with this board. -/
def controlledHost (control : ControlDriver) : Host 1 where
  devices := fun _ => controlledBoard control
  username := ascii "user"
  hw := Hw.initial fun _ => controlledBoard control
  lockOpens := []
  flocks := []

/-- Having typed, the user quits. -/
def controlledParted (control : ControlDriver) : Conversation 1 :=
  (Conversation.start consoleCall (controlledHost control)).after
    (consoleTurns ++
      [.client ⟨some (some [0x01, 0x71]), none, false, false⟩ []])

/-- What the server does then. -/
def controlledParting
    (control : ControlDriver) :
    EStateM.Result Stop (ServerLoop 1) Unit :=
  watchMainLoop [[.stdin]]
    ((controlledParted control).server.onInput Server.stdinOf
      (Input.reading [.hangUp]))

theorem controlledParting_ends
    {control : ControlDriver}
    (known : control = .qcomltDbg ∨ control = .localGpio) :
    (controlledParted control).serverLeft = false ∧
      ∃ ended,
        endOfProcess? (controlledParting control) = some ended ∧
          ended.probed = [] ∧
          ended.hw.Opened 0 ∧
          (ended.hw.devices 0).control = some control ∧
          (ended.hw.devices 0).powerAlwaysOn = false ∧
          (ended.hw.devices 0).usbAlwaysOn = false := by
  have closed :
      ((controlledParted control).serverLeft == false &&
        (endOfProcess? (controlledParting control)).any
          (fun ended =>
            decide (ended.probed = []) &&
              ((ended.hw.log.any fun event =>
                event.value = .consoleOpen 0) &&
              (decide ((ended.hw.devices 0).control = some control) &&
                (decide ((ended.hw.devices 0).powerAlwaysOn = false) &&
                  decide
                    ((ended.hw.devices 0).usbAlwaysOn = false)))))) =
        true := by
    rcases known with rfl | rfl <;> decide +kernel
  rw [Bool.and_eq_true, beq_iff_eq] at closed
  obtain ⟨ended, ends, fine⟩ := (Option.any_eq_true _ _).mp closed.2
  simp only [Bool.and_eq_true, decide_eq_true_eq] at fine
  obtain ⟨event, member, opens⟩ := List.any_eq_true.mp fine.2.1
  exact ⟨closed.1, ended, ends, fine.1,
    ⟨event, member, of_decide_eq_true opens⟩, fine.2.2⟩

/-- The debug board was last told to switch the power off. -/
theorem debugBoard_controllerOff :
    ∃ ended,
      endOfProcess? (controlledParting .qcomltDbg) = some ended ∧
        ended.hw.Opened 0 ∧
        Wiring.lastRequest .power
            ((controlCalls 0 ended.hw.log).filterMap ControlCall.sets) =
          some false := by
  obtain ⟨runs, ended, ends, unprobed, opened, control, switched, _⟩ :=
    controlledParting_ends (.inl rfl)
  have tty :
      ControlDriver.qcomltDbg.tty? 0 (ended.hw.devices 0).usbAlwaysOn =
        some qcomltDbgTty :=
    rfl
  exact ⟨ended, ends, opened,
    (conversation_controllerOff consoleCall_fits (by simp [consoleCall])
      (fun _ => List.not_mem_nil) runs ends unprobed opened control tty
      (controlCalls_withoutStatus 0 ended.hw.log) rfl).1 switched⟩

/-- A power GPIO that is active low is left high. -/
theorem powerOnly_gpioOff :
    ∃ ended localGpio,
      endOfProcess? (controlledParting .localGpio) = some ended ∧
        (Gpiod.v2 singleChip).localGpioOpen powerOnly false
            (fun _ => none) =
          some localGpio ∧
        ((Gpiod.v2 singleChip).localGpioCalls localGpio
            (controlCalls 0 ended.hw.log)).Idles chipView powerOnly
          .power := by
  have closed :
      (endOfProcess? (controlledParting .localGpio)).all
          (fun ended =>
            ((Gpiod.v2 singleChip).localGpioOpen powerOnly false
              (fun _ => none)).any
              fun localGpio =>
                ((Gpiod.v2 singleChip).localGpioCalls localGpio
                  (controlCalls 0 ended.hw.log)).attempts.all Prod.snd) =
        true := by
    decide +kernel
  obtain ⟨runs, ended, ends, unprobed, opened, control, switched, usb⟩ :=
    controlledParting_ends (.inr rfl)
  rw [ends, Option.all_some] at closed
  obtain ⟨localGpio, driver, works⟩ := (Option.any_eq_true _ _).mp closed
  exact ⟨ended, localGpio, ends, driver,
    (conversation_gpioOff consoleCall_fits (by simp [consoleCall])
      (fun _ => List.not_mem_nil) runs ends unprobed opened
      control singleChip_documented (usb.symm ▸ driver)
      (List.all_eq_true.mp works)).1 switched⟩

end Cdba
