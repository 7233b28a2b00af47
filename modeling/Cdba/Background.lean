import Cdba.Session

namespace Cdba

/-!
# Work beside keys, power-on sequences and uploads

Most of what the server does neither operates a key, nor ticks a power-on
sequence, nor boots an image.  This work leaves no mark on the three: it logs
none of their events, arms none of their timers and keeps the phase and the
fastboot object of every device.
-/

open Program

variable {n : Nat}

/-- Events that belong to none of the three. -/
def Event.Background : Event n → Prop
  | .key _ _ _ => False
  | .tick _ _ => False
  | .deviceBoot _ _ => False
  | .send type _ => type ≠ .fastbootDownload
  | _ => True

/-- Timers that belong to none of the three. -/
def TimerCallback.Background : TimerCallback n → Prop
  | .deviceTick _ => False
  | .msgKeyRelease _ => False
  | .cdbAssistPrintStatus _ => True
  | .qcomltDbgRequestStatus _ => True

/--
The same device with the same phase, and with a power key and a fastboot object
if it had them.
-/
structure Device.Background (first last : Device) : Prop where
  config : first.SameConfig last
  state : last.state = first.state
  powerKey : first.hasPowerKey = true → last.hasPowerKey = true
  fastboot : first.fastboot ≠ none → last.fastboot ≠ none

/-- Only background work was done in between. -/
structure Hw.Background (first last : Hw n) : Prop where
  logged :
    ∃ events,
      last.log = first.log ++ events ∧
        ∀ event, event ∈ events → event.value.Background
  armed :
    ∃ timers,
      last.timers = first.timers ++ timers ∧
        ∀ timer, timer ∈ timers → timer.cb.Background
  devices :
    ∀ device, (first.devices device).Background (last.devices device)

theorem Device.Background.refl
    (device : Device) :
    device.Background device where
  config := .refl device
  state := rfl
  powerKey := id
  fastboot := id

theorem Device.Background.trans
    {first middle last : Device}
    (firstStep : first.Background middle)
    (laterStep : middle.Background last) :
    first.Background last where
  config := firstStep.config.trans laterStep.config
  state := laterStep.state.trans firstStep.state
  powerKey := laterStep.powerKey ∘ firstStep.powerKey
  fastboot := laterStep.fastboot ∘ firstStep.fastboot

instance Hw.Background.composes :
    Composes (Hw.Background (n := n)) where
  refl := fun hw =>
    { logged := ⟨[], by simp, by simp⟩
      armed := ⟨[], by simp, by simp⟩
      devices := fun device => .refl _ }
  trans := by
    intro first middle last firstStep laterStep
    obtain ⟨events, log, background⟩ := firstStep.logged
    obtain ⟨events', log', background'⟩ := laterStep.logged
    obtain ⟨timers, queue, backgroundTimers⟩ := firstStep.armed
    obtain ⟨timers', queue', backgroundTimers'⟩ := laterStep.armed
    constructor
    · refine ⟨events ++ events', by rw [log', log, List.append_assoc], ?_⟩
      intro event member
      rcases List.mem_append.mp member with early | late
      · exact background event early
      · exact background' event late
    · refine ⟨timers ++ timers', by rw [queue', queue, List.append_assoc], ?_⟩
      intro timer member
      rcases List.mem_append.mp member with early | late
      · exact backgroundTimers timer early
      · exact backgroundTimers' timer late
    · exact fun device =>
        (firstStep.devices device).trans (laterStep.devices device)

/-- Programs that only do background work, however they end. -/
abbrev InBackground (program : HwM n α) : Prop :=
  Relates Hw.Background Stop.Any program

section InBackground

variable {mayStop : Stop → Prop}

/-! ## Primitive actions -/

/-- Changes to anything but the log, the timers and the devices. -/
theorem Hw.Background.of_same
    {first last : Hw n}
    (log : last.log = first.log)
    (timers : last.timers = first.timers)
    (devices : last.devices = first.devices) :
    first.Background last where
  logged := ⟨[], by simp [log], by simp⟩
  armed := ⟨[], by simp [timers], by simp⟩
  devices := by
    intro device
    rw [devices]
    exact .refl _

theorem emit_background
    {event : Event n}
    (background : event.Background) :
    Relates Hw.Background mayStop (emit event) :=
  .update fun hw =>
    { logged := ⟨[_], rfl, by simpa using background⟩
      armed := ⟨[], by simp, by simp⟩
      devices := fun device => .refl _ }

theorem sleep_background
    (seconds : Nat) :
    InBackground (sleep (n := n) seconds) :=
  .update fun _ => .of_same rfl rfl rfl

theorem updateDevice_background
    (device : Fin n)
    {change : Device → Device}
    (background : ∀ dev : Device, dev.Background (change dev)) :
    InBackground (updateDevice device change) :=
  .update fun hw =>
    { logged := ⟨[], by simp, by simp⟩
      armed := ⟨[], by simp, by simp⟩
      devices := by
        intro query
        dsimp only
        split
        · exact background _
        · exact .refl _ }

theorem updateFastboot_background
    (index : Nat)
    (change : Fastboot → Fastboot) :
    InBackground (updateFastboot (n := n) index change) :=
  .update fun _ => .of_same rfl rfl rfl

theorem nextAnswer_background
    {script : Hw n → List α}
    {replace : Hw n → List α → Hw n}
    {default : α}
    (replaces :
      ∀ (hw : Hw n) answers, hw.Background (replace hw answers)) :
    InBackground (nextAnswer script replace default) :=
  .bind (.read _) fun answers =>
    .bind (.update fun hw => replaces hw answers.tail) fun _ => .pure _

theorem acquire_background
    (resource : Resource) :
    InBackground (acquire (n := n) resource) :=
  acquire_relates (fun _ => .of_same rfl rfl rfl) trivial

theorem runBulk_background
    (device : Fin n)
    (transfer : BulkScript → BulkRun α) :
    Relates Hw.Background mayStop (runBulk device transfer) :=
  .bind (.read _) fun run =>
    .bind
      (.update fun hw =>
        { logged := by
            refine ⟨_, rfl, fun event member => ?_⟩
            obtain ⟨made, _, rfl⟩ := List.mem_map.mp member
            trivial
          armed := ⟨[], by simp, by simp⟩
          devices := fun device => .refl _ })
      fun _ => .pure _

theorem gettimeofday_background :
    InBackground (gettimeofday (n := n)) :=
  .bind (.update fun _ => .of_same rfl rfl rfl) fun _ => .read _

theorem watchTimerAdd_background
    {timeoutMs : Int}
    {cb : TimerCallback n}
    (background : cb.Background) :
    InBackground (watchTimerAdd timeoutMs cb) :=
  .bind gettimeofday_background fun now =>
    .update fun hw =>
      { logged := ⟨[], by simp, by simp⟩
        armed := ⟨[_], rfl, by simpa using background⟩
        devices := fun device => .refl _ }

theorem deref_background
    (device : Option (Fin n)) :
    InBackground (deref device) := by
  cases device with
  | none => exact .stop trivial
  | some device => exact .pure _

/-! ## Operations on a device -/

theorem deviceUsb_some_background
    (device : Fin n)
    (on : Bool) :
    Relates Hw.Background mayStop (deviceUsb (some device) on) :=
  .bind (.pure _) fun _ =>
    .bind (.read _) fun _ =>
      .bind (.onlyIf (emit_background trivial)) fun _ =>
        .onlyIf (emit_background trivial)

theorem deviceUsb_background
    (device : Option (Fin n))
    (on : Bool) :
    InBackground (deviceUsb device on) := by
  cases device with
  | none => exact .stop trivial
  | some device => exact deviceUsb_some_background device on

theorem devicePowerOff_background
    (device : Option (Fin n)) :
    InBackground (devicePowerOff device) := by
  refine .bind (.read _) fun powered => ?_
  cases powered with
  | none => exact .pure _
  | some device => exact emit_background trivial

theorem deviceWrite_background
    (device : Option (Fin n))
    (buf : List UInt8) :
    InBackground (deviceWrite device buf) := by
  cases device with
  | none => exact .pure _
  | some device =>
      exact .bind (.read _) fun _ =>
        .ite (.stop trivial) (emit_background trivial)

theorem deviceSendBreak_background
    (device : Option (Fin n)) :
    InBackground (deviceSendBreak device) :=
  .bind (deref_background device) fun _ =>
    .bind (.read _) fun _ => .onlyIf (emit_background trivial)

theorem deviceStatusEnable_background
    (device : Option (Fin n)) :
    InBackground (deviceStatusEnable device) := by
  have control :
      ∀ device : Fin n, InBackground (controlStatusEnable device) := by
    intro device
    refine .bind (emit_background trivial) fun _ =>
      .bind (.read _) fun control => ?_
    split
    · exact watchTimerAdd_background trivial
    · exact watchTimerAdd_background trivial
    · exact .pure _
  exact .bind (deref_background device) fun device =>
    .bind (.read _) fun dev =>
      .ite (.pure _)
        (.bind (.onlyIf (control device)) fun _ =>
          .bind
            (.onlyIf
              (.bind (acquire_background _) fun _ => emit_background trivial))
            fun _ => updateDevice_background _ fun _ => ⟨rfl, rfl, id, id⟩)

theorem deviceFastbootContinue_background
    (device : Option (Fin n)) :
    InBackground (deviceFastbootContinue device) :=
  .bind (deref_background device) fun _ =>
    .bind (.read _) fun _ => .onlyIf (runBulk_background _ _)

theorem bootMethod_background
    (device : Fin n) :
    Relates Hw.Background mayStop (bootMethod device) := by
  refine .bind (.read _) fun method =>
    .bind (emit_background trivial) fun _ => ?_
  cases method with
  | fastbootBoot =>
      exact .bind (.read _) fun _ => .onlyIf (runBulk_background _ _)
  | fastbootFlashReboot =>
      exact .bind (.read _) fun _ =>
        .onlyIf (.bind (runBulk_background _ _) fun _ =>
          runBulk_background _ _)

theorem deviceListDevices_background
    (username : Option CString) :
    InBackground (deviceListDevices (n := n) username) :=
  .bind
    (.each fun _ _ =>
      .bind (.read _) fun _ =>
        .bind (.read _) fun _ => .onlyIf (emit_background MsgType.noConfusion))
    fun _ => emit_background MsgType.noConfusion

theorem deviceInfo_background
    (username : Option CString)
    (data : Nat → UInt8)
    (dlen : Nat) :
    InBackground (deviceInfo (n := n) username data dlen) :=
  .bind (.read _) fun _ =>
    .bind (.read _) fun _ => emit_background MsgType.noConfusion

/-! ## Fastboot objects -/

theorem handleFastbootAdd_background
    (index : Nat)
    (node : UsbNode) :
    InBackground (handleFastbootAdd (n := n) index node) := by
  unfold handleFastbootAdd
  cases node.probe with
  | none => exact .pure _
  | some endpoints =>
      exact .bind (updateFastboot_background _ _) fun _ =>
        emit_background MsgType.noConfusion

theorem handleUdevEvent_background
    (index : Nat)
    (event : UdevEvent) :
    InBackground (handleUdevEvent (n := n) index event) := by
  refine .bind (.read _) fun fb => ?_
  cases event with
  | add serial node =>
      exact .onlyIf (handleFastbootAdd_background _ _)
  | remove path =>
      exact .onlyIf
        (.bind (updateFastboot_background _ _) fun _ =>
          .bind (emit_background MsgType.noConfusion) fun _ =>
            updateFastboot_background _ _)
  | other =>
      exact .pure _

theorem deviceFastbootOpen_background
    (device : Fin n) :
    InBackground (deviceFastbootOpen device) := by
  have opens :
      ∀ serial, InBackground (fastbootOpen (n := n) serial) :=
    fun serial =>
      .bind (acquire_background _) fun _ =>
        .bind (.read _) fun _ =>
          .bind (.update fun _ => .of_same rfl rfl rfl) fun _ =>
            .bind (updateFastboot_background _ _) fun _ =>
              .bind (nextAnswer_background fun _ _ => .of_same rfl rfl rfl)
                fun _ =>
                  .bind (.each fun _ _ => handleFastbootAdd_background _ _)
                    fun _ => .pure _
  exact .bind (.read _) fun _ =>
    .bind (opens _) fun _ =>
      updateDevice_background _ fun _ => ⟨rfl, rfl, id, fun _ => nofun⟩

/-! ## Opening and closing -/

theorem openLocked_background
    (device : Fin n) :
    InBackground (openLocked device) := by
  have control : InBackground (openControl device) := by
    refine .bind (.read _) fun dev => ?_
    cases dev.control with
    | none => exact .pure _
    | some driver =>
        exact .bind (nextAnswer_background fun _ _ => .of_same rfl rfl rfl)
          fun _ =>
            .ite
              (.bind (emit_background trivial) fun _ =>
                updateDevice_background _ fun dev =>
                  ⟨rfl, rfl, fun has => by rw [has, Bool.true_or], id⟩)
              (.stop trivial)
  have console : InBackground (openConsole device) :=
    .bind (nextAnswer_background fun _ _ => .of_same rfl rfl rfl) fun _ =>
      .ite (emit_background trivial) (.stop trivial)
  exact .bind control fun _ =>
    .bind console fun _ =>
      .bind (.read _) fun _ =>
        .bind
          (.onlyIf
            (.bind (devicePowerOff_background _) fun _ =>
              sleep_background _))
          fun _ => .onlyIf (deviceUsb_background _ _)

theorem deviceClose_background
    (device : Fin n) :
    InBackground (deviceClose device) :=
  .bind (.read _) fun _ =>
    .bind (.onlyIf (deviceUsb_background _ _)) fun _ =>
      .bind (.onlyIf (devicePowerOff_background _)) fun _ =>
        .onlyIf (emit_background trivial)

end InBackground

/-! ## The server -/

/-- Background work of the server; the upload and the selection stay as they are. -/
structure Server.Background (first last : Server n) : Prop where
  hw : first.hw.Background last.hw
  selected : last.selectedDevice = first.selectedDevice
  payload : last.fastbootPayload = first.fastbootPayload
  dispatched : last.dispatched = first.dispatched

instance Server.Background.composes :
    Composes (Server.Background (n := n)) where
  refl := fun server => ⟨Composes.refl server.hw, rfl, rfl, rfl⟩
  trans := fun firstStep laterStep =>
    { hw := Composes.trans firstStep.hw laterStep.hw
      selected := laterStep.selected.trans firstStep.selected
      payload := laterStep.payload.trans firstStep.payload
      dispatched := laterStep.dispatched.trans firstStep.dispatched }

theorem onHw_background
    {program : HwM n α}
    (background : InBackground program) :
    Relates Server.Background Stop.Any (onHw program) :=
  .within (fun _ _ step => ⟨step, rfl, rfl, rfl⟩) background

/-- Changes to standard input, to the lock and to what a quit sets. -/
theorem updateGlobals_background
    {change : Server n → Server n}
    (same :
      ∀ server, ∃ stdin lockOpens flocks probed quitInvoked,
        change server =
          { server with
            stdin := stdin
            lockOpens := lockOpens
            flocks := flocks
            probed := probed
            quitInvoked := quitInvoked }) :
    Relates Server.Background Stop.Any
      (update change : ServerM n Unit) := by
  refine .update fun server => ?_
  obtain ⟨stdin, lockOpens, flocks, probed, quitInvoked, shape⟩ :=
    same server
  rw [shape]
  exact ⟨Composes.refl _, rfl, rfl, rfl⟩

theorem deviceOpen_background
    (board : Nat → UInt8) :
    Relates Server.Background Stop.Any (deviceOpen (n := n) board) := by
  have probe :
      Relates Server.Background Stop.Any (probeConnection (n := n)) := by
    refine .bind (.read _) fun input => ?_
    split
    · exact .pure _
    · split
      · exact updateGlobals_background fun _ => ⟨_, _, _, _, _, rfl⟩
      · exact updateGlobals_background fun _ => ⟨_, _, _, _, _, rfl⟩
      · exact .bind
          (updateGlobals_background fun _ => ⟨_, _, _, _, _, rfl⟩)
          fun _ => .stop trivial
  have loop :
      ∀ flocks,
        Relates Server.Background Stop.Any
          (deviceLockLoop (n := n) flocks) := by
    intro flocks
    induction flocks with
    | nil =>
        exact .pure _
    | cons locked flocks inductionHypothesis =>
        exact .bind
          (updateGlobals_background fun _ => ⟨_, _, _, _, _, rfl⟩)
          fun _ =>
            .ite (.pure _)
              (.bind (onHw_background (sleep_background _)) fun _ =>
                .bind probe fun _ => inductionHypothesis)
  have lock :
      ∀ device : Fin n,
        Relates Server.Background Stop.Any (deviceLock device) :=
    fun device =>
      .bind (.read _) fun _ =>
        .ite (.stop trivial)
          (.bind (.read _) fun _ =>
            .bind
              (updateGlobals_background fun _ => ⟨_, _, _, _, _, rfl⟩)
              fun _ =>
                .ite (.bind (.read _) fun _ => loop _) (.stop trivial))
  refine .bind (.read _) fun found => ?_
  cases found with
  | none => exact .pure _
  | some device =>
      exact .bind (.read _) fun _ =>
        .ite (.stop trivial)
          (.bind (lock device) fun _ =>
            .bind (onHw_background (openLocked_background device))
              fun _ => .pure _)

/-- Messages that only cause background work. -/
def MsgType.isBackground : MsgType → Bool
  | .selectBoard | .powerOn | .fastbootDownload | .keyPress => false
  | _ => true

theorem handleType_background
    {type : MsgType}
    (background : type.isBackground = true)
    (data : List UInt8) :
    Relates Server.Background Stop.Any (handleType (n := n) type data) := by
  have onSelection :
      ∀ handler : Option (Fin n) → HwM n Unit,
        (∀ selected, InBackground (handler selected)) →
        Relates Server.Background Stop.Any (onSelected handler) :=
    fun handler inBackground =>
      .bind (.read _) fun selected =>
        onHw_background (inBackground selected)
  cases type with
  | selectBoard => contradiction
  | powerOn => contradiction
  | fastbootDownload => contradiction
  | keyPress => contradiction
  | console =>
      exact onSelection _ fun _ => deviceWrite_background _ _
  | hardreset => exact .pure _
  | powerOff =>
      exact onSelection _ fun _ =>
        .bind (devicePowerOff_background _) fun _ =>
          emit_background MsgType.noConfusion
  | fastbootPresent => exact .pure _
  | fastbootBoot => exact .pure _
  | statusUpdate => exact onSelection _ deviceStatusEnable_background
  | vbusOn => exact onSelection _ fun _ => deviceUsb_background _ _
  | vbusOff => exact onSelection _ fun _ => deviceUsb_background _ _
  | fastbootReboot => exact .stop trivial
  | sendBreak => exact onSelection _ deviceSendBreak_background
  | listDevices =>
      exact .bind (.read _) fun _ =>
        onHw_background (deviceListDevices_background _)
  | boardInfo =>
      exact .bind (.read _) fun _ =>
        .bind (.read _) fun _ => onHw_background (deviceInfo_background _ _ _)
  | fastbootContinue =>
      exact onSelection _ fun _ =>
        .bind (deviceFastbootContinue_background _) fun _ =>
          emit_background MsgType.noConfusion

/-- Every callback but standard input only causes background work. -/
theorem runCallback_background
    {callback : Callback}
    (other : callback ≠ .stdin) :
    ∃ program : ServerM n Unit,
      runCallback callback = within Receiver.stateOf program ∧
        Relates Server.Background Stop.Any program := by
  have forwards :
      ∀ {α : Type} (forward : α → HwM n Unit) (result : Option α),
        (∀ value, InBackground (forward value)) →
        Relates Server.Background Stop.Any
          (forwardData forward result) := by
    intro α forward result inBackground
    cases result with
    | none => exact .stop trivial
    | some value => exact onHw_background (inBackground value)
  cases callback with
  | stdin => contradiction
  | udev index event =>
      exact ⟨_, rfl, onHw_background (handleUdevEvent_background _ _)⟩
  | consoleData bytes =>
      exact ⟨_, rfl, forwards _ _ fun _ =>
        emit_background MsgType.noConfusion⟩
  | statusData bytes =>
      exact ⟨_, rfl, forwards _ _ fun _ =>
        .onlyIf (emit_background MsgType.noConfusion)⟩
  | controlData lines =>
      exact ⟨_, rfl, forwards _ _ fun _ =>
        .each fun _ _ => emit_background MsgType.noConfusion⟩
  | sigpipe =>
      exact ⟨_, rfl, updateGlobals_background fun _ =>
        ⟨_, _, _, _, _, rfl⟩⟩

end Cdba
