import Cdba.Server

namespace Cdba

/-!
# What every handler leaves alone

Whatever the server does with its devices only adds to the log, lets time pass
and changes timers and run-time fields; nothing rewrites the
configuration or the past.  Each operation gets one lemma, which callers cite.
-/

open Program

variable {n : Nat}

/-- Two records of one device: only the run-time fields may differ. -/
def Device.SameConfig (first last : Device) : Prop :=
  last =
    { first with
      fastboot := last.fastboot
      state := last.state
      hasPowerKey := last.hasPowerKey
      statusEnabled := last.statusEnabled }

/-- Later state of the hardware: the past and the configuration are unchanged. -/
structure Hw.Extends (first last : Hw n) : Prop where
  logged :
    ∃ events,
      last.log = first.log ++ events ∧
        events.Pairwise (fun earlier later => earlier.time ≤ later.time) ∧
        ∀ event, event ∈ events →
          first.clock.now ≤ event.time ∧ event.time ≤ last.clock.now
  elapsed : first.clock.now ≤ last.clock.now
  config :
    ∀ device, (first.devices device).SameConfig (last.devices device)
  beyond : last.beyond = first.beyond
  grants :
    ∀ resource, last.grants resource <:+ first.grants resource

theorem Device.SameConfig.refl
    (device : Device) :
    device.SameConfig device :=
  rfl

theorem Device.SameConfig.trans
    {first middle last : Device}
    (firstStep : first.SameConfig middle)
    (laterStep : middle.SameConfig last) :
    first.SameConfig last := by
  unfold Device.SameConfig at *
  rw [laterStep, firstStep]

/-- A fixed field has the same value in both records. -/
theorem Device.SameConfig.board
    {first last : Device}
    (same : first.SameConfig last) :
    last.board = first.board := by
  rw [same]

theorem Device.SameConfig.console
    {first last : Device}
    (same : first.SameConfig last) :
    last.console = first.console := by
  rw [same]

theorem Device.SameConfig.serial
    {first last : Device}
    (same : first.SameConfig last) :
    last.serial = first.serial := by
  rw [same]

theorem Device.SameConfig.users
    {first last : Device}
    (same : first.SameConfig last) :
    last.users = first.users := by
  rw [same]

theorem Device.SameConfig.hasControl
    {first last : Device}
    (same : first.SameConfig last)
    (op : ControlOp) :
    last.hasControl op = first.hasControl op := by
  rw [same]
  rfl

instance Hw.Extends.composes :
    Composes (Hw.Extends (n := n)) where
  refl := fun hw =>
    { logged := ⟨[], by simp, .nil, by simp⟩
      elapsed := Nat.le_refl _
      config := fun device => Device.SameConfig.refl _
      beyond := rfl
      grants := fun _ => List.suffix_rfl }
  trans := by
    intro first middle last firstStep laterStep
    obtain ⟨events, log, sorted, times⟩ := firstStep.logged
    obtain ⟨events', log', sorted', times'⟩ := laterStep.logged
    have elapsed := firstStep.elapsed
    have elapsed' := laterStep.elapsed
    constructor
    · refine ⟨events ++ events', ?_, ?_, ?_⟩
      · rw [log', log, List.append_assoc]
      · refine List.pairwise_append.mpr ⟨sorted, sorted', ?_⟩
        intro event member event' member'
        exact Nat.le_trans (times event member).2
          (times' event' member').1
      · intro event member
        rcases List.mem_append.mp member with early | late
        · have bounds := times event early
          omega
        · have bounds := times' event late
          omega
    · omega
    · intro device
      exact (firstStep.config device).trans (laterStep.config device)
    · rw [laterStep.beyond, firstStep.beyond]
    · exact fun resource =>
        (laterStep.grants resource).trans (firstStep.grants resource)

/-- The events logged between two states. -/
def Hw.since (first last : Hw n) : List (Stamped (Event n)) :=
  last.log.drop first.log.length

theorem Hw.Extends.log_eq
    {first last : Hw n}
    (extended : first.Extends last) :
    last.log = first.log ++ first.since last := by
  obtain ⟨events, log, _⟩ := extended.logged
  simp [Hw.since, log]

/-- The events of two stretches of a run are those of the whole. -/
theorem since_append
    {first middle last : Hw n}
    (before : first.Extends middle)
    (after : middle.Extends last) :
    first.since last = first.since middle ++ middle.since last := by
  have extended : first.Extends last := Composes.trans before after
  have whole := extended.log_eq
  rw [after.log_eq, before.log_eq, List.append_assoc,
    List.append_cancel_left_eq] at whole
  exact whole.symm

/-- What is logged between two states is stamped with a time between them. -/
theorem Hw.Extends.times
    {first last : Hw n}
    (extended : first.Extends last) :
    (first.since last).Pairwise
        (fun earlier later => earlier.time ≤ later.time) ∧
      ∀ event, event ∈ first.since last →
        first.clock.now ≤ event.time ∧ event.time ≤ last.clock.now := by
  obtain ⟨events, log, sorted, times⟩ := extended.logged
  have same : first.since last = events := by
    simp [Hw.since, log]
  rw [same]
  exact ⟨sorted, times⟩

/-- Taking answers off the scripts of the outside extends a state. -/
theorem Hw.Extends.of_scripts
    {first last : Hw n}
    (log : last.log = first.log)
    (clock : last.clock = first.clock)
    (devices : last.devices = first.devices)
    (beyond : last.beyond = first.beyond)
    (grants : last.grants = first.grants) :
    first.Extends last where
  logged := ⟨[], by simp [log], .nil, by simp⟩
  elapsed := by simp [clock]
  config := by
    intro device
    rw [devices]
    exact Device.SameConfig.refl _
  beyond := beyond
  grants := by
    rw [grants]
    exact fun _ => List.suffix_rfl

/-- A reason to stop other than a missing device. -/
abbrev Stop.NotNullDevice (reason : Stop) : Prop :=
  reason ≠ .nullDeref .device

/--
Programs that extend the state they start in, and do not follow a
`struct device *` that is NULL.
-/
abbrev Extending (program : HwM n α) : Prop :=
  Relates Hw.Extends Stop.NotNullDevice program

/-! ## Primitive actions -/

theorem emit_extends
    (event : Event n) :
    Extending (emit event) :=
  Relates.update fun hw =>
    { logged := by
        refine ⟨[_], rfl, List.pairwise_singleton _ _, ?_⟩
        simp [Clock.now_le_tick]
      elapsed := Clock.now_le_tick _
      config := fun device => Device.SameConfig.refl _
      beyond := rfl
      grants := fun _ => List.suffix_rfl }

theorem sleep_extends
    (seconds : Nat) :
    Extending (sleep (n := n) seconds) :=
  Relates.update fun hw =>
    { logged := ⟨[], by simp, .nil, by simp⟩
      elapsed :=
        Nat.le_trans (Clock.now_le_tick _) (Nat.le_add_right _ _)
      config := fun device => Device.SameConfig.refl _
      beyond := rfl
      grants := fun _ => List.suffix_rfl }

theorem gettimeofday_extends :
    Extending (gettimeofday (n := n)) :=
  .bind
    (.update fun hw =>
      { logged := ⟨[], by simp, .nil, by simp⟩
        elapsed := Clock.now_le_tick _
        config := fun device => Device.SameConfig.refl _
        beyond := rfl
        grants := fun _ => List.suffix_rfl })
    (fun _ => .read _)

theorem updateDevice_extends
    (device : Fin n)
    {change : Device → Device}
    (keeps : ∀ dev : Device, dev.SameConfig (change dev)) :
    Extending (updateDevice device change) :=
  Relates.update fun hw =>
    { logged := ⟨[], by simp, .nil, by simp⟩
      elapsed := Nat.le_refl _
      config := by
        intro query
        dsimp only
        split
        · exact keeps _
        · exact Device.SameConfig.refl _
      beyond := rfl
      grants := fun _ => List.suffix_rfl }

theorem updateFastboot_extends
    (index : Nat)
    (change : Fastboot → Fastboot) :
    Extending (updateFastboot (n := n) index change) :=
  Relates.update fun hw =>
    { logged := ⟨[], by simp, .nil, by simp⟩
      elapsed := Nat.le_refl _
      config := fun device => Device.SameConfig.refl _
      beyond := rfl
      grants := fun _ => List.suffix_rfl }

theorem deref_extends
    (device : Fin n) :
    Extending (deref (some device)) :=
  .pure _

theorem nextAnswer_extends
    {script : Hw n → List α}
    {replace : Hw n → List α → Hw n}
    {default : α}
    (replaces : ∀ (hw : Hw n) answers, hw.Extends (replace hw answers)) :
    Extending (nextAnswer script replace default) :=
  .bind (.read _) fun answers =>
    .bind (.update fun hw => replaces hw answers.tail) fun _ => .pure _

theorem spend_extends
    (hw : Hw n)
    (resource : Resource) :
    hw.Extends (hw.spend resource) where
  logged := ⟨[], by simp [Hw.spend], .nil, by simp⟩
  elapsed := Nat.le_refl _
  config := fun device => Device.SameConfig.refl _
  beyond := rfl
  grants := by
    intro query
    unfold Hw.spend
    dsimp only
    split
    · exact List.tail_suffix _
    · exact List.suffix_rfl

theorem acquire_extends
    (resource : Resource) :
    Extending (acquire (n := n) resource) :=
  acquire_relates (fun hw => spend_extends hw resource) (by decide)

theorem runBulk_extends
    (device : Fin n)
    (transfer : BulkScript → BulkRun α) :
    Extending (runBulk device transfer) :=
  .bind (.read _) fun run =>
    .bind
      (.update fun hw =>
        { logged := by
            refine ⟨_, rfl, ?_, ?_⟩
            · rw [List.pairwise_map]
              exact List.pairwise_of_forall fun _ _ => Nat.le_refl _
            · simp [Clock.now_le_tick]
          elapsed := Clock.now_le_tick _
          config := fun device => Device.SameConfig.refl _
          beyond := rfl
          grants := fun _ => List.suffix_rfl })
      fun _ => .pure _

theorem watchTimerAdd_extends
    (timeoutMs : Int)
    (cb : TimerCallback n) :
    Extending (watchTimerAdd timeoutMs cb) :=
  .bind gettimeofday_extends fun now =>
    .update fun hw =>
      { logged := ⟨[], by simp, .nil, by simp⟩
        elapsed := Nat.le_refl _
        config := fun device => Device.SameConfig.refl _
        beyond := rfl
        grants := fun _ => List.suffix_rfl }

/-! ## Operations on a device -/

theorem deviceImplPower_extends
    (device : Fin n)
    (on : Bool) :
    Extending (deviceImplPower device on) :=
  .bind (.read _) fun _ => .ite (.stop (by decide)) (emit_extends _)

theorem deviceKey_extends
    (device : Fin n)
    (key : Nat)
    (asserted : Bool) :
    Extending (deviceKey (some device) key asserted) :=
  .bind (deref_extends device) fun _ =>
    .bind (.read _) fun _ => .onlyIf (emit_extends _)

theorem deviceUsb_extends
    (device : Fin n)
    (on : Bool) :
    Extending (deviceUsb (some device) on) :=
  .bind (deref_extends device) fun _ =>
    .bind (.read _) fun _ =>
      .bind (.onlyIf (emit_extends _)) fun _ =>
        .onlyIf (emit_extends _)

theorem setState_extends
    (device : Fin n)
    (state : DeviceState) :
    Extending (setState device state) :=
  updateDevice_extends device fun _ => rfl

theorem releaseFastbootLater_extends
    (device : Fin n) :
    Extending (releaseFastbootLater device) :=
  .bind (.read _) fun _ =>
    .ite
      (.bind (setState_extends _ _) fun _ => watchTimerAdd_extends _ _)
      (setState_extends _ _)

theorem deviceTick_extends
    (device : Fin n) :
    Extending (deviceTick device) := by
  refine .bind (.read _) fun dev => .bind (emit_extends _) fun _ => ?_
  cases dev.state with
  | start =>
      exact .bind (.onlyIf (deviceKey_extends _ _ _)) fun _ =>
        .bind (.onlyIf (deviceKey_extends _ _ _)) fun _ =>
          .bind (setState_extends _ _) fun _ => watchTimerAdd_extends _ _
  | connect =>
      exact .bind (deviceImplPower_extends _ _) fun _ =>
        .bind (deviceUsb_extends _ _) fun _ =>
          .ite
            (.bind (setState_extends _ _) fun _ =>
              watchTimerAdd_extends _ _)
            (releaseFastbootLater_extends _)
  | press =>
      exact .bind (deviceKey_extends _ _ _) fun _ =>
        .bind (setState_extends _ _) fun _ => watchTimerAdd_extends _ _
  | releasePwr =>
      exact .bind (deviceKey_extends _ _ _) fun _ =>
        releaseFastbootLater_extends _
  | releaseFastboot =>
      exact .bind (deviceKey_extends _ _ _) fun _ => setState_extends _ _
  | running =>
      exact .pure _

theorem devicePowerOn_extends
    (device : Option (Fin n)) :
    Extending (devicePowerOn device) := by
  refine .bind (.read _) fun powered => ?_
  cases powered with
  | none => exact .pure _
  | some device =>
      exact .bind (setState_extends _ _) fun _ => deviceTick_extends _

theorem devicePowerOff_extends
    (device : Option (Fin n)) :
    Extending (devicePowerOff device) := by
  refine .bind (.read _) fun powered => ?_
  cases powered with
  | none => exact .pure _
  | some device => exact emit_extends _

theorem devicePower_extends
    (device : Option (Fin n))
    (on : Bool) :
    Extending (devicePower device on) :=
  .ite (devicePowerOn_extends _) (devicePowerOff_extends _)

theorem deviceWrite_extends
    (device : Option (Fin n))
    (buf : List UInt8) :
    Extending (deviceWrite device buf) := by
  cases device with
  | none => exact .pure _
  | some device =>
      exact .bind (.read _) fun _ => .ite (.stop (by decide)) (emit_extends _)

theorem deviceSendBreak_extends
    (device : Fin n) :
    Extending (deviceSendBreak (some device)) :=
  .bind (deref_extends device) fun _ =>
    .bind (.read _) fun _ => .onlyIf (emit_extends _)

theorem controlStatusEnable_extends
    (device : Fin n) :
    Extending (controlStatusEnable device) := by
  refine .bind (emit_extends _) fun _ => .bind (.read _) fun control => ?_
  split
  · exact watchTimerAdd_extends _ _
  · exact watchTimerAdd_extends _ _
  · exact .pure _

theorem deviceStatusEnable_extends
    (device : Fin n) :
    Extending (deviceStatusEnable (some device)) :=
  .bind (deref_extends device) fun _ =>
    .bind (.read _) fun _ =>
      .ite (.pure _)
        (.bind (.onlyIf (controlStatusEnable_extends _)) fun _ =>
          .bind
            (.onlyIf (.bind (acquire_extends _) fun _ => emit_extends _))
            fun _ => updateDevice_extends _ fun _ => rfl)

/-! ## Fastboot objects -/

theorem handleFastbootAdd_extends
    (index : Nat)
    (node : UsbNode) :
    Extending (handleFastbootAdd (n := n) index node) := by
  unfold handleFastbootAdd
  cases node.probe with
  | none => exact .pure _
  | some endpoints =>
      exact .bind (updateFastboot_extends _ _) fun _ => emit_extends _

theorem handleUdevEvent_extends
    (index : Nat)
    (event : UdevEvent) :
    Extending (handleUdevEvent (n := n) index event) := by
  refine .bind (.read _) fun fb => ?_
  cases event with
  | add serial node =>
      exact .onlyIf (handleFastbootAdd_extends _ _)
  | remove path =>
      exact .onlyIf
        (.bind (updateFastboot_extends _ _) fun _ =>
          .bind (emit_extends _) fun _ => updateFastboot_extends _ _)
  | other =>
      exact .pure _

theorem fastbootEnumerate_extends
    (serial : CString) :
    Extending (fastbootEnumerate (n := n) serial) :=
  .bind (.read _) fun _ =>
    .bind (.update fun _ => Hw.Extends.of_scripts rfl rfl rfl rfl rfl) fun _ =>
      .bind (updateFastboot_extends _ _) fun _ =>
        .bind
          (nextAnswer_extends fun _ _ =>
            Hw.Extends.of_scripts rfl rfl rfl rfl rfl)
          fun _ =>
            .bind (.each fun _ _ => handleFastbootAdd_extends _ _)
              fun _ => .pure _

theorem fastbootOpen_extends
    (serial : CString) :
    Extending (fastbootOpen (n := n) serial) :=
  .bind (acquire_extends _) fun _ => fastbootEnumerate_extends serial

theorem deviceFastbootOpen_extends
    (device : Fin n) :
    Extending (deviceFastbootOpen device) :=
  .bind (.read _) fun _ =>
    .bind (fastbootOpen_extends _) fun _ =>
      updateDevice_extends _ fun _ => rfl

theorem deviceFastbootContinue_extends
    (device : Fin n) :
    Extending (deviceFastbootContinue (some device)) :=
  .bind (deref_extends device) fun _ =>
    .bind (.read _) fun _ => .onlyIf (runBulk_extends _ _)

theorem bootMethod_extends
    (device : Fin n) :
    Extending (bootMethod device) := by
  refine .bind (.read _) fun method => .bind (emit_extends _) fun _ => ?_
  cases method with
  | fastbootBoot =>
      exact .bind (.read _) fun _ => .onlyIf (runBulk_extends _ _)
  | fastbootFlashReboot =>
      exact .bind (.read _) fun _ =>
        .onlyIf (.bind (runBulk_extends _ _) fun _ => runBulk_extends _ _)

theorem deviceBoot_extends
    (device : Fin n)
    (image : List UInt8) :
    Extending (deviceBoot (some device) image) :=
  .bind (deref_extends device) fun _ =>
    .bind (.read _) fun _ =>
      .bind (emit_extends _) fun _ =>
        .ite (.stop (by decide))
          (.bind (runBulk_extends _ _) fun _ =>
            .bind (acquire_extends _) fun _ =>
              .bind (runBulk_extends _ _) fun _ =>
                .bind (bootMethod_extends _) fun _ =>
                  .onlyIf (deviceUsb_extends _ _))

/-! ### The two halves of booting -/

/-- What `device_boot` does before the buffer of `fastboot_download` is there. -/
def beforeDownload
    (device : Fin n)
    (dev : Device)
    (image : List UInt8) :
    HwM n Unit := do
  emit (.deviceBoot device image)
  runBulk device (setActiveTransfer dev.setActive)
  acquire .memory

/-- What it does from then on, with and without a successful download. -/
def fromDownload
    (device : Fin n)
    (dev : Device)
    (image : List UInt8) :
    HwM n Unit := do
  let _ ← runBulk device (fastbootDownload image)
  bootMethod device
  onlyIf (dev.statusEnabled && !dev.usbAlwaysOn)
    (deviceUsb (some device) false)

theorem deviceBoot_eq
    {hw : Hw n}
    {device : Fin n}
    (image : List UInt8)
    (present : (hw.devices device).fastboot ≠ none) :
    deviceBoot (some device) image hw =
      (beforeDownload device (hw.devices device) image >>=
        fun _ => fromDownload device (hw.devices device) image) hw := by
  simp only [deviceBoot, deref, pure_bind]
  rw [bind_of_ok (read_apply _ _)]
  simp only [present, ↓reduceIte, beforeDownload, fromDownload, bind_assoc]

theorem beforeDownload_extends
    (device : Fin n)
    (dev : Device)
    (image : List UInt8) :
    Extending (beforeDownload device dev image) :=
  .bind (emit_extends _) fun _ => .bind (runBulk_extends _ _) fun _ =>
    acquire_extends _

/-- The download is reached exactly when there is a buffer for it. -/
theorem beforeDownload_outcome
    (hw : Hw n)
    (device : Fin n)
    (dev : Device)
    (image : List UInt8) :
    ∃ (middle : Hw n) (mark time : Nat) (trace : List BulkEvent),
      beforeDownload device dev image hw =
          (if (hw.grants .memory).headD true = true then
            .ok () middle
          else
            .error (.exit 1) middle) ∧
        middle.log =
          hw.log ++ ⟨mark, .deviceBoot device image⟩ ::
            trace.map (fun made => ⟨time, .bulk device made⟩) ∧
        middle.devices = hw.devices := by
  let setActive : HwM n Unit :=
    emit (.deviceBoot device image) >>= fun _ =>
      runBulk device (setActiveTransfer dev.setActive)
  let transfers := setActiveTransfer dev.setActive hw.bulks
  obtain ⟨before, returned, log, devices, grants⟩ :
      ∃ before,
        setActive hw = .ok () before ∧
          before.log =
            hw.log ++ ⟨hw.clock.tick.now, .deviceBoot device image⟩ ::
              transfers.trace.map (fun made =>
                ⟨hw.clock.tick.tick.now, .bulk device made⟩) ∧
          before.devices = hw.devices ∧ before.grants = hw.grants :=
    ⟨_, rfl, List.append_assoc _ _ _, rfl, rfl⟩
  refine ⟨before.spend .memory, _, _, _, ?_, log, devices⟩
  rw [← grants, ← acquire_apply .memory before]
  exact bind_of_ok returned fun _ => acquire .memory

/-! ## Listing and opening -/

theorem deviceListDevices_extends
    (username : Option CString) :
    Extending (deviceListDevices (n := n) username) :=
  .bind
    (.each fun _ _ =>
      .bind (.read _) fun _ =>
        .bind (.read _) fun _ => .onlyIf (emit_extends _))
    fun _ => emit_extends _

theorem deviceInfo_extends
    (username : Option CString)
    (data : Nat → UInt8)
    (dlen : Nat) :
    Extending (deviceInfo (n := n) username data dlen) :=
  .bind (.read _) fun _ => .bind (.read _) fun _ => emit_extends _

theorem openControl_extends
    (device : Fin n) :
    Extending (openControl device) := by
  refine .bind (.read _) fun dev => ?_
  cases dev.control with
  | none => exact .pure _
  | some driver =>
      exact .bind
        (nextAnswer_extends fun _ _ =>
          Hw.Extends.of_scripts rfl rfl rfl rfl rfl)
        fun _ =>
          .ite
            (.bind (emit_extends _) fun _ =>
              updateDevice_extends _ fun _ => rfl)
            (.stop (by decide))

theorem openLocked_extends
    (device : Fin n) :
    Extending (openLocked device) :=
  .bind (openControl_extends _) fun _ =>
    .bind
      (.bind
        (nextAnswer_extends fun _ _ =>
          Hw.Extends.of_scripts rfl rfl rfl rfl rfl)
        fun _ => .ite (emit_extends _) (.stop (by decide)))
      fun _ =>
        .bind (.read _) fun _ =>
          .bind
            (.onlyIf
              (.bind (devicePowerOff_extends _) fun _ => sleep_extends _))
            fun _ => .onlyIf (deviceUsb_extends _ _)

theorem msgKeyPress_extends
    (device : Fin n)
    (data : List UInt8) :
    Extending (msgKeyPress (some device) data) := by
  unfold msgKeyPress
  split
  · exact .ite
      (.bind (deviceKey_extends _ _ _) fun _ => watchTimerAdd_extends _ _)
      (deviceKey_extends _ _ _)
  · exact .pure _

end Cdba
