import Cdba.Session

namespace Cdba

/-!
# What the server works on and what it sends

A permission names the devices the server may work on and the messages it may
send.  Each handler and each timer callback stays within every permission that
covers the devices it is given, so what a permission says holds of everything
that is logged in a session.
-/

open Program

variable {n : Nat}

/-- The device that an event is an operation on. -/
def Event.device? : Event n → Option (Fin n)
  | .send _ _ => none
  | .controlOpen device => some device
  | .controlClose device => some device
  | .power device _ => some device
  | .usb device _ => some device
  | .pppsPower device _ => some device
  | .key device _ _ => some device
  | .statusEnable device => some device
  | .statusCmdOpen device => some device
  | .statusValues device => some device
  | .consoleOpen device => some device
  | .consoleWrite device _ => some device
  | .sendBreak device => some device
  | .tick device _ => some device
  | .bulk device _ => some device
  | .deviceBoot device _ => some device
  | .boot device _ => some device

/-- The device that the callback of a timer works on. -/
def TimerCallback.device? : TimerCallback n → Option (Fin n)
  | .deviceTick device => some device
  | .msgKeyRelease _ => none
  | .cdbAssistPrintStatus device => some device
  | .qcomltDbgRequestStatus device => some device

/-- The devices the server may work on and the messages it may send. -/
structure Permission (n : Nat) where
  device : Fin n → Prop
  send : MsgType → List UInt8 → Prop

namespace Permission

variable (permission : Permission n)

/-- A device is permitted, if there is one. -/
def Covers (device : Option (Fin n)) : Prop :=
  ∀ covered, device = some covered → permission.device covered

/-- What an event needs to be permitted. -/
def Allows (event : Event n) : Prop :=
  permission.Covers event.device? ∧
    ∀ type payload, event = .send type payload →
      permission.send type payload

/-- Since some state, the hardware was only used as permitted. -/
structure Kept (start hw : Hw n) : Prop where
  extended : start.Extends hw
  logged :
    ∀ event, event ∈ hw.log → permission.Allows event.value
  armed :
    ∀ timer, timer ∈ hw.timers → permission.Covers timer.cb.device?
  untouched :
    ∀ device, ¬ permission.device device →
      hw.devices device = start.devices device
  watched :
    ∀ index, start.fastbootCount ≤ index → index < hw.fastbootCount →
      ∃ device,
        permission.device device ∧
          (hw.fastboots index).serial = (start.devices device).serial

/-- Programs that only use the hardware as permitted, however they end. -/
abbrev Respected
    (mayStop : Stop → Prop)
    (start : Hw n)
    (program : HwM n α) :
    Prop :=
  Keeps (permission.Kept start)
    (fun reason hw => mayStop reason ∧ permission.Kept start hw) program

/--
Pointers that are NULL may stop a program; the console of a device only if it
was configured without one, and may be used.
-/
def NullStops (mayStop : Stop → Prop) (start : Hw n) : Prop :=
  ∀ pointer,
    (pointer = .consoleOps →
      ∃ device,
        permission.device device ∧ (start.devices device).console = none) →
    mayStop (.nullDeref pointer)

end Permission

/-- Where the system refuses a resource, it may stop a program. -/
def Hw.RefusalStops (start : Hw n) (mayStop : Stop → Prop) : Prop :=
  ∀ resource, false ∈ start.grants resource → mayStop (.exit 1)

/-- Any work and any message is permitted. -/
def Permission.everything : Permission n where
  device := fun _ => True
  send := fun _ _ => True

theorem everything_kept
    (hw : Hw n) :
    Permission.everything.Kept hw hw where
  extended := Composes.refl hw
  logged := fun _ _ => ⟨fun _ _ => trivial, fun _ _ _ => trivial⟩
  armed := fun _ _ _ _ => trivial
  untouched := fun _ unpermitted => absurd trivial unpermitted
  watched := fun _ old new => absurd new (Nat.not_lt.mpr old)

/-- The answers that are left are among those there were. -/
theorem Hw.Extends.refused
    {first last : Hw n}
    {resource : Resource}
    (extended : first.Extends last)
    (refused : (last.grants resource).headD true ≠ true) :
    false ∈ first.grants resource := by
  refine (extended.grants resource).subset ?_
  cases answers : last.grants resource with
  | nil =>
      rw [answers] at refused
      exact absurd rfl refused
  | cons granted rest =>
      rw [answers] at refused
      cases granted with
      | true => exact absurd rfl refused
      | false => exact List.mem_cons_self

/-- A reason to stop other than a call of `exit()`. -/
def Stop.NotExit (reason : Stop) : Prop :=
  ∀ status, reason ≠ .exit status

/-- A NULL pointer is no call of `exit()`. -/
theorem Permission.nullStops_notExit
    (permission : Permission n)
    (start : Hw n) :
    permission.NullStops Stop.NotExit start :=
  fun _ _ _ => nofun

section Respected

variable {permission : Permission n} {mayStop : Stop → Prop} {start : Hw n}

/-- A wider permission covers the same use. -/
theorem Permission.Kept.mono
    {wider : Permission n}
    {hw : Hw n}
    (kept : permission.Kept start hw)
    (devices :
      ∀ device, permission.device device → wider.device device)
    (sends :
      ∀ type payload,
        permission.send type payload → wider.send type payload) :
    wider.Kept start hw where
  extended := kept.extended
  logged := fun event member =>
    ⟨fun device on => devices device
        ((kept.logged event member).1 device on),
      fun type payload isSend => sends type payload
        ((kept.logged event member).2 type payload isSend)⟩
  armed := fun timer member device on =>
    devices device (kept.armed timer member device on)
  untouched := fun device unpermitted =>
    kept.untouched device fun permitted =>
      unpermitted (devices device permitted)
  watched := fun index old new => by
    obtain ⟨device, permitted, serial⟩ := kept.watched index old new
    exact ⟨device, devices device permitted, serial⟩

/-! ## Primitive actions -/

/-- Stopping leaves everything as it is. -/
theorem stop_respected
    {reason : Stop}
    (allowed : mayStop reason) :
    permission.Respected mayStop start (stop reason : HwM n α) :=
  fun _ kept => ⟨allowed, kept⟩

/-- A `struct device *` that is followed is a device, and a permitted one. -/
theorem deref_respected
    {device : Option (Fin n)}
    {later : Fin n → HwM n α}
    (nullStops : mayStop (.nullDeref .device))
    (covered : permission.Covers device)
    (respected :
      ∀ device, permission.device device →
        permission.Respected mayStop start (later device)) :
    permission.Respected mayStop start (deref device >>= later) := by
  cases device with
  | none => exact stop_respected nullStops
  | some device => exact respected device (covered device rfl)

/-- Changes that log nothing, arm nothing and only touch permitted devices. -/
theorem update_respected
    {change : Hw n → Hw n}
    (extends_ : ∀ hw : Hw n, hw.Extends (change hw))
    (log : ∀ hw : Hw n, (change hw).log = hw.log)
    (timers : ∀ hw : Hw n, (change hw).timers = hw.timers)
    (devices :
      ∀ (hw : Hw n) device, ¬ permission.device device →
        (change hw).devices device = hw.devices device)
    (count : ∀ hw : Hw n, (change hw).fastbootCount = hw.fastbootCount)
    (serials :
      ∀ (hw : Hw n) index,
        ((change hw).fastboots index).serial =
          (hw.fastboots index).serial) :
    permission.Respected mayStop start (update change) := by
  intro hw kept
  refine .of_ok (update_apply _ _)
    { extended := Composes.trans kept.extended (extends_ hw)
      logged := ?_
      armed := ?_
      untouched := ?_
      watched := ?_ }
  · rw [log]
    exact kept.logged
  · rw [timers]
    exact kept.armed
  · intro device unpermitted
    rw [devices hw device unpermitted]
    exact kept.untouched device unpermitted
  · intro index old new
    rw [count] at new
    rw [serials]
    exact kept.watched index old new

theorem emit_respected
    {event : Event n}
    (allowed : permission.Allows event) :
    permission.Respected mayStop start (emit event) := by
  intro hw kept
  refine .of_ok (update_apply _ _)
    { extended :=
        Composes.trans kept.extended (emit_extends event hw).related
      logged := ?_
      armed := kept.armed
      untouched := kept.untouched
      watched := kept.watched }
  intro logged member
  rcases List.mem_append.mp member with old | new
  · exact kept.logged logged old
  · rw [List.mem_singleton.mp new]
    exact allowed

/-- An operation on a permitted device. -/
theorem operate_respected
    {event : Event n}
    {device : Fin n}
    (on : event.device? = some device)
    (permitted : permission.device device) :
    permission.Respected mayStop start (emit event) := by
  refine emit_respected ⟨?_, ?_⟩
  · intro covered isOn
    rw [on] at isOn
    cases isOn
    exact permitted
  · rintro type payload rfl
    cases on

theorem send_respected
    {type : MsgType}
    {payload : List UInt8}
    (permitted : permission.send type payload) :
    permission.Respected mayStop start (cdbaSendBuf type payload) := by
  refine emit_respected ⟨nofun, ?_⟩
  rintro _ _ ⟨rfl, rfl⟩
  exact permitted

theorem sleep_respected
    (seconds : Nat) :
    permission.Respected mayStop start (sleep (n := n) seconds) :=
  update_respected (fun hw => (sleep_extends seconds hw).related)
    (fun _ => rfl) (fun _ => rfl) (fun _ _ _ => rfl) (fun _ => rfl)
    (fun _ _ => rfl)

theorem gettimeofday_respected :
    permission.Respected mayStop start (gettimeofday (n := n)) :=
  Keeps.bind
    (update_respected
      (fun hw => (gettimeofday_extends hw).related)
      (fun _ => rfl) (fun _ => rfl) (fun _ _ _ => rfl) (fun _ => rfl)
      (fun _ _ => rfl))
    fun _ => .read _

theorem updateDevice_respected
    {device : Fin n}
    {change : Device → Device}
    (permitted : permission.device device)
    (keeps : ∀ dev : Device, dev.SameConfig (change dev)) :
    permission.Respected mayStop start (updateDevice device change) := by
  refine update_respected
    (fun hw => (updateDevice_extends device keeps hw).related)
    (fun _ => rfl) (fun _ => rfl) ?_ (fun _ => rfl) (fun _ _ => rfl)
  intro hw query unpermitted
  refine if_neg ?_
  rintro rfl
  exact unpermitted permitted

theorem updateFastboot_respected
    (index : Nat)
    {change : Fastboot → Fastboot}
    (serial : ∀ fb, (change fb).serial = fb.serial) :
    permission.Respected mayStop start
      (updateFastboot (n := n) index change) := by
  refine update_respected
    (fun hw => (updateFastboot_extends index change hw).related)
    (fun _ => rfl) (fun _ => rfl) (fun _ _ _ => rfl) (fun _ => rfl) ?_
  intro hw query
  dsimp only
  split
  · exact serial _
  · rfl

/-- Only the scripts of the outside differ. -/
structure Hw.SameButScripts (first last : Hw n) : Prop where
  log : last.log = first.log
  clock : last.clock = first.clock
  timers : last.timers = first.timers
  devices : last.devices = first.devices
  fastboots : last.fastboots = first.fastboots
  fastbootCount : last.fastbootCount = first.fastbootCount
  beyond : last.beyond = first.beyond
  grants : last.grants = first.grants

theorem nextAnswer_respected
    {script : Hw n → List β}
    {replace : Hw n → List β → Hw n}
    {default : β}
    (replaces :
      ∀ (hw : Hw n) answers, hw.SameButScripts (replace hw answers)) :
    permission.Respected mayStop start
      (nextAnswer script replace default) := by
  refine Keeps.bind (.read _) fun answers =>
    Keeps.bind ?_ fun _ => .pure _
  have same := fun hw => replaces hw answers.tail
  refine update_respected (fun hw => ?_) (fun hw => (same hw).log)
    (fun hw => (same hw).timers) (fun hw device _ => ?_)
    (fun hw => (same hw).fastbootCount) (fun hw index => ?_)
  · exact .of_scripts (same hw).log (same hw).clock (same hw).devices
      (same hw).beyond (same hw).grants
  · rw [(same hw).devices]
  · rw [(same hw).fastboots]

/-- A resource that is refused ends the process, and changes nothing. -/
theorem acquire_respected
    (refusals : start.RefusalStops mayStop)
    (resource : Resource) :
    permission.Respected mayStop start (acquire resource) := by
  have spent :
      ∀ hw, permission.Kept start hw →
        permission.Kept start (hw.spend resource) :=
    fun hw kept =>
      { extended :=
          Composes.trans kept.extended (spend_extends hw resource)
        logged := kept.logged
        armed := kept.armed
        untouched := kept.untouched
        watched := kept.watched }
  exact acquire_keeps spent fun hw kept refused =>
    ⟨refusals resource (kept.extended.refused refused), spent hw kept⟩

/-- USB transfers of a permitted device. -/
theorem runBulk_respected
    {device : Fin n}
    (permitted : permission.device device)
    (transfer : BulkScript → BulkRun α) :
    permission.Respected mayStop start (runBulk device transfer) := by
  intro hw kept
  have extended := (runBulk_extends device transfer hw).related
  have returns :
      runBulk device transfer hw =
        .ok (transfer hw.bulks).value
          (finalState (runBulk device transfer hw)) :=
    rfl
  refine .of_ok returns
    { extended := Composes.trans kept.extended extended
      logged := ?_
      armed := kept.armed
      untouched := kept.untouched
      watched := kept.watched }
  intro logged member
  rcases List.mem_append.mp member with old | new
  · exact kept.logged logged old
  · obtain ⟨made, _, rfl⟩ := List.mem_map.mp new
    refine ⟨?_, nofun⟩
    rintro covered ⟨rfl⟩
    exact permitted

theorem watchTimerAdd_respected
    {timeoutMs : Int}
    {cb : TimerCallback n}
    (covered : permission.Covers cb.device?) :
    permission.Respected mayStop start (watchTimerAdd timeoutMs cb) := by
  refine Keeps.bind gettimeofday_respected fun now => ?_
  intro hw kept
  refine .of_ok (update_apply _ _)
    { extended :=
        { logged := kept.extended.logged
          elapsed := kept.extended.elapsed
          config := kept.extended.config
          beyond := kept.extended.beyond
          grants := kept.extended.grants }
      logged := kept.logged
      armed := ?_
      untouched := kept.untouched
      watched := kept.watched }
  intro timer member
  rcases List.mem_append.mp member with old | new
  · exact kept.armed timer old
  · rw [List.mem_singleton.mp new]
    exact covered

end Respected

/-! ## Operations on a device -/

section Operations

variable {permission : Permission n} {mayStop : Stop → Prop} {start : Hw n}
variable {device : Option (Fin n)} {mine : Fin n}

theorem deviceKey_respected
    (nullStops : permission.NullStops mayStop start)
    (covered : permission.Covers device)
    (key : Nat)
    (asserted : Bool) :
    permission.Respected mayStop start (deviceKey device key asserted) :=
  deref_respected (nullStops _ nofun) covered fun _ permitted =>
    Keeps.bind (.read _) fun _ => .onlyIf (operate_respected rfl permitted)

theorem deviceUsb_respected
    (nullStops : permission.NullStops mayStop start)
    (covered : permission.Covers device)
    (on : Bool) :
    permission.Respected mayStop start (deviceUsb device on) :=
  deref_respected (nullStops _ nofun) covered fun _ permitted =>
    Keeps.bind (.read _) fun _ =>
      Keeps.bind (.onlyIf (operate_respected rfl permitted)) fun _ =>
        .onlyIf (operate_respected rfl permitted)

/-- A permitted device is covered. -/
theorem Permission.covers_some
    (permitted : permission.device mine) :
    permission.Covers (some mine) := by
  rintro covered ⟨rfl⟩
  exact permitted

theorem setState_respected
    (permitted : permission.device mine)
    (state : DeviceState) :
    permission.Respected mayStop start (setState mine state) :=
  updateDevice_respected permitted fun _ => rfl

theorem releaseFastbootLater_respected
    (permitted : permission.device mine) :
    permission.Respected mayStop start (releaseFastbootLater mine) :=
  Keeps.bind (.read _) fun _ =>
    .ite
      (Keeps.bind (setState_respected permitted _) fun _ =>
        watchTimerAdd_respected (permission.covers_some permitted))
      (setState_respected permitted _)

theorem deviceTick_respected
    (nullStops : permission.NullStops mayStop start)
    (permitted : permission.device mine) :
    permission.Respected mayStop start (deviceTick mine) := by
  have covered := permission.covers_some permitted
  have key :
      ∀ key asserted, permission.Respected mayStop start
        (deviceKey (some mine) key asserted) :=
    deviceKey_respected nullStops covered
  have later :
      ∀ timeoutMs, permission.Respected mayStop start
        (watchTimerAdd timeoutMs (.deviceTick mine)) :=
    fun _ => watchTimerAdd_respected covered
  refine Keeps.bind (.read _) fun dev =>
    Keeps.bind (operate_respected rfl permitted) fun _ => ?_
  cases dev.state with
  | start =>
      exact Keeps.bind (.onlyIf (key _ _)) fun _ =>
        Keeps.bind (.onlyIf (key _ _)) fun _ =>
          Keeps.bind (setState_respected permitted _) fun _ => later _
  | connect =>
      refine Keeps.bind ?_ fun _ =>
        Keeps.bind (deviceUsb_respected nullStops covered _) fun _ =>
          .ite
            (Keeps.bind (setState_respected permitted _) fun _ => later _)
            (releaseFastbootLater_respected permitted)
      exact Keeps.bind (.read _) fun _ =>
        .ite (stop_respected (nullStops _ nofun))
          (operate_respected rfl permitted)
  | press =>
      exact Keeps.bind (key _ _) fun _ =>
        Keeps.bind (setState_respected permitted _) fun _ => later _
  | releasePwr =>
      exact Keeps.bind (key _ _) fun _ =>
        releaseFastbootLater_respected permitted
  | releaseFastboot =>
      exact Keeps.bind (key _ _) fun _ => setState_respected permitted _
  | running =>
      exact .pure ()

/-- Switching a device looks at whether it has power control first. -/
theorem poweredDevice?_covered
    (covered : permission.Covers device)
    (hw : Hw n) :
    permission.Covers (poweredDevice? device hw) := by
  intro powered found
  exact covered powered (Option.eq_some_of_filter_eq_some found)

theorem devicePowerOff_respected
    (covered : permission.Covers device) :
    permission.Respected mayStop start (devicePowerOff device) := by
  intro hw kept
  refine KeepsAt.read ?_
  cases found : poweredDevice? device hw with
  | none => exact kept
  | some powered =>
      exact operate_respected rfl
        (poweredDevice?_covered covered hw powered found) hw kept

theorem devicePowerOn_respected
    (nullStops : permission.NullStops mayStop start)
    (covered : permission.Covers device) :
    permission.Respected mayStop start (devicePowerOn device) := by
  intro hw kept
  refine KeepsAt.read ?_
  cases found : poweredDevice? device hw with
  | none => exact kept
  | some powered =>
      have permitted := poweredDevice?_covered covered hw powered found
      exact Keeps.bind (setState_respected permitted _)
        (fun _ => deviceTick_respected nullStops permitted) hw kept

theorem devicePower_respected
    (nullStops : permission.NullStops mayStop start)
    (covered : permission.Covers device)
    (on : Bool) :
    permission.Respected mayStop start (devicePower device on) :=
  .ite (devicePowerOn_respected nullStops covered)
    (devicePowerOff_respected covered)

theorem deviceWrite_respected
    (nullStops : permission.NullStops mayStop start)
    (covered : permission.Covers device)
    (buf : List UInt8) :
    permission.Respected mayStop start (deviceWrite device buf) := by
  cases device with
  | none => exact .pure ()
  | some device =>
      have permitted := covered device rfl
      intro hw kept
      refine KeepsAt.read ?_
      split
      · rename_i missing
        have same := kept.extended.config device
        rw [same.console] at missing
        exact ⟨nullStops _ fun _ => ⟨device, permitted, missing⟩, kept⟩
      · exact operate_respected rfl permitted hw kept

theorem deviceSendBreak_respected
    (nullStops : permission.NullStops mayStop start)
    (covered : permission.Covers device) :
    permission.Respected mayStop start (deviceSendBreak device) :=
  deref_respected (nullStops _ nofun) covered fun _ permitted =>
    Keeps.bind (.read _) fun _ => .onlyIf (operate_respected rfl permitted)

theorem deviceStatusEnable_respected
    (nullStops : permission.NullStops mayStop start)
    (refusals : start.RefusalStops mayStop)
    (covered : permission.Covers device) :
    permission.Respected mayStop start (deviceStatusEnable device) := by
  refine deref_respected (nullStops _ nofun) covered fun device permitted => ?_
  have enable :
      permission.Respected mayStop start (controlStatusEnable device) := by
    refine Keeps.bind (operate_respected rfl permitted) fun _ =>
      Keeps.bind (.read _) fun control => ?_
    split
    · exact watchTimerAdd_respected (permission.covers_some permitted)
    · exact watchTimerAdd_respected (permission.covers_some permitted)
    · exact .pure ()
  exact Keeps.bind (.read _) fun _ =>
    .ite (.pure ())
      (Keeps.bind (.onlyIf enable) fun _ =>
        Keeps.bind
          (.onlyIf (Keeps.bind (acquire_respected refusals _) fun _ =>
            operate_respected rfl permitted))
          fun _ => updateDevice_respected permitted fun _ => rfl)

theorem bootMethod_respected
    (permitted : permission.device mine) :
    permission.Respected mayStop start (bootMethod mine) := by
  refine Keeps.bind (.read _) fun method =>
    Keeps.bind (operate_respected rfl permitted) fun _ => ?_
  cases method with
  | fastbootBoot =>
      exact Keeps.bind (.read _) fun _ =>
        .onlyIf (runBulk_respected permitted _)
  | fastbootFlashReboot =>
      exact Keeps.bind (.read _) fun _ =>
        .onlyIf (Keeps.bind (runBulk_respected permitted _)
          fun _ => runBulk_respected permitted _)

theorem deviceBoot_respected
    (nullStops : permission.NullStops mayStop start)
    (refusals : start.RefusalStops mayStop)
    (covered : permission.Covers device)
    (image : List UInt8) :
    permission.Respected mayStop start (deviceBoot device image) :=
  deref_respected (nullStops _ nofun) covered fun _ permitted =>
    Keeps.bind (.read _) fun _ =>
      Keeps.bind (operate_respected rfl permitted) fun _ =>
        .ite (stop_respected (nullStops _ nofun))
          (Keeps.bind (runBulk_respected permitted _) fun _ =>
            Keeps.bind (acquire_respected refusals _) fun _ =>
              Keeps.bind (runBulk_respected permitted _) fun _ =>
                Keeps.bind (bootMethod_respected permitted) fun _ =>
                  .onlyIf (deviceUsb_respected nullStops
                    (permission.covers_some permitted) _))

theorem deviceFastbootContinue_respected
    (nullStops : permission.NullStops mayStop start)
    (covered : permission.Covers device) :
    permission.Respected mayStop start (deviceFastbootContinue device) :=
  deref_respected (nullStops _ nofun) covered fun _ permitted =>
    Keeps.bind (.read _) fun _ => .onlyIf (runBulk_respected permitted _)

theorem msgKeyPress_respected
    (nullStops : permission.NullStops mayStop start)
    (covered : permission.Covers device)
    (data : List UInt8) :
    permission.Respected mayStop start (msgKeyPress device data) := by
  unfold msgKeyPress
  split
  · exact .ite
      (Keeps.bind (deviceKey_respected nullStops covered _ _) fun _ =>
        watchTimerAdd_respected nofun)
      (deviceKey_respected nullStops covered _ _)
  · exact .pure ()

theorem handleFastbootAdd_respected
    (present : ∀ value, permission.send .fastbootPresent [value])
    (index : Nat)
    (node : UsbNode) :
    permission.Respected mayStop start
      (handleFastbootAdd (n := n) index node) := by
  unfold handleFastbootAdd
  cases node.probe with
  | none => exact .pure ()
  | some endpoints =>
      exact Keeps.bind (updateFastboot_respected _ fun _ => rfl) fun _ =>
        send_respected (present _)

theorem handleUdevEvent_respected
    (present : ∀ value, permission.send .fastbootPresent [value])
    (index : Nat)
    (event : UdevEvent) :
    permission.Respected mayStop start
      (handleUdevEvent (n := n) index event) := by
  refine Keeps.bind (.read _) fun fb => ?_
  cases event with
  | add serial node =>
      exact .onlyIf (handleFastbootAdd_respected present _ _)
  | remove path =>
      exact .onlyIf
        (Keeps.bind (updateFastboot_respected _ fun _ => rfl) fun _ =>
          Keeps.bind (send_respected (present _)) fun _ =>
            updateFastboot_respected _ fun _ => rfl)
  | other =>
      exact .pure ()

/-- The new object watches for the device it is made for. -/
theorem fastbootEnumerate_respected
    (present : ∀ value, permission.send .fastbootPresent [value])
    (permitted : permission.device mine) :
    permission.Respected mayStop start
      (fastbootEnumerate (start.devices mine).serial) := by
  intro hw kept
  have later :
      permission.Respected mayStop start (do
        let nodes ← nextAnswer Hw.enumerations
          (fun hw answers => { hw with enumerations := answers }) []
        each (handleFastbootAdd hw.fastbootCount) nodes
        pure hw.fastbootCount) :=
    Keeps.bind
      (nextAnswer_respected fun _ _ =>
        ⟨rfl, rfl, rfl, rfl, rfl, rfl, rfl, rfl⟩)
      fun nodes =>
        Keeps.bind
          (Keeps.each
            (fun node => handleFastbootAdd_respected present _ _) _)
          fun _ => .pure _
  refine KeepsAt.read (KeepsAt.update (KeepsAt.update (later _ ?_)))
  refine
    { extended :=
        Composes.trans kept.extended
          (.of_scripts rfl rfl rfl rfl rfl)
      logged := kept.logged
      armed := kept.armed
      untouched := kept.untouched
      watched := ?_ }
  intro index old new
  dsimp only
  by_cases created : index = hw.fastbootCount
  · rw [if_pos created]
    exact ⟨mine, permitted, rfl⟩
  · rw [if_neg created]
    exact kept.watched index old
      (Nat.lt_of_le_of_ne (Nat.le_of_lt_succ new) created)

theorem deviceFastbootOpen_respected
    (refusals : start.RefusalStops mayStop)
    (present : ∀ value, permission.send .fastbootPresent [value])
    (permitted : permission.device mine) :
    permission.Respected mayStop start (deviceFastbootOpen mine) := by
  intro hw kept
  refine KeepsAt.read ?_
  rw [(kept.extended.config mine).serial]
  have opens :
      permission.Respected mayStop start
        (fastbootOpen (start.devices mine).serial) :=
    Keeps.bind (acquire_respected refusals _) fun _ =>
      fastbootEnumerate_respected present permitted
  have remembers :
      ∀ index : Nat,
        permission.Respected mayStop start
          (updateDevice mine fun dev =>
            { dev with fastboot := some index }) :=
    fun _ => updateDevice_respected permitted fun _ => rfl
  exact Keeps.bind opens remembers hw kept

/-! ## Opening and closing -/

theorem deviceClose_respected
    (nullStops : permission.NullStops mayStop start)
    (permitted : permission.device mine) :
    permission.Respected mayStop start (deviceClose mine) := by
  have covered := permission.covers_some permitted
  exact Keeps.bind (.read _) fun _ =>
    Keeps.bind (.onlyIf (deviceUsb_respected nullStops covered _))
      fun _ =>
        Keeps.bind (.onlyIf (devicePower_respected nullStops covered _))
          fun _ => .onlyIf (operate_respected rfl permitted)

theorem openControl_respected
    (exits : ∀ status, mayStop (.exit status))
    (permitted : permission.device mine) :
    permission.Respected mayStop start (openControl mine) := by
  refine Keeps.bind (.read _) fun dev => ?_
  cases dev.control with
  | none => exact .pure ()
  | some driver =>
      exact Keeps.bind
        (nextAnswer_respected fun _ _ =>
          ⟨rfl, rfl, rfl, rfl, rfl, rfl, rfl, rfl⟩)
        fun _ => .ite
          (Keeps.bind (operate_respected rfl permitted) fun _ =>
            updateDevice_respected permitted fun _ => rfl)
          (stop_respected (exits _))

theorem openConsole_respected
    (exits : ∀ status, mayStop (.exit status))
    (permitted : permission.device mine) :
    permission.Respected mayStop start (openConsole mine) :=
  Keeps.bind
    (nextAnswer_respected fun _ _ =>
      ⟨rfl, rfl, rfl, rfl, rfl, rfl, rfl, rfl⟩)
    fun _ => .ite (operate_respected rfl permitted)
      (stop_respected (exits _))

/-- What opening a board does once both drivers are open. -/
def settle (device : Fin n) : HwM n Unit := do
  let dev ← read fun hw => hw.devices device
  onlyIf dev.powerAlwaysOn do
    devicePowerOff (some device)
    sleep 2
  onlyIf dev.usbAlwaysOn (deviceUsb (some device) true)

theorem settle_respected
    (nullStops : permission.NullStops mayStop start)
    (permitted : permission.device mine) :
    permission.Respected mayStop start (settle mine) := by
  have covered := permission.covers_some permitted
  exact Keeps.bind (.read _) fun _ =>
    Keeps.bind
      (.onlyIf (Keeps.bind (devicePowerOff_respected covered)
        fun _ => sleep_respected _))
      fun _ => .onlyIf (deviceUsb_respected nullStops covered _)

theorem openLocked_eq
    (device : Fin n) :
    openLocked device =
      (do
        openControl device
        openConsole device
        settle device) :=
  rfl

end Operations

/-! ## Listing -/

/-- The bytes of a line of `device_list_devices`. -/
def listingFrame (beyond : Nat → UInt8) (dev : Device) : List UInt8 :=
  readMemory (memoryAt (snprintfBuf 80 (listingText dev)) beyond)
    (listingText dev).length

/-- What the configuration of a device decides is the same in later states. -/
theorem Device.SameConfig.listingText_eq
    {first last : Device}
    (same : first.SameConfig last) :
    listingText last = listingText first := by
  rw [same]
  rfl

theorem Device.SameConfig.checkAccess_eq
    {first last : Device}
    (same : first.SameConfig last)
    (username : Option CString) :
    deviceCheckAccess last username = deviceCheckAccess first username := by
  rw [same]
  rfl

/-- The listing of every accessible device, and its description, may be sent. -/
structure Permission.Publishes
    (permission : Permission n)
    (start : Hw n)
    (username : CString) :
    Prop where
  empties : ∀ type, permission.send type []
  present : ∀ value, permission.send .fastbootPresent [value]
  lists :
    ∀ device,
      deviceCheckAccess (start.devices device) (some username) = true →
      permission.send .listDevices
        (listingFrame start.beyond (start.devices device))
  describes :
    ∀ device description,
      deviceCheckAccess (start.devices device) (some username) = true →
      (start.devices device).description = some description →
      permission.send .boardInfo description

theorem everything_publishes
    (start : Hw n)
    (username : CString) :
    (Permission.everything (n := n)).Publishes start username where
  empties := fun _ => trivial
  present := fun _ => trivial
  lists := fun _ _ => trivial
  describes := fun _ _ _ _ => trivial

section Listing

variable {permission : Permission n} {mayStop : Stop → Prop} {start : Hw n}
variable {username : CString}

theorem listDevice_respected
    (publishes : permission.Publishes start username)
    (device : Fin n) :
    permission.Respected mayStop start
      (listDevice (some username) device) := by
  intro hw kept
  have same := kept.extended.config device
  refine KeepsAt.read (KeepsAt.read ?_)
  rw [same.checkAccess_eq]
  cases access :
      deviceCheckAccess (start.devices device) (some username) with
  | false => exact kept
  | true =>
      refine send_respected ?_ hw kept
      have permitted := publishes.lists device access
      rw [listingFrame, ← kept.extended.beyond, ← same.listingText_eq]
        at permitted
      exact permitted

theorem deviceListDevices_respected
    (publishes : permission.Publishes start username) :
    permission.Respected mayStop start
      (deviceListDevices (n := n) (some username)) :=
  Keeps.bind
    (Keeps.each (fun device => listDevice_respected publishes device) _)
    fun _ => send_respected (publishes.empties _)

theorem deviceInfo_respected
    (publishes : permission.Publishes start username)
    (data : Nat → UInt8)
    (dlen : Nat) :
    permission.Respected mayStop start
      (deviceInfo (n := n) (some username) data dlen) := by
  intro hw kept
  refine KeepsAt.read (KeepsAt.read (send_respected ?_ hw kept))
  generalize search :
    (List.finRange n).find? _ = found
  cases found with
  | none => exact publishes.empties _
  | some device =>
      have same := kept.extended.config device
      have holds := List.find?_some search
      rw [Bool.and_eq_true, Bool.and_eq_true, same.checkAccess_eq] at holds
      obtain ⟨description, described⟩ :=
        Option.isSome_iff_exists.mp holds.2
      simp only [Option.bind_some, described, Option.getD_some]
      refine publishes.describes device description holds.1.2 ?_
      rw [← described, same]

end Listing

end Cdba
