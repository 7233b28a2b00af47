import Cdba.Session

namespace Cdba

/-!
# Views of the log

A view picks out some of the events of the log.  Most of what the server does
are operations on devices, transfers and timers; a view that hides these shows
the same before and after.
-/

open Program

variable {n : Nat}

/-- Events other than messages, console input and images. -/
def Event.plain : Event n → Bool
  | .send _ _ | .consoleWrite _ _ | .deviceBoot _ _ => false
  | _ => true

/-- A view of the log shows nothing new. -/
def Hw.Unseen
    (view : Event n → Option β)
    (first last : Hw n) :
    Prop :=
  (last.log.filterMap fun event => view event.value) =
    first.log.filterMap fun event => view event.value

instance Hw.Unseen.composes
    (view : Event n → Option β) :
    Composes (Hw.Unseen view) where
  refl := fun _ => rfl
  trans := fun step later => later.trans step

/-- Programs of which a view shows nothing, however they end. -/
abbrev Overlooks (view : Event n → Option β) (program : HwM n α) : Prop :=
  Relates (Hw.Unseen view) Stop.Any program

/-- A view that shows neither operations on devices nor transfers. -/
def HidesWork (view : Event n → Option β) : Prop :=
  ∀ event, event.plain = true → view event = none

/-- A view that does not show how fastboot devices come and go. -/
def HidesPresence (view : Event n → Option β) : Prop :=
  ∀ payload, view (.send .fastbootPresent payload) = none

section Overlooks

variable {view : Event n → Option β}

theorem update_unseen
    {change : Hw n → Hw n}
    (same : ∀ hw, (change hw).log = hw.log) :
    Overlooks view (update change) :=
  .update fun hw => congrArg (List.filterMap _) (same hw)

theorem emit_unseen
    {event : Event n}
    (silent : view event = none) :
    Overlooks view (emit event) :=
  .update fun hw => by simp [Hw.Unseen, silent]

theorem nextAnswer_unseen
    {script : Hw n → List α}
    {replace : Hw n → List α → Hw n}
    {default : α}
    (same : ∀ hw answers, (replace hw answers).log = hw.log) :
    Overlooks view (nextAnswer script replace default) :=
  .bind (.read _) fun _ =>
    .bind (update_unseen fun _ => same _ _) fun _ => .pure _

theorem watchTimerAdd_unseen
    (timeoutMs : Int)
    (cb : TimerCallback n) :
    Overlooks view (watchTimerAdd timeoutMs cb) :=
  .bind (.bind (update_unseen fun _ => rfl) fun _ => .read _) fun _ =>
    update_unseen fun _ => rfl

theorem deref_unseen
    (device : Option (Fin n)) :
    Overlooks view (deref device) := by
  cases device with
  | none => exact .stop trivial
  | some device => exact .pure _

theorem setState_unseen
    (device : Fin n)
    (state : DeviceState) :
    Overlooks view (setState device state) :=
  update_unseen fun _ => rfl

theorem emit_hidden
    (hides : HidesWork view)
    {event : Event n}
    (plain : event.plain = true) :
    Overlooks view (emit event) :=
  emit_unseen (hides event plain)

theorem acquire_unseen
    (resource : Resource) :
    Overlooks view (acquire (n := n) resource) :=
  acquire_relates (fun _ => rfl) trivial

theorem runBulk_unseen
    (hides : HidesWork view)
    (device : Fin n)
    (transfer : BulkScript → BulkRun α) :
    Overlooks view (runBulk device transfer) := by
  refine .bind (.read _) fun run =>
    .bind (.update fun hw => ?_) fun _ => .pure _
  simp [Hw.Unseen, List.filterMap_map, hides (.bulk _ _) rfl]

theorem deviceKey_unseen
    (hides : HidesWork view)
    (device : Option (Fin n))
    (key : Nat)
    (asserted : Bool) :
    Overlooks view (deviceKey device key asserted) :=
  .bind (deref_unseen device) fun _ =>
    .bind (.read _) fun _ => .onlyIf (emit_hidden hides rfl)

theorem deviceUsb_unseen
    (hides : HidesWork view)
    (device : Option (Fin n))
    (on : Bool) :
    Overlooks view (deviceUsb device on) :=
  .bind (deref_unseen device) fun _ =>
    .bind (.read _) fun _ =>
      .bind (.onlyIf (emit_hidden hides rfl)) fun _ =>
        .onlyIf (emit_hidden hides rfl)

theorem deviceTick_unseen
    (hides : HidesWork view)
    (device : Fin n) :
    Overlooks view (deviceTick device) := by
  have release : Overlooks view (releaseFastbootLater device) :=
    .bind (.read _) fun _ =>
      .ite
        (.bind (setState_unseen _ _) fun _ => watchTimerAdd_unseen _ _)
        (setState_unseen _ _)
  refine .bind (.read _) fun dev => .bind (emit_hidden hides rfl) fun _ => ?_
  cases dev.state with
  | start =>
      exact .bind (.onlyIf (deviceKey_unseen hides _ _ _)) fun _ =>
        .bind (.onlyIf (deviceKey_unseen hides _ _ _)) fun _ =>
          .bind (setState_unseen _ _) fun _ => watchTimerAdd_unseen _ _
  | connect =>
      exact .bind
        (.bind (.read _) fun _ => .ite (.stop trivial) (emit_hidden hides rfl))
        fun _ => .bind (deviceUsb_unseen hides _ _) fun _ =>
          .ite
            (.bind (setState_unseen _ _) fun _ => watchTimerAdd_unseen _ _)
            release
  | press =>
      exact .bind (deviceKey_unseen hides _ _ _) fun _ =>
        .bind (setState_unseen _ _) fun _ => watchTimerAdd_unseen _ _
  | releasePwr =>
      exact .bind (deviceKey_unseen hides _ _ _) fun _ => release
  | releaseFastboot =>
      exact .bind (deviceKey_unseen hides _ _ _) fun _ => setState_unseen _ _
  | running => exact .pure _

theorem devicePower_unseen
    (hides : HidesWork view)
    (device : Option (Fin n))
    (on : Bool) :
    Overlooks view (devicePower device on) := by
  refine .ite (.bind (.read _) fun powered => ?_)
    (.bind (.read _) fun powered => ?_)
  · cases powered with
    | none => exact .pure _
    | some device =>
        exact .bind (setState_unseen _ _) fun _ => deviceTick_unseen hides _
  · cases powered with
    | none => exact .pure _
    | some device => exact emit_hidden hides rfl

theorem deviceSendBreak_unseen
    (hides : HidesWork view)
    (device : Option (Fin n)) :
    Overlooks view (deviceSendBreak device) :=
  .bind (deref_unseen device) fun _ =>
    .bind (.read _) fun _ => .onlyIf (emit_hidden hides rfl)

theorem deviceStatusEnable_unseen
    (hides : HidesWork view)
    (device : Option (Fin n)) :
    Overlooks view (deviceStatusEnable device) := by
  have control :
      ∀ device : Fin n, Overlooks view (controlStatusEnable device) := by
    intro device
    refine .bind (emit_hidden hides rfl) fun _ =>
      .bind (.read _) fun control => ?_
    split
    · exact watchTimerAdd_unseen _ _
    · exact watchTimerAdd_unseen _ _
    · exact .pure _
  exact .bind (deref_unseen device) fun device =>
    .bind (.read _) fun dev =>
      .ite (.pure _)
        (.bind (.onlyIf (control device)) fun _ =>
          .bind
            (.onlyIf (.bind (acquire_unseen _) fun _ => emit_hidden hides rfl))
            fun _ => update_unseen fun _ => rfl)

theorem bootMethod_unseen
    (hides : HidesWork view)
    (device : Fin n) :
    Overlooks view (bootMethod device) := by
  refine .bind (.read _) fun method => .bind (emit_hidden hides rfl) fun _ => ?_
  cases method with
  | fastbootBoot =>
      exact .bind (.read _) fun _ => .onlyIf (runBulk_unseen hides _ _)
  | fastbootFlashReboot =>
      exact .bind (.read _) fun _ =>
        .onlyIf (.bind (runBulk_unseen hides _ _) fun _ =>
          runBulk_unseen hides _ _)

theorem msgKeyPress_unseen
    (hides : HidesWork view)
    (selected : Option (Fin n))
    (data : List UInt8) :
    Overlooks view (msgKeyPress selected data) := by
  unfold msgKeyPress
  split
  · exact .ite
      (.bind (deviceKey_unseen hides _ _ _) fun _ => watchTimerAdd_unseen _ _)
      (deviceKey_unseen hides _ _ _)
  · exact .pure _

theorem openLocked_unseen
    (hides : HidesWork view)
    (device : Fin n) :
    Overlooks view (openLocked device) := by
  have control : Overlooks view (openControl device) := by
    refine .bind (.read _) fun dev => ?_
    cases dev.control with
    | none => exact .pure _
    | some driver =>
        exact .bind (nextAnswer_unseen fun _ _ => rfl) fun _ =>
          .ite
            (.bind (emit_hidden hides rfl) fun _ => update_unseen fun _ => rfl)
            (.stop trivial)
  have console : Overlooks view (openConsole device) :=
    .bind (nextAnswer_unseen fun _ _ => rfl) fun _ =>
      .ite (emit_hidden hides rfl) (.stop trivial)
  exact .bind control fun _ =>
    .bind console fun _ =>
      .bind (.read _) fun _ =>
        .bind
          (.onlyIf
            (.bind (devicePower_unseen hides _ false) fun _ =>
              update_unseen fun _ => rfl))
          fun _ => .onlyIf (deviceUsb_unseen hides _ _)

theorem deviceClose_unseen
    (hides : HidesWork view)
    (device : Fin n) :
    Overlooks view (deviceClose device) :=
  .bind (.read _) fun _ =>
    .bind (.onlyIf (deviceUsb_unseen hides _ _)) fun _ =>
      .bind (.onlyIf (devicePower_unseen hides _ _)) fun _ =>
        .onlyIf (emit_hidden hides rfl)

theorem handleFastbootAdd_unseen
    (hides : HidesPresence view)
    (index : Nat)
    (node : UsbNode) :
    Overlooks view (handleFastbootAdd (n := n) index node) := by
  unfold handleFastbootAdd
  cases node.probe with
  | none => exact .pure _
  | some endpoints =>
      exact .bind (update_unseen fun _ => rfl) fun _ =>
        emit_unseen (hides _)

theorem handleUdevEvent_unseen
    (hides : HidesPresence view)
    (index : Nat)
    (event : UdevEvent) :
    Overlooks view (handleUdevEvent (n := n) index event) := by
  refine .bind (.read _) fun fb => ?_
  cases event with
  | add serial node => exact .onlyIf (handleFastbootAdd_unseen hides _ _)
  | remove path =>
      exact .onlyIf
        (.bind (update_unseen fun _ => rfl) fun _ =>
          .bind (emit_unseen (hides _)) fun _ => update_unseen fun _ => rfl)
  | other => exact .pure _

theorem deviceFastbootOpen_unseen
    (hides : HidesPresence view)
    (device : Fin n) :
    Overlooks view (deviceFastbootOpen device) := by
  have enumerates :
      ∀ serial, Overlooks view (fastbootEnumerate (n := n) serial) :=
    fun serial =>
      .bind (.read _) fun _ =>
        .bind (update_unseen fun _ => rfl) fun _ =>
          .bind (update_unseen fun _ => rfl) fun _ =>
            .bind (nextAnswer_unseen fun _ _ => rfl) fun _ =>
              .bind (.each fun _ _ => handleFastbootAdd_unseen hides _ _)
                fun _ => .pure _
  exact .bind (.read _) fun _ =>
    .bind (.bind (acquire_unseen _) fun _ => enumerates _) fun _ =>
      update_unseen fun _ => rfl

end Overlooks

/-! ## Views of the server -/

/-- A view shows nothing new, and the session is as it was. -/
structure Server.Undisturbed
    (view : Event n → Option β)
    (first last : Server n) :
    Prop where
  hw : Hw.Unseen view first.hw last.hw
  selected : last.selectedDevice = first.selectedDevice
  payload : last.fastbootPayload = first.fastbootPayload
  dispatched : last.dispatched = first.dispatched

instance Server.Undisturbed.composes
    (view : Event n → Option β) :
    Composes (Server.Undisturbed view) where
  refl := fun _ => ⟨rfl, rfl, rfl, rfl⟩
  trans := fun step later =>
    { hw := later.hw.trans step.hw
      selected := later.selected.trans step.selected
      payload := later.payload.trans step.payload
      dispatched := later.dispatched.trans step.dispatched }

/-- Programs of the server that leave it so, however they end. -/
abbrev Undisturbing
    (view : Event n → Option β)
    (program : ServerM n α) :
    Prop :=
  Relates (Server.Undisturbed view) Stop.Any program

section Undisturbed

variable {view : Event n → Option β}

theorem onHw_undisturbed
    {program : HwM n α}
    (overlooks : Overlooks view program) :
    Undisturbing view (onHw program) :=
  .within (fun _ _ step => ⟨step, rfl, rfl, rfl⟩) overlooks

theorem onSelected_undisturbed
    {handler : Option (Fin n) → HwM n Unit}
    (overlooks : ∀ selected, Overlooks view (handler selected)) :
    Undisturbing view (onSelected handler) :=
  .bind (.read _) fun selected => onHw_undisturbed (overlooks selected)

theorem updateGlobals_undisturbed
    {change : Server n → Server n}
    (same :
      ∀ server, ∃ stdin lockOpens flocks probed quitInvoked,
        change server =
          { server with
            stdin := stdin
            lockOpens := lockOpens
            flocks := flocks
            probed := probed
            quitInvoked := quitInvoked }) :
    Undisturbing view (update change) := by
  refine .update fun server => ?_
  obtain ⟨stdin, lockOpens, flocks, probed, quitInvoked, shape⟩ :=
    same server
  rw [shape]
  exact ⟨rfl, rfl, rfl, rfl⟩

theorem deviceOpen_undisturbed
    (hides : HidesWork view)
    (board : Nat → UInt8) :
    Undisturbing view (deviceOpen (n := n) board) := by
  have probe : Undisturbing view (probeConnection (n := n)) := by
    refine .bind (.read _) fun input => ?_
    split
    · exact .pure _
    · split
      · exact updateGlobals_undisturbed fun _ => ⟨_, _, _, _, _, rfl⟩
      · exact updateGlobals_undisturbed fun _ => ⟨_, _, _, _, _, rfl⟩
      · exact .bind
          (updateGlobals_undisturbed fun _ => ⟨_, _, _, _, _, rfl⟩)
          fun _ => .stop trivial
  have loop :
      ∀ flocks, Undisturbing view (deviceLockLoop (n := n) flocks) := by
    intro flocks
    induction flocks with
    | nil =>
        exact .pure _
    | cons locked flocks inductionHypothesis =>
        exact .bind
          (updateGlobals_undisturbed fun _ => ⟨_, _, _, _, _, rfl⟩)
          fun _ => .ite (.pure _)
            (.bind (onHw_undisturbed (update_unseen fun _ => rfl)) fun _ =>
              .bind probe fun _ => inductionHypothesis)
  have lock : ∀ device : Fin n, Undisturbing view (deviceLock device) :=
    fun device =>
      .bind (.read _) fun _ =>
        .ite (.stop trivial)
          (.bind (.read _) fun _ =>
            .bind (updateGlobals_undisturbed fun _ => ⟨_, _, _, _, _, rfl⟩)
              fun _ => .ite (.bind (.read _) fun _ => loop _)
                (.stop trivial))
  refine .bind (.read _) fun found => ?_
  cases found with
  | none => exact .pure _
  | some device =>
      exact .bind (.read _) fun _ =>
        .ite (.stop trivial)
          (.bind (lock device) fun _ =>
            .bind (onHw_undisturbed (openLocked_unseen hides device))
              fun _ => .pure _)

theorem invokeTimers_undisturbed
    (hides : HidesWork view) :
    Undisturbing view (invokeTimers (n := n)) := by
  have reads : Overlooks view (gettimeofday (n := n)) :=
    .bind (update_unseen fun _ => rfl) fun _ => .read _
  refine watchTimerInvoke_relates (onHw_undisturbed reads) (fun cb => ?_)
    (fun _ _ => ⟨rfl, rfl, rfl, rfl⟩) trivial
  cases cb with
  | deviceTick device =>
      exact onHw_undisturbed (deviceTick_unseen hides device)
  | msgKeyRelease key =>
      exact onSelected_undisturbed fun _ => deviceKey_unseen hides _ _ _
  | cdbAssistPrintStatus device =>
      exact onHw_undisturbed (emit_hidden hides rfl)
  | qcomltDbgRequestStatus device =>
      exact onHw_undisturbed (watchTimerAdd_unseen _ _)

end Undisturbed

end Cdba
