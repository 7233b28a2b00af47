import Cdba.Background

namespace Cdba

/-!
# Devices without power control

Only a tick moves a device along its power-on sequence, and only a power-on
request or an earlier tick of that device arms one.  A device without power
control therefore stays in its first phase, with no tick pending, whatever
messages, timers and callbacks a session consists of.
-/

open Program

variable {n : Nat}

/-- Neither the phase of a device nor the ticks pending for it change. -/
structure Hw.SparesTicks
    (device : Fin n)
    (first last : Hw n) :
    Prop where
  config : (first.devices device).SameConfig (last.devices device)
  state : (last.devices device).state = (first.devices device).state
  armed :
    ∃ timers,
      last.timers = first.timers ++ timers ∧
        ∀ timer, timer ∈ timers → timer.cb ≠ .deviceTick device

instance Hw.SparesTicks.composes
    (device : Fin n) :
    Composes (Hw.SparesTicks device) where
  refl := fun hw =>
    { config := .refl _
      state := rfl
      armed := ⟨[], by simp, by simp⟩ }
  trans := by
    intro first middle last firstStep laterStep
    obtain ⟨timers, queue, others⟩ := firstStep.armed
    obtain ⟨timers', queue', others'⟩ := laterStep.armed
    refine
      { config := firstStep.config.trans laterStep.config
        state := laterStep.state.trans firstStep.state
        armed :=
          ⟨timers ++ timers', by rw [queue', queue, List.append_assoc], ?_⟩ }
    intro timer member
    rcases List.mem_append.mp member with early | late
    · exact others timer early
    · exact others' timer late

/-- Programs that spare the ticks of a device, however they end. -/
abbrev SparingTicks (device : Fin n) (program : HwM n α) : Prop :=
  Relates (Hw.SparesTicks device) Stop.Any program

/-- Background work arms no ticks. -/
theorem Hw.Background.sparesTicks
    {first last : Hw n}
    (background : first.Background last)
    (device : Fin n) :
    Hw.SparesTicks device first last := by
  obtain ⟨timers, queue, others⟩ := background.armed
  refine
    { config := (background.devices device).config
      state := (background.devices device).state
      armed := ⟨timers, queue, ?_⟩ }
  intro timer member tick
  have quiet := others timer member
  rw [tick] at quiet
  exact quiet

theorem sparesTicks_of_background
    {device : Fin n}
    {program : HwM n α}
    (background : InBackground program) :
    SparingTicks device program :=
  background.mono (fun _ _ step => step.sparesTicks device) fun _ => id

section SparesTicks

variable {device : Fin n}

/-- Whatever is logged, the phases stay. -/
theorem emit_sparesTicks
    (event : Event n) :
    SparingTicks device (emit event) :=
  .update fun _ =>
    { config := .refl _
      state := rfl
      armed := ⟨[], by simp, by simp⟩ }

/-- Any other timer may be armed. -/
theorem watchTimerAdd_sparesTicks
    {cb : TimerCallback n}
    (other : cb ≠ .deviceTick device)
    (timeoutMs : Int) :
    SparingTicks device (watchTimerAdd timeoutMs cb) :=
  .bind (sparesTicks_of_background gettimeofday_background) fun _ =>
    .update fun _ =>
      { config := .refl _
        state := rfl
        armed := ⟨[_], rfl, by simpa using other⟩ }

theorem deviceKey_sparesTicks
    (selected : Option (Fin n))
    (key : Nat)
    (asserted : Bool) :
    SparingTicks device (deviceKey selected key asserted) :=
  .bind (sparesTicks_of_background (deref_background _)) fun _ =>
    .bind (.read _) fun _ => .onlyIf (emit_sparesTicks _)

theorem deviceUsb_sparesTicks
    (selected : Option (Fin n))
    (on : Bool) :
    SparingTicks device (deviceUsb selected on) :=
  sparesTicks_of_background (deviceUsb_background _ _)

theorem setState_sparesTicks
    {other : Fin n}
    (differs : device ≠ other)
    (state : DeviceState) :
    SparingTicks device (setState other state) := by
  refine .update fun hw => ?_
  dsimp only
  refine
    { config := ?_
      state := ?_
      armed := ⟨[], by simp, by simp⟩ }
  · simp only [if_neg differs]
    exact .refl _
  · simp only [if_neg differs]

/-- The phases of one device are none of another's. -/
theorem deviceTick_sparesTicks
    {other : Fin n}
    (differs : device ≠ other) :
    SparingTicks device (deviceTick other) := by
  have armsOther :
      ∀ timeoutMs,
        SparingTicks device
          (watchTimerAdd timeoutMs (.deviceTick other)) := by
    intro timeoutMs
    refine watchTimerAdd_sparesTicks ?_ timeoutMs
    rintro ⟨⟩
    exact differs rfl
  have enters :
      ∀ state timeoutMs,
        SparingTicks device
          (do
            setState other state
            watchTimerAdd timeoutMs (.deviceTick other)) :=
    fun state timeoutMs =>
      .bind (setState_sparesTicks differs state) fun _ => armsOther timeoutMs
  have later : SparingTicks device (releaseFastbootLater other) :=
    .bind (.read _) fun _ =>
      .ite (enters _ _) (setState_sparesTicks differs _)
  refine .bind (.read _) fun dev => .bind (emit_sparesTicks _) fun _ => ?_
  cases dev.state with
  | start =>
      exact .bind (.onlyIf (deviceKey_sparesTicks _ _ _)) fun _ =>
        .bind (.onlyIf (deviceKey_sparesTicks _ _ _)) fun _ => enters _ _
  | connect =>
      have power : SparingTicks device (deviceImplPower other true) :=
        .bind (.read _) fun _ =>
          .ite (.stop trivial) (emit_sparesTicks _)
      exact .bind power fun _ =>
        .bind (deviceUsb_sparesTicks _ _) fun _ => .ite (enters _ _) later
  | press =>
      exact .bind (deviceKey_sparesTicks _ _ _) fun _ => enters _ _
  | releasePwr =>
      exact .bind (deviceKey_sparesTicks _ _ _) fun _ => later
  | releaseFastboot =>
      exact .bind (deviceKey_sparesTicks _ _ _) fun _ =>
        setState_sparesTicks differs _
  | running =>
      exact .pure ()

theorem msgKeyPress_sparesTicks
    (selected : Option (Fin n))
    (data : List UInt8) :
    SparingTicks device (msgKeyPress selected data) := by
  unfold msgKeyPress
  split
  · rename_i key state
    have release :
        TimerCallback.msgKeyRelease key.toNat ≠ .deviceTick device := nofun
    exact .ite
      (.bind (deviceKey_sparesTicks _ _ _) fun _ =>
        watchTimerAdd_sparesTicks release _)
      (deviceKey_sparesTicks _ _ _)
  · exact .pure ()

theorem deviceBoot_sparesTicks
    (selected : Option (Fin n))
    (image : List UInt8) :
    SparingTicks device (deviceBoot selected image) :=
  .bind (sparesTicks_of_background (deref_background _)) fun _ =>
    .bind (.read _) fun _ =>
      .bind (emit_sparesTicks _) fun _ =>
        .ite (.stop trivial)
          (.bind (sparesTicks_of_background (runBulk_background _ _)) fun _ =>
            .bind (sparesTicks_of_background (acquire_background _)) fun _ =>
              .bind (sparesTicks_of_background (runBulk_background _ _))
                fun _ =>
                  .bind (sparesTicks_of_background (bootMethod_background _))
                    fun _ => .onlyIf (deviceUsb_sparesTicks _ _))

end SparesTicks

/-! ## The server -/

/-- The same of the hardware of a server. -/
abbrev Server.SparesTicks
    (device : Fin n)
    (first last : Server n) :
    Prop :=
  Hw.SparesTicks device first.hw last.hw

instance Server.SparesTicks.composes
    (device : Fin n) :
    Composes (Server.SparesTicks device) where
  refl := fun server => Composes.refl server.hw
  trans := (Hw.SparesTicks.composes device).trans

section Server

variable {device : Fin n}

theorem onHw_sparesTicks
    {program : HwM n α}
    (spares : SparingTicks device program) :
    Relates (Server.SparesTicks device) Stop.Any (onHw program) :=
  .within (fun _ _ step => step) spares

theorem server_sparesTicks_of_background
    {program : ServerM n α}
    (background : Relates Server.Background Stop.Any program) :
    Relates (Server.SparesTicks device) Stop.Any program :=
  background.mono (fun _ _ step => step.hw.sparesTicks device) fun _ => id

/-- Changes to globals other than the hardware. -/
theorem updateOther_sparesTicks
    {change : Server n → Server n}
    (same : ∀ server, (change server).hw = server.hw) :
    Relates (Server.SparesTicks device) Stop.Any
      (update change : ServerM n Unit) := by
  refine .update fun server => ?_
  unfold Server.SparesTicks
  rw [same]
  exact Composes.refl _

theorem msgSelectBoard_sparesTicks
    (data : List UInt8) :
    Relates (Server.SparesTicks device) Stop.Any
      (msgSelectBoard (n := n) data) := by
  refine .bind (.read _) fun _ =>
    .bind (server_sparesTicks_of_background (deviceOpen_background _))
      fun opened => .bind (updateOther_sparesTicks fun _ => rfl) fun _ => ?_
  cases opened with
  | none =>
      exact .bind (updateOther_sparesTicks fun _ => rfl) fun _ =>
        onHw_sparesTicks (emit_sparesTicks _)
  | some opened =>
      exact .bind
        (onHw_sparesTicks
          (sparesTicks_of_background (deviceFastbootOpen_background _)))
        fun _ => onHw_sparesTicks (emit_sparesTicks _)

theorem msgFastbootDownload_sparesTicks
    (data : List UInt8) :
    Relates (Server.SparesTicks device) Stop.Any
      (msgFastbootDownload (n := n) data) := by
  have grows :
      Relates (Server.SparesTicks device) Stop.Any
        (onlyIf (data ≠ []) (onHw (acquire (n := n) .memory))) :=
    .onlyIf (onHw_sparesTicks (sparesTicks_of_background (acquire_background _)))
  exact .bind grows fun _ =>
    .bind (updateOther_sparesTicks fun _ => rfl) fun _ =>
      .ite
        (.bind (.read _) fun _ =>
          .bind (.read _) fun _ =>
            .bind (onHw_sparesTicks (deviceBoot_sparesTicks _ _)) fun _ =>
              .bind (onHw_sparesTicks (emit_sparesTicks _)) fun _ =>
                updateOther_sparesTicks fun _ => rfl)
        (.pure _)

/-- A message that asks for anything but power. -/
theorem handleType_sparesTicks
    {type : MsgType}
    (other : type ≠ .powerOn)
    (data : List UInt8) :
    Relates (Server.SparesTicks device) Stop.Any
      (handleType (n := n) type data) := by
  by_cases select : type = .selectBoard
  · rw [select]
    exact msgSelectBoard_sparesTicks data
  by_cases download : type = .fastbootDownload
  · rw [download]
    exact msgFastbootDownload_sparesTicks data
  by_cases key : type = .keyPress
  · rw [key]
    exact .bind (.read _) fun _ =>
      onHw_sparesTicks (msgKeyPress_sparesTicks _ _)
  have background : type.isBackground = true := by
    cases type <;> first | rfl | contradiction
  exact server_sparesTicks_of_background
    (handleType_background background data)

/-- The callback of a timer that is no tick of the device. -/
theorem fireTimer_sparesTicks
    {cb : TimerCallback n}
    (other : cb ≠ .deviceTick device) :
    Relates (Server.SparesTicks device) Stop.Any (fireTimer cb) := by
  cases cb with
  | deviceTick ticking =>
      refine onHw_sparesTicks (deviceTick_sparesTicks ?_)
      rintro rfl
      exact other rfl
  | msgKeyRelease key =>
      exact .bind (.read _) fun _ =>
        onHw_sparesTicks (deviceKey_sparesTicks _ _ _)
  | cdbAssistPrintStatus ticking =>
      exact onHw_sparesTicks (emit_sparesTicks _)
  | qcomltDbgRequestStatus ticking =>
      exact onHw_sparesTicks (watchTimerAdd_sparesTicks other _)

end Server

/-! ## Devices that are never ticked -/

/-- A device without power control, as it was before its first tick. -/
structure Hw.Unticked (device : Fin n) (hw : Hw n) : Prop where
  unpowered : (hw.devices device).hasControl .power = false
  state : (hw.devices device).state = .start
  noTicks :
    ∀ timer, timer ∈ hw.timers → timer.cb ≠ .deviceTick device

theorem Hw.Unticked.spared
    {device : Fin n}
    {first last : Hw n}
    (unticked : first.Unticked device)
    (spares : Hw.SparesTicks device first last) :
    last.Unticked device := by
  obtain ⟨timers, queue, others⟩ := spares.armed
  refine
    { unpowered :=
        (spares.config.hasControl .power).trans unticked.unpowered
      state := spares.state.trans unticked.state
      noTicks := ?_ }
  intro timer member
  rw [queue] at member
  rcases List.mem_append.mp member with old | new
  · exact unticked.noTicks timer old
  · exact others timer new

section Unticked

variable {device : Fin n}

theorem unticked_of_spares
    {program : HwM n α}
    (spares : SparingTicks device program) :
    Keeps (Hw.Unticked device) (fun _ => Hw.Unticked device) program :=
  .of_relates spares fun _ _ unticked => unticked.spared

/-- A power-on request only ticks a device that has power control. -/
theorem devicePowerOn_unticked
    (selected : Option (Fin n)) :
    Keeps (Hw.Unticked device) (fun _ => Hw.Unticked device)
      (devicePowerOn selected) := by
  intro hw unticked
  refine KeepsAt.read ?_
  cases found : poweredDevice? selected hw with
  | none =>
      exact unticked
  | some powered =>
      have control : (hw.devices powered).hasControl .power = true :=
        (Option.filter_eq_some_iff.mp found).2
      have differs : device ≠ powered := by
        rintro rfl
        rw [unticked.unpowered] at control
        contradiction
      exact unticked_of_spares
        (.bind (setState_sparesTicks differs _) fun _ =>
          deviceTick_sparesTicks differs)
        hw unticked

/-- Programs of the server under which a device stays unticked. -/
abbrev LeavesUnticked (device : Fin n) (program : ServerM n α) : Prop :=
  Keeps (fun server => server.hw.Unticked device)
    (fun _ server => server.hw.Unticked device) program

theorem leavesUnticked_of_spares
    {program : ServerM n α}
    (spares : Relates (Server.SparesTicks device) Stop.Any program) :
    LeavesUnticked device program :=
  .of_relates spares fun _ _ unticked => unticked.spared

theorem handleType_leavesUnticked
    (type : MsgType)
    (data : List UInt8) :
    LeavesUnticked device (handleType (n := n) type data) := by
  by_cases power : type = .powerOn
  · rw [power]
    intro server unticked
    refine KeepsAt.read (KeepsAt.within Server.hwOf ?_)
    exact (devicePowerOn_unticked _).bind
      (fun _ => unticked_of_spares (emit_sparesTicks _)) _ unticked
  · exact leavesUnticked_of_spares (handleType_sparesTicks power data)

theorem dispatch_leavesUnticked
    (msg : Msg) :
    LeavesUnticked device (dispatch (n := n) msg) := by
  refine Keeps.bind
    (leavesUnticked_of_spares (updateOther_sparesTicks fun _ => rfl))
    fun _ => ?_
  split
  · exact handleType_leavesUnticked _ _
  · exact .stop fun _ unticked => unticked

/-- A pass over the timers finds no tick of the device, and leaves none. -/
theorem invokeTimers_leavesUnticked :
    LeavesUnticked device (invokeTimers (n := n)) := by
  refine Keeps.bind
    (leavesUnticked_of_spares
      (onHw_sparesTicks (sparesTicks_of_background gettimeofday_background)))
    fun now => Keeps.bind (.read _) fun queue => ?_
  refine watchTimerInvokeLoop_keeps ?_ ?_ _ _
  · intro server position timer unticked found _
    have other := unticked.noTicks timer (List.mem_of_getElem? found)
    refine (leavesUnticked_of_spares (fireTimer_sparesTicks other) server
      unticked).bind ?_
    intro _ fired _ unticked
    refine .of_ok (update_apply _ _)
      { unpowered := unticked.unpowered
        state := unticked.state
        noTicks := ?_ }
    intro timer member
    exact unticked.noTicks timer (List.mem_of_mem_eraseIdx member)
  · exact fun _ unticked => unticked

/-! ## Sessions -/

/-- The same of the server with its receive buffer. -/
abbrev UntickedThroughout
    (device : Fin n)
    (program : EStateM Stop (ServerLoop n) Unit) :
    Prop :=
  Keeps (fun loop : ServerLoop n => loop.state.hw.Unticked device)
    (fun _ loop => loop.state.hw.Unticked device) program

theorem runCallback_untickedThroughout
    (callback : Callback) :
    UntickedThroughout device (runCallback (n := n) callback) := by
  by_cases stdin : callback = .stdin
  · rw [stdin]
    refine receive_keeps ?_ ?_ dispatch_leavesUnticked
    · exact fun _ _ unticked => unticked
    · exact fun _ unticked => unticked
  · obtain ⟨program, runs, background⟩ := runCallback_background stdin
    rw [runs]
    intro loop unticked
    exact KeepsAt.within Receiver.stateOf
      (leavesUnticked_of_spares
        (server_sparesTicks_of_background background) loop.state unticked)

/-- In no session is a device ticked that has no power control. -/
theorem watchMainLoop_untickedThroughout
    (iterations : List (List Callback)) :
    UntickedThroughout device (watchMainLoop (n := n) iterations) := by
  induction iterations with
  | nil =>
      exact .pure ()
  | cons ready rest inductionHypothesis =>
      have timers :
          UntickedThroughout device
            (within Receiver.stateOf (invokeTimers (n := n))) :=
        fun loop unticked => KeepsAt.within Receiver.stateOf
          (invokeTimers_leavesUnticked loop.state unticked)
      refine Keeps.bind (.read _) fun quitting => .ite (.pure ()) ?_
      exact Keeps.bind
        (Keeps.bind timers fun _ =>
          Keeps.each runCallback_untickedThroughout ready)
        fun _ => inductionHypothesis

end Unticked

end Cdba
