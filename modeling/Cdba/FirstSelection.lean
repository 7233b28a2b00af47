import Cdba.Session

namespace Cdba

/-!
# The first board of a session

Until its first power-on request a server that has selected a board has no
timer pending and has not powered anything on: opening a board only waits for
its lock, opens its drivers and may switch it off.
-/

open Program

variable {n : Nat}

/-- Output that does not belong to a power-on sequence. -/
def Event.Idle : Event n → Prop
  | .tick _ _ => False
  | .power _ on => on = false
  | _ => True

/-- Nothing was armed, and no power-on sequence has gone on. -/
structure Hw.Idles (first last : Hw n) : Prop where
  timers : last.timers = first.timers
  logged :
    ∃ events,
      last.log = first.log ++ events ∧
        ∀ event, event ∈ events → event.value.Idle

instance Hw.Idles.composes :
    Composes (Hw.Idles (n := n)) where
  refl := fun hw => ⟨rfl, [], by simp, by simp⟩
  trans := by
    intro first middle last firstStep laterStep
    obtain ⟨events, log, idle⟩ := firstStep.logged
    obtain ⟨events', log', idle'⟩ := laterStep.logged
    refine
      ⟨laterStep.timers.trans firstStep.timers, events ++ events', ?_, ?_⟩
    · rw [log', log, List.append_assoc]
    · intro event member
      rcases List.mem_append.mp member with early | late
      · exact idle event early
      · exact idle' event late

/-- Programs that arm nothing and stay out of the power-on sequence. -/
abbrev Idling (program : HwM n α) : Prop :=
  Relates Hw.Idles Stop.Any program

theorem emit_idles
    {event : Event n}
    (idle : event.Idle) :
    Idling (emit event) :=
  .update fun _ => ⟨rfl, [_], rfl, by simpa using idle⟩

/-- Changes to anything but the timers and the log. -/
theorem update_idles
    {change : Hw n → Hw n}
    (timers : ∀ hw, (change hw).timers = hw.timers)
    (log : ∀ hw, (change hw).log = hw.log) :
    Idling (update change) :=
  .update fun hw => ⟨timers hw, [], by simp [log], by simp⟩

theorem nextAnswer_idles
    {script : Hw n → List α}
    {replace : Hw n → List α → Hw n}
    {default : α}
    (timers : ∀ hw answers, (replace hw answers).timers = hw.timers)
    (log : ∀ hw answers, (replace hw answers).log = hw.log) :
    Idling (nextAnswer script replace default) :=
  .bind (.read _) fun _ =>
    .bind (.update fun hw => ⟨timers hw _, [], by simp [log], by simp⟩)
      fun _ => .pure _

theorem acquire_idles
    (resource : Resource) :
    Idling (acquire (n := n) resource) :=
  acquire_relates (fun _ => ⟨rfl, [], by simp [Hw.spend], by simp⟩) trivial

theorem devicePowerOff_idles
    (device : Option (Fin n)) :
    Idling (devicePowerOff device) := by
  refine .bind (.read _) fun powered => ?_
  cases powered with
  | none => exact .pure _
  | some device => exact emit_idles rfl

theorem deviceUsb_idles
    (device : Fin n)
    (on : Bool) :
    Idling (deviceUsb (some device) on) :=
  .bind (.pure _) fun _ => .bind (.read _) fun _ =>
    .bind (.onlyIf (emit_idles trivial)) fun _ =>
      .onlyIf (emit_idles trivial)

theorem openLocked_idles
    (device : Fin n) :
    Idling (openLocked device) := by
  have answers :
      ∀ (script : Hw n → List Bool) replace default,
        (∀ hw answers, (replace hw answers).timers = hw.timers) →
        (∀ hw answers, (replace hw answers).log = hw.log) →
        Idling (nextAnswer script replace default) :=
    fun _ _ _ => nextAnswer_idles
  have control : Idling (openControl device) := by
    refine .bind (.read _) fun dev => ?_
    cases dev.control with
    | none => exact .pure _
    | some driver =>
        exact .bind (answers _ _ _ (fun _ _ => rfl) (fun _ _ => rfl))
          fun _ => .ite
            (.bind (emit_idles trivial) fun _ =>
              update_idles (fun _ => rfl) (fun _ => rfl))
            (.stop trivial)
  have console : Idling (openConsole device) :=
    .bind (answers _ _ _ (fun _ _ => rfl) (fun _ _ => rfl)) fun _ =>
      .ite (emit_idles trivial) (.stop trivial)
  exact .bind control fun _ => .bind console fun _ =>
    .bind (.read _) fun _ =>
      .bind
        (.onlyIf
          (.bind (devicePowerOff_idles _) fun _ =>
            update_idles (fun _ => rfl) (fun _ => rfl)))
        fun _ => .onlyIf (deviceUsb_idles device true)

theorem deviceFastbootOpen_idles
    (device : Fin n) :
    Idling (deviceFastbootOpen device) := by
  have globals :
      ∀ change : Hw n → Hw n,
        (∀ hw, (change hw).timers = hw.timers) →
        (∀ hw, (change hw).log = hw.log) →
        Idling (update change) :=
    fun _ => update_idles
  have add : ∀ index node, Idling (handleFastbootAdd (n := n) index node) := by
    intro index node
    unfold handleFastbootAdd
    split
    · exact .pure _
    · exact .bind (globals _ (fun _ => rfl) (fun _ => rfl))
        fun _ => emit_idles trivial
  have enumerate :
      ∀ serial, Idling (fastbootEnumerate (n := n) serial) :=
    fun _ => .bind (.read _) fun _ =>
      .bind (globals _ (fun _ => rfl) (fun _ => rfl)) fun _ =>
        .bind (globals _ (fun _ => rfl) (fun _ => rfl)) fun _ =>
          .bind (nextAnswer_idles (fun _ _ => rfl) (fun _ _ => rfl))
            fun _ => .bind (.each fun _ _ => add _ _) fun _ => .pure _
  exact .bind (.read _) fun _ =>
    .bind (.bind (acquire_idles _) fun _ => enumerate _)
      fun _ => globals _ (fun _ => rfl) (fun _ => rfl)

/-- The same of the hardware of a server. -/
def Server.Idles (first last : Server n) : Prop :=
  first.hw.Idles last.hw

instance Server.Idles.composes :
    Composes (Server.Idles (n := n)) where
  refl := fun server => Composes.refl server.hw
  trans := fun firstStep laterStep =>
    Hw.Idles.composes.trans firstStep laterStep

theorem onHw_idles
    {program : HwM n α}
    (idling : Idling program) :
    Relates Server.Idles Stop.Any (onHw program) :=
  .within (fun _ _ step => step) idling

/-- Changes to anything but the hardware. -/
theorem updateOther_idles
    {change : Server n → Server n}
    (same : ∀ server, (change server).hw = server.hw) :
    Relates Server.Idles Stop.Any (update change : ServerM n Unit) := by
  refine .update fun server => ?_
  rw [Server.Idles, same]
  exact Composes.refl _

theorem deviceLock_idles
    (device : Fin n) :
    Relates Server.Idles Stop.Any (deviceLock device) := by
  have other :
      ∀ change : Server n → Server n,
        (∀ server, (change server).hw = server.hw) →
        Relates Server.Idles Stop.Any (update change : ServerM n Unit) :=
    fun _ => updateOther_idles
  have probe :
      Relates Server.Idles Stop.Any (probeConnection (n := n)) := by
    refine .bind (.read _) fun input => ?_
    split
    · exact .pure _
    · split
      · exact other _ fun _ => rfl
      · exact other _ fun _ => rfl
      · exact .bind (other _ fun _ => rfl) fun _ => .stop trivial
  have loop :
      ∀ flocks,
        Relates Server.Idles Stop.Any
          (deviceLockLoop (n := n) flocks) := by
    intro flocks
    induction flocks with
    | nil =>
        exact .pure _
    | cons locked flocks inductionHypothesis =>
        exact .bind (other _ fun _ => rfl) fun _ =>
          .ite (.pure _)
            (.bind
              (onHw_idles (update_idles (fun _ => rfl) (fun _ => rfl)))
              fun _ => .bind probe fun _ => inductionHypothesis)
  exact .bind (.read _) fun _ =>
    .ite (.stop trivial)
      (.bind (.read _) fun _ =>
        .bind (other _ fun _ => rfl) fun _ =>
          .ite (.bind (.read _) fun _ => loop _) (.stop trivial))

/-- Opening a board arms nothing and does not power it on. -/
theorem deviceOpen_idles
    (board : Nat → UInt8) :
    Relates Server.Idles Stop.Any (deviceOpen (n := n) board) := by
  refine .bind (.read _) fun found => ?_
  cases found with
  | none => exact .pure _
  | some device =>
      exact .bind (.read _) fun _ => .ite (.stop trivial)
        (.bind (deviceLock_idles _) fun _ =>
          .bind (onHw_idles (openLocked_idles _)) fun _ => .pure _)

/-- Selecting a board arms nothing and does not power it on. -/
theorem msgSelectBoard_idles
    (data : List UInt8) :
    Relates Server.Idles Stop.Any (msgSelectBoard (n := n) data) := by
  have other :
      ∀ change : Server n → Server n,
        (∀ server, (change server).hw = server.hw) →
        Relates Server.Idles Stop.Any (update change : ServerM n Unit) :=
    fun _ => updateOther_idles
  refine .bind (.read _) fun _ => .bind (deviceOpen_idles _) fun device =>
    .bind (other _ fun _ => rfl) fun _ => ?_
  cases device with
  | none =>
      exact .bind (other _ fun _ => rfl) fun _ =>
        onHw_idles (emit_idles trivial)
  | some device =>
      exact .bind (onHw_idles (deviceFastbootOpen_idles _)) fun _ =>
        onHw_idles (emit_idles trivial)

/-- A server whose first message has selected a board with power control. -/
structure Selected (device : Fin n) (server : Server n) : Prop where
  opened :
    ∃ devices username stdin hw lockOpens flocks data,
      handleType .selectBoard data
          (Server.start devices username stdin hw lockOpens
            flocks).state =
        .ok () server
  selected : server.selectedDevice = some device
  powered : (server.hw.devices device).hasControl .power = true

/-- A selected board comes from hardware without timers and without a past. -/
theorem Selected.fresh
    {device : Fin n}
    {server : Server n}
    (isSelected : Selected device server) :
    ∃ hw : Hw n,
      hw.timers = [] ∧
        hw.log = [] ∧
        hw.Idles server.hw ∧
        hw.Extends server.hw := by
  obtain ⟨devices, username, stdin, hw, lockOpens, flocks, data, result⟩ :=
    isSelected.opened
  let start := (Server.start devices username stdin hw lockOpens flocks).state
  have idles := (msgSelectBoard_idles data start).related
  have extended := (msgSelectBoard_extends data start).related
  rw [show msgSelectBoard data start = _ from result] at idles extended
  exact ⟨start.hw, rfl, rfl, idles, extended.hw⟩

/-- No timer is pending right after the selection. -/
theorem Selected.timers
    {device : Fin n}
    {server : Server n}
    (isSelected : Selected device server) :
    server.hw.timers = [] := by
  obtain ⟨hw, noTimers, _, idles, _⟩ := isSelected.fresh
  rw [idles.timers, noTimers]

/-- Nothing in the log belongs to a power-on sequence. -/
theorem Selected.idle
    {device : Fin n}
    {server : Server n}
    (isSelected : Selected device server) :
    ∀ event, event ∈ server.hw.log → event.value.Idle := by
  obtain ⟨hw, _, noLog, idles, _⟩ := isSelected.fresh
  obtain ⟨events, log, idle⟩ := idles.logged
  rw [log, noLog, List.nil_append]
  exact idle

/-- The log is in order, and nothing in it lies in the future. -/
theorem Selected.sorted
    {device : Fin n}
    {server : Server n}
    (isSelected : Selected device server) :
    (server.hw.log.Pairwise fun earlier later =>
        earlier.time ≤ later.time) ∧
      ∀ event, event ∈ server.hw.log →
        event.time ≤ server.hw.clock.now := by
  obtain ⟨hw, _, noLog, _, extended⟩ := isSelected.fresh
  obtain ⟨events, log, sorted, times⟩ := extended.logged
  rw [log, noLog, List.nil_append]
  exact ⟨sorted, fun event member => (times event member).2⟩

/-- The bench selects its board, with the delays of the clock still to come. -/
def selectOnBench (delays : List Nat) : EStateM.Result Stop (Server 1) Unit :=
  handleType .selectBoard (ascii "db410c" ++ [0])
    (Server.start (fun _ => ftdiBoard) (ascii "user") ⟨⟨[], false⟩, []⟩
      { Hw.initial fun _ => ftdiBoard with clock := ⟨0, delays⟩ }
      [] []).state

/-- The bench after it has selected its board. -/
def selectedBench (delays : List Nat) : Server 1 :=
  finalState (selectOnBench delays)

/-- Twenty milliseconds pass after a number of actions. -/
def pauseAfter (actions : Nat) : List Nat :=
  List.replicate actions 0 ++ [20000]

/-- On a bench, being selected can be checked. -/
theorem selectedBench_selected
    {delays : List Nat}
    (returned : returned? (selectOnBench delays) = some ())
    (selected : (selectedBench delays).selectedDevice = some 0)
    (powered :
      ((selectedBench delays).hw.devices 0).hasControl .power = true) :
    Selected 0 (selectedBench delays) where
  opened := ⟨_, _, _, _, _, _, _, eq_ok_of_returned returned⟩
  selected := selected
  powered := powered

end Cdba
