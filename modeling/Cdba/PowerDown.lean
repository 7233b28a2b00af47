import Cdba.FirstSelection
import Cdba.Supervision

namespace Cdba

/-!
# How a session leaves its board

`main` closes the selected device when its main loop returns.  A session whose
board stays selected until then leaves it powered down; `exit()` in the
dispatcher and a further selection both go past `device_close`.
-/

open Program

variable {n : Nat}

/-! ## The end of the process -/

/-- What `main` does after `watch_run()`: close the selected device. -/
def closeSelected : ServerM n Unit := do
  let selected ← read Server.selectedDevice
  match selected with
  | none => pure ()
  | some device => onHw (deviceClose device)

/--
The state in which the process ends.  The main loop returns when it is told to
quit or when a callback fails; `exit()` ends the process where it stands.
-/
def endOfProcess? :
    EStateM.Result Stop (ServerLoop n) Unit → Option (Server n)
  | .ok _ loop =>
      if loop.state.quitInvoked then
        some (finalState (closeSelected loop.state))
      else
        none
  | .error .leaveLoop loop =>
      some (finalState (closeSelected loop.state))
  | .error (.exit _) loop => some loop.state
  | .error _ _ => none

/-- `device_open` has opened the device: its console is the last driver to open. -/
def Hw.Opened (hw : Hw n) (device : Fin n) : Prop :=
  ∃ event, event ∈ hw.log ∧ event.value = .consoleOpen device

theorem opened_iff
    {hw : Hw n}
    {device : Fin n} :
    hw.Opened device ↔
      .consoleOpen device ∈ hw.log.map Stamped.value := by
  simp [Hw.Opened]

/-- A main loop that was left by a callback is followed by `device_close`. -/
theorem endOfProcess?_leaveLoop
    {result : EStateM.Result Stop (ServerLoop n) Unit}
    (left : stopped? result = some .leaveLoop) :
    endOfProcess? result =
      some (finalState (closeSelected (finalState result).state)) := by
  cases result with
  | ok value final => cases left
  | error reason final =>
      cases left
      rfl

/-- `exit()` ends the process where it stands. -/
theorem endOfProcess?_exit
    {result : EStateM.Result Stop (ServerLoop n) Unit}
    {status : Nat}
    (exited : stopped? result = some (.exit status)) :
    endOfProcess? result = some (finalState result).state := by
  cases result with
  | ok value final => cases exited
  | error reason final =>
      cases exited
      rfl

/-- A call of the `power` operation of a device. -/
def Event.powerCall (device : Fin n) : Event n → Option Bool
  | .power called on => if called = device then some on else none
  | _ => none

/-- A call of the `usb` operation of a device. -/
def Event.usbCall (device : Fin n) : Event n → Option Bool
  | .usb called on => if called = device then some on else none
  | _ => none

/-- A switch of the USB port of a device. -/
def Event.pppsCall (device : Fin n) : Event n → Option Bool
  | .pppsPower called on => if called = device then some on else none
  | _ => none

/-- The last of the calls that a log holds. -/
def lastCall
    (call : Event n → Option Bool)
    (log : List (Stamped (Event n))) :
    Option Bool :=
  (log.filterMap fun event => call event.value).getLast?

/-- Power and USB were last switched off, where the board has the means to. -/
structure PoweredDown (device : Fin n) (hw : Hw n) : Prop where
  power :
    (hw.devices device).powerAlwaysOn = false →
    (hw.devices device).hasControl .power = true →
    lastCall (Event.powerCall device) hw.log = some false
  usb :
    (hw.devices device).usbAlwaysOn = false →
    (hw.devices device).hasControl .usb = true →
    lastCall (Event.usbCall device) hw.log = some false
  ppps :
    (hw.devices device).usbAlwaysOn = false →
    (hw.devices device).pppsPath.isSome = true →
    lastCall (Event.pppsCall device) hw.log = some false

/-! ## Closing a device -/

theorem lastCall_append
    (call : Event n → Option Bool)
    (before after : List (Stamped (Event n))) :
    lastCall call (before ++ after) =
      (lastCall call after).or (lastCall call before) := by
  simp [lastCall, List.filterMap_append, List.getLast?_append]

/-- An event under a condition, as the log shows it. -/
def loggedIf
    (condition : Bool)
    (time : Nat)
    (event : Event n) :
    List (Stamped (Event n)) :=
  if condition then [⟨time, event⟩] else []

theorem lastCall_loggedIf
    (call : Event n → Option Bool)
    (condition : Bool)
    (time : Nat)
    (event : Event n) :
    lastCall call (loggedIf condition time event) =
      if condition then call event else none := by
  cases condition with
  | false => rfl
  | true => cases called : call event <;> simp [lastCall, loggedIf, called]

theorem onlyIf_emit_log
    (condition : Bool)
    (event : Event n)
    (hw : Hw n) :
    ∃ time final,
      onlyIf condition (emit event) hw = .ok () final ∧
        final.log = hw.log ++ loggedIf condition time event ∧
        final.devices = hw.devices := by
  cases condition with
  | false => exact ⟨0, hw, rfl, (List.append_nil _).symm, rfl⟩
  | true => exact ⟨_, _, rfl, rfl, rfl⟩

/-- `device_usb` switches the port and then the driver, as far as there are any. -/
theorem deviceUsb_log
    (device : Fin n)
    (on : Bool)
    (hw : Hw n) :
    ∃ time time' final,
      deviceUsb (some device) on hw = .ok () final ∧
        final.log =
          hw.log ++
            loggedIf (hw.devices device).pppsPath.isSome time
              (.pppsPower device on) ++
            loggedIf ((hw.devices device).hasControl .usb) time'
              (.usb device on) ∧
        final.devices = hw.devices := by
  obtain ⟨time, middle, result, log, devices⟩ := onlyIf_emit_log
    (hw.devices device).pppsPath.isSome (.pppsPower device on) hw
  obtain ⟨time', final, result', log', devices'⟩ := onlyIf_emit_log
    ((hw.devices device).hasControl .usb) (.usb device on) middle
  refine ⟨time, time', final, ?_, ?_, devices'.trans devices⟩
  · unfold deviceUsb deref
    rw [pure_bind, bind_of_ok (read_apply _ _), bind_of_ok result]
    exact result'
  · rw [log', log]

theorem devicePowerOff_log
    (device : Fin n)
    (hw : Hw n) :
    ∃ time final,
      devicePower (some device) false hw = .ok () final ∧
        final.log =
          hw.log ++
            loggedIf ((hw.devices device).hasControl .power) time
              (.power device false) ∧
        final.devices = hw.devices := by
  have switches :
      devicePower (some device) false hw =
        onlyIf ((hw.devices device).hasControl .power)
          (emit (.power device false)) hw := by
    simp only [devicePower, devicePowerOff, Bool.false_eq_true, ↓reduceIte]
    rw [bind_of_ok (read_apply _ _), poweredDevice?, Option.filter_some]
    cases (hw.devices device).hasControl .power with
    | false => rfl
    | true => rfl
  rw [switches]
  exact onlyIf_emit_log _ _ hw

/-- Closing a device switches USB and power off, unless they are always on. -/
theorem deviceClose_poweredDown
    (device : Fin n)
    (hw : Hw n) :
    PoweredDown device (finalState (deviceClose device hw)) := by
  have usb :
      ∃ time time' final,
        onlyIf (!(hw.devices device).usbAlwaysOn)
            (deviceUsb (some device) false) hw = .ok () final ∧
          final.log =
            hw.log ++
              loggedIf
                (!(hw.devices device).usbAlwaysOn &&
                  (hw.devices device).pppsPath.isSome) time
                (.pppsPower device false) ++
              loggedIf
                (!(hw.devices device).usbAlwaysOn &&
                  (hw.devices device).hasControl .usb) time'
                (.usb device false) ∧
          final.devices = hw.devices := by
    cases (hw.devices device).usbAlwaysOn with
    | true =>
        exact ⟨0, 0, hw, rfl, by simp [loggedIf], rfl⟩
    | false =>
        exact deviceUsb_log device false hw
  obtain ⟨time, time', unplugged, result, log, devices⟩ := usb
  have power :
      ∃ time final,
        onlyIf (!(hw.devices device).powerAlwaysOn)
            (devicePower (some device) false) unplugged = .ok () final ∧
          final.log =
            unplugged.log ++
              loggedIf
                (!(hw.devices device).powerAlwaysOn &&
                  (hw.devices device).hasControl .power) time
                (.power device false) ∧
          final.devices = hw.devices := by
    cases (hw.devices device).powerAlwaysOn with
    | true =>
        exact ⟨0, unplugged, rfl, by simp [loggedIf], devices⟩
    | false =>
        obtain ⟨time, final, result, log, same⟩ :=
          devicePowerOff_log device unplugged
        rw [devices] at log same
        exact ⟨time, final, result, log, same⟩
  obtain ⟨offTime, off, offResult, offLog, offDevices⟩ := power
  obtain ⟨closeTime, closed, closeResult, closeLog, closeDevices⟩ :=
    onlyIf_emit_log ((hw.devices device).hasControl .close)
      (.controlClose device) off
  have closes : deviceClose device hw = .ok () closed := by
    unfold deviceClose
    rw [bind_of_ok (read_apply _ _), bind_of_ok result,
      bind_of_ok offResult]
    exact closeResult
  rw [closes]
  refine
    { power := fun alwaysOn has => ?_
      usb := fun alwaysOn has => ?_
      ppps := fun alwaysOn has => ?_ }
  all_goals
    simp only [finalState, closeDevices, offDevices] at alwaysOn has
    simp [finalState, closeLog, offLog, log, alwaysOn, has,
      lastCall_append, lastCall_loggedIf, Event.powerCall, Event.usbCall,
      Event.pppsCall]

/-! ## Sessions that stay with their board -/

/-- A message that opens a board. -/
def Msg.Opens
    (hw : Hw n)
    (username : CString)
    (msg : Msg) :
    Prop :=
  MsgType.ofCode? msg.type = some .selectBoard ∧
    accessibleBoard? hw username (memoryAt msg.data hw.beyond) ≠ none

/-- A message after which the board that was open is not closed any more. -/
def Msg.leavesBoard (msg : Msg) : Bool :=
  match MsgType.ofCode? msg.type with
  | none => true
  | some type => type = .selectBoard || type.exits

/-- Once a board is open, no message leaves it. -/
def StaysWithBoard
    (hw : Hw n)
    (username : CString)
    (messages : List Msg) :
    Prop :=
  ∀ before msg after,
    messages = before ++ msg :: after →
    msg.Opens hw username →
    ∀ later, later ∈ after → later.leavesBoard = false

theorem StaysWithBoard.of_concat
    {hw : Hw n}
    {username : CString}
    {messages : List Msg}
    {msg : Msg}
    (stays : StaysWithBoard hw username (messages ++ [msg])) :
    StaysWithBoard hw username messages ∧
      ((∃ opener, opener ∈ messages ∧ opener.Opens hw username) →
        msg.leavesBoard = false) := by
  constructor
  · intro before opener after shape opens later member
    refine stays before opener (after ++ [msg]) ?_ opens later
      (List.mem_append_left _ member)
    rw [shape, List.append_assoc, List.cons_append]
  · rintro ⟨opener, member, opens⟩
    obtain ⟨before, after, shape⟩ := List.mem_iff_append.mp member
    refine stays before opener (after ++ [msg]) ?_ opens msg (by simp)
    rw [shape, List.append_assoc, List.cons_append]

/-- Work on one device only, or on none; any message may be sent. -/
def onlyOn (selected : Option (Fin n)) : Permission n where
  device := fun device => selected = some device
  send := fun _ _ => True

theorem onlyOn_publishes
    (selected : Option (Fin n))
    (hw : Hw n)
    (username : CString) :
    (onlyOn selected).Publishes hw username where
  empties := fun _ => trivial
  present := fun _ => trivial
  lists := fun _ _ => trivial
  describes := fun _ _ _ _ => trivial

theorem onlyOn_forwards
    (selected : Option (Fin n))
    (callback : Callback) :
    (onlyOn selected).Forwards callback := by
  unfold Permission.Forwards
  split <;> simp [onlyOn]

/-- So far the server has only worked on the board it has selected. -/
structure Holding (start server : Server n) : Prop where
  guards : (onlyOn server.selectedDevice).Guards start server
  opened :
    server.selectedDevice ≠ none ↔
      ∃ msg, msg ∈ server.dispatched ∧ msg.Opens start.hw start.username

/-- No device has been opened. -/
def Hw.NoneOpened (hw : Hw n) : Prop :=
  ∀ device, ¬ hw.Opened device

theorem Permission.Kept.opened
    {permission : Permission n}
    {start hw : Hw n}
    {device : Fin n}
    (kept : permission.Kept start hw)
    (opened : hw.Opened device) :
    permission.device device := by
  obtain ⟨event, member, isOpen⟩ := opened
  have allowed := (kept.logged event member).1
  rw [isOpen] at allowed
  exact allowed device rfl

/-- What holds between steps of a session that has stayed with its board. -/
def Between (start server : Server n) : Prop :=
  StaysWithBoard start.hw start.username server.dispatched →
    Holding start server

/-- What holds when such a session stops: no exit leaves a board open. -/
structure EndsHolding
    (start : Server n)
    (reason : Stop)
    (server : Server n) :
    Prop where
  leaves : reason = .leaveLoop → Between start server
  exits :
    ∀ status, reason = .exit status →
      StaysWithBoard start.hw start.username server.dispatched →
      server.hw.NoneOpened

/-- Work beside the session, on the selected device, goes on holding it. -/
theorem Between.of_sameSession
    {start server : Server n}
    {program : ServerM n Unit}
    (between : Between start server)
    (session : RelatesAt Server.SameSession Stop.Any program server)
    (guarding :
      ∀ selected,
        (onlyOn selected).Guarding Stop.NotExit start program) :
    KeepsAt (Between start) (EndsHolding start) program server := by
  have related := session.related
  have holds :
      ∀ final,
        server.SameSession final →
        (Holding start server →
          (onlyOn server.selectedDevice).Guards start final) →
        Between start final := by
    intro final same guards stays
    rw [same.dispatched] at stays
    have holding := between stays
    refine ⟨?_, ?_⟩
    · rw [same.selected]
      exact guards holding
    · rw [same.selected, same.dispatched]
      exact holding.opened
  have guarded := fun holding : Holding start server =>
    guarding server.selectedDevice server holding.guards
  unfold KeepsAt at guarded ⊢
  cases outcome : program server with
  | ok value final =>
      rw [outcome] at guarded related
      exact holds final related guarded
  | error reason final =>
      rw [outcome] at guarded related
      refine ⟨fun _ => holds final related fun holding =>
        (guarded holding).2, ?_⟩
      intro status isExit stays
      simp only [finalState] at related
      rw [related.dispatched] at stays
      exact absurd isExit ((guarded (between stays)).1 status)

/-! ### Selecting a board -/

/-- While nothing was opened before, an exit leaves nothing open. -/
def ExitsUnopened (reason : Stop) (hw : Hw n) : Prop :=
  (∃ status, reason = .exit status) → hw.NoneOpened

/-- A program that never calls `exit()` leaves nothing open that way. -/
theorem exitsUnopened_of_respected
    {program : HwM n α}
    (respected :
      ∀ start : Hw n,
        Permission.everything.Respected Stop.NotExit start program)
    (hw : Hw n) :
    KeepsAt (fun _ => True) ExitsUnopened program hw :=
  (respected hw hw (everything_kept hw)).mono (fun _ _ => trivial)
    fun _ _ stopped ⟨status, isExit⟩ =>
      absurd isExit (stopped.1 status)

theorem emit_noneOpened
    {event : Event n}
    (other : ∀ device, event ≠ .consoleOpen device) :
    Keeps Hw.NoneOpened (fun _ => Hw.NoneOpened) (emit event) := by
  rintro hw none device ⟨logged, member, isOpen⟩
  rcases List.mem_append.mp member with old | new
  · exact none device ⟨logged, old, isOpen⟩
  · rw [List.mem_singleton.mp new] at isOpen
    exact other device isOpen

theorem nextAnswer_noneOpened
    {script : Hw n → List β}
    {replace : Hw n → List β → Hw n}
    {default : β}
    (log : ∀ hw answers, (replace hw answers).log = hw.log) :
    Keeps Hw.NoneOpened (fun _ => Hw.NoneOpened)
      (nextAnswer script replace default) := by
  intro hw none
  refine KeepsAt.read (KeepsAt.update ?_)
  rintro device ⟨event, member, isOpen⟩
  rw [log] at member
  exact none device ⟨event, member, isOpen⟩

theorem openControl_noneOpened
    (device : Fin n) :
    Keeps Hw.NoneOpened (fun _ => Hw.NoneOpened) (openControl device) := by
  refine Keeps.bind (.read _) fun dev => ?_
  cases dev.control with
  | none => exact .pure ()
  | some driver =>
      exact Keeps.bind (nextAnswer_noneOpened fun _ _ => rfl) fun _ =>
        .ite
          (Keeps.bind (emit_noneOpened fun _ => nofun)
            fun _ _ none => none)
          (Keeps.stop fun _ none => none)

/-- What opens nothing leaves nothing open when it exits. -/
theorem exitsUnopened_of_noneOpened
    {program : HwM n α}
    {hw : Hw n}
    (keeps :
      KeepsAt Hw.NoneOpened (fun _ => Hw.NoneOpened) program hw) :
    KeepsAt Hw.NoneOpened ExitsUnopened program hw :=
  keeps.mono (fun _ => id) fun _ _ none _ => none

/-- When opening the drivers of a device exits, its console was not opened. -/
theorem openLocked_exitsUnopened
    (device : Fin n)
    {hw : Hw n}
    (none : hw.NoneOpened) :
    KeepsAt (fun _ => True) ExitsUnopened (openLocked device) hw := by
  have asks :
      Keeps (Hw.NoneOpened (n := n)) (fun _ => Hw.NoneOpened)
        (nextAnswer Hw.consoleOpens
          (fun hw answers => { hw with consoleOpens := answers }) true) :=
    nextAnswer_noneOpened fun _ _ => rfl
  rw [openLocked_eq]
  refine (exitsUnopened_of_noneOpened
    (openControl_noneOpened device hw none)).seq
      fun _ controlled _ none => ?_
  have console :
      KeepsAt (fun _ => True) ExitsUnopened (openConsole device)
        controlled := by
    refine (exitsUnopened_of_noneOpened (asks controlled none)).seq
      fun answer asked _ none => ?_
    cases answer with
    | true => exact trivial
    | false => exact fun _ => none
  exact console.seq fun _ opened _ _ =>
    exitsUnopened_of_respected
      (fun start => settle_respected
        (Permission.nullStops_notExit _ start) trivial) opened

theorem exitsUnopened_of_guarding
    {program : ServerM n α}
    {start server : Server n}
    (guarding :
      Permission.everything.Guarding Stop.NotExit start program)
    (guards : Permission.everything.Guards start server) :
    KeepsAt (fun _ => True)
      (fun reason server => ExitsUnopened reason server.hw)
      program server := by
  exact (guarding server guards).mono (fun _ _ => trivial)
    fun _ _ stopped ⟨status, isExit⟩ =>
      absurd isExit (stopped.1 status)

/-- Work on no device has opened none. -/
theorem Permission.Guards.noneOpened
    {start server : Server n}
    (guards : (onlyOn none).Guards start server) :
    server.hw.NoneOpened :=
  fun _ opened => nomatch guards.hw.opened opened

/-- No message makes the main loop return. -/
theorem neverLeaves
    (permission : Permission n)
    (start : Hw n) :
    permission.MessagesMayStop (fun reason => reason ≠ .leaveLoop) start :=
  ⟨fun _ _ => nofun, fun _ => nofun, fun _ _ _ => nofun⟩

/-- A selection that exits leaves no board open, if none was. -/
theorem msgSelectBoard_exitsUnopened
    {start server : Server n}
    (granted : ∀ resource, false ∉ start.hw.grants resource)
    (guards : (onlyOn none).Guards start server)
    (data : List UInt8) :
    KeepsAt (fun _ => True)
      (fun reason server => ExitsUnopened reason server.hw)
      (msgSelectBoard data) server := by
  have opens :
      ∀ board,
        KeepsAt (fun _ => True)
          (fun reason server => ExitsUnopened reason server.hw)
          (deviceOpen board) server := by
    intro board
    refine KeepsAt.read ?_
    cases accessibleBoard? server.hw server.username board with
    | none => exact trivial
    | some device =>
        refine KeepsAt.read ?_
        split
        · rintro ⟨status, isExit⟩
          cases isExit
        · refine KeepsAt.seq
            ((deviceLock_guarding (neverLeaves _ _) device server guards).mono
              (fun _ => id)
              fun _ _ stopped _ => stopped.2.noneOpened)
            fun _ locked _ guards => ?_
          exact (KeepsAt.within Server.hwOf
            (openLocked_exitsUnopened device guards.noneOpened)).seq
              fun _ _ _ _ => trivial
  refine KeepsAt.read ((opens _).seq fun opened middle outcome _ => ?_)
  have everything : Permission.everything.Guards start server :=
    ⟨guards.hw.mono (fun _ _ => trivial) (fun _ _ _ => trivial),
      fun _ _ => trivial, guards.username⟩
  have waited :
      Permission.everything.Guarding Stop.Any start
        (deviceOpen (n := n) (memoryAt data server.hw.beyond)) :=
    deviceOpen_guarding (Permission.everything.messagesMayStop_any start.hw)
      fun _ _ => trivial
  replace waited := waited server everything
  rw [KeepsAt, outcome] at waited
  refine KeepsAt.update (exitsUnopened_of_guarding ?_
    ⟨waited.hw, fun _ _ => trivial, waited.username⟩)
  have acknowledges :
      Permission.everything.Guarding Stop.NotExit start
        (onHw (cdbaSend (n := n) .selectBoard)) :=
    onHw_guarding (send_respected trivial)
  cases opened with
  | none =>
      exact Keeps.bind
        (updateGlobals_guarding (fun _ => rfl) (fun _ => rfl)
          fun _ => rfl)
        fun _ => acknowledges
  | some device =>
      exact Keeps.bind
        (onHw_guarding
          (deviceFastbootOpen_respected
            (fun resource refused => absurd refused (granted resource))
            (fun _ => trivial) trivial))
        fun _ => acknowledges

/-! ### Messages -/

/-- A selection opens a board exactly if there is one the user may open. -/
theorem Between.select
    {start server : Server n}
    {msg : Msg}
    (granted : ∀ resource, false ∉ start.hw.grants resource)
    (decoded : MsgType.ofCode? msg.type = some .selectBoard)
    (unselected : server.selectedDevice = none)
    (holding : Holding start server)
    (dispatched :
      (finalState (msgSelectBoard msg.data
        { server with
          dispatched := server.dispatched ++ [msg] })).dispatched =
        server.dispatched ++ [msg]) :
    KeepsAt (Between start) (EndsHolding start)
      (msgSelectBoard msg.data)
      { server with dispatched := server.dispatched ++ [msg] } := by
  have idle := holding.guards
  rw [unselected] at idle
  have recorded :
      (onlyOn none).Guards start
        { server with dispatched := server.dispatched ++ [msg] } :=
    ⟨idle.hw, by simp [Permission.Covers, unselected], idle.username⟩
  let board := accessibleBoard? start.hw start.username
    (memoryAt msg.data start.hw.beyond)
  have widened :
      (onlyOn board).Guards start
        { server with dispatched := server.dispatched ++ [msg] } :=
    ⟨recorded.hw.mono (fun _ => nofun) (fun _ _ _ => trivial),
      by simp [Permission.Covers, unselected], recorded.username⟩
  have selectable : (onlyOn board).CoversSelectable start msg.data :=
    fun _ => id
  have guarded := msgSelectBoard_guarding (neverLeaves _ _)
    (onlyOn_publishes board start.hw start.username) selectable _ widened
  have exits := msgSelectBoard_exitsUnopened granted recorded msg.data
  unfold KeepsAt at guarded exits ⊢
  cases outcome :
      msgSelectBoard msg.data
        { server with dispatched := server.dispatched ++ [msg] } with
  | ok value final =>
      rw [outcome] at guarded dispatched
      obtain ⟨selected, _⟩ := msgSelectBoard_selects outcome
      rw [accessibleBoard?_extends idle.hw.extended, idle.username,
        idle.hw.extended.beyond] at selected
      change final.selectedDevice = board at selected
      refine fun _ => ⟨?_, ?_⟩
      · rw [selected]
        exact guarded
      · rw [selected, show final.dispatched = _ from dispatched]
        constructor
        · intro opens
          exact ⟨msg, by simp, decoded, opens⟩
        · rintro ⟨opener, member, opens⟩
          rcases List.mem_append.mp member with old | new
          · exact absurd unselected
              (holding.opened.mpr ⟨opener, old, opens⟩)
          · rw [List.mem_singleton.mp new] at opens
            exact opens.2
  | error reason final =>
      rw [outcome] at exits guarded
      exact ⟨fun leaves => absurd leaves guarded.1,
        fun status isExit _ => exits ⟨status, isExit⟩⟩

/-- A message that leaves the board is only dispatched while none is open. -/
theorem Holding.unselected
    {start server : Server n}
    {msg : Msg}
    (holding : Holding start server)
    (leaves : msg.leavesBoard = true)
    (stays :
      StaysWithBoard start.hw start.username
        (server.dispatched ++ [msg])) :
    server.selectedDevice = none := by
  refine Classical.byContradiction fun selected => ?_
  have goesOn := stays.of_concat.2 (holding.opened.mp selected)
  rw [leaves] at goesOn
  contradiction

/-- Nothing is said of a session that has left its board. -/
theorem keepsAt_of_stays
    {start server : Server n}
    {program : ServerM n Unit}
    {messages : List Msg}
    (dispatched : (finalState (program server)).dispatched = messages)
    (keeps :
      StaysWithBoard start.hw start.username messages →
      KeepsAt (Between start) (EndsHolding start) program server) :
    KeepsAt (Between start) (EndsHolding start) program server := by
  by_cases stays : StaysWithBoard start.hw start.username messages
  · exact keeps stays
  · unfold KeepsAt
    cases outcome : program server with
    | ok value final =>
        rw [outcome] at dispatched
        exact fun still => absurd (dispatched ▸ still) stays
    | error reason final =>
        rw [outcome] at dispatched
        exact ⟨fun _ still => absurd (dispatched ▸ still) stays,
          fun _ _ still => absurd (dispatched ▸ still) stays⟩

/-- A message that neither selects nor exits goes on holding the board. -/
theorem Holding.handles
    {start server : Server n}
    {msg : Msg}
    {type : MsgType}
    (granted : ∀ resource, false ∉ start.hw.grants resource)
    (holding : Holding start server)
    (decoded : MsgType.ofCode? msg.type = some type)
    (other : type ≠ .selectBoard)
    (goesOn : type.exits = false)
    (dispatched :
      (finalState (handleType type msg.data
        { server with
          dispatched := server.dispatched ++ [msg] })).dispatched =
        server.dispatched ++ [msg]) :
    KeepsAt (Between start) (EndsHolding start)
      (handleType type msg.data)
      { server with dispatched := server.dispatched ++ [msg] } := by
  have continues := (handleType_continues other msg.data
    { server with dispatched := server.dispatched ++ [msg] }).related
  have guarded :
      (onlyOn server.selectedDevice).Guarding
        (fun reason => reason.NotExit ∧ reason ≠ .leaveLoop) start
        (handleType type msg.data) :=
    handleType_guarding (fun _ _ => ⟨fun _ => nofun, nofun⟩)
      (fun resource refused => absurd refused (granted resource))
      (onlyOn_publishes server.selectedDevice start.hw start.username)
      other goesOn msg.data
  replace guarded := guarded
    { server with dispatched := server.dispatched ++ [msg] }
    ⟨holding.guards.hw, holding.guards.selected, holding.guards.username⟩
  unfold KeepsAt at guarded ⊢
  cases outcome :
      handleType type msg.data
        { server with dispatched := server.dispatched ++ [msg] } with
  | ok value final =>
      rw [outcome] at guarded continues dispatched
      have selected : final.selectedDevice = server.selectedDevice :=
        continues.selected
      refine fun _ => ⟨?_, ?_⟩
      · rw [selected]
        exact guarded
      · rw [selected, show final.dispatched = _ from dispatched,
          holding.opened]
        constructor
        · rintro ⟨opener, member, opens⟩
          exact ⟨opener, List.mem_append_left _ member, opens⟩
        · rintro ⟨opener, member, opens⟩
          rcases List.mem_append.mp member with old | new
          · exact ⟨opener, old, opens⟩
          · rw [List.mem_singleton.mp new, Msg.Opens, decoded] at opens
            exact absurd (Option.some.inj opens.1) other
  | error reason final =>
      rw [outcome] at guarded
      obtain ⟨⟨notExit, notLeave⟩, _⟩ := guarded
      exact ⟨fun leaves => absurd leaves notLeave,
        fun status isExit => absurd isExit (notExit status)⟩

/-- Dispatching a message holds the board, or ends without one. -/
theorem dispatch_between
    {start : Server n}
    (granted : ∀ resource, false ∉ start.hw.grants resource)
    (msg : Msg) :
    Keeps (Between start) (EndsHolding start) (dispatch msg) := by
  intro server between
  have dispatched := dispatch_dispatched msg server
  refine keepsAt_of_stays dispatched fun stays => ?_
  have holding := between stays.of_concat.1
  have exits :
      msg.leavesBoard = true →
      EndsHolding start (.exit 1)
        { server with dispatched := server.dispatched ++ [msg] } := by
    intro leaves
    refine ⟨fun isLeave => absurd isLeave (by decide), fun _ _ _ => ?_⟩
    have guards := holding.guards
    rw [holding.unselected leaves stays] at guards
    exact guards.noneOpened
  cases decoded : MsgType.ofCode? msg.type with
  | none =>
      exact .of_error (dispatch_unknown decoded server)
        (exits (by simp [Msg.leavesBoard, decoded]))
  | some type =>
      have handler := dispatch_known decoded server
      rw [handler] at dispatched
      unfold KeepsAt
      rw [handler]
      by_cases select : type = .selectBoard
      · subst select
        have leaves : msg.leavesBoard = true := by
          simp [Msg.leavesBoard, decoded]
        exact Between.select granted decoded (holding.unselected leaves stays)
          holding dispatched
      · cases isExit : type.exits with
        | true =>
            have isReboot : type = .fastbootReboot :=
              of_decide_eq_true isExit
            rw [isReboot]
            exact exits (by simp [Msg.leavesBoard, decoded, isExit])
        | false =>
            exact holding.handles granted decoded select isExit dispatched

/-! ## Runs -/

/-- Every callback holds the board, or ends without one. -/
theorem runCallback_between
    {start : Server n}
    (granted : ∀ resource, false ∉ start.hw.grants resource)
    (callback : Callback) :
    Keeps
      (fun loop : ServerLoop n => Between start loop.state)
      (fun reason loop => EndsHolding start reason loop.state)
      (runCallback callback) := by
  by_cases stdin : callback = .stdin
  · rw [stdin]
    refine receive_keeps (fun server input between stays => ?_)
      (fun server between => ⟨fun _ => between, nofun⟩)
      (dispatch_between granted)
    have holding := between stays
    exact ⟨⟨holding.guards.hw, holding.guards.selected,
      holding.guards.username⟩, holding.opened⟩
  · obtain ⟨program, beside⟩ := runCallback_beside stdin
    rw [beside.runs]
    intro loop between
    refine KeepsAt.within Receiver.stateOf
      (Between.of_sameSession between (beside.session loop.state)
        fun selected => ?_)
    exact beside.guarding (fun _ => nofun)
      (onlyOn_publishes selected start.hw start.username)
      (onlyOn_forwards selected callback)

/-- A whole run holds the board, or ends without one. -/
theorem watchMainLoop_between
    {start : Server n}
    (granted : ∀ resource, false ∉ start.hw.grants resource)
    (iterations : List (List Callback)) :
    Keeps
      (fun loop : ServerLoop n => Between start loop.state)
      (fun reason loop => EndsHolding start reason loop.state)
      (watchMainLoop iterations) := by
  induction iterations with
  | nil =>
      exact fun _ between => between
  | cons ready rest inductionHypothesis =>
      refine Keeps.bind (.read _) fun quitting =>
        .ite (.pure ()) (Keeps.bind (Keeps.bind ?_ fun _ => ?_)
          fun _ => inductionHypothesis)
      · intro loop between
        have session :
            RelatesAt Server.SameSession Stop.Any invokeTimers
              loop.state :=
          (invokeTimers_continues.mono
            (fun _ _ continues => continues.sameSession)
            (fun _ => id)) loop.state
        exact KeepsAt.within Receiver.stateOf
          (Between.of_sameSession between session fun selected =>
            invokeTimers_guarding (Permission.nullStops_notExit _ _)
              fun _ => nofun)
      · exact Keeps.each (runCallback_between granted) ready

/-- What a program on the hardware leaves behind, within the server. -/
theorem onHw_finalState
    (program : HwM n α)
    (server : Server n) :
    (finalState (onHw program server)).hw =
      finalState (program server.hw) := by
  unfold onHw within
  simp only [Server.hwOf]
  cases program server.hw with
  | ok value hw => rfl
  | error reason hw => rfl

/-- Closing the selected device leaves every device that was opened off. -/
theorem Holding.closes
    {start server : Server n}
    (holding : Holding start server) :
    ∀ device,
      (finalState (closeSelected server)).hw.Opened device →
      PoweredDown device (finalState (closeSelected server)).hw := by
  intro device opened
  have guards := holding.guards
  cases selected : server.selectedDevice with
  | none =>
      have same : closeSelected server = .ok () server := by
        unfold closeSelected
        rw [bind_of_ok (read_apply _ _), selected]
        rfl
      rw [selected] at guards
      rw [same] at opened
      exact absurd opened (guards.noneOpened device)
  | some mine =>
      have closes :
          (finalState (closeSelected server)).hw =
            finalState (deviceClose mine server.hw) := by
        unfold closeSelected
        rw [bind_of_ok (read_apply _ _), selected]
        exact onHw_finalState _ _
      rw [selected] at guards
      have closing :
          (onlyOn (some mine)).Respected Stop.Any start.hw
            (deviceClose mine) :=
        deviceClose_respected (fun _ _ => trivial) rfl
      have kept := KeepsAt.final ((onlyOn (some mine)).Kept start.hw)
        ((closing server.hw guards.hw).mono (fun _ => id)
          fun _ _ stopped => stopped.2)
      rw [closes] at opened ⊢
      cases kept.opened opened
      exact deviceClose_poweredDown device server.hw

/--
In every run from a fresh server: if the system refuses nothing and no message
leaves the board that an earlier message has opened, then every device that was
opened is powered down when the process ends.
-/
theorem session_poweredDown
    (devices : Fin n → Device)
    (username : CString)
    (stdin : Input)
    (hw : Hw n)
    (lockOpens flocks : List Bool)
    (iterations : List (List Callback)) :
    let start := Server.start devices username stdin hw lockOpens flocks
    let result := watchMainLoop iterations start
    (∀ resource, false ∉ hw.grants resource) →
      StaysWithBoard start.state.hw username
        (finalState result).state.dispatched →
      ∀ ended,
        endOfProcess? result = some ended →
        ∀ device, ended.hw.Opened device → PoweredDown device ended.hw := by
  intro start result granted stays ended ends
  have fresh : Between start.state start.state := by
    intro _
    refine ⟨Permission.guards_start _ devices username stdin hw lockOpens
      flocks, ?_⟩
    simp [start, Server.start]
  have run :=
    @watchMainLoop_between _ start.state granted iterations start fresh
  unfold KeepsAt at run
  cases outcome : watchMainLoop iterations start with
  | ok value final =>
      rw [outcome] at run
      simp only [result, outcome, endOfProcess?, Option.ite_none_right_eq_some,
        Option.some.injEq] at ends stays
      rw [← ends.2]
      exact (run stays).closes
  | error reason final =>
      rw [outcome] at run
      simp only [result, outcome] at ends stays
      cases reason with
      | leaveLoop =>
          cases ends
          exact (run.leaves rfl stays).closes
      | exit status =>
          cases ends
          exact fun device opened =>
            absurd opened (run.exits status rfl stays device)
      | assertFailed => cases ends
      | nullDeref pointer => cases ends
      | diverges => cases ends

/-- A session that only ever sends ordinary messages behind its first one. -/
theorem staysWithBoard_of_tail
    {hw : Hw n}
    {username : CString}
    {first : Msg}
    {rest : List Msg}
    (ordinary : ∀ msg, msg ∈ rest → msg.leavesBoard = false) :
    StaysWithBoard hw username (first :: rest) := by
  intro before msg after shape _ later member
  refine ordinary later ?_
  cases before with
  | nil =>
      cases shape
      exact member
  | cons head before =>
      cases shape
      simp [member]

/--
A board that is selected and powered on in one wakeup; its power comes on in
the next.  Further bytes and the end of the stream follow later.
-/
def poweredSession
    (devices : Fin n → Device)
    (rest : List Msg) :
    ServerLoop n :=
  Server.start devices (ascii "user")
    { fd :=
        { unread :=
            wire.encodeAll
              (selectFtdiBoard ::
                Msg.ofData MsgType.powerOn.code [] Msg.nil_fits :: rest)
          closed := true }
      script :=
        [.deliver 12, .wouldBlock, .deliver 100, .wouldBlock, .hangUp] }
    { Hw.initial devices with clock := ⟨0, pauseAfter 9⟩ }
    [] []

/-- Such a session: its first two messages, their timers, and what follows. -/
def sessionOn
    (devices : Fin n → Device)
    (rest : List Msg) :
    EStateM.Result Stop (ServerLoop n) Unit :=
  watchMainLoop [[.stdin], [], [.stdin], [.stdin]]
    (poweredSession devices rest)

/-- The same with one board. -/
def sessionWith (rest : List Msg) : EStateM.Result Stop (ServerLoop 1) Unit :=
  sessionOn (fun _ => ftdiBoard) rest

/-- One byte for the console of the board. -/
def consoleByte : Msg :=
  Msg.ofData MsgType.console.code [0x41] (by decide)

/-- A session that ends by the end of its stream leaves its board off. -/
theorem endOfStream_leavesOff :
    PoweredDown 0
      (finalState
        (closeSelected
          (finalState (sessionWith [consoleByte])).state)).hw := by
  have left :
      stopped? (sessionWith [consoleByte]) = some .leaveLoop := by
    decide +kernel
  have dispatched :
      (finalState (sessionWith [consoleByte])).state.dispatched =
        [selectFtdiBoard,
          Msg.ofData MsgType.powerOn.code [] (by decide), consoleByte] := by
    decide +kernel
  refine session_poweredDown (fun _ => ftdiBoard) (ascii "user")
    (poweredSession (fun _ : Fin 1 => ftdiBoard) [consoleByte]).state.stdin
    { Hw.initial fun _ => ftdiBoard with clock := ⟨0, pauseAfter 9⟩ }
    [] [] [[.stdin], [], [.stdin], [.stdin]]
    (fun _ => List.not_mem_nil) ?_ _
    (endOfProcess?_leaveLoop left) 0 ?_
  · refine dispatched ▸ staysWithBoard_of_tail ?_
    decide
  · rw [opened_iff]
    decide +kernel

/-- A message of a type that the dispatcher does not know. -/
def unknownMessage : Msg :=
  Msg.ofData 99 [] Msg.nil_fits

/-- A message of an unknown type ends the session with its board still on. -/
theorem unknownMessage_leavesOn :
    ∃ ended,
      endOfProcess? (sessionWith [unknownMessage]) = some ended ∧
        ended.hw.Opened 0 ∧
        lastCall (Event.powerCall 0) ended.hw.log = some true ∧
        ¬ PoweredDown 0 ended.hw := by
  have exited :
      stopped? (sessionWith [unknownMessage]) = some (.exit 1) := by
    decide +kernel
  have on :
      lastCall (Event.powerCall 0)
          (finalState (sessionWith [unknownMessage])).state.hw.log =
        some true := by
    decide +kernel
  refine ⟨_, endOfProcess?_exit exited, ?_, on, fun down => ?_⟩
  · rw [opened_iff]
    decide +kernel
  · have off := down.power (by decide +kernel) (by decide +kernel)
    rw [on] at off
    contradiction

/-- Selecting a second board leaves the first one on when the session ends. -/
example :
    let ends :=
      sessionOn
        (fun device : Fin 2 =>
          if device = 0 then
            ftdiBoard
          else
            { ftdiBoard with board := ascii "db820c" })
        [Msg.ofData MsgType.selectBoard.code (ascii "db820c" ++ [0])
          (by decide)]
    stopped? ends = some .leaveLoop ∧
      lastCall (Event.powerCall 0)
          (finalState (closeSelected (finalState ends).state)).hw.log =
        some true := by
  decide +kernel

/-! ## Closing the selected device -/

/-- What a permission allows, it allows the server while it closes a device. -/
theorem closeSelected_guards
    {permission : Permission n}
    {start server : Server n}
    (guards : permission.Guards start server) :
    permission.Guards start (finalState (closeSelected server)) := by
  have closes :
      permission.Guarding Stop.Any start (closeSelected (n := n)) := by
    intro server guards
    refine KeepsAt.read ?_
    cases selected : server.selectedDevice with
    | none => exact guards
    | some device =>
        have respected :
            permission.Respected Stop.Any start.hw (deviceClose device) :=
          deviceClose_respected (fun _ _ => trivial)
            (guards.selected device selected)
        exact onHw_guarding respected server guards
  exact KeepsAt.final (permission.Guards start)
    ((closes server guards).mono (fun _ => id) fun _ _ => And.right)

theorem closeSelected_continues :
    Relates Server.Continues Stop.Any (closeSelected (n := n)) := by
  refine .bind (.read _) fun selected => ?_
  cases selected with
  | none => exact .pure _
  | some device => exact onHw_continues _

end Cdba
