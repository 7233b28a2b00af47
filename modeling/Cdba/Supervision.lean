import Cdba.Operations
import Cdba.Selection

namespace Cdba

/-!
# Sessions under a permission

What `Operations` says of single operations, for whole sessions: a permission
that covers every board the user can select and every message that callbacks
forward is kept by each message, each timer and each callback, in any order.
-/

open Program

variable {n : Nat}

/-- Since some state, the server has only done what is permitted. -/
structure Permission.Guards
    (permission : Permission n)
    (start server : Server n) :
    Prop where
  hw : permission.Kept start.hw server.hw
  selected : permission.Covers server.selectedDevice
  username : server.username = start.username

/-- Programs of the server under which a permission goes on to be kept. -/
abbrev Permission.Guarding
    (permission : Permission n)
    (mayStop : Stop → Prop)
    (start : Server n)
    (program : ServerM n α) :
    Prop :=
  Keeps (permission.Guards start)
    (fun reason server => mayStop reason ∧ permission.Guards start server)
    program

/-- A server that was just set up has not done anything yet. -/
theorem Permission.guards_start
    (permission : Permission n)
    (devices : Fin n → Device)
    (username : CString)
    (stdin : Input)
    (hw : Hw n)
    (lockOpens flocks : List Bool) :
    permission.Guards
      (Server.start devices username stdin hw lockOpens flocks).state
      (Server.start devices username stdin hw lockOpens flocks).state where
  hw :=
    { extended := Composes.refl _
      logged := nofun
      armed := nofun
      untouched := fun _ _ => rfl
      watched := fun _ old new => absurd new (Nat.not_lt.mpr old) }
  selected := nofun
  username := rfl

section Guarding

variable {permission : Permission n} {mayStop : Stop → Prop}
variable {start : Server n}

theorem onHw_guarding
    {program : HwM n α}
    (respected : permission.Respected mayStop start.hw program) :
    permission.Guarding mayStop start (onHw program) := by
  intro server guards
  have kept := respected server.hw guards.hw
  unfold KeepsAt at kept ⊢
  unfold onHw within
  simp only [Server.hwOf]
  cases outcome : program server.hw with
  | ok value hw =>
      rw [outcome] at kept
      exact ⟨kept, guards.selected, guards.username⟩
  | error reason hw =>
      rw [outcome] at kept
      exact ⟨kept.1, kept.2, guards.selected, guards.username⟩

/-- A handler of the selected device runs on a device that is covered. -/
theorem onSelected_guarding
    {handler : Option (Fin n) → HwM n Unit}
    (respected :
      ∀ device, permission.Covers device →
        permission.Respected mayStop start.hw (handler device)) :
    permission.Guarding mayStop start (onSelected handler) :=
  fun server guards => KeepsAt.read
    (onHw_guarding (respected _ guards.selected) server guards)

/-- Changes to globals other than hardware, selection and user. -/
theorem updateGlobals_guarding
    {change : Server n → Server n}
    (hw : ∀ server, (change server).hw = server.hw)
    (selected :
      ∀ server, (change server).selectedDevice = server.selectedDevice)
    (username : ∀ server, (change server).username = server.username) :
    permission.Guarding mayStop start (update change) := by
  intro server guards
  refine .of_ok (update_apply _ _) ⟨?_, ?_, ?_⟩
  · rw [hw]
    exact guards.hw
  · rw [selected]
    exact guards.selected
  · rw [username]
    exact guards.username

/-! ## Selecting a board -/

/--
Whatever a message can make the server stop for.  The assertions only fail for
a device that was configured without a console.
-/
structure Permission.MessagesMayStop
    (permission : Permission n)
    (mayStop : Stop → Prop)
    (start : Hw n) :
    Prop where
  null : permission.NullStops mayStop start
  exits : ∀ status, mayStop (.exit status)
  asserts :
    ∀ device,
      permission.device device →
      (start.devices device).console = none →
      mayStop .assertFailed

theorem probeConnection_guarding
    (messages : permission.MessagesMayStop mayStop start.hw) :
    permission.Guarding mayStop start (probeConnection (n := n)) := by
  have globals :
      ∀ change : Server n → Server n,
        (∀ server, (change server).hw = server.hw) →
        (∀ server,
          (change server).selectedDevice = server.selectedDevice) →
        (∀ server, (change server).username = server.username) →
        permission.Guarding mayStop start (update change) :=
    fun _ => updateGlobals_guarding
  refine Keeps.bind (.read _) fun input => ?_
  split
  · exact .pure ()
  · split
    · exact globals _ (fun _ => rfl) (fun _ => rfl) (fun _ => rfl)
    · exact globals _ (fun _ => rfl) (fun _ => rfl) (fun _ => rfl)
    · exact Keeps.bind
        (globals _ (fun _ => rfl) (fun _ => rfl) (fun _ => rfl))
        fun _ => Keeps.stop fun _ guards => ⟨messages.exits _, guards⟩

theorem deviceLock_guarding
    (messages : permission.MessagesMayStop mayStop start.hw)
    (device : Fin n) :
    permission.Guarding mayStop start (deviceLock device) := by
  have globals :
      ∀ lockOpens flocks : Server n → List Bool,
        permission.Guarding mayStop start
          (update fun server =>
            { server with
              lockOpens := lockOpens server
              flocks := flocks server }) :=
    fun _ _ => updateGlobals_guarding (fun _ => rfl) (fun _ => rfl)
      (fun _ => rfl)
  have exits :
      permission.Guarding mayStop start (stop (.exit 1) : ServerM n Unit) :=
    Keeps.stop fun _ guards => ⟨messages.exits _, guards⟩
  have loop :
      ∀ flocks,
        permission.Guarding mayStop start
          (deviceLockLoop (n := n) flocks) := by
    intro flocks
    induction flocks with
    | nil => exact .pure ()
    | cons locked flocks inductionHypothesis =>
        exact Keeps.bind (globals _ _) fun _ =>
          .ite (.pure ())
            (Keeps.bind (onHw_guarding (sleep_respected _)) fun _ =>
              Keeps.bind (probeConnection_guarding messages)
                fun _ => inductionHypothesis)
  exact Keeps.bind (.read _) fun _ =>
    .ite exits
      (Keeps.bind (.read _) fun _ =>
        Keeps.bind (globals _ _) fun _ =>
          .ite (Keeps.bind (.read _) fun _ => loop _) exits)

/-- The permission covers every board that selecting can open. -/
def Permission.CoversSelectable
    (permission : Permission n)
    (start : Server n)
    (data : List UInt8) :
    Prop :=
  permission.Covers
    (accessibleBoard? start.hw start.username
      (memoryAt data start.hw.beyond))

theorem deviceOpen_guarding
    (messages : permission.MessagesMayStop mayStop start.hw)
    {board : Nat → UInt8}
    (covered :
      permission.Covers
        (accessibleBoard? start.hw start.username board)) :
    permission.Guarding mayStop start (deviceOpen (n := n) board) := by
  intro server guards
  refine KeepsAt.read ?_
  rw [accessibleBoard?_extends guards.hw.extended, guards.username]
  cases found : accessibleBoard? start.hw start.username board with
  | none => exact guards
  | some device =>
      have permitted := covered device found
      have opens :
          permission.Respected mayStop start.hw (openLocked device) :=
        Keeps.bind (openControl_respected messages.exits permitted) fun _ =>
          Keeps.bind (openConsole_respected messages.exits permitted) fun _ =>
            settle_respected messages.null permitted
      refine KeepsAt.read ?_
      split
      · rename_i missing
        have same := guards.hw.extended.config device
        rw [same.console] at missing
        exact ⟨messages.asserts device permitted missing, guards⟩
      · exact Keeps.bind (deviceLock_guarding messages device)
          (fun _ => Keeps.bind (onHw_guarding opens) fun _ => .pure _)
          server guards

/-- Selecting a board keeps a permission that covers the board. -/
theorem msgSelectBoard_guarding
    (messages : permission.MessagesMayStop mayStop start.hw)
    {data : List UInt8}
    (publishes : permission.Publishes start.hw start.username)
    (covered : permission.CoversSelectable start data) :
    permission.Guarding mayStop start (msgSelectBoard (n := n) data) := by
  intro server guards
  have beyond := guards.hw.extended.beyond
  refine KeepsAt.read ?_
  rw [beyond]
  refine (deviceOpen_guarding messages covered server guards).bind ?_
  intro opened middle outcome kept
  have chosen := deviceOpen_returns outcome
  rw [accessibleBoard?_extends guards.hw.extended, guards.username]
    at chosen
  have selects : permission.Covers opened := by
    rw [chosen]
    exact covered
  have acknowledges :
      permission.Guarding mayStop start
        (onHw (cdbaSend (n := n) .selectBoard)) :=
    onHw_guarding (send_respected (publishes.empties _))
  refine KeepsAt.update ?_
  cases opened with
  | none =>
      exact Keeps.bind
        (updateGlobals_guarding (fun _ => rfl) (fun _ => rfl)
          fun _ => rfl)
        (fun _ => acknowledges) _ ⟨kept.hw, selects, kept.username⟩
  | some device =>
      exact Keeps.bind
        (onHw_guarding (deviceFastbootOpen_respected
          (fun _ _ => messages.exits 1) publishes.present
          (selects device rfl)))
        (fun _ => acknowledges) _ ⟨kept.hw, selects, kept.username⟩

/-! ## The other messages -/

/-- The types whose handler ends the process. -/
def MsgType.exits (type : MsgType) : Bool :=
  type = .fastbootReboot

theorem msgFastbootDownload_guarding
    (nullStops : permission.NullStops mayStop start.hw)
    (refusals : start.hw.RefusalStops mayStop)
    (publishes : permission.Publishes start.hw start.username)
    (data : List UInt8) :
    permission.Guarding mayStop start
      (msgFastbootDownload (n := n) data) := by
  have payload :
      ∀ payload : Server n → List UInt8,
        permission.Guarding mayStop start
          (update fun server =>
            { server with fastbootPayload := payload server }) :=
    fun _ => updateGlobals_guarding (fun _ => rfl) (fun _ => rfl)
      (fun _ => rfl)
  refine Keeps.bind (.onlyIf (onHw_guarding (acquire_respected refusals _)))
    fun _ => Keeps.bind (payload _) fun _ => .ite ?_ (.pure ())
  intro server guards
  refine KeepsAt.read (KeepsAt.read ?_)
  exact Keeps.bind
    (onHw_guarding (deviceBoot_respected nullStops refusals guards.selected _))
    (fun _ => Keeps.bind
      (onHw_guarding (send_respected (publishes.empties _)))
      fun _ => payload _)
    server guards

/--
A message that neither selects nor exits never ends the process by `exit()`,
unless the system refuses what it asks for.
-/
theorem handleType_guarding
    (nullStops : permission.NullStops mayStop start.hw)
    (refusals : start.hw.RefusalStops mayStop)
    (publishes : permission.Publishes start.hw start.username)
    {type : MsgType}
    (other : type ≠ .selectBoard)
    (goesOn : type.exits = false)
    (data : List UInt8) :
    permission.Guarding mayStop start (handleType (n := n) type data) := by
  have acknowledges :
      ∀ type, permission.Respected (n := n) mayStop start.hw
        (cdbaSendBuf type []) :=
    fun type => send_respected (publishes.empties type)
  cases type with
  | selectBoard => exact absurd rfl other
  | console =>
      exact onSelected_guarding fun _ covered =>
        deviceWrite_respected nullStops covered data
  | hardreset => exact .pure ()
  | powerOn =>
      exact onSelected_guarding fun _ covered =>
        Keeps.bind (devicePower_respected nullStops covered _)
          fun _ => acknowledges _
  | powerOff =>
      exact onSelected_guarding fun _ covered =>
        Keeps.bind (devicePower_respected nullStops covered _)
          fun _ => acknowledges _
  | fastbootPresent => exact .pure ()
  | fastbootDownload =>
      exact msgFastbootDownload_guarding nullStops refusals publishes data
  | fastbootBoot => exact .pure ()
  | statusUpdate =>
      exact onSelected_guarding fun _ covered =>
        deviceStatusEnable_respected nullStops refusals covered
  | vbusOn =>
      exact onSelected_guarding fun _ covered =>
        deviceUsb_respected nullStops covered _
  | vbusOff =>
      exact onSelected_guarding fun _ covered =>
        deviceUsb_respected nullStops covered _
  | fastbootReboot => cases goesOn
  | sendBreak =>
      exact onSelected_guarding fun _ covered =>
        deviceSendBreak_respected nullStops covered
  | listDevices =>
      intro server guards
      refine KeepsAt.read ?_
      rw [guards.username]
      exact onHw_guarding (deviceListDevices_respected publishes)
        server guards
  | boardInfo =>
      intro server guards
      refine KeepsAt.read (KeepsAt.read ?_)
      rw [guards.username]
      exact onHw_guarding (deviceInfo_respected publishes _ _)
        server guards
  | fastbootContinue =>
      exact onSelected_guarding fun _ covered =>
        Keeps.bind (deviceFastbootContinue_respected nullStops covered)
          fun _ => acknowledges _
  | keyPress =>
      exact onSelected_guarding fun _ covered =>
        msgKeyPress_respected nullStops covered data

/-- Every message keeps a permission that covers what it may select. -/
theorem dispatch_guarding
    (messages : permission.MessagesMayStop mayStop start.hw)
    (publishes : permission.Publishes start.hw start.username)
    (selectable : ∀ data, permission.CoversSelectable start data)
    (msg : Msg) :
    permission.Guarding mayStop start (dispatch (n := n) msg) := by
  have exits :
      permission.Guarding mayStop start (stop (.exit 1) : ServerM n Unit) :=
    Keeps.stop fun _ guards => ⟨messages.exits _, guards⟩
  refine Keeps.bind
    (updateGlobals_guarding (fun _ => rfl) (fun _ => rfl) fun _ => rfl)
    fun _ => ?_
  cases MsgType.ofCode? msg.type with
  | none => exact exits
  | some type =>
      cases isExit : type.exits with
      | true =>
          have isReboot : type = .fastbootReboot := of_decide_eq_true isExit
          rw [isReboot]
          exact exits
      | false =>
          by_cases select : type = .selectBoard
          · rw [select]
            exact msgSelectBoard_guarding messages publishes (selectable _)
          · exact handleType_guarding messages.null
              (fun _ _ => messages.exits 1) publishes select isExit _

/-! ## Timers and callbacks -/

/-- Timers only work on devices that are permitted, since only those armed any. -/
theorem invokeTimers_guarding
    (nullStops : permission.NullStops mayStop start.hw)
    (mayDiverge : mayStop .diverges) :
    permission.Guarding mayStop start (invokeTimers (n := n)) := by
  have fires :
      ∀ cb : TimerCallback n,
        permission.Covers cb.device? →
        permission.Guarding mayStop start (fireTimer cb) := by
    intro cb covered
    cases cb with
    | deviceTick device =>
        exact onHw_guarding
          (deviceTick_respected nullStops (covered device rfl))
    | msgKeyRelease key =>
        exact onSelected_guarding fun _ covered =>
          deviceKey_respected nullStops covered _ _
    | cdbAssistPrintStatus device =>
        exact onHw_guarding (operate_respected rfl (covered device rfl))
    | qcomltDbgRequestStatus device =>
        exact onHw_guarding (watchTimerAdd_respected covered)
  refine Keeps.bind (onHw_guarding gettimeofday_respected) fun now =>
    Keeps.bind (.read _) fun queue =>
      watchTimerInvokeLoop_keeps ?_ (fun _ guards => ⟨mayDiverge, guards⟩)
        _ _
  intro server position timer guards found _
  refine (fires timer.cb
    (guards.hw.armed timer (List.mem_of_getElem? found)) server
      guards).bind ?_
  intro _ fired _ kept
  have fewer :
      (fired.hw.timers.eraseIdx position).Sublist fired.hw.timers :=
    List.eraseIdx_sublist _ _
  refine .of_ok (update_apply _ _) ⟨
    { extended :=
        { logged := kept.hw.extended.logged
          elapsed := kept.hw.extended.elapsed
          config := kept.hw.extended.config
          beyond := kept.hw.extended.beyond
          grants := kept.hw.extended.grants }
      logged := kept.hw.logged
      armed := fun timer member =>
        kept.hw.armed timer (fewer.subset member)
      untouched := kept.hw.untouched
      watched := kept.hw.watched },
    kept.selected, kept.username⟩

/-- What a callback passes on of what its descriptor delivers. -/
def Callback.forwards : Callback → List (MsgType × List UInt8)
  | .consoleData (some bytes) => [(.console, bytes)]
  | .statusData (some bytes) =>
      if bytes ≠ [] then [(.statusUpdate, bytes)] else []
  | .controlData (some lines) =>
      lines.map fun line => (.statusUpdate, line)
  | _ => []

/-- What a callback forwards from a descriptor may be sent. -/
def Permission.Forwards
    (permission : Permission n) :
    Callback → Prop
  | .consoleData (some bytes) => permission.send .console bytes
  | .statusData (some bytes) => permission.send .statusUpdate bytes
  | .controlData (some lines) =>
      ∀ line, line ∈ lines → permission.send .statusUpdate line
  | _ => True

/-- What holds of the server holds beside its receive buffer. -/
theorem onState_guarding
    {program : ServerM n Unit}
    (guarding : permission.Guarding mayStop start program) :
    Keeps
      (fun loop : ServerLoop n => permission.Guards start loop.state)
      (fun reason loop =>
        mayStop reason ∧ permission.Guards start loop.state)
      (within Receiver.stateOf program) :=
  fun loop guards => KeepsAt.within Receiver.stateOf
    (guarding loop.state guards)

/-- Neither the selection nor the record of dispatched messages changes. -/
structure Server.SameSession (first last : Server n) : Prop where
  selected : last.selectedDevice = first.selectedDevice
  dispatched : last.dispatched = first.dispatched

theorem Server.Continues.sameSession
    {first last : Server n}
    (continues : first.Continues last) :
    first.SameSession last where
  selected := continues.selected
  dispatched := by
    obtain ⟨_, handled, _⟩ := continues.handles
    exact handled.trans (List.append_nil _)

/--
Every callback but standard input works beside the receive buffer.  It leaves
the session alone and keeps every permission that covers what it forwards.
-/
structure BesideSession (callback : Callback) (program : ServerM n Unit) :
    Prop where
  runs : runCallback callback = within Receiver.stateOf program
  session : Relates Server.SameSession Stop.Any program
  guarding :
    ∀ {permission : Permission n} {mayStop : Stop → Prop}
      {start : Server n},
      mayStop .leaveLoop →
      permission.Publishes start.hw start.username →
      permission.Forwards callback →
      permission.Guarding mayStop start program

theorem onHw_sameSession
    (program : HwM n α) :
    Relates Server.SameSession Stop.Any (onHw program) :=
  (onHw_continues program).mono
    (fun _ _ continues => continues.sameSession) (fun _ => id)

/-- What a descriptor delivered is forwarded, or the loop is left. -/
theorem forwardData_beside
    {callback : Callback}
    {forward : α → HwM n Unit}
    {result : Option α}
    (runs :
      runCallback callback =
        within Receiver.stateOf (forwardData forward result))
    (respected :
      ∀ {permission : Permission n} {mayStop : Stop → Prop}
        {start : Hw n} (value : α),
        result = some value →
        permission.Forwards callback →
        permission.Respected mayStop start (forward value)) :
    BesideSession callback (forwardData forward result) where
  runs := runs
  session := by
    cases result with
    | none => exact fun server => ⟨⟨rfl, rfl⟩, fun _ _ => trivial⟩
    | some value => exact onHw_sameSession _
  guarding := by
    intro permission mayStop start leaves _ forwards
    cases result with
    | none => exact Keeps.stop fun _ guards => ⟨leaves, guards⟩
    | some value => exact onHw_guarding (respected value rfl forwards)

theorem runCallback_beside
    {callback : Callback}
    (other : callback ≠ .stdin) :
    ∃ program : ServerM n Unit, BesideSession callback program := by
  cases callback with
  | stdin => exact absurd rfl other
  | udev index event =>
      refine ⟨onHw (handleUdevEvent index event),
        { runs := rfl
          session := onHw_sameSession _
          guarding := ?_ }⟩
      intro permission mayStop start _ publishes _
      exact onHw_guarding (handleUdevEvent_respected publishes.present _ _)
  | consoleData bytes =>
      refine ⟨_, forwardData_beside rfl ?_⟩
      rintro permission mayStop start value rfl forwards
      exact send_respected forwards
  | statusData bytes =>
      refine ⟨_, forwardData_beside rfl ?_⟩
      rintro permission mayStop start value rfl forwards
      exact .onlyIf (send_respected forwards)
  | controlData lines =>
      refine ⟨_, forwardData_beside rfl ?_⟩
      rintro permission mayStop start value rfl forwards hw kept
      refine KeepsAt.each ?_ kept
      intro before line after middle shape _ kept
      exact send_respected (forwards line (by simp [shape])) middle kept
  | sigpipe =>
      refine ⟨watchQuit,
        { runs := rfl
          session := .update fun _ => ⟨rfl, rfl⟩
          guarding := ?_ }⟩
      intro permission mayStop start _ _ _
      exact updateGlobals_guarding (fun _ => rfl) (fun _ => rfl)
        fun _ => rfl

end Guarding

/-! ## Whole runs -/

/-- The permission covers whatever the callbacks of a run forward. -/
def Permission.ForwardsAll
    (permission : Permission n)
    (iterations : List (List Callback)) :
    Prop :=
  ∀ ready, ready ∈ iterations →
    ∀ callback, callback ∈ ready → permission.Forwards callback

/-- Any message may be forwarded when any message is permitted. -/
theorem everything_forwardsAll
    (iterations : List (List Callback)) :
    (Permission.everything (n := n)).ForwardsAll iterations := by
  intro _ _ callback _
  unfold Permission.Forwards
  split <;> simp [Permission.everything]

/--
In every run, whatever its messages, timers and callbacks are, the server only
does what is permitted, if the user's boards and what callbacks forward are.
-/
theorem watchMainLoop_guarding
    {permission : Permission n}
    {mayStop : Stop → Prop}
    {start : Server n}
    (messages : permission.MessagesMayStop mayStop start.hw)
    (leaves : mayStop .leaveLoop)
    (mayDiverge : mayStop .diverges)
    (publishes : permission.Publishes start.hw start.username)
    (selectable : ∀ data, permission.CoversSelectable start data)
    {iterations : List (List Callback)}
    (forwards : permission.ForwardsAll iterations) :
    Keeps
      (fun loop : ServerLoop n => permission.Guards start loop.state)
      (fun reason loop =>
        mayStop reason ∧ permission.Guards start loop.state)
      (watchMainLoop iterations) := by
  have callbacks :
      ∀ callback, permission.Forwards callback →
        Keeps (fun loop : ServerLoop n => permission.Guards start loop.state)
          (fun reason loop =>
            mayStop reason ∧ permission.Guards start loop.state)
          (runCallback callback) := by
    intro callback forwarded
    by_cases stdin : callback = .stdin
    · rw [stdin]
      refine receive_keeps (fun server input guards => ?_)
        (fun _ guards => ⟨leaves, guards⟩)
        (dispatch_guarding messages publishes selectable)
      exact ⟨guards.hw, guards.selected, guards.username⟩
    · obtain ⟨program, beside⟩ := runCallback_beside stdin
      rw [beside.runs]
      exact onState_guarding (beside.guarding leaves publishes forwarded)
  induction iterations with
  | nil =>
      exact fun _ guards => guards
  | cons ready rest inductionHypothesis =>
      have later := inductionHypothesis fun ready member =>
        forwards ready (List.mem_cons_of_mem _ member)
      have now := forwards ready List.mem_cons_self
      refine Keeps.bind (.read _) fun quitting =>
        .ite (.pure ()) (Keeps.bind ?_ fun _ => later)
      refine Keeps.bind (onState_guarding
        (invokeTimers_guarding messages.null mayDiverge)) fun _ => ?_
      intro loop guards
      refine KeepsAt.each ?_ guards
      intro before callback after middle shape _ guards
      exact callbacks callback (now callback (by simp [shape])) middle guards

/-- The server may stop for any reason. -/
theorem Permission.messagesMayStop_any
    (permission : Permission n)
    (start : Hw n) :
    permission.MessagesMayStop Stop.Any start where
  null := fun _ _ => trivial
  exits := fun _ => trivial
  asserts := fun _ _ _ => trivial

/-- What is permitted is all that a run has done, however it ends. -/
theorem watchMainLoop_guards
    {permission : Permission n}
    {start : Server n}
    (publishes : permission.Publishes start.hw start.username)
    (selectable : ∀ data, permission.CoversSelectable start data)
    {iterations : List (List Callback)}
    (forwards : permission.ForwardsAll iterations)
    {loop : ServerLoop n}
    (guards : permission.Guards start loop.state) :
    permission.Guards start
      (finalState (watchMainLoop iterations loop)).state := by
  have run := watchMainLoop_guarding (permission.messagesMayStop_any start.hw)
    trivial trivial publishes selectable forwards loop guards
  exact KeepsAt.final
    (fun loop : ServerLoop n => permission.Guards start loop.state)
    (run.mono (fun _ => id) fun _ _ => And.right)

theorem everything_guards
    (server : Server n) :
    Permission.everything.Guards server server where
  hw := everything_kept _
  selected := fun _ _ => trivial
  username := rfl

/-! ## Permissions for what is selected -/

/-- The permission covers whatever board the messages select. -/
def Permission.CoversSelected
    (permission : Permission n)
    (start : Server n)
    (messages : List Msg) :
    Prop :=
  ∀ msg, msg ∈ messages →
    MsgType.ofCode? msg.type = some .selectBoard →
    permission.CoversSelectable start msg.data

/-- A message keeps a permission that covers what it selects, if it does. -/
theorem dispatch_guards
    {permission : Permission n}
    {start server : Server n}
    (publishes : permission.Publishes start.hw start.username)
    {msg : Msg}
    (covered : permission.CoversSelected start [msg])
    (guards : permission.Guards start server) :
    permission.Guards start (finalState (dispatch msg server)) := by
  have messages := permission.messagesMayStop_any start.hw
  let recorded : Server n :=
    { server with dispatched := server.dispatched ++ [msg] }
  have guards' : permission.Guards start recorded :=
    ⟨guards.hw, guards.selected, guards.username⟩
  have keeps :
      ∀ program : ServerM n Unit,
        permission.Guarding Stop.Any start program →
        permission.Guards start (finalState (program recorded)) :=
    fun program guarding => KeepsAt.final (permission.Guards start)
      ((guarding recorded guards').mono (fun _ => id) fun _ _ => And.right)
  cases decoded : MsgType.ofCode? msg.type with
  | none =>
      rw [dispatch_unknown decoded]
      exact guards'
  | some type =>
      rw [dispatch_known decoded]
      by_cases select : type = .selectBoard
      · subst select
        exact keeps _ (msgSelectBoard_guarding messages publishes
          (covered msg (List.mem_singleton.mpr rfl) decoded))
      · cases isExit : type.exits with
        | true =>
            have reboot : type = .fastbootReboot := of_decide_eq_true isExit
            rw [reboot]
            exact guards'
        | false =>
            exact keeps _ (handleType_guarding messages.null
              (fun _ _ => messages.exits 1) publishes select isExit msg.data)

/-- If the permission covers what was selected, it was kept. -/
def GuardsSelected
    (permission : Permission n)
    (start server : Server n) :
    Prop :=
  permission.CoversSelected start server.dispatched →
    permission.Guards start server

/-- What happens beside the messages keeps what it kept. -/
theorem GuardsSelected.beside
    {permission : Permission n}
    {start server : Server n}
    {program : ServerM n α}
    (holds : GuardsSelected permission start server)
    (same : (finalState (program server)).dispatched = server.dispatched)
    (guarding : permission.Guarding Stop.Any start program) :
    GuardsSelected permission start (finalState (program server)) := by
  intro covered
  rw [same] at covered
  exact KeepsAt.final (permission.Guards start)
    ((guarding server (holds covered)).mono (fun _ => id)
      fun _ _ => And.right)

/-- Every run keeps a permission that covers what its messages select. -/
theorem watchMainLoop_guardsSelected
    {permission : Permission n}
    {start : Server n}
    (publishes : permission.Publishes start.hw start.username)
    {iterations : List (List Callback)}
    (forwards : permission.ForwardsAll iterations) :
    Keeps
      (fun loop : ServerLoop n => GuardsSelected permission start loop.state)
      (fun _ loop => GuardsSelected permission start loop.state)
      (watchMainLoop iterations) := by
  have beside :
      ∀ program : ServerM n Unit,
        Relates Server.SameSession Stop.Any program →
        permission.Guarding Stop.Any start program →
        Keeps
          (fun loop : ServerLoop n =>
            GuardsSelected permission start loop.state)
          (fun _ loop => GuardsSelected permission start loop.state)
          (within Receiver.stateOf program) := by
    intro program session guarding loop holds
    exact KeepsAt.within Receiver.stateOf (.of_final
      (holds.beside (session loop.state).related.dispatched guarding))
  have callbacks :
      ∀ callback, permission.Forwards callback →
        Keeps
          (fun loop : ServerLoop n =>
            GuardsSelected permission start loop.state)
          (fun _ loop => GuardsSelected permission start loop.state)
          (runCallback callback) := by
    intro callback forwarded
    by_cases stdin : callback = .stdin
    · rw [stdin]
      refine receive_keeps (fun server input holds => ?_) (fun _ => id) ?_
      · intro covered
        have guards := holds covered
        exact ⟨guards.hw, guards.selected, guards.username⟩
      · intro msg server holds
        refine .of_final fun covered => ?_
        obtain ⟨_, handled, _⟩ := (dispatch_handles msg server).related
        have dispatched :
            (finalState (dispatch msg server)).dispatched =
              server.dispatched ++ [msg] :=
          handled
        rw [dispatched] at covered
        refine dispatch_guards publishes ?_ (holds ?_)
        · exact fun one member =>
            covered one (List.mem_append_right _ member)
        · exact fun one member =>
            covered one (List.mem_append_left _ member)
    · obtain ⟨program, besideSession⟩ := runCallback_beside stdin
      rw [besideSession.runs]
      exact beside program besideSession.session
        (besideSession.guarding trivial publishes forwarded)
  have timers :=
    beside invokeTimers
      (invokeTimers_continues.mono
        (fun _ _ continues => continues.sameSession) fun _ => id)
      (invokeTimers_guarding (fun _ _ => trivial) trivial)
  induction iterations with
  | nil =>
      exact fun _ holds => holds
  | cons ready rest inductionHypothesis =>
      have later := inductionHypothesis fun ready member =>
        forwards ready (List.mem_cons_of_mem _ member)
      have now := forwards ready List.mem_cons_self
      refine Keeps.bind (.read _) fun quitting =>
        .ite (.pure ()) (Keeps.bind ?_ fun _ => later)
      refine Keeps.bind timers fun _ loop holds => ?_
      refine KeepsAt.each ?_ holds
      intro before callback after middle shape _ holds
      exact callbacks callback (now callback (by simp [shape])) middle holds

end Cdba
