import Cdba.Frame

namespace Cdba

/-!
# What messages do to a session

The frame facts of the whole server: how far handlers and callbacks change the
selection, the record of dispatched messages and standard input.  The byte
stream is accounted for over whole runs of the main loop.
-/

open Program

variable {n : Nat}

/-- Later state of the server, as far as the hardware and the user go. -/
structure Server.Extends (first last : Server n) : Prop where
  hw : first.hw.Extends last.hw
  username : last.username = first.username

/-- The standard input of the server and what was taken off it. -/
def stdinJournal : Journal (Server n) where
  input := Server.stdinOf
  handled := Server.dispatched
  probed := Server.probed
  handled_set := fun _ _ => rfl
  probed_set := fun _ _ => rfl

/--
Nothing was selected or dispatched in between; waiting for a lock may have
taken bytes off standard input.
-/
structure Server.Continues (first last : Server n) : Prop where
  selected : last.selectedDevice = first.selectedDevice
  quit : last.quitInvoked = first.quitInvoked
  handles : stdinJournal.Handles [] first last

theorem Server.Continues.of_same
    {first last : Server n}
    (selected : last.selectedDevice = first.selectedDevice)
    (quit : last.quitInvoked = first.quitInvoked)
    (dispatched : last.dispatched = first.dispatched)
    (probed : last.probed = first.probed)
    (stdin : last.stdin = first.stdin) :
    first.Continues last where
  selected := selected
  quit := quit
  handles :=
    ⟨[], by simp [stdinJournal, dispatched], by simp [stdinJournal, probed],
      by simp [Journal.unread, stdinJournal, Server.stdinOf, stdin]⟩

/-- What opening a board does to the server: both of the above. -/
structure Server.Waits (first last : Server n) : Prop where
  extended : first.Extends last
  continued : first.Continues last

instance Server.Extends.composes :
    Composes (Server.Extends (n := n)) where
  refl := fun server => ⟨Composes.refl server.hw, rfl⟩
  trans := fun firstStep laterStep =>
    { hw := Composes.trans firstStep.hw laterStep.hw
      username := laterStep.username.trans firstStep.username }

instance Server.Continues.composes :
    Composes (Server.Continues (n := n)) where
  refl := fun server => ⟨rfl, rfl, Composes.refl server⟩
  trans := fun firstStep laterStep =>
    { selected := laterStep.selected.trans firstStep.selected
      quit := laterStep.quit.trans firstStep.quit
      handles := Composes.trans firstStep.handles laterStep.handles }

instance Server.Waits.composes :
    Composes (Server.Waits (n := n)) where
  refl := fun server => ⟨Composes.refl server, Composes.refl server⟩
  trans := fun firstStep laterStep =>
    { extended := Composes.trans firstStep.extended laterStep.extended
      continued := Composes.trans firstStep.continued laterStep.continued }

/-- Any reason to stop. -/
abbrev Stop.Any (_ : Stop) : Prop :=
  True

/-! ## Programs on one part of the server -/

theorem onHw_extends
    {program : HwM n α}
    (extending : Extending program) :
    Relates Server.Extends Stop.NotNullDevice (onHw program) :=
  .within (fun _ _ step => ⟨step, rfl⟩) extending

/-- Whatever happens to the hardware, the session goes on as it was. -/
theorem onHw_continues
    (program : HwM n α) :
    Relates Server.Continues Stop.Any (onHw program) :=
  have anything : Relates (fun _ _ => True) Stop.Any program :=
    fun _ => ⟨trivial, fun _ _ => trivial⟩
  .within (fun _ _ _ => .of_same rfl rfl rfl rfl rfl) anything

theorem onHw_waits
    {program : HwM n α}
    (extending : Extending program) :
    Relates Server.Waits Stop.NotNullDevice (onHw program) :=
  .within
    (fun _ _ step =>
      { extended := ⟨step, rfl⟩
        continued := .of_same rfl rfl rfl rfl rfl })
    extending

theorem onSelected_continues
    (handler : Option (Fin n) → HwM n Unit) :
    Relates Server.Continues Stop.Any (onSelected handler) :=
  .bind (.read _) fun _ => onHw_continues _

/-- A handler of the selected device runs on the selection of that moment. -/
theorem onSelected_apply
    (handler : Option (Fin n) → HwM n Unit)
    (server : Server n) :
    onSelected handler server =
      onHw (handler server.selectedDevice) server :=
  rfl

theorem onSelected_some
    {server : Server n}
    {device : Fin n}
    (handler : Option (Fin n) → HwM n Unit)
    (selected : server.selectedDevice = some device) :
    onSelected handler server = onHw (handler (some device)) server := by
  rw [onSelected_apply, selected]

theorem onHw_of_ok
    {program : HwM n α}
    {server : Server n}
    {value : α}
    {hw : Hw n}
    (result : program server.hw = .ok value hw) :
    onHw program server = .ok value { server with hw := hw } := by
  simp only [onHw, within, Server.hwOf, result]

/-- A program that starts with a successful one goes on from its state. -/
theorem onHw_bind_of_ok
    {first : HwM n α}
    {later : α → HwM n β}
    {server : Server n}
    {value : α}
    {hw : Hw n}
    (result : first server.hw = .ok value hw) :
    onHw (first >>= later) server =
      onHw (later value) { server with hw := hw } := by
  simp only [onHw, within, Server.hwOf, bind_of_ok result]

/-- Updates of other globals leave hardware and session alone. -/
theorem updateGlobals_waits
    {change : Server n → Server n}
    (same :
      ∀ server, ∃ lockOpens flocks payload,
        change server =
          { server with
            lockOpens := lockOpens
            flocks := flocks
            fastbootPayload := payload }) :
    Relates Server.Waits Stop.NotNullDevice
      (update change : ServerM n Unit) := by
  refine .update fun server => ?_
  obtain ⟨lockOpens, flocks, payload, shape⟩ := same server
  rw [shape]
  exact
    { extended := ⟨Composes.refl _, rfl⟩
      continued := .of_same rfl rfl rfl rfl rfl }

/-! ## Opening a board -/

/-- The probe takes at most one byte off standard input. -/
theorem probeConnection_waits :
    Relates Server.Waits Stop.NotNullDevice (probeConnection (n := n)) := by
  intro server
  refine (Relates.read _ server).bind ?_
  intro input middle outcome
  cases outcome
  have waits :
      ∀ (fd : Descriptor) (script : List ReadChoice) (bytes : List UInt8),
        server.stdin.fd.unread = bytes ++ fd.unread →
        server.Waits
          { server with
            stdin := ⟨fd, script⟩
            probed := server.probed ++ bytes } := by
    intro fd script bytes taken
    exact
      { extended := ⟨Composes.refl _, rfl⟩
        continued :=
          ⟨rfl, rfl, bytes, (List.append_nil _).symm, rfl, taken⟩ }
  cases scripted : server.stdin.script with
  | nil =>
      exact Relates.pure () server
  | cons choice script =>
      have unchanged := Descriptor.read_unchanged server.stdin.fd choice 1
      simp only
      split
      · rename_i bytes fd result
        obtain ⟨_, _, taken, _⟩ := Descriptor.read_data result
        exact ⟨waits fd script bytes taken, by simp [stopped?]⟩
      · rename_i errno fd result
        simp only [result] at unchanged
        have same := unchanged (by simp)
        have step := waits fd script [] (by simp [same])
        rw [List.append_nil] at step
        exact ⟨step, by simp [stopped?]⟩
      · rename_i fd result
        simp only [result] at unchanged
        have same := unchanged (by simp)
        have step := waits fd script [] (by simp [same])
        rw [List.append_nil] at step
        refine RelatesAt.bind ⟨step, by simp [stopped?]⟩ ?_
        exact fun _ middle _ => Relates.stop (by decide) middle

theorem deviceLockLoop_waits
    (flocks : List Bool) :
    Relates Server.Waits Stop.NotNullDevice
      (deviceLockLoop (n := n) flocks) := by
  induction flocks with
  | nil =>
      exact .pure _
  | cons locked flocks inductionHypothesis =>
      exact .bind (updateGlobals_waits fun _ => ⟨_, _, _, rfl⟩) fun _ =>
        .ite (.pure _)
          (.bind (onHw_waits (sleep_extends _)) fun _ =>
            .bind probeConnection_waits fun _ => inductionHypothesis)

theorem deviceLock_waits
    (device : Fin n) :
    Relates Server.Waits Stop.NotNullDevice (deviceLock device) :=
  .bind (.read _) fun _ =>
    .ite (.stop (by decide))
      (.bind (.read _) fun _ =>
        .bind (updateGlobals_waits fun _ => ⟨_, _, _, rfl⟩) fun _ =>
          .ite
            (.bind (.read _) fun _ => deviceLockLoop_waits _)
            (.stop (by decide)))

/-- Opening a board may wait for its lock, but leaves the session as it was. -/
theorem deviceOpen_waits
    (board : Nat → UInt8) :
    Relates Server.Waits Stop.NotNullDevice
      (deviceOpen (n := n) board) := by
  refine .bind (.read _) fun found => ?_
  cases found with
  | none => exact .pure _
  | some device =>
      exact .bind (.read _) fun _ =>
        .ite (.stop (by decide))
          (.bind (deviceLock_waits _) fun _ =>
            .bind (onHw_waits (openLocked_extends _)) fun _ => .pure _)

/-- `device_open` returns the board that was asked for, or none. -/
theorem deviceOpen_returns
    {board : Nat → UInt8}
    {server final : Server n}
    {opened : Option (Fin n)}
    (result : deviceOpen board server = .ok opened final) :
    opened = accessibleBoard? server.hw server.username board := by
  obtain ⟨found, _, readResult, result⟩ := bind_eq_ok result
  cases readResult
  dsimp only at result
  cases found : accessibleBoard? server.hw server.username board with
  | none =>
      rw [found] at result
      cases result
      rfl
  | some device =>
      rw [found] at result
      obtain ⟨console, _, readResult, result⟩ := bind_eq_ok result
      cases readResult
      split at result
      · cases result
      · obtain ⟨_, _, _, result⟩ := bind_eq_ok result
        obtain ⟨_, _, _, result⟩ := bind_eq_ok result
        cases result
        rfl

/-! ## Dispatching -/

theorem msgSelectBoard_extends
    (data : List UInt8) :
    Relates Server.Extends Stop.NotNullDevice
      (msgSelectBoard (n := n) data) := by
  have opens := fun board =>
    (deviceOpen_waits (n := n) board).mono
      (fun _ _ waits => waits.extended) (fun _ => id)
  have globals :
      ∀ change : Server n → Server n,
        (∀ server : Server n, server.Extends (change server)) →
        Relates Server.Extends Stop.NotNullDevice
          (update change : ServerM n Unit) :=
    fun _ => .update
  refine .bind (.read _) fun _ => .bind (opens _) fun device =>
    .bind (globals _ fun _ => ⟨Composes.refl _, rfl⟩) fun _ => ?_
  cases device with
  | none =>
      exact .bind (globals _ fun _ => ⟨Composes.refl _, rfl⟩) fun _ =>
        onHw_extends (emit_extends _)
  | some device =>
      exact .bind (onHw_extends (deviceFastbootOpen_extends _)) fun _ =>
        onHw_extends (emit_extends _)

/-- Selecting a board takes at most the bytes of the probes off the input. -/
theorem msgSelectBoard_handles
    (data : List UInt8) :
    Relates (stdinJournal.Handles []) Stop.Any
      (msgSelectBoard (n := n) data) := by
  have opens :
      ∀ board,
        Relates (stdinJournal.Handles []) Stop.Any
          (deviceOpen (n := n) board) :=
    fun board =>
      (deviceOpen_waits (n := n) board).mono
        (fun _ _ waits => waits.continued.handles)
        (fun _ _ => trivial)
  have hw := fun program : HwM n Unit =>
    (onHw_continues program).mono
      (fun _ _ continues => continues.handles) (fun _ => id)
  have same :
      ∀ (change : Server n → Server n),
        (∀ server, (change server).dispatched = server.dispatched) →
        (∀ server, (change server).probed = server.probed) →
        (∀ server, (change server).stdin = server.stdin) →
        Relates (stdinJournal.Handles []) Stop.Any
          (update change : ServerM n Unit) :=
    fun change dispatched probed stdin => .update fun server =>
      ⟨[], by simp [stdinJournal, dispatched],
        by simp [stdinJournal, probed],
        by simp [Journal.unread, stdinJournal, Server.stdinOf, stdin]⟩
  refine .bind (.read _) fun _ => .bind (opens _) fun device =>
    .bind (same _ (fun _ => rfl) (fun _ => rfl) (fun _ => rfl))
      fun _ => ?_
  cases device with
  | none =>
      exact .bind
        (same _ (fun _ => rfl) (fun _ => rfl) (fun _ => rfl))
        fun _ => hw _
  | some device =>
      exact .bind (hw _) fun _ => hw _

/-- Every other message leaves the selection and standard input alone. -/
theorem handleType_continues
    {type : MsgType}
    (other : type ≠ .selectBoard)
    (data : List UInt8) :
    Relates Server.Continues Stop.Any (handleType (n := n) type data) := by
  have globals :
      ∀ payload : Server n → List UInt8,
        Relates Server.Continues Stop.Any
          (update fun server : Server n =>
            { server with fastbootPayload := payload server }) :=
    fun _ => .update fun _ => .of_same rfl rfl rfl rfl rfl
  cases type with
  | selectBoard => exact absurd rfl other
  | console => exact onSelected_continues _
  | hardreset => exact .pure _
  | powerOn => exact onSelected_continues _
  | powerOff => exact onSelected_continues _
  | fastbootPresent => exact .pure _
  | fastbootDownload =>
      exact .bind (.onlyIf (onHw_continues _)) fun _ =>
        .bind (globals _) fun _ =>
          .ite
            (.bind (.read _) fun _ => .bind (.read _) fun _ =>
              .bind (onHw_continues _) fun _ =>
                .bind (onHw_continues _) fun _ => globals _)
            (.pure _)
  | fastbootBoot => exact .pure _
  | statusUpdate => exact onSelected_continues _
  | vbusOn => exact onSelected_continues _
  | vbusOff => exact onSelected_continues _
  | fastbootReboot => exact .stop trivial
  | sendBreak => exact onSelected_continues _
  | listDevices => exact .bind (.read _) fun _ => onHw_continues _
  | boardInfo =>
      exact .bind (.read _) fun _ => .bind (.read _) fun _ =>
        onHw_continues _
  | fastbootContinue => exact onSelected_continues _
  | keyPress => exact onSelected_continues _

/-- A message is recorded; its handler runs if its type is known. -/
theorem dispatch_known
    {msg : Msg}
    {type : MsgType}
    (decoded : MsgType.ofCode? msg.type = some type)
    (server : Server n) :
    dispatch msg server =
      handleType type msg.data
        { server with dispatched := server.dispatched ++ [msg] } := by
  rw [dispatch, bind_of_ok (update_apply _ _), decoded]

theorem dispatch_unknown
    {msg : Msg}
    (decoded : MsgType.ofCode? msg.type = none)
    (server : Server n) :
    dispatch msg server =
      .error (.exit 1)
        { server with dispatched := server.dispatched ++ [msg] } := by
  rw [dispatch, bind_of_ok (update_apply _ _), decoded]
  rfl

/-- Dispatching a message records it and takes only probed bytes off the input. -/
theorem dispatch_handles
    (msg : Msg) :
    Relates (stdinJournal.Handles [msg]) Stop.Any
      (dispatch (n := n) msg) := by
  intro server
  have recorded :
      stdinJournal.Handles [msg] server
        { server with dispatched := server.dispatched ++ [msg] } :=
    ⟨[], rfl, (List.append_nil _).symm, rfl⟩
  refine ⟨?_, fun _ _ => trivial⟩
  cases decoded : MsgType.ofCode? msg.type with
  | none =>
      rw [dispatch_unknown decoded]
      exact recorded
  | some type =>
      have handler :
          Relates (stdinJournal.Handles []) Stop.Any
            (handleType (n := n) type msg.data) := by
        by_cases select : type = .selectBoard
        · rw [select]
          exact msgSelectBoard_handles msg.data
        · exact (handleType_continues select msg.data).mono
            (fun _ _ continues => continues.handles) (fun _ => id)
      rw [dispatch_known decoded]
      exact recorded.trans (handler _).related

/-! ## Whole runs -/

/-- A callback accounts for the stream; only one of them reads it. -/
theorem runCallback_accounts
    (callback : Callback) :
    Relates stdinJournal.Accounts Stop.Any
      (runCallback (n := n) callback) := by
  have others :
      ∀ program : ServerM n Unit,
        Relates Server.Continues Stop.Any program →
        Relates stdinJournal.Accounts Stop.Any
          (within Receiver.stateOf program) :=
    fun _ continues => .within
      (fun _ _ step => Journal.Accounts.of_handles rfl step.handles)
      continues
  have forwards :
      ∀ {α : Type} (forward : α → HwM n Unit) (result : Option α),
        Relates Server.Continues Stop.Any
          (forwardData forward result) := by
    intro α forward result
    cases result with
    | none => exact .stop trivial
    | some value => exact onHw_continues _
  cases callback with
  | stdin =>
      have receives :
          Relates stdinJournal.Accounts Stop.Any
            (receive (stdinJournal (n := n)).input .leaveLoop dispatch) :=
        Journal.receive_accounts trivial dispatch_handles
      exact receives
  | udev index event => exact others _ (onHw_continues _)
  | consoleData bytes => exact others _ (forwards _ _)
  | statusData bytes => exact others _ (forwards _ _)
  | controlData lines => exact others _ (forwards _ _)
  | sigpipe =>
      have quits :
          Relates (stdinJournal.Handles []) Stop.Any
            (watchQuit (n := n)) :=
        .update fun _ => ⟨[], (List.append_nil _).symm,
          (List.append_nil _).symm, rfl⟩
      exact quits.within
        fun _ _ step => Journal.Accounts.of_handles rfl step

/-- The callbacks of timers leave the session as it was. -/
theorem invokeTimers_continues :
    Relates Server.Continues Stop.Any (invokeTimers (n := n)) := by
  refine watchTimerInvoke_relates (onHw_continues _) (fun cb => ?_)
    (fun _ _ => .of_same rfl rfl rfl rfl rfl) trivial
  cases cb with
  | deviceTick device => exact onHw_continues _
  | msgKeyRelease key => exact onSelected_continues _
  | cdbAssistPrintStatus device => exact onHw_continues _
  | qcomltDbgRequestStatus device => exact onHw_continues _

/-- Every iteration of the main loop accounts for the stream. -/
theorem iteration_accounts
    (ready : List Callback) :
    Relates stdinJournal.Accounts Stop.Any (iteration (n := n) ready) :=
  .bind
    (.within
      (fun _ _ step => Journal.Accounts.of_handles rfl step.handles)
      invokeTimers_continues)
    fun _ => .each fun callback _ => runCallback_accounts callback

/-- A whole run accounts for the stream. -/
theorem watchMainLoop_accounts
    (iterations : List (List Callback)) :
    Relates stdinJournal.Accounts Stop.Any
      (watchMainLoop (n := n) iterations) := by
  induction iterations with
  | nil => exact .pure _
  | cons ready rest inductionHypothesis =>
      exact .bind (.read _) fun _ =>
        .ite (.pure _)
          (.bind (iteration_accounts ready) fun _ => inductionHypothesis)

theorem runCallback_drained
    (callback : Callback) :
    Keeps Drained (fun _ _ => True) (runCallback (n := n) callback) := by
  cases callback with
  | stdin => exact receive_drained
  | udev index event => exact within_drained _
  | consoleData bytes => exact within_drained _
  | statusData bytes => exact within_drained _
  | controlData lines => exact within_drained _
  | sigpipe => exact within_drained watchQuit

theorem iteration_drained
    (ready : List Callback) :
    Keeps Drained (fun _ _ => True) (iteration (n := n) ready) :=
  (within_drained _).bind fun _ => Keeps.each runCallback_drained ready

/-- A run leaves no complete message in the receive buffer. -/
theorem watchMainLoop_drained
    (iterations : List (List Callback)) :
    Keeps Drained (fun _ _ => True) (watchMainLoop (n := n) iterations) := by
  induction iterations with
  | nil =>
      exact fun _ drained => drained
  | cons ready rest inductionHypothesis =>
      intro loop drained
      refine KeepsAt.bind (.of_ok (read_apply _ _) drained) ?_
      intro quitting middle outcome drained
      cases outcome
      dsimp only
      split
      · exact drained
      · exact (iteration_drained ready).bind
          (fun _ => inductionHypothesis) loop drained

theorem start_drained
    (devices : Fin n → Device)
    (username : CString)
    (stdin : Input)
    (hw : Hw n)
    (lockOpens flocks : List Bool) :
    Drained (Server.start devices username stdin hw lockOpens flocks) := by
  unfold Drained
  rw [show (Server.start devices username stdin hw lockOpens
    flocks).recvBuf = CircBuf.empty from rfl, contents_empty]
  exact wire.next?_nil

end Cdba
