import Cdba.FileLock
import Cdba.Mirroring
import Cdba.PowerDown

namespace Cdba

/-!
# A server that records its locks

The server once more, with a record of the lock files it tried to lock and of
the boards it operated, in the order in which it did so.  Without the record it
is the server of `Server`, program by program.
-/

open Program FileLock

variable {n : Nat}

/-! ## Recording -/

/-- A server and what it has done: locks by their paths, boards by their names. -/
structure Tenant (n : Nat) where
  server : Server n
  acts : List (Act CString CString)

/-- Programs of a server that records. -/
abbrev TenantM (n : Nat) :=
  EStateM Stop (Tenant n)

namespace Tenant

/-- The standard input of the server. -/
def stdinOf : Component (Tenant n) Input where
  get := fun tenant => tenant.server.stdin
  set := fun tenant input =>
    { tenant with server := { tenant.server with stdin := input } }
  get_set := fun _ _ => rfl
  set_get := fun _ => rfl
  set_set := fun _ _ _ => rfl

/-- The boards that were operated between two states of the hardware. -/
def operated (first last : Hw n) : List CString :=
  (last.log.drop first.log.length).filterMap fun event =>
    event.value.device?.map fun device => (last.devices device).board

/-- The server has gone on to another state. -/
def moved (tenant : Tenant n) (server : Server n) : Tenant n where
  server := server
  acts := tenant.acts ++ (operated tenant.server.hw server.hw).map .work

end Tenant

/-- Run a program of the server, and record the boards it operates. -/
def recorded (program : ServerM n α) : TenantM n α :=
  fun tenant =>
    match program tenant.server with
    | .ok value server => .ok value (tenant.moved server)
    | .error reason server => .error reason (tenant.moved server)

/-- A receiver without the record in its state. -/
def unrecorded (loop : Receiver (Tenant n)) : ServerLoop n where
  state := loop.state.server
  recvBuf := loop.recvBuf

/-- Run a program of the server's loop, and record the boards it operates. -/
def recordedLoop
    (program : EStateM Stop (ServerLoop n) α) :
    EStateM Stop (Receiver (Tenant n)) α :=
  fun loop =>
    match program (unrecorded loop) with
    | .ok value last => .ok value ⟨loop.state.moved last.state, last.recvBuf⟩
    | .error reason last =>
        .error reason ⟨loop.state.moved last.state, last.recvBuf⟩

/-- Record an attempt to lock a file. -/
def attemptedLock (lock : CString) (granted : Bool) : TenantM n Unit :=
  update fun tenant =>
    { tenant with acts := tenant.acts ++ [.attempt lock granted] }

/-! ## The programs that take locks -/

/-- `deviceLockLoop`, on the lock file of a board. -/
def lockLoop (lock : CString) : List Bool → TenantM n Unit
  | [] => attemptedLock lock true
  | locked :: flocks => do
      recorded (update fun server => { server with flocks := flocks })
      attemptedLock lock locked
      if locked then
        pure ()
      else do
        recorded (onHw (sleep 3))
        recorded probeConnection
        lockLoop lock flocks

/-- `deviceLock` -/
def lockDevice (device : Fin n) : TenantM n Unit := do
  let board ← read fun tenant =>
    (tenant.server.hw.devices device).board
  if (lockPath board).length ≥ pathMax then
    stop (.exit 1)
  else do
    let opens ← read fun tenant => tenant.server.lockOpens
    recorded (update fun server => { server with lockOpens := opens.tail })
    if opens.headD true then do
      let flocks ← read fun tenant => tenant.server.flocks
      lockLoop (lockPath board) flocks
    else
      stop (.exit 1)

/-- `deviceOpen` -/
def lockAndOpen (board : Nat → UInt8) : TenantM n (Option (Fin n)) := do
  let found ← read fun tenant =>
    accessibleBoard? tenant.server.hw tenant.server.username board
  match found with
  | none => pure none
  | some device => do
      let console ← read fun tenant =>
        (tenant.server.hw.devices device).console
      if console = none then
        stop .assertFailed
      else do
        lockDevice device
        recorded (onHw (openLocked device))
        pure (some device)

/-- `msgSelectBoard` -/
def lockAndSelect (data : List UInt8) : TenantM n Unit := do
  let beyond ← read fun tenant => tenant.server.hw.beyond
  let device ← lockAndOpen (memoryAt data beyond)
  recorded (update fun server => { server with selectedDevice := device })
  match device with
  | none => recorded watchQuit
  | some device => recorded (onHw (deviceFastbootOpen device))
  recorded (onHw (cdbaSend .selectBoard))

/-- `dispatch` -/
def lockingDispatch (msg : Msg) : TenantM n Unit :=
  if MsgType.ofCode? msg.type = some .selectBoard then do
    recorded
      (update fun server =>
        { server with dispatched := server.dispatched ++ [msg] })
    lockAndSelect msg.data
  else
    recorded (dispatch msg)

/-- `runCallback` -/
def lockingCallback :
    Callback → EStateM Stop (Receiver (Tenant n)) Unit
  | .stdin => receive Tenant.stdinOf .leaveLoop lockingDispatch
  | callback => recordedLoop (runCallback callback)

/-- `iteration` -/
def lockingIteration
    (ready : List Callback) :
    EStateM Stop (Receiver (Tenant n)) Unit := do
  within Receiver.stateOf (recorded invokeTimers)
  each lockingCallback ready

/-- `watchMainLoop` -/
def lockingMainLoop :
    List (List Callback) → EStateM Stop (Receiver (Tenant n)) Unit
  | [] => pure ()
  | ready :: rest => do
      let quitting ← read fun loop : Receiver (Tenant n) =>
        loop.state.server.quitInvoked
      if quitting then
        pure ()
      else do
        lockingIteration ready
        lockingMainLoop rest

/-! ## The record changes nothing -/

theorem recorded_mirrors
    (program : ServerM n α) :
    Mirrors Tenant.server (recorded program) program := by
  intro tenant
  unfold recorded
  cases program tenant.server <;> rfl

theorem recordedLoop_mirrors
    (program : EStateM Stop (ServerLoop n) α) :
    Mirrors unrecorded (recordedLoop program) program := by
  intro loop
  unfold recordedLoop
  cases program (unrecorded loop) <;> rfl

theorem attempted_mirrors
    (lock : CString)
    (granted : Bool)
    {later : TenantM n α}
    {image : ServerM n α}
    (mirrors : Mirrors Tenant.server later image) :
    Mirrors Tenant.server (attemptedLock lock granted >>= fun _ => later)
      image :=
  fun _ => mirrors _

theorem lockLoop_mirrors
    (lock : CString)
    (flocks : List Bool) :
    Mirrors Tenant.server (lockLoop (n := n) lock flocks)
      (deviceLockLoop flocks) := by
  induction flocks with
  | nil =>
      exact fun _ => rfl
  | cons locked flocks inductionHypothesis =>
      exact .bind (recorded_mirrors _) fun _ =>
        attempted_mirrors _ _
          (.ite (.pure ())
            (.bind (recorded_mirrors _) fun _ =>
              .bind (recorded_mirrors _) fun _ => inductionHypothesis))

theorem lockDevice_mirrors
    (device : Fin n) :
    Mirrors Tenant.server (lockDevice device) (deviceLock device) :=
  .bind (.read fun _ => rfl) fun _ =>
    .ite (.stop _)
      (.bind (.read fun _ => rfl) fun _ =>
        .bind (recorded_mirrors _) fun _ =>
          .ite (.bind (.read fun _ => rfl) fun _ => lockLoop_mirrors _ _)
            (.stop _))

theorem lockAndOpen_mirrors
    (board : Nat → UInt8) :
    Mirrors Tenant.server (lockAndOpen (n := n) board)
      (deviceOpen board) := by
  refine .bind (.read fun _ => rfl) fun found => ?_
  cases found with
  | none => exact .pure _
  | some device =>
      exact .bind (.read fun _ => rfl) fun _ =>
        .ite (.stop _)
          (.bind (lockDevice_mirrors device) fun _ =>
            .bind (recorded_mirrors _) fun _ => .pure _)

theorem lockAndSelect_mirrors
    (data : List UInt8) :
    Mirrors Tenant.server (lockAndSelect (n := n) data)
      (msgSelectBoard data) := by
  refine .bind (.read fun _ => rfl) fun beyond =>
    .bind (lockAndOpen_mirrors _) fun device =>
      .bind (recorded_mirrors _) fun _ => ?_
  cases device with
  | none =>
      exact .bind (recorded_mirrors _) fun _ => recorded_mirrors _
  | some device =>
      exact .bind (recorded_mirrors _) fun _ => recorded_mirrors _

theorem lockingDispatch_mirrors
    (msg : Msg) :
    Mirrors Tenant.server (lockingDispatch (n := n) msg)
      (dispatch msg) := by
  unfold lockingDispatch
  split
  · rename_i select
    unfold dispatch
    rw [select]
    exact .bind (recorded_mirrors _) fun _ => lockAndSelect_mirrors _
  · exact recorded_mirrors _

section Receive

variable {ε σ τ : Type} {view : σ → τ}

/-- A receiver in view of its state. -/
def receiverView (view : σ → τ) (receiver : Receiver σ) : Receiver τ where
  state := view receiver.state
  recvBuf := receiver.recvBuf

variable {handle : Msg → EStateM ε σ Unit}
variable {handleImage : Msg → EStateM ε τ Unit}

theorem stateOf_mirrors
    {program : EStateM ε σ α}
    {image : EStateM ε τ α}
    (mirrors : Mirrors view program image) :
    Mirrors (receiverView view) (within Receiver.stateOf program)
      (within Receiver.stateOf image) :=
  .within mirrors (fun _ => rfl) fun _ _ => rfl

theorem receiveLoop_mirrors
    (mirrors : ∀ msg, Mirrors view (handle msg) (handleImage msg))
    (fuel : Nat) :
    Mirrors (receiverView view) (receiveLoop handle fuel)
      (receiveLoop handleImage fuel) := by
  induction fuel with
  | zero =>
      exact .pure ()
  | succ fuel inductionHypothesis =>
      refine .bind (.read fun _ => rfl) fun circ => ?_
      cases nextMessage? circ with
      | none => exact .pure ()
      | some next =>
          exact .bind (.update fun _ => rfl) fun _ =>
            .bind (stateOf_mirrors (mirrors next.1))
              fun _ => inductionHypothesis

/-- Receivers mirror each other if their handlers do. -/
theorem receive_mirrors
    {input : Component σ Input}
    {image : Component τ Input}
    (mirrors : ∀ msg, Mirrors view (handle msg) (handleImage msg))
    (get : ∀ state, image.get (view state) = input.get state)
    (set :
      ∀ state value,
        view (input.set state value) = image.set (view state) value)
    (leave : ε) :
    Mirrors (receiverView view) (receive input leave handle)
      (receive image leave handleImage) := by
  intro receiver
  unfold receive
  rw [bind_of_ok (read_apply _ _), bind_of_ok (read_apply _ _)]
  simp only [id, receiverView, get]
  have messages :
      Mirrors (receiverView view) (receiveMessages handle)
        (receiveMessages handleImage) :=
    .bind (.read fun _ => rfl) fun _ => receiveLoop_mirrors mirrors _
  generalize circFill (input.get receiver.state) receiver.recvBuf = filled
  have filling :
      ∀ state : Receiver σ,
        receiverView view
            ⟨input.set state.state filled.2.2, filled.2.1⟩ =
          ⟨image.set (receiverView view state).state filled.2.2,
            filled.2.1⟩ := by
    intro state
    simp only [receiverView, set]
  refine (Mirrors.bind (.update filling) fun _ => ?_) receiver
  split
  · exact messages
  · exact messages
  · exact .stop _

end Receive

/-- The server records what it does, and does the same. -/
theorem lockingMainLoop_mirrors
    (iterations : List (List Callback)) :
    Mirrors unrecorded (lockingMainLoop (n := n) iterations)
      (watchMainLoop iterations) := by
  have callbacks :
      ∀ callback : Callback,
        Mirrors unrecorded (lockingCallback (n := n) callback)
          (runCallback callback) := by
    intro callback
    have others :
        ∀ callback : Callback,
          Mirrors unrecorded
            (recordedLoop (runCallback (n := n) callback))
            (runCallback callback) :=
      fun _ => recordedLoop_mirrors _
    cases callback with
    | stdin =>
        exact receive_mirrors lockingDispatch_mirrors (fun _ => rfl)
          (fun _ _ => rfl) _
    | udev index event => exact others (.udev index event)
    | consoleData bytes => exact others (.consoleData bytes)
    | statusData bytes => exact others (.statusData bytes)
    | controlData lines => exact others (.controlData lines)
    | sigpipe => exact others .sigpipe
  induction iterations with
  | nil =>
      exact .pure ()
  | cons ready rest inductionHypothesis =>
      have timers :
          Mirrors (receiverView Tenant.server)
            (within Receiver.stateOf (recorded (invokeTimers (n := n))))
            (within Receiver.stateOf invokeTimers) :=
        stateOf_mirrors (recorded_mirrors _)
      exact .bind (.read fun _ => rfl) fun quitting =>
        .ite (.pure ())
          (.bind (.bind timers fun _ => .each callbacks _)
            fun _ => inductionHypothesis)

end Cdba
