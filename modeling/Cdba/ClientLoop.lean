import Cdba.Client

namespace Cdba

/-!
# The main loop of the client

`main` of `cdba.c` from the parsed command line on.  A run is a list of
iterations, each given by what `select()` finds ready and what reading the
ready descriptors yields.
-/

open Program

/-- What reading the server's standard error yields. -/
inductive StderrRead where
  | data
  | eof
  | wouldBlock
  | fail
  deriving DecidableEq, Repr

/-- What becomes ready, with what the terminal and standard error deliver. -/
structure Ready where
  tty : Option (Option (List UInt8))
  stderr : Option StderrRead
  stdout : Bool
  stdin : Bool
  deriving DecidableEq

/-- The client with the receive buffer of its main loop. -/
abbrev ClientLoop :=
  Receiver Client

/-- Programs of the main loop. -/
abbrev ClientLoopM :=
  EStateM ClientStop ClientLoop

namespace Client

/-- `gettimeofday(&now, NULL)` -/
def gettimeofday : ClientM Timeval := do
  update fun client => { client with clock := client.clock.tick }
  read fun client => Timeval.ofMicros client.clock.now

/-- `get_timeout` -/
def getTimeout (sec : Int) : ClientM Timeval := do
  let now ← gettimeofday
  pure (now.add ⟨sec, 0⟩)

/-- `timeout_inactivity_tv = get_timeout(timeout_inactivity)` -/
def armInactivity : ClientM Unit := do
  let sec ← read fun client => client.options.timeoutInactivity
  let tv ← getTimeout sec
  update fun client => { client with timeoutInactivityTv := tv }

/-- The format `"power cycle (%d left)\n"` -/
def powerCycleNotice (left : Int) : CString :=
  ascii ("power cycle (" ++ toString left ++ " left)\n")

/-- The start of an iteration: leave, or begin an automatic power cycle. -/
def powerCycle : ClientM Unit := do
  let client ← read id
  if client.receivedPowerOff || client.reachedTimeout then
    if client.powerCycles ≤ 0 then
      stop .leaveLoop
    else if client.reachedTimeout && !client.options.powerCycleOnTimeout then
      stop .leaveLoop
    else do
      record (.notice (powerCycleNotice client.powerCycles))
      update fun client =>
        { client with
          autoPowerOn := true
          powerCycles := client.powerCycles - 1
          receivedPowerOff := false
          reachedTimeout := false }
      requestPowerOff
      armInactivity
  else
    pure ()

/-- Whether `timeout` points to a `struct timeval`. -/
def hasTimeout (options : ClientOptions) : Bool :=
  options.timeoutTotal ≠ 0 || options.timeoutInactivity ≠ 0

/-- The deadline that `main` computes the timeout of `select()` from. -/
def deadline (client : Client) : Timeval :=
  if client.options.timeoutInactivity ≠ 0 &&
      (client.options.timeoutTotal = 0 ||
        client.timeoutInactivityTv.lt client.timeoutTotalTv) then
    client.timeoutInactivityTv
  else
    client.timeoutTotalTv

/-- The timeout for `select()`, as the time left until the deadline. -/
def selectTimeout : ClientM (Option Timeval) := do
  let client ← read id
  if hasTimeout client.options then do
    let now ← gettimeofday
    pure (some (client.deadline.sub now))
  else
    pure none

/-- What `select()` reports of the descriptors that `main` asks for. -/
def interest (client : Client) (ready : Ready) : Ready where
  tty := if client.options.tty then ready.tty else none
  stderr := ready.stderr
  stdout := ready.stdout
  stdin := ready.stdin && !client.workItems.listEmpty .head

/-- Nothing is ready. -/
def nothingReady : Ready where
  tty := none
  stderr := none
  stdout := false
  stdin := false

/--
`select()`: it rejects a negative timeout, and when nothing becomes ready it
returns 0 after the timeout.
-/
def select (timeout : Option Timeval) (ready : Ready) : ClientM Ready := do
  record (.select timeout)
  let ready ← read fun client => client.interest ready
  match timeout with
  | none =>
      if ready = nothingReady then
        stop .blocked
      else
        pure ready
  | some tv =>
      if ¬tv.NonNegative then
        err "select"
      else if ready = nothingReady then do
        update fun client =>
          { client with
            clock := client.clock.sleep tv.micros.toNat
            reachedTimeout := true }
        pure ready
      else
        pure ready

/-- The start of an iteration, up to and including `select()`. -/
def waitReady (ready : Ready) : ClientM Ready := do
  powerCycle
  let timeout ← selectTimeout
  select timeout ready

/-- What `circ_fill` followed by `handle_message` does to the client. -/
def handleMessage : ClientLoopM Unit :=
  receive sshStdoutOf .leaveLoop dispatch

/-- The end of an iteration: messages of the server, and the work queue. -/
def serve (ready : Ready) : ClientLoopM Unit := do
  onlyIf ready.stdout do
    handleMessage
    let sec ← read fun loop : ClientLoop =>
      loop.state.options.timeoutInactivity
    onlyIf (sec ≠ 0) (within Receiver.stateOf armInactivity)
  onlyIf ready.stdin (within Receiver.stateOf workPass)

/-- One iteration of the main loop. -/
def iteration (ready : Ready) : ClientLoopM Unit := do
  let ready ← within Receiver.stateOf (waitReady ready)
  onlyIf ready.tty.isSome
    (within Receiver.stateOf (ttyCallback ready.tty.join))
  match ready.stderr with
  | some .eof => stop .leaveLoop
  | some .wouldBlock => pure ()
  | some .fail => stop .leaveLoop
  | some .data => serve ready
  | none => serve ready

/-- The `while (!quit)` loop of `main`. -/
def mainLoop : List Ready → ClientLoopM Unit
  | [] => pure ()
  | ready :: rest => do
      let quitting ← read fun loop : ClientLoop => loop.state.quit
      if quitting then
        pure ()
      else do
        iteration ready
        mainLoop rest

section Keeps

variable {invariant : ClientLoop → Prop}
variable {stopped : ClientStop → ClientLoop → Prop}

/-- The end of an iteration keeps what each of its parts keeps. -/
theorem serve_keeps
    (receives : Keeps invariant stopped handleMessage)
    (rearms :
      Keeps invariant stopped (within Receiver.stateOf armInactivity))
    (passes :
      Keeps invariant stopped (within Receiver.stateOf workPass))
    (ready : Ready) :
    Keeps invariant stopped (serve ready) :=
  .bind
    (.onlyIf
      (.bind receives fun _ => .bind (.read _) fun _ => .onlyIf rearms))
    fun _ => .onlyIf passes

/-- From one state, as long as waiting keeps the invariant there. -/
theorem iteration_keepsAt
    {ready : Ready}
    {loop : ClientLoop}
    (waits :
      KeepsAt invariant stopped
        (within Receiver.stateOf (waitReady ready)) loop)
    (types :
      ∀ buf,
        Keeps invariant stopped
          (within Receiver.stateOf (ttyCallback buf)))
    (leaves : ∀ loop, invariant loop → stopped .leaveLoop loop)
    (serves : ∀ ready, Keeps invariant stopped (serve ready)) :
    KeepsAt invariant stopped (iteration ready) loop := by
  have rest :
      ∀ ready : Ready,
        Keeps invariant stopped (do
          onlyIf ready.tty.isSome
            (within Receiver.stateOf (ttyCallback ready.tty.join))
          match ready.stderr with
          | some .eof => stop .leaveLoop
          | some .wouldBlock => pure ()
          | some .fail => stop .leaveLoop
          | some .data => serve ready
          | none => serve ready) := by
    intro ready
    refine .bind (.onlyIf (types _)) fun _ => ?_
    split
    · exact .stop leaves
    · exact .pure _
    · exact .stop leaves
    · exact serves ready
    · exact serves ready
  exact waits.bind fun ready middle _ => rest ready middle

/-- The main loop keeps what each of its parts keeps. -/
theorem mainLoop_keeps
    (waits :
      ∀ ready,
        Keeps invariant stopped
          (within Receiver.stateOf (waitReady ready)))
    (types :
      ∀ buf,
        Keeps invariant stopped
          (within Receiver.stateOf (ttyCallback buf)))
    (leaves : ∀ loop, invariant loop → stopped .leaveLoop loop)
    (receives : Keeps invariant stopped handleMessage)
    (rearms :
      Keeps invariant stopped (within Receiver.stateOf armInactivity))
    (passes :
      Keeps invariant stopped (within Receiver.stateOf workPass))
    (iterations : List Ready) :
    Keeps invariant stopped (mainLoop iterations) := by
  have iterates : ∀ ready, Keeps invariant stopped (iteration ready) :=
    fun ready loop holds =>
      iteration_keepsAt (waits ready loop holds) types leaves
        (serve_keeps receives rearms passes)
  induction iterations with
  | nil =>
      exact .pure _
  | cons ready rest inductionHypothesis =>
      exact .bind (.read _) fun _ =>
        .ite (.pure _)
          (.bind (iterates ready) fun _ => inductionHypothesis)

end Keeps

/-! ## Starting -/

/-- What the command line asks for. -/
inductive Verb where
  | boot (board : CString)
  | list
  | info (board : CString)
  deriving DecidableEq, Repr

/-- The client before `main` looks at the command line. -/
def initial
    (options : ClientOptions)
    (powerCycles : Int)
    (writes : List WriteOutcome)
    (sshStdout : Input)
    (clock : Clock)
    (beyond : UInt8) :
    Client where
  options := options
  quit := false
  fastbootDone := false
  fastbootContinue := false
  statusFd := false
  powerCycles := powerCycles
  receivedPowerOff := false
  reachedTimeout := false
  autoPowerOn := false
  powerOffChars := 0
  special := false
  keyState := fun _ => false
  workItems := Links.init
  works := []
  timeoutInactivityTv := ⟨0, 0⟩
  timeoutTotalTv := ⟨0, 0⟩
  sshStdin := []
  writes := writes
  sshStdout := sshStdout
  clock := clock
  beyond := beyond
  dispatched := []
  log := []

/-- The client and its zero-initialised receive buffer. -/
def start
    (options : ClientOptions)
    (powerCycles : Int)
    (writes : List WriteOutcome)
    (sshStdout : Input)
    (clock : Clock)
    (beyond : UInt8) :
    ClientLoop where
  state := initial options powerCycles writes sshStdout clock beyond
  recvBuf := CircBuf.empty

/-- The deadlines that `main` sets in front of its loop. -/
def setDeadlines : ClientM Unit := do
  let options ← read Client.options
  let total ← getTimeout options.timeoutTotal
  update fun client => { client with timeoutTotalTv := total }
  armInactivity

/-- `main` from its first request to its loop. -/
def afterRequest (statusPipe : Bool) : ClientM Unit := do
  onlyIf statusPipe statusPipeOpen
  setDeadlines

/-- `main` up to its loop. -/
def setUp (verb : Verb) (statusPipe : Bool) : ClientM Unit := do
  match verb with
  | .boot board => do
      update fun client =>
        { client with
          fastbootContinue := client.options.fastbootFile.isNone }
      requestSelectBoard board
  | .list => requestBoardList
  | .info board => requestBoardInfo board
  afterRequest statusPipe

/-- The whole of `main`, as far as the given iterations go. -/
def run
    (verb : Verb)
    (statusPipe : Bool)
    (iterations : List Ready) :
    ClientLoopM Unit := do
  within Receiver.stateOf (setUp verb statusPipe)
  mainLoop iterations

end Client

end Cdba
