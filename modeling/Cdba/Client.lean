import Cdba.IntrusiveList
import Cdba.Libc
import Cdba.Receive
import Cdba.Timeval

namespace Cdba

/-!
# The client

The globals of `cdba.c` and everything that works on them: the queue of work
items, whose nodes are linked in memory, the requests and work functions, the
terminal, and the handlers of server messages.

What the outside does is a script in the state: how the `write()`s to the
server's standard input end, the stream of its standard output, and how long
things take.  The fields `dispatched` and `log` are not part of the program;
they record the messages that were dispatched and what was done.
-/

open Program

/-! ## State -/

/-- Where a `struct list_head` of the work queue lives. -/
inductive WorkNode where
  /-- `work_items` itself -/
  | head
  /-- The static `work` of `request_power_on`. -/
  | powerOn
  /-- The static `work` of `request_power_off`. -/
  | powerOff
  /-- The static `work` of `request_fastboot_continue`. -/
  | fastbootContinue
  /-- Work from `malloc`. -/
  | heap (index : Nat)
  deriving DecidableEq, Repr

/-- Allocated work: its function and the members around `struct work`. -/
inductive Work where
  | listBoards
  | boardInfo (board : CString)
  | selectBoard (board : CString)
  | statusEnable
  | fastbootDownload (data : List UInt8) (offset size : Nat)
  deriving DecidableEq, Repr

/--
How a `write()` to the pipe ends.  Writes of at most `PIPE_BUF` bytes write
everything or fail.
-/
inductive WriteOutcome where
  | done
  | wouldBlock
  | fail
  deriving DecidableEq, Repr

/-- What the client does to the outside and to its queue. -/
inductive ClientEvent where
  | request (node : WorkNode)
  /-- A work function has sent its message completely. -/
  | frame (type : MsgType)
  | stdout (bytes : List UInt8)
  /-- A `write()` to the status pipe, and whether there was room for it. -/
  | statusPipe (bytes : List UInt8) (room : Bool)
  /-- `printf()` and `fflush(stdout)` -/
  | notice (text : CString)
  | select (timeout : Option Timeval)
  deriving DecidableEq

/-- Why the client does not go on. -/
inductive ClientStop where
  /-- `break` out of the main loop. -/
  | leaveLoop
  /-- `err(1, message)` -/
  | err (message : String)
  /-- `select()` without a timeout, and nothing becomes ready. -/
  | blocked
  /-- A work function is called on memory that holds no work. -/
  | useAfterFree
  /-- A bound of the model was hit; the code would still be running. -/
  | diverges
  deriving DecidableEq, Repr

/-- The command-line options that stay as they are. -/
structure ClientOptions where
  timeoutTotal : Int
  timeoutInactivity : Int
  powerCycleOnTimeout : Bool
  fastbootRepeat : Bool
  /-- The contents of `fastboot_file`, if one was given. -/
  fastbootFile : Option (List UInt8)
  /-- Whether standard input is a terminal. -/
  tty : Bool
  /-- Which of the writes to the status pipe find it full (`EAGAIN`). -/
  statusFull : List Bool
  deriving DecidableEq

/-- The globals of the client, `main`'s deadlines, and the outside. -/
structure Client where
  options : ClientOptions
  quit : Bool
  fastbootDone : Bool
  fastbootContinue : Bool
  statusFd : Bool
  powerCycles : Int
  receivedPowerOff : Bool
  reachedTimeout : Bool
  autoPowerOn : Bool
  powerOffChars : Nat
  special : Bool
  keyState : Nat → Bool
  workItems : Links WorkNode
  works : List (Option Work)
  timeoutInactivityTv : Timeval
  timeoutTotalTv : Timeval
  sshStdin : List UInt8
  writes : List WriteOutcome
  sshStdout : Input
  clock : Clock
  beyond : UInt8
  dispatched : List Msg
  log : List ClientEvent

/-- Programs over the client, without its receive buffer. -/
abbrev ClientM :=
  EStateM ClientStop Client

namespace Client

/-- The standard output of the server. -/
def sshStdoutOf : Component Client Input where
  get := Client.sshStdout
  set := fun client input => { client with sshStdout := input }
  get_set := fun _ _ => rfl
  set_get := fun _ => rfl
  set_set := fun _ _ _ => rfl

/-- Record what the client does. -/
def record (event : ClientEvent) : ClientM Unit :=
  update fun client => { client with log := client.log ++ [event] }

/-- `err(1, message)` -/
def err (message : String) : ClientM α :=
  stop (.err message)

/-! ## Sending -/

/-- `write(ssh_stdin, bytes)`; `none` means that everything was written. -/
def writeSsh (bytes : List UInt8) : ClientM (Option Errno) := do
  let outcomes ← read Client.writes
  update fun client => { client with writes := outcomes.tail }
  match outcomes.headD .done with
  | .done => do
      update fun client => { client with sshStdin := client.sshStdin ++ bytes }
      pure none
  | .wouldBlock => pure (some .eagain)
  | .fail => pure (some .other)

/-- `cdba_send_buf`: the header, and then the payload in a write of its own. -/
def cdbaSendBuf (type : MsgType) (buf : List UInt8) : ClientM (Option Errno) := do
  let failed ← writeSsh (headerBytes type.code (UInt16.ofNat buf.length))
  if failed.isSome then
    pure failed
  else if buf ≠ [] then
    writeSsh buf
  else
    pure none

/-- `cdba_send` -/
def cdbaSend (type : MsgType) : ClientM (Option Errno) :=
  cdbaSendBuf type []

/-- A message that has to be sent, or the client gives up. -/
def sendOrErr
    (type : MsgType)
    (buf : List UInt8)
    (message : String) :
    ClientM Unit := do
  let failed ← cdbaSendBuf type buf
  if failed.isSome then
    err message
  else
    record (.frame type)

/-! ## The work queue -/

/-- `list_add(&work_items, node)` -/
def enqueue (node : WorkNode) : ClientM Unit :=
  update fun client =>
    { client with workItems := client.workItems.listAdd .head node }

/-- A request: its node is added to the queue. -/
def request (node : WorkNode) : ClientM Unit := do
  record (.request node)
  enqueue node

/-- `malloc` of a work item, with its members. -/
def allocate (work : Work) : ClientM WorkNode := do
  let index ← read fun client => client.works.length
  update fun client => { client with works := client.works ++ [some work] }
  pure (.heap index)

/-- `free(work)` -/
def free (index : Nat) : ClientM Unit :=
  update fun client => { client with works := client.works.set index none }

/-- A request with memory of its own. -/
def requestWork (work : Work) : ClientM Unit := do
  let node ← allocate work
  request node

/-- `request_board_list` -/
def requestBoardList : ClientM Unit :=
  requestWork .listBoards

/-- `request_board_info` -/
def requestBoardInfo (board : CString) : ClientM Unit :=
  requestWork (.boardInfo board)

/-- `request_select_board` -/
def requestSelectBoard (board : CString) : ClientM Unit :=
  requestWork (.selectBoard board)

/-- The end of `status_pipe_open`. -/
def statusPipeOpen : ClientM Unit := do
  update fun client => { client with statusFd := true }
  requestWork .statusEnable

/-- `request_power_on` -/
def requestPowerOn : ClientM Unit :=
  request .powerOn

/-- `request_power_off` -/
def requestPowerOff : ClientM Unit :=
  request .powerOff

/-- `request_fastboot_continue` -/
def requestFastbootContinue : ClientM Unit :=
  request .fastbootContinue

/-- `request_fastboot_files` -/
def requestFastbootFiles : ClientM Unit := do
  let file ← read fun client => client.options.fastbootFile
  match file with
  | none => err "failed to open fastboot file"
  | some data => requestWork (.fastbootDownload data 0 data.length)

/-- `fastboot_work_fn` -/
def fastbootWorkFn
    (index : Nat)
    (data : List UInt8)
    (offset size : Nat) :
    ClientM Unit := do
  let left := min 2048 (size - offset)
  let failed ← cdbaSendBuf .fastbootDownload ((data.drop offset).take left)
  match failed with
  | some .eagain => enqueue (.heap index)
  | some _ => err "failed to write fastboot message"
  | none => do
      update fun client =>
        { client with
          works := client.works.set index
            (some (.fastbootDownload data (offset + left) size)) }
      if left = 0 then
        free index
      else
        enqueue (.heap index)

/-- `work->fn(work, ssh_stdin)` for allocated work. -/
def runWork (index : Nat) : Work → ClientM Unit
  | .listBoards => do
      sendOrErr .listDevices [] "failed to send board list request"
      free index
  | .boardInfo board => do
      sendOrErr .boardInfo (board ++ [0]) "failed to send board info request"
      free index
  | .selectBoard board => do
      sendOrErr .selectBoard (board ++ [0]) "failed to send power on request"
      free index
  | .statusEnable => do
      let _ ← cdbaSend .statusUpdate
      free index
  | .fastbootDownload data offset size =>
      fastbootWorkFn index data offset size

/-- The function of a node's work. -/
def workFn : WorkNode → ClientM Unit
  | .head => stop .useAfterFree
  | .powerOn => sendOrErr .powerOn [] "failed to send power on request"
  | .powerOff => sendOrErr .powerOff [] "failed to send power off request"
  | .fastbootContinue =>
      sendOrErr .fastbootContinue []
        "failed to send fastboot continue request"
  | .heap index => do
      let work ← read fun client => (client.works[index]?).join
      match work with
      | none => stop .useAfterFree
      | some work => runWork index work

/-- The body of the work loop: `list_del`, then the work's function. -/
def runNode (node : WorkNode) : ClientM Unit := do
  update fun client =>
    { client with workItems := client.workItems.listDel node }
  workFn node

/-- How often allocated work can still be run before it is freed. -/
def Work.runs : Option Work → Nat
  | none => 0
  | some (.fastbootDownload _ offset size) => size - offset + 1
  | some _ => 1

/-- A bound for the visits of one pass over a well-formed queue. -/
def potential (client : Client) : Nat :=
  3 + (client.works.map Work.runs).sum + client.writes.length

/-- The `list_for_each_entry_safe` loop of `main` over the work queue. -/
def workPass : ClientM Unit := do
  let bound ← read potential
  let first ← read fun client => client.workItems.next .head
  let second ← read fun client => client.workItems.next first
  Links.forEachEntrySafe Client.workItems .head runNode .diverges
    (bound + 1) first second

/-! ## The terminal -/

/-- `key_state[key] = !key_state[key]`, sent to the server. -/
def cdbaToggleKey (key : UInt8) : ClientM Unit := do
  update fun client =>
    { client with
      keyState := fun query =>
        if query = key.toNat then
          !client.keyState query
        else
          client.keyState query }
  let pressed ← read fun client => client.keyState key.toNat
  let _ ← cdbaSendBuf .keyPress [key, if pressed then 1 else 0]

/-- The `switch` of `tty_callback` on the key behind `^A`. -/
def ttyCommand (char : UInt8) : ClientM Unit :=
  if char = 0x71 then
    update fun client => { client with quit := true }
  else if char = 0x50 then
    discard (cdbaSend .powerOn)
  else if char = 0x70 then
    discard (cdbaSend .powerOff)
  else if char = 0x73 then
    discard (cdbaSend .statusUpdate)
  else if char = 0x56 then
    discard (cdbaSend .vbusOn)
  else if char = 0x76 then
    discard (cdbaSend .vbusOff)
  else if char = 0x61 then
    discard (cdbaSendBuf .console [0x01])
  else if char = 0x42 then
    discard (cdbaSend .sendBreak)
  else if char = 0x6f then
    discard (cdbaSendBuf .keyPress [1, 2])
  else if char = 0x4f then
    cdbaToggleKey 1
  else if char = 0x66 then
    discard (cdbaSendBuf .keyPress [0, 2])
  else if char = 0x46 then
    cdbaToggleKey 0
  else
    pure ()

/-- One character of `tty_callback`. -/
def ttyChar (char : UInt8) : ClientM Unit := do
  let special ← read Client.special
  if char = 0x01 then
    update fun client => { client with special := true }
  else if special then do
    ttyCommand char
    update fun client => { client with special := false }
  else
    discard (cdbaSendBuf .console [char])

/-- `tty_callback`; `none` is a failing `read()`, which the caller ignores. -/
def ttyCallback (buf : Option (List UInt8)) : ClientM Unit :=
  each ttyChar (buf.getD [])

/-! ## Server messages -/

/-- Whether an event is a `write()` to the status pipe. -/
def toStatusPipe : ClientEvent → Bool
  | .statusPipe _ _ => true
  | _ => false

/-- Whether the next `write()` to the status pipe finds room. -/
def statusRoom (client : Client) : Bool :=
  !client.options.statusFull.getD (client.log.countP toStatusPipe) false

/--
`handle_status_update`.  The pipe is non-blocking and nobody looks at what
`write()` returns: an update that finds it full is lost.
-/
def handleStatusUpdate (data : List UInt8) : ClientM Unit := do
  let open_ ← read Client.statusFd
  let room ← read statusRoom
  onlyIf open_ (record (.statusPipe data room))

/-- `handle_list_devices` -/
def handleListDevices (data : List UInt8) : ClientM Unit :=
  if data = [] then
    update fun client => { client with quit := true }
  else
    record (.stdout (data ++ [0x0a]))

/-- `handle_board_info` -/
def handleBoardInfo (data : List UInt8) : ClientM Unit := do
  record (.stdout (data ++ [0x0a]))
  update fun client => { client with quit := true }

/-- One character of `handle_console`: 20 tildes in a row report a power off. -/
def countTilde (client : Client) (char : UInt8) : Client :=
  if char = 0x7e then
    if client.powerOffChars = 19 then
      { client with receivedPowerOff := true, powerOffChars := 0 }
    else
      { client with powerOffChars := client.powerOffChars + 1 }
  else
    { client with powerOffChars := 0 }

/-- `handle_console` -/
def handleConsole (data : List UInt8) : ClientM Unit := do
  update fun client =>
    if client.powerCycles ≥ 0 then
      data.foldl countTilde client
    else
      client
  record (.stdout data)

/-- Counting tildes changes nothing else. -/
theorem foldl_countTilde
    (data : List UInt8)
    (client : Client) :
    ∃ chars received,
      data.foldl countTilde client =
        { client with
          powerOffChars := chars
          receivedPowerOff := received } := by
  induction data generalizing client with
  | nil =>
      exact ⟨_, _, rfl⟩
  | cons char rest inductionHypothesis =>
      obtain ⟨chars, received, same⟩ :=
        inductionHypothesis (countTilde client char)
      refine ⟨chars, received, ?_⟩
      rw [List.foldl_cons, same]
      unfold countTilde
      split
      · split <;> rfl
      · rfl

/-- What `handle_console` changes before it prints the output. -/
theorem handleConsole_counts
    (data : List UInt8)
    (client : Client) :
    ∃ chars received,
      (if client.powerCycles ≥ 0 then
        data.foldl countTilde client
      else
        client) =
        { client with
          powerOffChars := chars
          receivedPowerOff := received } := by
  split
  · exact foldl_countTilde data client
  · exact ⟨_, _, rfl⟩

/-- `sleep(seconds)` -/
def sleep (seconds : Nat) : ClientM Unit :=
  update fun client =>
    { client with clock := client.clock.sleep (seconds * 1000000) }

/-- The fastboot device has appeared. -/
def fastbootPresent : ClientM Unit := do
  let client ← read id
  if client.fastbootContinue then do
    requestFastbootContinue
    update fun client => { client with fastbootContinue := false }
  else if !client.fastbootDone || client.options.fastbootRepeat then
    requestFastbootFiles
  else
    update fun client => { client with quit := true }

/-- The `switch (msg->type)` of `handle_message`. -/
def handleType (type : Option MsgType) (data : List UInt8) : ClientM Unit :=
  match type with
  | some .selectBoard => requestPowerOn
  | some .console => handleConsole data
  | some .hardreset => pure ()
  | some .powerOn => pure ()
  | some .powerOff => do
      let auto ← read Client.autoPowerOn
      onlyIf auto do
        sleep 2
        requestPowerOn
  | some .fastbootPresent => do
      let beyond ← read Client.beyond
      onlyIf (data.headD beyond ≠ 0) fastbootPresent
  | some .fastbootDownload =>
      update fun client => { client with fastbootDone := true }
  | some .fastbootBoot => pure ()
  | some .statusUpdate => handleStatusUpdate data
  | some .listDevices => handleListDevices data
  | some .boardInfo => do
      handleBoardInfo data
      stop .leaveLoop
  | some .fastbootContinue =>
      update fun client => { client with fastbootDone := true }
  | _ => stop .leaveLoop

/-- Dispatch one message. -/
def dispatch (msg : Msg) : ClientM Unit := do
  update fun client =>
    { client with dispatched := client.dispatched ++ [msg] }
  handleType (MsgType.ofCode? msg.type) msg.data

end Client

end Cdba
