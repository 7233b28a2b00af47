import Cdba.ClientFrame
import Cdba.Session

namespace Cdba

/-!
# Framing is lossless

Both receivers fill the same ring from a non-blocking descriptor and dispatch
every complete message.  After each wakeup the messages dispatched so far are
the complete frames among the bytes read so far, and what is left in the ring
is the beginning of one frame, so there is room to read on.
-/

open Program

/-- The largest payload for which a frame fits into the ring. -/
def maxPayload : Nat :=
  16380

/--
What a receiver has got of a stream of frames: the dispatched messages are the
complete frames among the bytes read, the ring holds the bytes behind them, and
it is not full.
-/
structure ReceivedExactly
    (frames dispatched : List Msg)
    (recvBuf : CircBuf)
    (unread : List UInt8) :
    Prop where
  stream :
    wire.encodeAll frames =
      wire.encodeAll dispatched ++ recvBuf.contents ++ unread
  complete :
    ∃ remaining,
      frames = dispatched ++ remaining ∧
        ∀ next later,
          remaining = next :: later →
          recvBuf.contents.length < (encodeMsg next).length
  notFull : circSpaceToEnd recvBuf ≠ 0

/-- A ring that holds less than a frame of at most maximal size has room. -/
theorem circSpaceToEnd_ne_zero
    {circ : CircBuf}
    (short : circAvail circ < sizeofMsg + maxPayload) :
    circSpaceToEnd circ ≠ 0 := by
  have space := circAvail_add_circSpace circ
  have head := circ.head_lt
  simp only [sizeofMsg, maxPayload] at short
  simp only [circBufSize] at space head
  simp only [circSpaceToEnd, circBufSize]
  omega

/-- An accounted-for stream of frames that was drained was received exactly. -/
theorem ReceivedExactly.of_stream
    {frames dispatched : List Msg}
    {recvBuf : CircBuf}
    {unread : List UInt8}
    (stream :
      wire.encodeAll frames =
        wire.encodeAll dispatched ++ (recvBuf.contents ++ unread))
    (drained : wire.next? recvBuf.contents = none)
    (fits : ∀ frame, frame ∈ frames → frame.data.length ≤ maxPayload) :
    ReceivedExactly frames dispatched recvBuf unread := by
  rw [← List.append_assoc] at stream
  obtain ⟨remaining, shape, shorter⟩ :=
    FrameFormat.received_exactly stream drained
  refine ⟨stream, ⟨remaining, shape, shorter⟩, circSpaceToEnd_ne_zero ?_⟩
  rw [← length_contents]
  cases remaining with
  | nil =>
      have nothingLeft : recvBuf.contents = [] := by
        rw [shape, List.append_nil, List.append_assoc] at stream
        have rest := List.append_right_eq_self.mp stream.symm
        exact (List.append_eq_nil_iff.mp rest).1
      simp [nothingLeft, sizeofMsg, maxPayload]
  | cons next later =>
      have bound := fits next (by simp [shape])
      have short := shorter next later rfl
      rw [wire_encode, length_encodeMsg] at short
      omega

/-! ## The client -/

namespace Client

/-- The standard output of the server, which only the receive buffer reads. -/
def stdoutJournal : Journal Client where
  input := sshStdoutOf
  handled := Client.dispatched
  probed := fun _ => []
  handled_set := fun _ _ => rfl
  probed_set := fun _ _ => rfl

theorem Serves.handles
    {first last : Client}
    (serves : Serves first last) :
    stdoutJournal.Handles [] first last :=
  ⟨[], by simp [stdoutJournal, serves.dispatched], rfl,
    by simp [Journal.unread, stdoutJournal, sshStdoutOf, serves.sshStdout]⟩

/-- Any reason to stop. -/
abbrev AnyStop (_ : ClientStop) : Prop :=
  True

/-- Programs that neither dispatch messages nor read the server's output. -/
abbrev Listening (program : ClientM α) : Prop :=
  Relates (stdoutJournal.Handles []) AnyStop program

theorem listening_of_serving
    {program : ClientM α}
    (serving : Serving program) :
    Listening program :=
  serving.mono (fun _ _ serves => serves.handles) (fun _ _ => trivial)

theorem listening_of_idling
    {program : ClientM α}
    (idling : Idling program) :
    Listening program :=
  listening_of_serving (serving_of_idling idling)

theorem update_listening
    {change : Client → Client}
    (dispatched : ∀ client, (change client).dispatched = client.dispatched)
    (sshStdout : ∀ client, (change client).sshStdout = client.sshStdout) :
    Listening (update change) :=
  .update fun client =>
    ⟨[], by simp [stdoutJournal, dispatched], rfl,
      by simp [Journal.unread, stdoutJournal, sshStdoutOf, sshStdout]⟩

theorem gettimeofday_listening :
    Listening gettimeofday :=
  .bind (update_listening (fun _ => rfl) (fun _ => rfl)) fun _ => .read _

theorem armInactivity_listening :
    Listening armInactivity :=
  .bind (.read _) fun _ =>
    .bind (.bind gettimeofday_listening fun _ => .pure _) fun _ =>
      update_listening (fun _ => rfl) (fun _ => rfl)

theorem waitReady_listening
    (ready : Ready) :
    Listening (waitReady ready) := by
  have changes :
      ∀ change : Client → Client,
        (∀ client, (change client).dispatched = client.dispatched) →
        (∀ client, (change client).sshStdout = client.sshStdout) →
        Listening (update change) :=
    fun _ => update_listening
  have cycles : Listening powerCycle :=
    .bind (.read _) fun _ =>
      .ite
        (.ite (.stop trivial)
          (.ite (.stop trivial)
            (.bind (listening_of_idling (record_idles (by simp))) fun _ =>
              .bind (changes _ (fun _ => rfl) (fun _ => rfl)) fun _ =>
                .bind (listening_of_idling (request_idles _)) fun _ =>
                  armInactivity_listening)))
        (.pure _)
  have timeouts : Listening selectTimeout :=
    .bind (.read _) fun _ =>
      .ite (.bind gettimeofday_listening fun _ => .pure _) (.pure _)
  have selects : ∀ timeout, Listening (select timeout ready) := by
    intro timeout
    refine .bind (changes _ (fun _ => rfl) (fun _ => rfl)) fun _ =>
      .bind (.read _) fun _ => ?_
    cases timeout with
    | none => exact .ite (.stop trivial) (.pure _)
    | some tv =>
        exact .ite (.stop trivial)
          (.ite
            (.bind (changes _ (fun _ => rfl) (fun _ => rfl))
              fun _ => .pure _)
            (.pure _))
  exact .bind cycles fun _ => .bind timeouts selects

/-- Dispatching a message records it and leaves the server's output alone. -/
theorem dispatch_handles
    (msg : Msg) :
    Relates (stdoutJournal.Handles [msg]) AnyStop (dispatch msg) := by
  intro client
  have recorded :
      stdoutJournal.Handles [msg] client
        { client with dispatched := client.dispatched ++ [msg] } :=
    ⟨[], rfl, rfl, rfl⟩
  refine ⟨?_, fun _ _ => trivial⟩
  unfold dispatch
  rw [bind_of_ok (update_apply _ _)]
  exact recorded.trans
    (listening_of_serving (handleType_serves _ msg.data) _).related

/-- A program on the client accounts for the stream if it does not listen. -/
theorem within_accounts
    {program : ClientM α}
    (listening : Listening program) :
    Relates stdoutJournal.Accounts AnyStop
      (within Receiver.stateOf program) :=
  .within (fun _ _ step => Journal.Accounts.of_handles rfl step) listening

/-- Every iteration of the main loop accounts for the stream. -/
theorem iteration_accounts
    (ready : Ready) :
    Relates stdoutJournal.Accounts AnyStop (iteration ready) := by
  have serves :
      ∀ ready, Relates stdoutJournal.Accounts AnyStop (serve ready) := by
    intro ready
    have messages :
        Relates stdoutJournal.Accounts AnyStop
          (receive stdoutJournal.input .leaveLoop dispatch) :=
      Journal.receive_accounts trivial dispatch_handles
    exact .bind
      (.onlyIf
        (.bind messages fun _ => .bind (.read _) fun _ =>
          .onlyIf (within_accounts armInactivity_listening)))
      fun _ => .onlyIf
        (within_accounts (listening_of_serving workPass_serves))
  refine .bind (within_accounts (waitReady_listening ready))
    fun ready => .bind
      (.onlyIf
        (within_accounts (listening_of_serving (ttyCallback_serves _))))
      fun _ => ?_
  split
  · exact .stop trivial
  · exact .pure _
  · exact .stop trivial
  · exact serves ready
  · exact serves ready

/-- A whole run accounts for the stream. -/
theorem mainLoop_accounts
    (iterations : List Ready) :
    Relates stdoutJournal.Accounts AnyStop (mainLoop iterations) := by
  induction iterations with
  | nil => exact .pure _
  | cons ready rest inductionHypothesis =>
      exact .bind (.read _) fun _ =>
        .ite (.pure _)
          (.bind (iteration_accounts ready) fun _ => inductionHypothesis)

/-- A run leaves no complete message in the receive buffer. -/
theorem mainLoop_drained
    (iterations : List Ready) :
    Keeps Drained (fun _ _ => True) (mainLoop iterations) :=
  mainLoop_keeps (fun _ => within_drained _) (fun _ => within_drained _)
    (fun _ _ => trivial) receive_drained (within_drained _)
    (within_drained _) iterations

theorem setUp_listening
    (verb : Verb)
    (statusPipe : Bool) :
    Listening (setUp verb statusPipe) := by
  have works := fun work =>
    listening_of_idling (requestWork_idles work)
  have changes :
      ∀ change : Client → Client,
        (∀ client, (change client).dispatched = client.dispatched) →
        (∀ client, (change client).sshStdout = client.sshStdout) →
        Listening (update change) :=
    fun _ => update_listening
  have rest : Listening (afterRequest statusPipe) :=
    .bind
      (.onlyIf
        (.bind (changes _ (fun _ => rfl) (fun _ => rfl))
          fun _ => works _))
      fun _ => .bind (.read _) fun _ =>
        .bind (.bind gettimeofday_listening fun _ => .pure _) fun _ =>
          .bind (changes _ (fun _ => rfl) (fun _ => rfl)) fun _ =>
            armInactivity_listening
  cases verb with
  | boot board =>
      exact .bind (changes _ (fun _ => rfl) (fun _ => rfl)) fun _ =>
        .bind (works _) fun _ => rest
  | list => exact .bind (works _) fun _ => rest
  | info board => exact .bind (works _) fun _ => rest

theorem run_accounts
    (verb : Verb)
    (statusPipe : Bool)
    (iterations : List Ready) :
    Relates stdoutJournal.Accounts AnyStop
      (run verb statusPipe iterations) :=
  .bind (within_accounts (setUp_listening verb statusPipe))
    fun _ => mainLoop_accounts iterations

theorem run_drained
    (verb : Verb)
    (statusPipe : Bool)
    (iterations : List Ready) :
    Keeps Drained (fun _ _ => True) (run verb statusPipe iterations) :=
  (within_drained _).bind fun _ => mainLoop_drained iterations

theorem start_drained
    (options : ClientOptions)
    (powerCycles : Int)
    (writes : List WriteOutcome)
    (sshStdout : Input)
    (clock : Clock)
    (beyond : UInt8) :
    Drained (start options powerCycles writes sshStdout clock beyond) := by
  unfold Drained
  rw [show (start options powerCycles writes sshStdout clock
    beyond).recvBuf = CircBuf.empty from rfl, contents_empty]
  exact wire.next?_nil

end Client

/-! ## Both directions -/

/--
In every run of the server, and in every run of the client, that has returned
from its wakeups: however the other side's frames were cut into reads and
wakeups, they were received exactly.
-/
theorem framing_lossless :
    (∀ (n : Nat) (devices : Fin n → Device) (username : CString)
        (stdin : Input) (hw : Hw n) (lockOpens flocks : List Bool)
        (iterations : List (List Callback)) (frames : List Msg)
        (final : ServerLoop n),
      watchMainLoop iterations
          (Server.start devices username stdin hw lockOpens flocks) =
        .ok () final →
      final.state.probed = [] →
      stdin.fd.unread = wire.encodeAll frames →
      (∀ frame, frame ∈ frames → frame.data.length ≤ maxPayload) →
      ReceivedExactly frames final.state.dispatched final.recvBuf
        final.state.stdin.fd.unread) ∧
    (∀ (options : ClientOptions) (powerCycles : Int)
        (writes : List WriteOutcome) (sshStdout : Input) (clock : Clock)
        (beyond : UInt8) (verb : Client.Verb) (statusPipe : Bool)
        (iterations : List Ready) (frames : List Msg)
        (final : ClientLoop),
      Client.run verb statusPipe iterations
          (Client.start options powerCycles writes sshStdout clock
            beyond) =
        .ok () final →
      sshStdout.fd.unread = wire.encodeAll frames →
      (∀ frame, frame ∈ frames → frame.data.length ≤ maxPayload) →
      ReceivedExactly frames final.state.dispatched final.recvBuf
        final.state.sshStdout.fd.unread) := by
  constructor
  · intro n devices username stdin hw lockOpens flocks iterations frames
      final ran unprobed sent fits
    have accounts := (watchMainLoop_accounts iterations
      (Server.start devices username stdin hw lockOpens flocks)).related
    have drained := watchMainLoop_drained iterations _
      (start_drained devices username stdin hw lockOpens flocks)
    rw [KeepsAt, ran] at drained
    rw [ran] at accounts
    have stream := (Journal.Accounts.from_start accounts
      contents_empty rfl rfl).2 unprobed
    exact .of_stream (sent.symm.trans stream) drained fits
  · intro options powerCycles writes sshStdout clock beyond verb statusPipe
      iterations frames final ran sent fits
    have accounts := (Client.run_accounts verb statusPipe iterations
      (Client.start options powerCycles writes sshStdout clock
        beyond)).related
    have drained := Client.run_drained verb statusPipe iterations
      (Client.start options powerCycles writes sshStdout clock beyond)
      (Client.start_drained options powerCycles writes sshStdout clock
        beyond)
    rw [KeepsAt, ran] at drained
    rw [ran] at accounts
    have stream := (Journal.Accounts.from_start accounts
      contents_empty rfl rfl).2 rfl
    exact .of_stream (sent.symm.trans stream) drained fits

/-- A line of console data and a power-on request. -/
def twoFrames : List Msg :=
  [Msg.ofData MsgType.console.code (ascii "hello") (by decide),
    Msg.ofData MsgType.powerOn.code [] Msg.nil_fits]

/-- The two frames in pieces, the first of them cut in its payload. -/
def framesInPieces : Input where
  fd := ⟨wire.encodeAll twoFrames, false⟩
  script := [.deliver 3, .wouldBlock, .deliver 100, .wouldBlock]

/-- A server that reads those frames in two wakeups. -/
def serverInPieces : EStateM.Result Stop (ServerLoop 1) Unit :=
  watchMainLoop [[.stdin], [.stdin]] (benchServer framesInPieces [])

/-- A client that reads them, after its first request, in two wakeups. -/
def clientInPieces : EStateM.Result ClientStop ClientLoop Unit :=
  Client.run .list false
    [⟨none, none, true, true⟩, ⟨none, none, true, false⟩]
    (Client.start ⟨0, 0, true, false, none, false, []⟩ 0 [] framesInPieces
      ⟨0, []⟩ 0)

/-- Both of them dispatch the two frames. -/
theorem framesInPieces_received :
    ReceivedExactly twoFrames
        (finalState serverInPieces).state.dispatched
        (finalState serverInPieces).recvBuf
        (finalState serverInPieces).state.stdin.fd.unread ∧
      ReceivedExactly twoFrames
        (finalState clientInPieces).state.dispatched
        (finalState clientInPieces).recvBuf
        (finalState clientInPieces).state.sshStdout.fd.unread :=
  ⟨framing_lossless.1 1 _ _ framesInPieces _ _ _ _ _ _
      (eq_ok_of_returned
        (show returned? serverInPieces = some () by decide +kernel))
      (by decide +kernel) rfl (by decide),
    framing_lossless.2 _ _ _ framesInPieces _ _ _ _ _ _ _
      (eq_ok_of_returned
        (show returned? clientInPieces = some () by decide +kernel))
      rfl (by decide)⟩

end Cdba
