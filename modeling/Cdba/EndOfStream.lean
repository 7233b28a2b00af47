import Cdba.Framing

namespace Cdba

/-!
# The end of the stream

Both receivers stop in the wakeup in which `read()` returns 0.  `circ_fill`
then fails, also when the same call has stored bytes before, and what it has
stored is no longer dispatched.
-/

open Program

/-- The wakeup that is about to start is the one in which `read()` returns 0. -/
def MeetsEnd (input : Component σ Input) (receiver : Receiver σ) : Prop :=
  (circFill (input.get receiver.state) receiver.recvBuf).1 =
    .failed .epipe

/-- In that wakeup the receiver leaves without dispatching anything. -/
theorem receive_meetsEnd
    {journal : Journal σ}
    {leave : ε}
    {dispatch : Msg → EStateM ε σ Unit}
    {receiver : Receiver σ}
    (ends : MeetsEnd journal.input receiver) :
    ∃ final,
      receive journal.input leave dispatch receiver =
          .error leave final ∧
        journal.handled final.state = journal.handled receiver.state := by
  unfold MeetsEnd at ends
  let filled := circFill (journal.input.get receiver.state) receiver.recvBuf
  refine
    ⟨{ state := journal.input.set receiver.state filled.2.2
       recvBuf := filled.2.1 }, ?_, journal.handled_set _ _⟩
  unfold receive
  rw [bind_of_ok (read_apply _ _), bind_of_ok (update_apply _ _)]
  simp only [id, ends]
  rfl

/--
Whoever leaves there has dispatched exactly the frames that were sent, if and
only if its handlers have read none of their bytes and no byte was left for
that wakeup.
-/
theorem Journal.Accounts.dispatched_iff
    {journal : Journal σ}
    {start middle : Receiver σ}
    {frames : List Msg}
    (accounts : journal.Accounts start middle)
    (drained : Drained middle)
    (emptyBuf : start.recvBuf.contents = [])
    (noneHandled : journal.handled start.state = [])
    (noneProbed : journal.probed start.state = [])
    (sent : journal.unread start.state = wire.encodeAll frames) :
    journal.handled middle.state = frames ↔
      journal.probed middle.state = [] ∧
        journal.unread middle.state = [] := by
  obtain ⟨lengths, stream⟩ :=
    accounts.from_start emptyBuf noneHandled noneProbed
  rw [sent] at lengths stream
  simp only [Journal.ahead] at lengths stream
  constructor
  · intro exactly
    rw [exactly, List.length_append] at lengths
    have noneProbed : (journal.probed middle.state).length = 0 := by omega
    have noneLeft : (journal.unread middle.state).length = 0 := by omega
    exact ⟨List.eq_nil_of_length_eq_zero noneProbed,
      List.eq_nil_of_length_eq_zero noneLeft⟩
  · rintro ⟨noneProbed, noneLeft⟩
    have parsed := stream noneProbed
    rw [noneLeft, List.append_nil] at parsed
    exact (FrameFormat.eq_of_encodeAll_eq parsed drained).1.symm

/-! ## The client -/

namespace Client

/-- An iteration of the main loop up to where it looks at standard error. -/
def untilStderr (ready : Ready) : ClientLoopM Ready := do
  let ready ← within Receiver.stateOf (waitReady ready)
  onlyIf ready.tty.isSome
    (within Receiver.stateOf (ttyCallback ready.tty.join))
  pure ready

/-- What follows reads standard error, then the server's messages. -/
theorem iteration_eq
    (ready : Ready) :
    iteration ready =
      (do
        let ready ← untilStderr ready
        match ready.stderr with
        | some .eof => stop .leaveLoop
        | some .wouldBlock => pure ()
        | some .fail => stop .leaveLoop
        | some .data => serve ready
        | none => serve ready) := by
  unfold iteration untilStderr
  rw [bind_assoc]
  refine bind_congr fun reported => ?_
  rw [bind_assoc]
  exact bind_congr fun _ => rfl

theorem untilStderr_accounts
    (ready : Ready) :
    Relates stdoutJournal.Accounts AnyStop (untilStderr ready) :=
  .bind (within_accounts (waitReady_listening ready)) fun _ =>
    .bind
      (.onlyIf
        (within_accounts (listening_of_serving (ttyCallback_serves _))))
      fun _ => .pure _

theorem untilStderr_drained
    (ready : Ready) :
    Keeps Drained (fun _ _ => True) (untilStderr ready) :=
  (within_drained _).bind fun _ =>
    (Keeps.onlyIf (within_drained _)).bind fun _ => .pure _

end Client

/-! ## Both directions -/

/--
When the peer has sent whole frames and closed its end, and `read()` reports
that end: the server, and the client, have dispatched all frames when they
leave, if and only if no byte of them was left for that last wakeup and, on the
server, no wait for a lock has read any.
-/
theorem endOfStream_dispatched_iff
    (frames : List Msg) :
    (∀ (n : Nat) (devices : Fin n → Device) (username : CString)
        (stdin : Input) (hw : Hw n) (lockOpens flocks : List Bool)
        (earlier : List (List Callback)) (before : List Callback)
        (middle : ServerLoop n),
      (do watchMainLoop earlier; iteration before)
          (Server.start devices username stdin hw lockOpens flocks) =
        .ok () middle →
      MeetsEnd Server.stdinOf middle →
      stdin.fd.unread = wire.encodeAll frames →
      ∃ final,
        handleStdin middle = .error .leaveLoop final ∧
          (final.state.dispatched = frames ↔
            middle.state.probed = [] ∧
              middle.state.stdin.fd.unread = [])) ∧
    (∀ (options : ClientOptions) (powerCycles : Int)
        (writes : List WriteOutcome) (sshStdout : Input) (clock : Clock)
        (beyond : UInt8) (verb : Client.Verb) (statusPipe : Bool)
        (earlier : List Ready) (ready reported : Ready)
        (middle : ClientLoop),
      (do Client.run verb statusPipe earlier; Client.untilStderr ready)
          (Client.start options powerCycles writes sshStdout clock
            beyond) =
        .ok reported middle →
      MeetsEnd Client.sshStdoutOf middle →
      sshStdout.fd.unread = wire.encodeAll frames →
      ∃ final,
        Client.handleMessage middle = .error .leaveLoop final ∧
          (final.state.dispatched = frames ↔
            middle.state.sshStdout.fd.unread = [])) := by
  constructor
  · intro n devices username stdin hw lockOpens flocks earlier before
      middle reached ends sent
    let start := Server.start devices username stdin hw lockOpens flocks
    have accounts : stdinJournal.Accounts start middle := by
      have related := (Relates.bind (watchMainLoop_accounts earlier)
        (fun _ => iteration_accounts before) start).related
      rwa [reached] at related
    have drained : Drained middle := by
      have kept := ((watchMainLoop_drained earlier).bind
        (fun _ => iteration_drained before)) start
        (start_drained devices username stdin hw lockOpens flocks)
      rwa [KeepsAt, reached] at kept
    have ends : MeetsEnd stdinJournal.input middle := ends
    obtain ⟨final, leaves, same⟩ := receive_meetsEnd ends
    exact ⟨final, leaves, by
      rw [show final.state.dispatched = middle.state.dispatched from same]
      exact accounts.dispatched_iff drained contents_empty rfl rfl sent⟩
  · intro options powerCycles writes sshStdout clock beyond verb statusPipe
      earlier ready reported middle reached ends sent
    let start := Client.start options powerCycles writes sshStdout clock
      beyond
    have accounts : Client.stdoutJournal.Accounts start middle := by
      have related := (Relates.bind
        (Client.run_accounts verb statusPipe earlier)
        (fun _ => Client.untilStderr_accounts ready) start).related
      rwa [reached] at related
    have drained : Drained middle := by
      have kept := ((Client.run_drained verb statusPipe earlier).bind
        (fun _ => Client.untilStderr_drained ready)) start
        (Client.start_drained options powerCycles writes sshStdout clock
          beyond)
      rwa [KeepsAt, reached] at kept
    have ends : MeetsEnd Client.stdoutJournal.input middle := ends
    obtain ⟨final, leaves, same⟩ := receive_meetsEnd ends
    refine ⟨final, leaves, ?_⟩
    rw [show final.state.dispatched = middle.state.dispatched from same]
    exact (accounts.dispatched_iff drained contents_empty rfl rfl
      sent).trans (and_iff_right rfl)

/-! ## One frame before the end -/

/-- The selection of a board from a client that closes its end right behind it. -/
def lastFrame (script : List ReadChoice) : Input where
  fd := ⟨wire.encodeAll [selectFtdiBoard], true⟩
  script := script

/-- A server that reads it. -/
def serverAtEnd (script : List ReadChoice) : ServerLoop 1 :=
  benchServer (lastFrame script) []

/-- A client that reads it, as a frame of the server's. -/
def clientAtEnd (script : List ReadChoice) : ClientLoop :=
  Client.start ⟨0, 0, true, false, none, false, []⟩ 0 [] (lastFrame script)
    ⟨0, []⟩ 0

/-- `select()` finds only the server's messages. -/
def messagesReady : Ready :=
  ⟨none, none, true, false⟩

/-- The end arrives in a wakeup of its own. -/
def endAlone : List ReadChoice :=
  [.deliver 100, .wouldBlock, .hangUp]

/-- The end arrives together with the frame. -/
def endWithFrame : List ReadChoice :=
  [.deliver 100, .hangUp]

/-- In a wakeup of its own the end costs nothing. -/
theorem endAlone_dispatched :
    (∃ final,
      handleStdin
          (finalState
            ((do watchMainLoop [[.stdin]]; iteration [])
              (serverAtEnd endAlone))) =
        .error .leaveLoop final ∧
      final.state.dispatched = [selectFtdiBoard]) ∧
    (∃ final,
      Client.handleMessage
          (finalState
            ((do
                Client.run .list false [messagesReady]
                Client.untilStderr messagesReady)
              (clientAtEnd endAlone))) =
        .error .leaveLoop final ∧
      final.state.dispatched = [selectFtdiBoard]) := by
  constructor
  · obtain ⟨final, leaves, exactly⟩ :=
      (endOfStream_dispatched_iff [selectFtdiBoard]).1 1 _ _
        (lastFrame endAlone) _ _ _ _ _ _
        (eq_ok_of_returned
          (show returned?
              ((do watchMainLoop [[.stdin]]; iteration [])
                (serverAtEnd endAlone)) = some () by decide +kernel))
        (show MeetsEnd _ _ by unfold MeetsEnd; decide +kernel) rfl
    exact ⟨final, leaves, exactly.mpr (by decide +kernel)⟩
  · obtain ⟨final, leaves, exactly⟩ :=
      (endOfStream_dispatched_iff [selectFtdiBoard]).2 _ _ _
        (lastFrame endAlone) _ _ _ _ _ _ messagesReady _
        (eq_ok_of_returned
          (show returned?
              ((do
                  Client.run .list false [messagesReady]
                  Client.untilStderr messagesReady)
                (clientAtEnd endAlone)) = some messagesReady
            by decide +kernel))
        (show MeetsEnd _ _ by unfold MeetsEnd; decide +kernel) rfl
    exact ⟨final, leaves, exactly.mpr (by decide +kernel)⟩

/--
Together with the end the frame is read, but neither side dispatches it before
it leaves its loop.
-/
theorem endWithFrame_lost :
    let server := watchMainLoop [[.stdin]] (serverAtEnd endWithFrame)
    let client := Client.run .list false [messagesReady]
      (clientAtEnd endWithFrame)
    (stopped? server = some .leaveLoop ∧
      (finalState server).recvBuf.contents =
        wire.encodeAll [selectFtdiBoard] ∧
      (finalState server).state.dispatched = []) ∧
    (stopped? client = some .leaveLoop ∧
      (finalState client).recvBuf.contents =
        wire.encodeAll [selectFtdiBoard] ∧
      (finalState client).state.dispatched = []) := by
  decide +kernel

end Cdba
