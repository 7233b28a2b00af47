import Cdba.ClientTurns
import Cdba.Exchange
import Cdba.Outgoing
import Cdba.PowerDown

namespace Cdba

/-!
# The two programs talking

`cdba` starts `cdba-server` behind `ssh`, which joins the standard input and
output of the server to pipes of the client.  The two take turns in any order;
a turn is one iteration of a main loop.  What one of them writes is on its way
to the other one, which reads as much of it as the kernel has for it, in pieces
that the kernel chooses.  A program that leaves closes its end.
-/

open Program

variable {n : Nat}

/-! ## Pipes -/

/-- Bytes are written to a pipe, whose writer may close it then. -/
def Input.hear (bytes : List UInt8) (closes : Bool) (input : Input) :
    Input where
  fd := ⟨input.fd.unread ++ bytes, input.fd.closed || closes⟩
  script := input.script

/-- The kernel's choices for the next reads. -/
def Input.reading (reads : List ReadChoice) (input : Input) : Input where
  fd := input.fd
  script := reads

/-- An open pipe to which nothing was written. -/
def Input.silent : Input where
  fd := ⟨[], false⟩
  script := []

/-- Something happens to the descriptor a receiver reads from. -/
def Receiver.onInput
    (input : Component σ Input)
    (change : Input → Input)
    (receiver : Receiver σ) :
    Receiver σ where
  state := input.set receiver.state (change (input.get receiver.state))
  recvBuf := receiver.recvBuf

/-- A receiver that also writes is a party to an exchange of messages. -/
def Journal.party
    (journal : Journal σ)
    (sent : σ → List UInt8) :
    Party UInt8 Msg (Receiver σ) where
  sent := fun receiver => sent receiver.state
  handled := fun receiver => journal.handled receiver.state
  ahead := journal.ahead
  intact := fun receiver => journal.probed receiver.state = []

section Party

variable {journal : Journal σ} {sent : σ → List UInt8}

/-- A receiver that accounts for its stream takes whole frames off it. -/
theorem Journal.Accounts.steps
    {first last : Receiver σ}
    (accounts : journal.Accounts first last)
    (sends : sent first.state <+: sent last.state) :
    (journal.party sent).Steps wire first last := by
  obtain ⟨messages, lost, handled, probed, _, stream⟩ := accounts
  refine ⟨sends, fun intact => ?_, fun intact => ?_⟩
  · exact (List.append_eq_nil_iff.mp (probed.symm.trans intact)).1
  · exact ⟨messages, handled,
      stream (List.append_eq_nil_iff.mp (probed.symm.trans intact)).2⟩

/-- What is written to the descriptor of a receiver is ahead of it. -/
theorem Journal.hears
    (keeps : ∀ state input, sent (journal.input.set state input) = sent state)
    (bytes : List UInt8)
    (closes : Bool)
    (receiver : Receiver σ) :
    (journal.party sent).Hears bytes receiver
      (receiver.onInput journal.input (Input.hear bytes closes)) where
  sent := keeps _ _
  handled := journal.handled_set _ _
  ahead := by
    simp only [Journal.party, Journal.ahead, Journal.unread,
      Receiver.onInput, journal.input.get_set, Input.hear,
      List.append_assoc]
  intact := fun intact => (journal.probed_set _ _).symm.trans intact

/-- Nothing is read or written while the kernel makes its choices. -/
theorem Journal.reading
    (keeps : ∀ state input, sent (journal.input.set state input) = sent state)
    (reads : List ReadChoice)
    (receiver : Receiver σ) :
    (journal.party sent).Steps wire receiver
      (receiver.onInput journal.input (Input.reading reads)) where
  sends := ⟨[], (List.append_nil _).trans (keeps _ _).symm⟩
  intact := fun intact => (journal.probed_set _ _).symm.trans intact
  takes := by
    intro _
    refine ⟨[], ?_, ?_⟩
    · simp only [Journal.party, Receiver.onInput, journal.handled_set,
        List.append_nil]
    · simp only [Journal.party, Journal.ahead, Journal.unread,
        Receiver.onInput, journal.input.get_set, Input.reading,
        FrameFormat.encodeAll_nil, List.nil_append]

end Party

/-! ## The conversation -/

/-- The two programs, which of them have left, and what was typed so far. -/
structure Conversation (n : Nat) where
  client : ClientLoop
  server : ServerLoop n
  clientLeft : Bool
  serverLeft : Bool
  typed : List UInt8

/--
An iteration of a main loop, and how the reads in it go.  The lines that a status
timer sends are among those of the control driver.
-/
inductive Turn where
  | client (ready : Ready) (reads : List ReadChoice)
  | server (ready : List Callback) (reads : List ReadChoice)

/-- What the server has written to its standard output. -/
def Server.written (server : Server n) : List UInt8 :=
  (server.hw.log.map Stamped.value).flatMap Event.written

/-- Whether the client has left its main loop after an iteration. -/
def Client.leaves : EStateM.Result ClientStop ClientLoop Unit → Bool
  | .ok _ loop => loop.state.quit
  | .error _ _ => true

/-- Whether the server process has ended after an iteration. -/
def serverLeaves
    (result : EStateM.Result Stop (ServerLoop n) Unit) :
    Bool :=
  (endOfProcess? result).isSome || (stopped? result).isSome

namespace Conversation

/--
One iteration of the client.  As long as `select()` blocks there is none.  A
client that runs on without end does not close its end.
-/
def clientTurn
    (ready : Ready)
    (reads : List ReadChoice)
    (talk : Conversation n) :
    Conversation n :=
  let begun :=
    talk.client.onInput Client.sshStdoutOf (Input.reading reads)
  let result := Client.mainLoop [ready] begun
  if talk.clientLeft = true ∨ stopped? result = some .blocked then
    talk
  else
    { client := finalState result
      server :=
        talk.server.onInput Server.stdinOf
          (Input.hear
            ((finalState result).state.sshStdin.drop
              talk.client.state.sshStdin.length)
            (Client.leaves result && stopped? result ≠ some .diverges))
      clientLeft := Client.leaves result
      serverLeft := talk.serverLeft
      typed := talk.typed ++ Client.charsRead ready begun.state }

/-- What an iteration of the server leaves, with the end of the process. -/
def endOfTurn
    (result : EStateM.Result Stop (ServerLoop n) Unit) :
    ServerLoop n where
  state := (endOfProcess? result).getD (finalState result).state
  recvBuf := (finalState result).recvBuf

/-- One iteration of the server, and what `main` does behind its loop. -/
def serverTurn
    (ready : List Callback)
    (reads : List ReadChoice)
    (talk : Conversation n) :
    Conversation n :=
  let begun := talk.server.onInput Server.stdinOf (Input.reading reads)
  let result := watchMainLoop [ready] begun
  if talk.serverLeft = true then
    talk
  else
    { client :=
        talk.client.onInput Client.sshStdoutOf
          (Input.hear
            ((endOfTurn result).state.written.drop
              talk.server.state.written.length)
            (serverLeaves result && stopped? result ≠ some .diverges))
      server := endOfTurn result
      clientLeft := talk.clientLeft
      serverLeft := serverLeaves result
      typed := talk.typed }

/-- A turn of either program. -/
def turn (talk : Conversation n) : Turn → Conversation n
  | .client ready reads => talk.clientTurn ready reads
  | .server ready reads => talk.serverTurn ready reads

/-- Any number of turns, in the given order. -/
def after (talk : Conversation n) (turns : List Turn) : Conversation n :=
  turns.foldl turn talk

end Conversation

/-- How the client was started. -/
structure Call where
  verb : Client.Verb
  statusPipe : Bool
  options : ClientOptions
  powerCycles : Int
  writes : List WriteOutcome
  clock : Clock
  beyond : UInt8

/-- Where the server was started, and by whom. -/
structure Host (n : Nat) where
  devices : Fin n → Device
  username : CString
  hw : Hw n
  lockOpens : List Bool
  flocks : List Bool

/-- The client in front of its main loop. -/
def Call.client (call : Call) : Client :=
  finalState
    (Client.setUp call.verb call.statusPipe
      (Client.initial call.options call.powerCycles call.writes
        Input.silent call.clock call.beyond))

/-- The client has not done anything but look at its command line. -/
theorem Call.client_fresh
    (call : Call) :
    call.client.turnParts =
        ([], false, fun _ => false, call.statusPipe, [], [], false,
          some call.verb.work ::
            if call.statusPipe then [some .statusEnable] else [],
          call.writes, call.options, []) ∧
      call.client.sshStdout = Input.silent := by
  obtain ⟨ready, ran, parts⟩ := Client.setUp_asks call.verb
    call.statusPipe call.options call.powerCycles call.writes
    Input.silent call.clock call.beyond
  rw [Call.client, ran]
  exact parts

/-- The server in front of its main loop. -/
def Host.server (host : Host n) : ServerLoop n :=
  Server.start host.devices host.username Input.silent host.hw
    host.lockOpens host.flocks

/-- Both programs have been set up. -/
def Conversation.start (call : Call) (host : Host n) : Conversation n where
  client := ⟨call.client, CircBuf.empty⟩
  server := host.server
  clientLeft := false
  serverLeft := false
  typed := []

/-! ## Invariants of a conversation -/

namespace Conversation

/-- What every turn keeps holds however the turns go. -/
theorem after_keeps
    (invariant : Conversation n → Prop)
    {talk : Conversation n}
    {turns : List Turn}
    (holds : invariant talk)
    (keeps :
      ∀ next, next ∈ turns →
        ∀ talk, invariant talk → invariant (talk.turn next)) :
    invariant (talk.after turns) := by
  induction turns generalizing talk with
  | nil =>
      exact holds
  | cons next rest inductionHypothesis =>
      exact inductionHypothesis (keeps next List.mem_cons_self talk holds)
        fun later member => keeps later (List.mem_cons_of_mem _ member)

/-- The process ends where the loop did, or closes the selected device. -/
theorem endOfTurn_state
    (result : EStateM.Result Stop (ServerLoop n) Unit) :
    (endOfTurn result).state = (finalState result).state ∨
      (endOfTurn result).state =
        finalState (closeSelected (finalState result).state) := by
  unfold endOfTurn endOfProcess?
  dsimp only
  split
  · split
    · exact .inr rfl
    · exact .inl rfl
  · exact .inr rfl
  · exact .inl rfl
  · exact .inl rfl

/-- A server that has not ended has come back from its iteration. -/
theorem returns_of_stays
    {result : EStateM.Result Stop (ServerLoop n) Unit}
    (stays : serverLeaves result = false) :
    ∃ final,
      result = .ok () final ∧ (endOfTurn result).state = final.state := by
  cases result with
  | ok value final =>
      refine ⟨final, rfl, ?_⟩
      simp only [serverLeaves, endOfProcess?, stopped?, Option.isSome_none,
        Bool.or_false] at stays
      simp only [endOfTurn, endOfProcess?]
      split
      · rename_i quits
        simp [quits] at stays
      · rfl
  | error reason final =>
      simp [serverLeaves, stopped?] at stays

/--
What holds of the server as long as it runs, and from the end of its process on.
Bytes arrive all the time; an iteration may end the process, behind which the
selected device is closed.
-/
theorem after_server
    (talk : Conversation n)
    (turns : List Turn)
    (running ended : Server n → Prop)
    (holds : running talk.server.state)
    (ends : ∀ server, running server → ended server)
    (arrives :
      ∀ server input,
        (running server → running (Server.stdinOf.set server input)) ∧
          (ended server → ended (Server.stdinOf.set server input)))
    (iterates :
      ∀ ready reads, .server ready reads ∈ turns →
        Keeps (fun loop : ServerLoop n => running loop.state)
          (fun _ loop => ended loop.state) (watchMainLoop [ready]))
    (closes :
      ∀ server, ended server → ended (finalState (closeSelected server))) :
    ((talk.after turns).serverLeft = false →
        running (talk.after turns).server.state) ∧
      ended (talk.after turns).server.state := by
  refine after_keeps
    (fun talk =>
      (talk.serverLeft = false → running talk.server.state) ∧
        ended talk.server.state)
    ⟨fun _ => holds, ends _ holds⟩ fun next member talk both => ?_
  obtain ⟨runs, finished⟩ := both
  cases next with
  | client ready reads =>
      unfold turn clientTurn
      dsimp only
      split
      · exact ⟨runs, finished⟩
      · exact ⟨fun stays => (arrives _ _).1 (runs stays),
          (arrives _ _).2 finished⟩
  | server ready reads =>
      unfold turn serverTurn
      dsimp only
      split
      · exact ⟨runs, finished⟩
      · rename_i left
        have run := iterates ready reads member
          (talk.server.onInput Server.stdinOf (Input.reading reads))
          ((arrives _ _).1 (runs (eq_false_of_ne_true left)))
        unfold KeepsAt at run
        generalize watchMainLoop [ready]
          (talk.server.onInput Server.stdinOf (Input.reading reads)) =
            result at run
        have leaves : ended (finalState result).state := by
          cases result with
          | ok value final => exact ends _ run
          | error reason final => exact run
        constructor
        · intro stays
          obtain ⟨final, rfl, same⟩ := returns_of_stays stays
          exact same ▸ run
        · rcases endOfTurn_state result with same | closed
          · exact same ▸ leaves
          · exact closed ▸ closes _ leaves

/--
An invariant of the server that neither arriving bytes nor an iteration nor
closing the selected device breaks.
-/
theorem after_keeps_server
    (invariant : Server n → Prop)
    {talk : Conversation n}
    {turns : List Turn}
    (holds : invariant talk.server.state)
    (arrives :
      ∀ server input, invariant server →
        invariant (Server.stdinOf.set server input))
    (iterates :
      ∀ ready reads, .server ready reads ∈ turns →
        ∀ loop : ServerLoop n, invariant loop.state →
          invariant (finalState (watchMainLoop [ready] loop)).state)
    (closes :
      ∀ server, invariant server →
        invariant (finalState (closeSelected server))) :
    invariant (talk.after turns).server.state := by
  refine (after_server talk turns invariant invariant holds (fun _ => id)
    (fun server input => ⟨arrives server input, arrives server input⟩)
    (fun ready reads member loop holds => ?_) closes).2
  exact .of_final (iterates ready reads member loop holds)

/-- An invariant of the client and of what was typed. -/
theorem after_keeps_client
    (invariant : List UInt8 → Client → Prop)
    {talk : Conversation n}
    {turns : List Turn}
    (holds : invariant talk.typed talk.client.state)
    (arrives :
      ∀ typed client input, invariant typed client →
        invariant typed (Client.sshStdoutOf.set client input))
    (iterates :
      ∀ ready typed (loop : ClientLoop), invariant typed loop.state →
        invariant (typed ++ Client.charsRead ready loop.state)
          (finalState (Client.mainLoop [ready] loop)).state) :
    invariant (talk.after turns).typed (talk.after turns).client.state := by
  refine after_keeps (fun talk => invariant talk.typed talk.client.state)
    holds fun next _ talk holds => ?_
  cases next with
  | client ready reads =>
      unfold turn clientTurn
      dsimp only
      split
      · exact holds
      · exact iterates ready _ _ (arrives _ _ _ holds)
  | server ready reads =>
      unfold turn serverTurn
      dsimp only
      split
      · exact holds
      · exact arrives _ _ _ holds

end Conversation

/-! ## Delivery -/

/-- The client, as far as the two streams go. -/
def clientParty : Party UInt8 Msg ClientLoop :=
  Client.stdoutJournal.party Client.sshStdin

/-- The server, as far as the two streams go. -/
def serverParty : Party UInt8 Msg (ServerLoop n) :=
  stdinJournal.party Server.written

theorem written_of_extends
    {first last : Server n}
    (extended : first.hw.Extends last.hw) :
    first.written <+: last.written := by
  unfold Server.written
  rw [extended.log_eq, List.map_append, List.flatMap_append]
  exact List.prefix_append _ _

/-- Nothing that is written in an iteration is ever taken back. -/
theorem endOfTurn_written
    (ready : List Callback)
    (loop : ServerLoop n) :
    loop.state.written <+:
      (Conversation.endOfTurn (watchMainLoop [ready] loop)).state.written := by
  have iterated := watchMainLoop_guards (everything_publishes _ _)
    (fun _ _ _ => trivial) (everything_forwardsAll [ready])
    (everything_guards loop.state)
  rcases Conversation.endOfTurn_state (watchMainLoop [ready] loop) with
    same | closed
  · rw [same]
    exact written_of_extends iterated.hw.extended
  · rw [closed]
    exact written_of_extends (closeSelected_guards iterated).hw.extended

/-- An iteration of the client takes frames off its stream, and writes. -/
theorem clientTurn_steps
    (ready : Ready)
    (reads : List ReadChoice)
    (loop : ClientLoop) :
    clientParty.Steps wire loop
      (finalState (Client.mainLoop [ready]
        (loop.onInput Client.sshStdoutOf (Input.reading reads)))) := by
  have reading :
      clientParty.Steps wire loop
        (loop.onInput Client.sshStdoutOf (Input.reading reads)) :=
    Journal.reading (fun _ _ => rfl) reads loop
  obtain ⟨_, passes⟩ := Client.mainLoop_proceeds ready
    (loop.onInput Client.sshStdoutOf (Input.reading reads))
  exact reading.trans
    ((Client.mainLoop_accounts [ready] _).related.steps passes.appended)

/-- So does an iteration of the server. -/
theorem serverTurn_steps
    (ready : List Callback)
    (reads : List ReadChoice)
    (loop : ServerLoop n) :
    serverParty.Steps wire loop
      (Conversation.endOfTurn (watchMainLoop [ready]
        (loop.onInput Server.stdinOf (Input.reading reads)))) := by
  have reading :
      serverParty.Steps wire loop
        (loop.onInput Server.stdinOf (Input.reading reads)) :=
    Journal.reading (fun _ _ => rfl) reads loop
  refine reading.trans ?_
  generalize loop.onInput Server.stdinOf (Input.reading reads) = begun
  have accounts := (watchMainLoop_accounts [ready] begun).related
  have sends := endOfTurn_written ready begun
  refine Journal.Accounts.steps (Composes.trans accounts ?_) sends
  refine Journal.Accounts.of_handles rfl ?_
  rcases Conversation.endOfTurn_state (watchMainLoop [ready] begun) with
    same | closed
  · rw [same]
    exact Composes.refl _
  · rw [closed]
    exact (closeSelected_continues _).related.handles

namespace Conversation

/-- Every turn is a turn of two parties that are joined by two streams. -/
theorem turn_joined
    (next : Turn)
    (talk : Conversation n) :
    Relation.ReflTransGen (Party.Turn wire clientParty serverParty)
      (talk.client, talk.server)
      ((talk.turn next).client, (talk.turn next).server) := by
  cases next with
  | client ready reads =>
      unfold turn clientTurn
      dsimp only
      split
      · exact .refl
      · have steps := clientTurn_steps ready reads talk.client
        have hears :
            ∀ bytes closes,
              serverParty.Hears bytes talk.server
                (talk.server.onInput Server.stdinOf
                  (Input.hear bytes closes)) :=
          fun bytes closes => Journal.hears (fun _ _ => rfl) bytes closes _
        exact .single (.left steps
          (List.prefix_iff_eq_append.mp steps.sends).symm (hears _ _))
  | server ready reads =>
      unfold turn serverTurn
      dsimp only
      split
      · exact .refl
      · have steps := serverTurn_steps ready reads talk.server
        have hears :
            ∀ bytes closes,
              clientParty.Hears bytes talk.client
                (talk.client.onInput Client.sshStdoutOf
                  (Input.hear bytes closes)) :=
          fun bytes closes => Journal.hears (fun _ _ => rfl) bytes closes _
        exact .single (.right steps
          (List.prefix_iff_eq_append.mp steps.sends).symm (hears _ _))

theorem after_joined
    (turns : List Turn)
    (talk : Conversation n) :
    Relation.ReflTransGen (Party.Turn wire clientParty serverParty)
      (talk.client, talk.server)
      ((talk.after turns).client, (talk.after turns).server) := by
  induction turns generalizing talk with
  | nil =>
      exact .refl
  | cons next rest inductionHypothesis =>
      exact (turn_joined next talk).trans (inductionHypothesis _)

/-- In front of their main loops neither has written or read anything. -/
theorem start_joined
    (call : Call)
    (host : Host n) :
    Party.Joined wire clientParty serverParty
      ((start call host).client, (start call host).server) := by
  obtain ⟨parts, unread⟩ := call.client_fresh
  simp only [Client.turnParts, Prod.mk.injEq] at parts
  obtain ⟨sshStdin, _, _, _, dispatched, _⟩ := parts
  refine .start wire clientParty serverParty sshStdin rfl
    ⟨dispatched, ?_⟩ ⟨rfl, ?_⟩
  · simp only [clientParty, Journal.party, Journal.ahead, Journal.unread,
      start, Client.stdoutJournal, Client.sshStdoutOf, contents_empty,
      unread]
    rfl
  · simp only [serverParty, Journal.party, Journal.ahead, start,
      Host.server, Server.start, contents_empty]
    rfl

end Conversation

/--
Whatever is typed, whatever happens to the devices, and however the turns of
the two programs and the reads in them interleave: what the server has written
is the messages the client has dispatched, and then the bytes still on their
way to it.  The same holds the other way, as long as the wait for a board's
lock has not thrown bytes away.
-/
theorem conversation_delivers
    (call : Call)
    (host : Host n)
    (turns : List Turn) :
    let talk := (Conversation.start call host).after turns
    talk.server.state.written =
        wire.encodeAll talk.client.state.dispatched ++
          talk.client.recvBuf.contents ++
            talk.client.state.sshStdout.fd.unread ∧
      (talk.server.state.probed = [] →
        talk.client.state.sshStdin =
          wire.encodeAll talk.server.state.dispatched ++
            talk.server.recvBuf.contents ++
              talk.server.state.stdin.fd.unread) := by
  intro talk
  have joined := (Conversation.start_joined call host).turns
    (Conversation.after_joined turns (Conversation.start call host))
  refine ⟨?_, fun intact => ?_⟩
  · exact (joined.toLeft rfl).trans (List.append_assoc _ _ _).symm
  · exact (joined.toRight intact).trans (List.append_assoc _ _ _).symm

end Cdba
