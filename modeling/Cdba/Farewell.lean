import Cdba.RemoteConsole

namespace Cdba

/-!
# How a conversation leaves the board

A client only sends messages the server knows, selects its board once, and
never asks for what makes the server exit.  So a server that it talks to never
leaves a board open: when its process ends, the board is powered down.
-/

open Program

variable {n : Nat}

/-- A client that has selected its board stays with it. -/
theorem Requests.staysWithBoard
    {call : Call}
    {typed : List UInt8}
    {requests : List Msg}
    (asks : Requests call typed requests)
    (hw : Hw n)
    (username : CString) :
    StaysWithBoard hw username requests := by
  intro before msg after shape opens later member
  have inRequests : later ∈ requests := by
    rw [shape]
    exact List.mem_append_right _ (List.mem_cons_of_mem _ member)
  have noQuestions : after.filterMap question? = [] := by
    have questions := asks.questions
    rw [shape, List.filterMap_append,
      List.filterMap_cons_some (question?_select opens.1)] at questions
    rcases questions with none | one
    · exact absurd none (by simp)
    · have alone := congrArg List.length one
      rw [List.length_append, List.length_cons] at alone
      exact List.length_eq_zero_iff.mp (by
        rw [List.length_singleton] at alone
        omega)
  have known := asks.known later inRequests
  unfold Msg.leavesBoard
  unfold Client.content? at known
  cases decoded : MsgType.ofCode? later.type with
  | none =>
      rw [decoded] at known
      cases known
  | some type =>
      have noSelect : type ≠ .selectBoard := by
        rintro rfl
        have asked := List.filterMap_eq_nil_iff.mp noQuestions later member
        rw [question?_select decoded] at asked
        cases asked
      have noReboot : type ≠ .fastbootReboot := by
        rintro rfl
        have content :
            (MsgType.fastbootReboot, later.data) ∈
              Client.ofTypes Client.onlyTyped
                (requests.filterMap Client.content?) := by
          refine List.mem_filter.mpr ⟨List.mem_filterMap.mpr
            ⟨later, inRequests, ?_⟩, rfl⟩
          rw [Client.content?, decoded]
          rfl
        rw [asks.typed] at content
        obtain ⟨stroke, stroked, sent⟩ :=
          List.mem_filterMap.mp (List.mem_filter.mp content).1
        cases stroke with
        | quit => cases sent
        | send type payload =>
            cases sent
            exact (Client.typing_sends stroked).2.2 rfl
      simp [noSelect, noReboot, MsgType.exits]

/-- The first messages of a session that stays with its board stay with it. -/
theorem StaysWithBoard.of_begins
    {hw : Hw n}
    {username : CString}
    {messages more : List Msg}
    (stays : StaysWithBoard hw username more)
    (begins : messages <+: more) :
    StaysWithBoard hw username messages := by
  obtain ⟨rest, rfl⟩ := begins
  rintro before msg after rfl opens later member
  refine stays before msg (after ++ rest) ?_ opens later
    (List.mem_append_left _ member)
  rw [List.append_assoc, List.cons_append]

namespace Conversation

/-- As long as the server runs, what it does is on the board it has selected. -/
theorem server_between
    (call : Call)
    {host : Host n}
    (granted : ∀ resource, false ∉ host.hw.grants resource)
    (turns : List Turn) :
    ((start call host).after turns).serverLeft = false →
      Between host.server.state
        ((start call host).after turns).server.state := by
  have fresh : Between host.server.state host.server.state := by
    intro _
    refine ⟨Permission.guards_start _ _ _ _ _ _ _, ?_⟩
    simp [Host.server, Server.start]
  refine (after_server (start call host) turns (Between host.server.state)
    (fun _ => True) fresh (fun _ _ => trivial) ?_ ?_ ?_).1
  · refine fun server input => ⟨fun between stays => ?_, fun _ => trivial⟩
    have holding := between stays
    exact ⟨⟨holding.guards.hw, holding.guards.selected,
      holding.guards.username⟩, holding.opened⟩
  · exact fun ready _ _ loop between =>
      (@watchMainLoop_between _ host.server.state granted [ready] loop
        between).mono
        (fun _ => id) fun _ _ _ => trivial
  · exact fun _ _ => trivial

/-- The server behind a turn of its own. -/
theorem after_serverTurn
    {talk : Conversation n}
    {turns : List Turn}
    (runs : (talk.after turns).serverLeft = false)
    (ready : List Callback)
    (reads : List ReadChoice) :
    (talk.after (turns ++ [.server ready reads])).server =
      endOfTurn
        (watchMainLoop [ready]
          ((talk.after turns).server.onInput Server.stdinOf
            (Input.reading reads))) := by
  rw [after, List.foldl_append]
  show ((talk.after turns).serverTurn ready reads).server = _
  unfold serverTurn
  rw [if_neg (by simp [runs])]

end Conversation

/-- The process has ended with the messages that the loop has dispatched. -/
theorem endOfProcess?_dispatched
    {result : EStateM.Result Stop (ServerLoop n) Unit}
    {ended : Server n}
    (ends : endOfProcess? result = some ended) :
    (finalState result).state.dispatched = ended.dispatched := by
  have state : (Conversation.endOfTurn result).state = ended := by
    rw [Conversation.endOfTurn, ends]
    rfl
  rcases Conversation.endOfTurn_state result with same | closed
  · rw [← state, same]
  · have closing :
        Relates Server.Continues Stop.Any (closeSelected (n := n)) :=
      closeSelected_continues
    rw [← state, closed]
    exact (closing _).related.sameSession.dispatched.symm

section Ending

variable {call : Call} {host : Host n} {turns : List Turn}
variable {ready : List Callback} {reads : List ReadChoice}
variable {ended : Server n}

/-- Where the server's process ends, it has left its boards powered down. -/
theorem Conversation.ended_poweredDown
    (fits : Client.VerbFits call.verb)
    (writable : ∀ outcome, outcome ∈ call.writes → outcome = .done)
    (granted : ∀ resource, false ∉ host.hw.grants resource)
    (runs : ((Conversation.start call host).after turns).serverLeft = false)
    (ends :
      endOfProcess?
          (watchMainLoop [ready]
            (((Conversation.start call host).after turns).server.onInput
              Server.stdinOf (Input.reading reads))) =
        some ended)
    (unprobed : ended.probed = []) :
    ∀ device, ended.hw.Opened device → PoweredDown device ended.hw := by
  have turned := Conversation.after_serverTurn runs ready reads
  have between := Conversation.server_between call granted turns runs
  generalize begunIs :
    ((Conversation.start call host).after turns).server.onInput
      Server.stdinOf (Input.reading reads) = begun at ends turned
  have begins : Between host.server.state begun.state := by
    rw [← begunIs]
    intro stays
    have holding := between stays
    exact ⟨⟨holding.guards.hw, holding.guards.selected,
      holding.guards.username⟩, holding.opened⟩
  have run :=
    @watchMainLoop_between _ host.server.state granted [ready] begun begins
  unfold KeepsAt at run
  generalize watchMainLoop [ready] begun = result at ends turned run
  have state : (Conversation.endOfTurn result).state = ended := by
    rw [Conversation.endOfTurn, ends]
    rfl
  obtain ⟨requests, written, asks⟩ :=
    Conversation.client_requests host (turns ++ [.server ready reads]) fits
      writable
  have dispatched :=
    Conversation.server_dispatched (by rw [turned, state]; exact unprobed)
      written
  rw [turned, state] at dispatched
  have stays :
      StaysWithBoard host.server.state.hw host.server.state.username
        (finalState result).state.dispatched := by
    rw [endOfProcess?_dispatched ends]
    exact (asks.staysWithBoard _ _).of_begins dispatched
  -- The three ways in which the process ends by itself.
  cases result with
  | ok value final =>
      simp only [endOfProcess?, Option.ite_none_right_eq_some,
        Option.some.injEq] at ends
      have holding : Holding host.server.state final.state := run stays
      rw [← ends.2]
      exact holding.closes
  | error reason final =>
      have ending : EndsHolding host.server.state reason final.state := run
      cases reason with
      | leaveLoop =>
          cases ends
          exact (ending.leaves rfl stays).closes
      | exit status =>
          cases ends
          exact fun device opened =>
            absurd opened (ending.exits status rfl stays device)
      | assertFailed => cases ends
      | nullDeref pointer => cases ends
      | diverges => cases ends

/--
However a conversation goes in which no write of the client is refused, no byte
is lost at a board's lock and the system refuses the server nothing: when the
server's process ends, because its main loop was left or by `exit()`, every
board that was opened is powered down.
-/
theorem conversation_poweredDown
    (fits : Client.VerbFits call.verb)
    (writable : ∀ outcome, outcome ∈ call.writes → outcome = .done)
    (granted : ∀ resource, false ∉ host.hw.grants resource)
    (runs : ((Conversation.start call host).after turns).serverLeft = false)
    (ends :
      endOfProcess?
          (watchMainLoop [ready]
            (((Conversation.start call host).after turns).server.onInput
              Server.stdinOf (Input.reading reads))) =
        some ended)
    (unprobed : ended.probed = []) :
    ∀ device, ended.hw.Opened device → PoweredDown device ended.hw :=
  Conversation.ended_poweredDown fits writable granted runs ends unprobed

end Ending

/-- Having typed, the user quits, and `ssh` closes the server's input. -/
def parted : Conversation 1 :=
  (Conversation.start consoleCall benchHost).after
    (consoleTurns ++
      [.client ⟨some (some [0x01, 0x71]), none, false, false⟩ []])

/-- What the server of the bench does then. -/
def parting : EStateM.Result Stop (ServerLoop 1) Unit :=
  watchMainLoop [[.stdin]]
    (parted.server.onInput Server.stdinOf (Input.reading [.hangUp]))

theorem parting_ends :
    ∃ ended,
      endOfProcess? parting = some ended ∧
        ended.probed = [] ∧ ended.hw.Opened 0 := by
  have closed :
      (endOfProcess? parting).any
          (fun ended =>
            decide (ended.probed = []) &&
              ended.hw.log.any fun event => event.value = .consoleOpen 0) =
        true := by
    decide +kernel
  obtain ⟨ended, ends, fine⟩ := (Option.any_eq_true _ _).mp closed
  rw [Bool.and_eq_true, decide_eq_true_eq] at fine
  obtain ⟨event, member, opens⟩ := List.any_eq_true.mp fine.2
  exact ⟨ended, ends, fine.1, event, member, of_decide_eq_true opens⟩

/-- The board of the bench is left powered down. -/
theorem parting_poweredDown :
    ∃ ended,
      endOfProcess? parting = some ended ∧
        ended.hw.Opened 0 ∧ PoweredDown 0 ended.hw := by
  obtain ⟨ended, ends, unprobed, opened⟩ := parting_ends
  exact ⟨ended, ends, opened,
    conversation_poweredDown consoleCall_fits (by simp [consoleCall])
      (fun _ => List.not_mem_nil) (by decide +kernel) ends unprobed 0
      opened⟩

end Cdba
