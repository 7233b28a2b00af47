import Cdba.RequestReply

namespace Cdba

/-!
# The board on the command line

A client that was called for a board selects that board and no other one, and
once.  So whatever a conversation does to a device, it does to this board; and
what reaches the console of the board is what was typed, from the selection on,
without gaps.
-/

open Program

variable {n : Nat}

/-! ## Selections among the requests -/

/-- The question that a request is, if it is one. -/
def question? (msg : Msg) : Option (MsgType × List UInt8) :=
  (Client.content? msg).filter fun content => Client.asks content.1

/-- The questions among the requests. -/
theorem ofTypes_asks
    (requests : List Msg) :
    Client.ofTypes Client.asks (requests.filterMap Client.content?) =
      requests.filterMap question? :=
  List.filter_filterMap ..

/-- There is at most one question among the requests, that of the command line. -/
theorem Requests.questions
    {call : Call}
    {typed : List UInt8}
    {requests : List Msg}
    (asks : Requests call typed requests) :
    requests.filterMap question? = [] ∨
      requests.filterMap question? = [call.verb.question] := by
  obtain ⟨pending, asked⟩ := asks.asked
  rw [ofTypes_asks] at asked
  have sublist := (List.perm_singleton.mp asked)
  cases questions : requests.filterMap question? with
  | nil => exact .inl rfl
  | cons question rest =>
      rw [questions, List.cons_append] at sublist
      obtain ⟨same, nothing⟩ := List.cons.inj sublist
      rw [(List.append_eq_nil_iff.mp nothing).1, same]
      exact .inr rfl

/-- The question that a message is, if it selects a board. -/
theorem question?_select
    {msg : Msg}
    (select : MsgType.ofCode? msg.type = some .selectBoard) :
    question? msg = some (.selectBoard, msg.data) := by
  simp [question?, Client.content?, select, Client.asks]

/-- A request to select a board is the question of the command line. -/
theorem Requests.selects
    {call : Call}
    {typed : List UInt8}
    {requests : List Msg}
    (asks : Requests call typed requests)
    {msg : Msg}
    (member : msg ∈ requests)
    (select : MsgType.ofCode? msg.type = some .selectBoard) :
    call.verb.question = (.selectBoard, msg.data) := by
  have asked := List.mem_filterMap.mpr
    ⟨msg, member, question?_select select⟩
  rcases asks.questions with none | one
  · rw [none] at asked
    cases asked
  · rw [one] at asked
    exact (List.mem_singleton.mp asked).symm

/-! ## Only the selected board -/

namespace Conversation

/-- In a conversation, too. -/
theorem after_guardsSelected
    {call : Call}
    {host : Host n}
    {turns : List Turn}
    {permission : Permission n}
    (publishes :
      permission.Publishes host.server.state.hw host.server.state.username)
    (forwards :
      ∀ ready reads, .server ready reads ∈ turns →
        ∀ callback, callback ∈ ready → permission.Forwards callback) :
    GuardsSelected permission host.server.state
      ((start call host).after turns).server.state := by
  refine (after_server (start call host) turns
    (GuardsSelected permission host.server.state)
    (GuardsSelected permission host.server.state)
    (fun _ => Permission.guards_start _ _ _ _ _ _ _)
    (fun _ => id) (fun server input => ?_) ?_ ?_).2
  · have arrives :
        GuardsSelected permission host.server.state server →
        GuardsSelected permission host.server.state
          (Server.stdinOf.set server input) := by
      intro holds covered
      have guards := holds covered
      exact ⟨guards.hw, guards.selected, guards.username⟩
    exact ⟨arrives, arrives⟩
  · intro ready reads member
    refine watchMainLoop_guardsSelected publishes ?_
    intro one inTurn callback inReady
    rw [List.mem_singleton.mp inTurn] at inReady
    exact forwards ready reads member callback inReady
  · intro server holds covered
    have closing :
        Relates Server.Continues Stop.Any (closeSelected (n := n)) :=
      closeSelected_continues
    rw [(closing server).related.sameSession.dispatched] at covered
    exact closeSelected_guards (holds covered)

end Conversation

/-- The board that a command line names, if the user may use it. -/
def namedBoard? (call : Call) (host : Host n) : Option (Fin n) :=
  match call.verb with
  | .boot board => host.server.state.rules.opens (board ++ [0])
  | _ => none

/--
However a conversation goes: every operation of the server is one on the board
that the client's command line names, and that the user may use.  A client that
lists or describes boards has no board operated at all.
-/
theorem conversation_namedBoard
    {call : Call}
    {host : Host n}
    {turns : List Turn}
    (fits : Client.VerbFits call.verb)
    (writable : ∀ outcome, outcome ∈ call.writes → outcome = .done)
    (unprobed :
      ((Conversation.start call host).after turns).server.state.probed =
        []) :
    ∀ event,
      event ∈
        ((Conversation.start call host).after turns).server.state.hw.log →
      ∀ device,
        event.value.device? = some device →
        namedBoard? call host = some device := by
  let named : Permission n :=
    { device := fun device => namedBoard? call host = some device
      send := fun _ _ => True }
  obtain ⟨requests, written, asks⟩ :=
    Conversation.client_requests host turns fits writable
  have dispatched := Conversation.server_dispatched unprobed written
  have holds :
      GuardsSelected named host.server.state
        ((Conversation.start call host).after turns).server.state := by
    refine Conversation.after_guardsSelected
      ⟨fun _ => trivial, fun _ => trivial, fun _ _ => trivial,
        fun _ _ _ _ => trivial⟩ ?_
    intro _ _ _ callback _
    unfold Permission.Forwards
    split <;> simp [named]
  have guards := holds fun msg member select device found => by
    have question := asks.selects (dispatched.subset member) select
    show namedBoard? call host = some device
    cases verb : call.verb with
    | boot board =>
        rw [verb] at question
        simp only [Client.Verb.question, Prod.mk.injEq, true_and]
          at question
        simp only [namedBoard?, verb]
        rw [question]
        exact found
    | list =>
        rw [verb] at question
        cases question
    | info board =>
        rw [verb] at question
        cases question
  exact fun event member device on =>
    (guards.hw.logged event member).1 device on

/-- `cdba -b db410c`, on a terminal. -/
def consoleCall : Call where
  verb := .boot (ascii "db410c")
  statusPipe := false
  options := ⟨0, 0, true, false, none, true, []⟩
  powerCycles := 0
  writes := []
  clock := ⟨0, []⟩
  beyond := 0

/-- The user types before the board is selected. -/
def consoleTurns : List Turn :=
  [.client ⟨none, none, false, true⟩ [],
    .server [.stdin] [.deliver 0, .wouldBlock],
    .client ⟨some (some (ascii "hi")), none, false, false⟩ [],
    .server [.stdin] [.deliver 99, .wouldBlock]]

/-- What the user typed has reached the board. -/
def consoled : Conversation 1 :=
  (Conversation.start consoleCall benchHost).after consoleTurns

theorem consoled_unprobed : consoled.server.state.probed = [] := by
  decide +kernel

theorem consoleCall_fits : Client.VerbFits consoleCall.verb := by
  unfold consoleCall Client.VerbFits Client.BoardFits
  decide

/-- The board of the bench is operated because it was named. -/
theorem consoled_namedBoard :
    namedBoard? consoleCall benchHost = some 0 ∧
      ∀ event, event ∈ consoled.server.state.hw.log →
        ∀ device,
          event.value.device? = some device →
          namedBoard? consoleCall benchHost = some device :=
  ⟨by decide +kernel,
    conversation_namedBoard consoleCall_fits (by simp [consoleCall])
      consoled_unprobed⟩

/-! ## The console -/

/-- What an answer writes to the console of a device. -/
def Answer.console? : Answer n → Option (Fin n × List UInt8)
  | .consoleWrite device bytes => some (device, bytes)
  | _ => none

/-- The consoles written to in a log, and what was written to them. -/
def consoleWrites (log : List (Stamped (Event n))) :
    List (Fin n × List UInt8) :=
  (answers log).filterMap Answer.console?

/-- The texts of the console messages. -/
def consoleTexts (contents : List (MsgType × List UInt8)) :
    List (List UInt8) :=
  (Client.ofTypes (· = .console) contents).map Prod.snd

/-- The console texts of what was typed. -/
def typedTexts (typed : List UInt8) : List (List UInt8) :=
  consoleTexts
    ((Client.typing.output .idle typed).filterMap
      Client.Keystroke.content?)

/-- Texts that are written to the console of a selected board. -/
def toBoard (selected : Option (Fin n)) (texts : List (List UInt8)) :
    List (Fin n × List UInt8) :=
  (selected.map fun device => texts.map fun text => (device, text)).getD []

theorem toBoard_append
    (selected : Option (Fin n))
    (before after : List (List UInt8)) :
    toBoard selected (before ++ after) =
      toBoard selected before ++ toBoard selected after := by
  cases selected with
  | none => rfl
  | some device => exact List.map_append

theorem consoleTexts_append
    (before after : List (MsgType × List UInt8)) :
    consoleTexts (before ++ after) =
      consoleTexts before ++ consoleTexts after := by
  rw [consoleTexts, Client.ofTypes_append, List.map_append]
  rfl

/-- Console texts are among what is only typed. -/
theorem Requests.texts
    {call : Call}
    {typed : List UInt8}
    {requests : List Msg}
    (asks : Requests call typed requests) :
    consoleTexts (requests.filterMap Client.content?) =
      typedTexts typed := by
  have among :
      ∀ contents,
        Client.ofTypes (· = .console) contents =
          Client.ofTypes (· = .console)
            (Client.ofTypes Client.onlyTyped contents) := by
    intro contents
    unfold Client.ofTypes
    rw [List.filter_filter]
    congr 1
    funext content
    by_cases console : content.1 = .console
    · simp [console, Client.onlyTyped]
    · simp [console]
  rw [typedTexts, consoleTexts, consoleTexts, among, asks.typed, ← among]

/-- One message that selects nothing. -/
theorem handle_console
    (rules : Rules n)
    (session : Session n)
    {type : MsgType}
    (other : type ≠ .selectBoard)
    (data : List UInt8) :
    (session.handle rules type data).1.selected = session.selected ∧
      (session.handle rules type data).2.filterMap Answer.console? =
        toBoard session.selected (consoleTexts [(type, data)]) := by
  have silent :
      ∀ selected : Option (Fin n), [] = toBoard selected [] := by
    intro selected
    cases selected with
    | none => rfl
    | some device => rfl
  cases type with
  | selectBoard => contradiction
  | console =>
      refine ⟨rfl, ?_⟩
      simp only [Session.handle]
      cases session.selected with
      | none => rfl
      | some device => rfl
  | fastbootDownload =>
      unfold Session.handle
      dsimp only
      split
      · refine ⟨rfl, ?_⟩
        cases session.selected with
        | none => rfl
        | some device => rfl
      · exact ⟨rfl, silent _⟩
  | listDevices =>
      refine ⟨rfl, Eq.trans ?_ (silent _)⟩
      simp only [Session.handle, List.filterMap_map]
      exact List.filterMap_eq_nil_iff.mpr fun _ _ => rfl
  | _ => exact ⟨rfl, silent _⟩

/-- As long as nothing is selected anew, texts go to the board that was. -/
theorem output_console
    (rules : Rules n)
    (session : Session n)
    {messages : List Msg}
    (unselecting :
      ∀ msg, msg ∈ messages →
        MsgType.ofCode? msg.type ≠ some .selectBoard) :
    ((sessionMachine rules).after session messages).selected =
        session.selected ∧
      ((sessionMachine rules).output session messages).filterMap
          Answer.console? =
        toBoard session.selected
          (consoleTexts (messages.filterMap Client.content?)) := by
  induction messages generalizing session with
  | nil =>
      refine ⟨rfl, ?_⟩
      cases session.selected with
      | none => rfl
      | some device => rfl
  | cons msg rest inductionHypothesis =>
      have first := unselecting msg List.mem_cons_self
      obtain ⟨kept, texts⟩ := inductionHypothesis
        (session.read rules msg).1
        fun later member => unselecting later (List.mem_cons_of_mem _ member)
      rw [Transducer.after, Transducer.output, List.filterMap_append]
      rw [show (sessionMachine rules).step session msg =
        session.read rules msg from rfl, kept, texts]
      unfold Session.read
      rw [List.filterMap_cons, Client.content?]
      cases decoded : MsgType.ofCode? msg.type with
      | none => exact ⟨rfl, rfl⟩
      | some type =>
          rw [decoded] at first
          have other : type ≠ .selectBoard :=
            fun same => first (congrArg some same)
          obtain ⟨same, written⟩ :=
            handle_console rules session other msg.data
          refine ⟨same, ?_⟩
          dsimp only [Option.map_some]
          rw [same, written, ← toBoard_append, ← consoleTexts_append]
          rfl

/-- Messages that leave the selection as it is. -/
def Unselecting (messages : List Msg) : Prop :=
  ∀ msg, msg ∈ messages → MsgType.ofCode? msg.type ≠ some .selectBoard

/-- Either nothing is selected, or the named board is, once. -/
theorem Requests.split
    {call : Call}
    {typed : List UInt8}
    {requests : List Msg}
    (asks : Requests call typed requests) :
    Unselecting requests ∨
      ∃ board before msg after,
        call.verb = .boot board ∧
          requests = before ++ msg :: after ∧
          MsgType.ofCode? msg.type = some .selectBoard ∧
          msg.data = board ++ [0] ∧
          Unselecting before ∧
          Unselecting after := by
  have unasked :
      ∀ {messages : List Msg},
        messages.filterMap question? = [] → Unselecting messages := by
    intro messages none msg member select
    have asked := List.filterMap_eq_nil_iff.mp none msg member
    rw [question?_select select] at asked
    cases asked
  rcases asks.questions with none | one
  · exact .inl (unasked none)
  · obtain ⟨before, msg, after, split, none, asked, rest⟩ :=
      List.filterMap_eq_cons_iff.mp one
    have noneBefore : Unselecting before :=
      unasked (List.filterMap_eq_nil_iff.mpr none)
    have noneAfter := unasked rest
    by_cases select : MsgType.ofCode? msg.type = some .selectBoard
    · rw [question?_select select, Option.some.injEq] at asked
      cases verb : call.verb with
      | boot board =>
          rw [verb] at asked
          simp only [Client.Verb.question, Prod.mk.injEq, true_and] at asked
          exact .inr ⟨board, before, msg, after, rfl, split, select, asked,
            noneBefore, noneAfter⟩
      | list =>
          rw [verb] at asked
          cases asked
      | info board =>
          rw [verb] at asked
          cases asked
    · refine .inl fun other member => ?_
      rw [split] at member
      rcases List.mem_append.mp member with early | late
      · exact noneBefore other early
      · rcases List.mem_cons.mp late with same | late
        · exact same ▸ select
        · exact noneAfter other late

/-- What the machine writes to consoles for the requests of a client. -/
theorem Requests.output_console
    {call : Call}
    (host : Host n)
    {typed : List UInt8}
    {requests : List Msg}
    (asks : Requests call typed requests) :
    ∃ missed passed,
      typedTexts typed = missed ++ passed ∧
        ((sessionMachine host.server.state.rules).output Session.fresh
            requests).filterMap Answer.console? =
          toBoard (namedBoard? call host) passed := by
  have texts := asks.texts
  rcases asks.split with unselecting |
    ⟨board, before, msg, after, verb, split, select, data, noneBefore,
      noneAfter⟩
  · refine ⟨_, [], (List.append_nil _).symm, ?_⟩
    rw [(Cdba.output_console _ Session.fresh unselecting).2]
    cases namedBoard? call host with
    | none => rfl
    | some device => rfl
  · refine ⟨consoleTexts (before.filterMap Client.content?),
      consoleTexts (after.filterMap Client.content?), ?_, ?_⟩
    · rw [← texts, split, List.filterMap_append, consoleTexts_append,
        List.filterMap_cons, Client.content?, select]
      rfl
    · have first :=
        Cdba.output_console host.server.state.rules Session.fresh noneBefore
      have step :
          (sessionMachine host.server.state.rules).step
              ((sessionMachine host.server.state.rules).after
                Session.fresh before) msg =
            ({ (sessionMachine host.server.state.rules).after
                Session.fresh before with
                selected := namedBoard? call host },
              [.send .selectBoard []]) := by
        simp only [sessionMachine, Session.read, select, Session.handle,
          data, namedBoard?, verb]
      rw [split, Transducer.output_append, List.filterMap_append, first.2,
        Transducer.output, step, List.filterMap_append,
        (Cdba.output_console _ _ noneAfter).2]
      rfl

/--
However a conversation goes: what the server has written to consoles went to the
board of the command line, and is the beginning of one piece of the typed text,
without a gap and in order.  What was typed in front of the piece came before
the board was selected.  A server that runs on and has dispatched everything
has written the whole piece.
-/
theorem conversation_console
    {call : Call}
    {host : Host n}
    {turns : List Turn}
    (fits : Client.VerbFits call.verb)
    (writable : ∀ outcome, outcome ∈ call.writes → outcome = .done)
    (unprobed :
      ((Conversation.start call host).after turns).server.state.probed =
        []) :
    let talk := (Conversation.start call host).after turns
    ∃ missed passed,
      typedTexts talk.typed = missed ++ passed ∧
        consoleWrites talk.server.state.hw.log <+:
          toBoard (namedBoard? call host) passed ∧
        (talk.serverLeft = false →
          talk.client.state.sshStdin =
              wire.encodeAll talk.server.state.dispatched →
            consoleWrites talk.server.state.hw.log =
              toBoard (namedBoard? call host) passed) := by
  intro talk
  obtain ⟨requests, written, asks⟩ :=
    Conversation.client_requests host turns fits writable
  obtain ⟨running, _, _, _, _, _, answered⟩ :=
    Conversation.server_answers call host turns
  have dispatched := Conversation.server_dispatched unprobed written
  obtain ⟨missed, passed, texts, output⟩ := asks.output_console host
  refine ⟨missed, passed, texts, ?_, fun runs whole => ?_⟩
  · rw [← output]
    exact (answered.trans
      (output_begins _ Session.fresh dispatched)).filterMap Answer.console?
  · have stream :
        wire.encodeAll requests =
          wire.encodeAll talk.server.state.dispatched ++ [] := by
      rw [← written, List.append_nil]
      exact whole
    have all :=
      (FrameFormat.eq_of_encodeAll_eq stream wire.next?_nil).1
    rw [← output, all, consoleWrites, running runs]

/-- What was typed on the bench reaches the console of its board. -/
theorem consoled_console :
    consoleWrites consoled.server.state.hw.log =
        [(0, ascii "h"), (0, ascii "i")] ∧
      ∃ missed passed,
        typedTexts consoled.typed = missed ++ passed ∧
          consoleWrites consoled.server.state.hw.log <+:
            toBoard (namedBoard? consoleCall benchHost) passed ∧
          (consoled.serverLeft = false →
            consoled.client.state.sshStdin =
                wire.encodeAll consoled.server.state.dispatched →
              consoleWrites consoled.server.state.hw.log =
                toBoard (namedBoard? consoleCall benchHost) passed) :=
  ⟨by decide +kernel,
    conversation_console consoleCall_fits (by simp [consoleCall])
      consoled_unprobed⟩

end Cdba
