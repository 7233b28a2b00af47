import Cdba.Conversation
import Cdba.SessionMachine

namespace Cdba

/-!
# Requests, replies and what is shown

A conversation from end to end.  The client writes frames, of which the server
dispatches the first ones; the server writes frames, of which the client
dispatches the first ones.  So what the client has seen of the replies is the
beginning of what the session machine replies to the client's requests, and what
it has shown is the beginning of what the server has sent.
-/

open Program

variable {n : Nat}

/-! ## What the server has written -/

/-- The message of an event, by its type and its payload. -/
def Event.send? : Event n → Option (MsgType × List UInt8)
  | .send type payload => some (type, payload)
  | _ => none

/-- The messages in a log. -/
def sends (log : List (Stamped (Event n))) : List (MsgType × List UInt8) :=
  log.filterMap fun event => event.value.send?

/-- The messages that are not sent on the server's own account. -/
def solicited (contents : List (MsgType × List UInt8)) :
    List (MsgType × List UInt8) :=
  contents.filter fun content => !content.1.isNews

/-- The message of an answer. -/
def Answer.reply? : Answer n → Option (MsgType × List UInt8)
  | .send type payload => some (type, payload)
  | _ => none

/-- The messages of some answers, in order. -/
def replies (given : List (Answer n)) : List (MsgType × List UInt8) :=
  given.filterMap Answer.reply?

/-- The replies in a log are the messages in it, without news. -/
theorem replies_answers
    (log : List (Stamped (Event n))) :
    replies (answers log) = solicited (sends log) := by
  unfold replies answers solicited sends
  rw [List.filterMap_filterMap, List.filter_filterMap]
  congr 1
  funext event
  cases event.value with
  | send type payload =>
      cases news : type.isNews <;>
        simp [Event.answer?, Event.send?, Answer.reply?, Option.filter, news]
  | _ => rfl

/-- Messages whose lengths fit into the header are written as frames. -/
theorem written_frames
    {log : List (Stamped (Event n))}
    (fits :
      ∀ event, event ∈ log →
        ∀ type payload, event.value = .send type payload →
          payload.length < 2 ^ 16) :
    ∃ frames,
      (log.map Stamped.value).flatMap Event.written =
          wire.encodeAll frames ∧
        frames.filterMap Client.content? = sends log := by
  induction log with
  | nil =>
      exact ⟨[], rfl, rfl⟩
  | cons event rest inductionHypothesis =>
      obtain ⟨frames, bytes, contents⟩ := inductionHypothesis
        fun later member => fits later (List.mem_cons_of_mem _ member)
      have others :
          event.value.send? = none →
          event.value.written = [] →
          ∃ frames,
            ((event :: rest).map Stamped.value).flatMap Event.written =
                wire.encodeAll frames ∧
              frames.filterMap Client.content? = sends (event :: rest) := by
        intro silent nothing
        refine ⟨frames, ?_, ?_⟩
        · rw [List.map_cons, List.flatMap_cons, nothing, bytes]
          rfl
        · rw [contents, sends, sends, List.filterMap_cons, silent]
      cases value : event.value with
      | send type payload =>
          have fit := fits event List.mem_cons_self type payload value
          refine ⟨Msg.ofData type.code payload fit :: frames, ?_, ?_⟩
          · rw [List.map_cons, List.flatMap_cons, bytes, value,
              FrameFormat.encodeAll_cons]
            exact congrArg (· ++ _) (sendBufBytes_eq_encodeMsg type fit)
          · rw [List.filterMap_cons_some (Client.content?_ofData type fit),
              contents, sends, sends, List.filterMap_cons, value]
            rfl
      | _ =>
          exact others (by rw [value]; rfl) (by rw [value]; rfl)

/-- Closing the selected device is work. -/
theorem closeSelected_undisturbed
    {view : Event n → Option β}
    (hides : HidesWork view) :
    Undisturbing view (closeSelected (n := n)) := by
  refine .bind (.read _) fun selected => ?_
  cases selected with
  | none => exact .pure _
  | some device => exact onHw_undisturbed (deviceClose_unseen hides device)

/-! ## The two sides of a conversation -/

/-- What the messages of a conversation can hold. -/
structure Fitting (call : Call) (host : Host n) (turns : List Turn) :
    Prop where
  verb : Client.VerbFits call.verb
  tellable :
    ∀ device,
      deviceCheckAccess (host.devices device) (some host.username) = true →
      (host.devices device).Tellable
  fromBuffers :
    ∀ ready reads, .server ready reads ∈ turns →
      ∀ callback, callback ∈ ready → callback.FromBuffers

namespace Conversation

section Sides

variable {call : Call} {host : Host n} {turns : List Turn}

/-- A permission that covers what can happen covers the server throughout. -/
theorem after_guards
    {permission : Permission n}
    (publishes :
      permission.Publishes host.server.state.hw host.server.state.username)
    (selectable :
      ∀ data, permission.CoversSelectable host.server.state data)
    (forwards :
      ∀ ready reads, .server ready reads ∈ turns →
        ∀ callback, callback ∈ ready → permission.Forwards callback) :
    permission.Guards host.server.state
      ((start call host).after turns).server.state := by
  refine after_keeps_server (permission.Guards host.server.state)
    (Permission.guards_start _ _ _ _ _ _ _) ?_ ?_ ?_
  · exact fun server input guards =>
      ⟨guards.hw, guards.selected, guards.username⟩
  · intro ready reads member loop guards
    refine watchMainLoop_guards publishes selectable ?_ guards
    intro one inTurn callback inReady
    rw [List.mem_singleton.mp inTurn] at inReady
    exact forwards ready reads member callback inReady
  · exact fun server guards => closeSelected_guards guards

/-- The server writes frames. -/
theorem server_frames
    (fitting : Fitting call host turns) :
    ∃ frames,
      ((start call host).after turns).server.state.written =
          wire.encodeAll frames ∧
        frames.filterMap Client.content? =
          sends ((start call host).after turns).server.state.hw.log := by
  have guards :
      decodableSends.Guards host.server.state
        ((start call host).after turns).server.state :=
    after_guards (decodableSends_publishes fitting.tellable)
      (fun _ _ _ => trivial)
      fun ready reads member callback inReady =>
        (fitting.fromBuffers ready reads member callback inReady).forwards
  refine written_frames fun event member type payload value => ?_
  have short := decodable_iff.mp
    ((guards.hw.logged event member).2 type payload value)
  simp only [maxPayload] at short
  omega

/-- The client has dispatched the first of the messages that were sent. -/
theorem client_dispatched
    (fitting : Fitting call host turns) :
    let talk := (start call host).after turns
    talk.client.state.dispatched.filterMap Client.content? <+:
      sends talk.server.state.hw.log := by
  intro talk
  obtain ⟨frames, written, contents⟩ := server_frames fitting
  have joined := (start_joined call host).turns
    (after_joined turns (start call host))
  rw [← contents]
  exact (joined.toLeft.handled_prefix rfl written).filterMap _

/-- What the client has done since its main loop began. -/
theorem client_proceeds
    (call : Call)
    (host : Host n)
    (turns : List Turn) :
    let talk := (start call host).after turns
    Client.Proceeds talk.typed call.client talk.client.state := by
  refine after_keeps_client
    (fun typed client => Client.Proceeds typed call.client client)
    ?_ ?_ ?_
  · have nothing : Client.Works call.client call.client := .of_same rfl
    exact nothing.proceeds
  · intro typed client input proceeds
    have arrived :
        Client.Works client (Client.sshStdoutOf.set client input) :=
      .of_same rfl
    rw [← List.append_nil typed]
    exact proceeds.trans arrived.proceeds
  · exact fun ready typed loop proceeds =>
      proceeds.trans (Client.mainLoop_proceeds ready loop)

end Sides

end Conversation

/-- No key is held when the main loop begins. -/
theorem Call.client_idle
    (call : Call) :
    call.client.keyboard = .idle := by
  obtain ⟨parts, _⟩ := call.client_fresh
  simp only [Client.turnParts, Prod.mk.injEq] at parts
  obtain ⟨_, special, keyState, _⟩ := parts
  rw [Client.keyboard, special, keyState]
  rfl

/-! ## What is shown -/

/-- What the client shows of a message. -/
def Client.shown
    (statusPipe : Bool) :
    MsgType × List UInt8 → List (Client.Destination × List UInt8)
  | (.console, data) => [(.stdout, data)]
  | (.listDevices, data) =>
      if data = [] then [] else [(.stdout, data ++ [0x0a])]
  | (.boardInfo, data) => [(.stdout, data ++ [0x0a])]
  | (.statusUpdate, data) => if statusPipe then [(.statusPipe, data)] else []
  | _ => []

theorem printed_eq_shown
    (statusPipe : Bool)
    (messages : List Msg) :
    messages.flatMap (Client.printed statusPipe) =
      (messages.filterMap Client.content?).flatMap
        (Client.shown statusPipe) := by
  induction messages with
  | nil =>
      rfl
  | cons msg rest inductionHypothesis =>
      rw [List.flatMap_cons, inductionHypothesis, List.filterMap_cons]
      unfold Client.printed Client.content?
      cases MsgType.ofCode? msg.type with
      | none => rfl
      | some type =>
          rw [Option.map_some, List.flatMap_cons]
          cases type <;> rfl

namespace Conversation

/-- What the client has passed on is what it shows of its messages. -/
theorem client_outputs
    (call : Call)
    (host : Host n)
    (turns : List Turn) :
    let talk := (start call host).after turns
    Client.outputs talk.client.state.log =
      (talk.client.state.dispatched.filterMap Client.content?).flatMap
        (Client.shown call.statusPipe) := by
  intro talk
  obtain ⟨messages, passes⟩ := client_proceeds call host turns
  obtain ⟨parts, _⟩ := call.client_fresh
  simp only [Client.turnParts, Prod.mk.injEq] at parts
  obtain ⟨_, _, _, statusFd, dispatched, outputs, _⟩ := parts
  rw [passes.outputs, outputs, passes.dispatched, dispatched, statusFd,
    List.nil_append, List.nil_append]
  exact printed_eq_shown _ _

/-- What was handed to the status pipe has come there, where it was not full. -/
theorem client_piping
    (call : Call)
    (host : Host n)
    (turns : List Turn) :
    let talk := (start call host).after turns
    Client.piped talk.client.state.log =
      Client.withRoom call.options.statusFull
        (Client.toPipe (Client.outputs talk.client.state.log)) := by
  intro talk
  obtain ⟨messages, passes⟩ := client_proceeds call host turns
  obtain ⟨parts, _⟩ := call.client_fresh
  simp only [Client.turnParts, Prod.mk.injEq] at parts
  obtain ⟨_, _, _, _, _, outputs, _, _, _, options, piped⟩ := parts
  have nothing : Client.Piping call.options.statusFull call.client :=
    { statusFull := congrArg ClientOptions.statusFull options
      came := by
        rw [piped, outputs]
        rfl }
  exact (passes.pipes _ nothing).came

/-- The client quits when it is told to, by its user or by a message. -/
theorem client_quits
    {call : Call}
    {host : Host n}
    {turns : List Turn}
    (quit : ((start call host).after turns).client.state.quit = true) :
    let talk := (start call host).after turns
    .quit ∈ Client.typing.output .idle talk.typed ∨
      ∃ msg, msg ∈ talk.client.state.dispatched ∧
        Client.mayQuit msg = true := by
  intro talk
  obtain ⟨messages, passes⟩ := client_proceeds call host turns
  obtain ⟨parts, _⟩ := call.client_fresh
  simp only [Client.turnParts, Prod.mk.injEq] at parts
  obtain ⟨_, _, _, _, dispatched, _, running, _⟩ := parts
  rcases passes.quits quit with before | typed | ⟨msg, member, quits⟩
  · rw [running] at before
    cases before
  · rw [call.client_idle] at typed
    exact .inl typed
  · refine .inr ⟨msg, ?_, quits⟩
    rw [passes.dispatched, dispatched]
    exact member

end Conversation

/--
Whatever happens in a conversation: what the client hands to `write()` for its
standard output and its status pipe is what it shows of the first of the messages
that the server has sent, in order, and of no others.  Of it the status pipe has
received everything but what found it full.
-/
theorem conversation_shown
    {call : Call}
    {host : Host n}
    {turns : List Turn}
    (fitting : Fitting call host turns) :
    let talk := (Conversation.start call host).after turns
    let handed := Client.outputs talk.client.state.log
    (∃ seen unseen,
      sends talk.server.state.hw.log = seen ++ unseen ∧
        handed = seen.flatMap (Client.shown call.statusPipe)) ∧
      Client.piped talk.client.state.log =
        Client.withRoom call.options.statusFull (Client.toPipe handed) := by
  intro talk handed
  obtain ⟨unseen, split⟩ := Conversation.client_dispatched fitting
  exact ⟨⟨_, unseen, split.symm,
      Conversation.client_outputs call host turns⟩,
    Conversation.client_piping call host turns⟩

/-! ## A bench -/

/-- `cdba -l`. -/
def listCall : Call where
  verb := .list
  statusPipe := false
  options := ⟨0, 0, true, false, none, false, []⟩
  powerCycles := 0
  writes := []
  clock := ⟨0, []⟩
  beyond := 0

/-- A server with one board. -/
def benchHost : Host 1 where
  devices := fun _ => ftdiBoard
  username := ascii "user"
  hw := Hw.initial fun _ => ftdiBoard
  lockOpens := []
  flocks := []

/-- The question arrives in two pieces, the answer in three. -/
def listTurns : List Turn :=
  [.client ⟨none, none, false, true⟩ [],
    .server [.stdin] [.deliver 0, .wouldBlock],
    .server [.stdin] [.deliver 99, .wouldBlock],
    .client ⟨none, none, true, false⟩ [.deliver 7, .deliver 99, .wouldBlock]]

/-- The boards of the bench are listed. -/
def listed : Conversation 1 :=
  (Conversation.start listCall benchHost).after listTurns

theorem ftdiBoard_tellable : ftdiBoard.Tellable where
  listing := by decide
  description := by
    rintro _ ⟨⟩

theorem listTurns_stdin :
    ∀ ready reads, .server ready reads ∈ listTurns →
      ∀ callback, callback ∈ ready → callback = .stdin := by
  intro ready reads member
  simp only [listTurns, List.mem_cons, reduceCtorEq, Turn.server.injEq,
    List.not_mem_nil, or_false, false_or] at member
  rcases member with ⟨rfl, _⟩ | ⟨rfl, _⟩
  · simp
  · simp

theorem listTurns_fitting : Fitting listCall benchHost listTurns where
  verb := trivial
  tellable := fun _ _ => ftdiBoard_tellable
  fromBuffers := by
    intro ready reads member callback inReady
    rw [listTurns_stdin ready reads member callback inReady]
    trivial

/-- The listing of the bench is shown. -/
theorem listed_shown :
    Client.outputs listed.client.state.log =
        [(.stdout, ascii "db410c" ++ [0x0a])] ∧
      (∃ seen unseen,
        sends listed.server.state.hw.log = seen ++ unseen ∧
          Client.outputs listed.client.state.log =
            seen.flatMap (Client.shown false)) ∧
        Client.piped listed.client.state.log =
          Client.withRoom []
            (Client.toPipe (Client.outputs listed.client.state.log)) :=
  ⟨by decide +kernel, conversation_shown listTurns_fitting⟩

/-! ## Replies -/

/-- The machine replies to more when it is sent more. -/
theorem output_begins
    (machine : Transducer (Session n) Msg (Answer n))
    (session : Session n)
    {messages more : List Msg}
    (begins : messages <+: more) :
    machine.output session messages <+: machine.output session more := by
  obtain ⟨rest, rfl⟩ := begins
  rw [Transducer.output_append]
  exact List.prefix_append _ _

namespace Conversation

/--
As long as the server runs, it has answered what it has dispatched.  Where it
ended, it may have done so in the middle of its last answer.
-/
theorem server_answers
    (call : Call)
    (host : Host n)
    (turns : List Turn) :
    let talk := (start call host).after turns
    let machine := sessionMachine host.server.state.rules
    (talk.serverLeft = false →
        answers talk.server.state.hw.log =
          machine.output Session.fresh talk.server.state.dispatched) ∧
      ∃ handled unfinished,
        talk.server.state.dispatched = handled ++ unfinished ∧
          unfinished.length ≤ 1 ∧
          machine.output Session.fresh handled <+:
            answers talk.server.state.hw.log ∧
          answers talk.server.state.hw.log <+:
            machine.output Session.fresh talk.server.state.dispatched := by
  have fresh :
      Answered host.server.state Session.fresh host.server.state :=
    ⟨Permission.guards_start _ _ _ _ _ _ _, rfl, rfl⟩
  have both := after_server (start call host) turns
    (Answered host.server.state Session.fresh)
    (Unanswered host.server.state Session.fresh) fresh
    (fun _ => Answered.unanswered) ?_
    (fun _ _ _ => watchMainLoop_answering _ _ _) ?_
  · exact ⟨fun stays => (both.1 stays).answers, both.2.answers⟩
  · intro server input
    exact ⟨fun answered =>
        ⟨⟨answered.guards.hw, answered.guards.selected,
          answered.guards.username⟩, answered.answers, answered.session⟩,
      fun unanswered =>
        ⟨⟨unanswered.guards.hw, unanswered.guards.selected,
          unanswered.guards.username⟩, unanswered.answers⟩⟩
  · intro server unanswered
    have quiet : QuietServer (closeSelected (n := n)) :=
      closeSelected_undisturbed answers_hideWork
    have closed := (quiet server).related
    refine ⟨closeSelected_guards unanswered.guards, ?_⟩
    rw [closed.answers, closed.dispatched]
    exact unanswered.answers

end Conversation

/-! ## Requests -/

/--
What a client asks for that was called in some way: of the messages that no work
item sends, those that were typed; and the question of its command line once,
unless it is still to be asked.
-/
structure Requests
    (call : Call)
    (typed : List UInt8)
    (frames : List Msg) :
    Prop where
  known :
    ∀ frame, frame ∈ frames → (Client.content? frame).isSome = true
  typed :
    Client.ofTypes Client.onlyTyped (frames.filterMap Client.content?) =
      Client.ofTypes Client.onlyTyped
        ((Client.typing.output .idle typed).filterMap
          Client.Keystroke.content?)
  asked :
    ∃ pending,
      (Client.ofTypes Client.asks (frames.filterMap Client.content?) ++
        pending).Perm [call.verb.question]

/-- What the client was called with fits, and none of its writes is refused. -/
theorem Call.client_speaking
    {call : Call}
    (fits : Client.VerbFits call.verb)
    (writable : ∀ outcome, outcome ∈ call.writes → outcome = .done) :
    Client.Speaking call.client := by
  obtain ⟨parts, _⟩ := call.client_fresh
  simp only [Client.turnParts, Prod.mk.injEq] at parts
  obtain ⟨_, _, _, _, _, _, _, works, writes, _⟩ := parts
  refine ⟨writes ▸ writable, ?_⟩
  rw [works]
  intro work member
  rcases List.mem_cons.mp member with first | status
  · cases first
    cases verb : call.verb with
    | boot board =>
        rw [verb] at fits
        exact fits
    | list => trivial
    | info board =>
        rw [verb] at fits
        exact fits
  · split at status
    · cases List.mem_singleton.mp status
      trivial
    · cases status

namespace Conversation

/-- The client writes its requests as frames. -/
theorem client_requests
    {call : Call}
    (host : Host n)
    (turns : List Turn)
    (fits : Client.VerbFits call.verb)
    (writable : ∀ outcome, outcome ∈ call.writes → outcome = .done) :
    let talk := (start call host).after turns
    ∃ requests,
      talk.client.state.sshStdin = wire.encodeAll requests ∧
        Requests call talk.typed requests := by
  intro talk
  obtain ⟨messages, passes⟩ := client_proceeds call host turns
  obtain ⟨frames, speech⟩ :=
    passes.speaks (call.client_speaking fits writable)
  obtain ⟨parts, _⟩ := call.client_fresh
  simp only [Client.turnParts, Prod.mk.injEq] at parts
  obtain ⟨sshStdin, _, _, _, _, _, _, works, _⟩ := parts
  have question :
      Client.questions call.client.works = [call.verb.question] := by
    rw [works]
    cases call.verb <;> cases call.statusPipe <;> rfl
  refine ⟨frames, ?_, speech.known, ?_,
    Client.questions talk.client.state.works, ?_⟩
  · rw [speech.stream, sshStdin, List.nil_append]
  · rw [speech.typed, call.client_idle]
  · rw [← question]
    exact speech.asked

/-- The server has dispatched the first of them. -/
theorem server_dispatched
    {call : Call}
    {host : Host n}
    {turns : List Turn}
    (unprobed : ((start call host).after turns).server.state.probed = [])
    {requests : List Msg}
    (written :
      ((start call host).after turns).client.state.sshStdin =
        wire.encodeAll requests) :
    ((start call host).after turns).server.state.dispatched <+:
      requests := by
  have joined := (start_joined call host).turns
    (after_joined turns (start call host))
  exact joined.toRight.handled_prefix unprobed written

end Conversation

/--
However a conversation goes in which no write is refused and no byte is lost at
a board's lock: what the client has dispatched, without the news of the board, is
the beginning of what the session machine replies to the requests that the
client has written.  No reply is lost, doubled or out of order.
-/
theorem conversation_replied
    {call : Call}
    {host : Host n}
    {turns : List Turn}
    (fitting : Fitting call host turns)
    (writable : ∀ outcome, outcome ∈ call.writes → outcome = .done)
    (unprobed :
      ((Conversation.start call host).after turns).server.state.probed =
        []) :
    let talk := (Conversation.start call host).after turns
    ∃ requests,
      talk.client.state.sshStdin = wire.encodeAll requests ∧
        Requests call talk.typed requests ∧
        solicited
            (talk.client.state.dispatched.filterMap Client.content?) <+:
          replies
            ((sessionMachine host.server.state.rules).output Session.fresh
              requests) := by
  intro talk
  obtain ⟨requests, written, asks⟩ :=
    Conversation.client_requests host turns fitting.verb writable
  refine ⟨requests, written, asks, ?_⟩
  obtain ⟨_, _, _, _, _, _, answered⟩ :=
    Conversation.server_answers call host turns
  have dispatched := Conversation.server_dispatched unprobed written
  have seen := (Conversation.client_dispatched fitting).filter
    fun content => !content.1.isNews
  have given := (answered.trans
    (output_begins _ Session.fresh dispatched)).filterMap Answer.reply?
  have whole := replies_answers talk.server.state.hw.log
  rw [replies] at whole
  rw [whole] at given
  exact seen.trans given

/-- The listing of the bench replies to the question for it. -/
theorem listed_replied :
    listed.client.state.dispatched.length = 2 ∧
      ∃ requests,
        listed.client.state.sshStdin = wire.encodeAll requests ∧
          Requests listCall listed.typed requests ∧
          solicited
              (listed.client.state.dispatched.filterMap Client.content?) <+:
            replies
              ((sessionMachine benchHost.server.state.rules).output
                Session.fresh requests) :=
  ⟨by decide +kernel,
    conversation_replied listTurns_fitting (by simp [listCall])
      (by decide +kernel)⟩

end Cdba
