import Cdba.RemoteConsole
import Cdba.ServerNews
import Mathlib.Data.List.Infix

namespace Cdba

/-!
# Asking without a board

`cdba -l` and `cdba -i`.  Nothing is selected in such a conversation, so the
server has no news, and the client shows the one answer it was called for.
-/

open Program

variable {n : Nat}

/-! ## No news -/

/-- What the server sends on its own. -/
def Event.news? : Event n → Option (MsgType × List UInt8)
  | .send type payload => if type.isNews then some (type, payload) else none
  | _ => none

theorem news_hideAnswers :
    HidesAnswers (Event.news? (n := n)) where
  work := by
    intro event plain
    cases event with
    | send type payload => cases plain
    | _ => rfl
  written := fun _ _ => rfl
  booted := fun _ _ => rfl
  replies := fun _ _ solicited => by simp [Event.news?, solicited]

/-- The news in a log. -/
def news (log : List (Stamped (Event n))) : List (MsgType × List UInt8) :=
  log.filterMap fun event => event.value.news?

/-- As long as nothing was selected there was no news. -/
def NoNews (server : Server n) : Prop :=
  Unselecting server.dispatched → news server.hw.log = []

/-- The callbacks of a server that has not opened anything. -/
def Callback.Unopened (callback : Callback) : Prop :=
  callback = .stdin ∨ callback = .sigpipe

theorem NoNews.unheard
    {first last : Server n}
    (holds : NoNews first)
    (step : first.Unseen Event.news? last) :
    NoNews last := by
  intro unselecting
  rw [step.dispatched] at unselecting
  exact Eq.trans step.hw (holds unselecting)

/-- A message is recorded, and brings no news unless it selects. -/
theorem dispatch_noNews
    (msg : Msg)
    {server : Server n}
    (holds : NoNews server) :
    NoNews (finalState (dispatch msg server)) := by
  obtain ⟨_, handled, _⟩ := (dispatch_handles msg server).related
  have dispatched :
      (finalState (dispatch msg server)).dispatched =
        server.dispatched ++ [msg] :=
    handled
  intro unselecting
  rw [dispatched] at unselecting
  have before := holds fun other member =>
    unselecting other (List.mem_append_left _ member)
  have here := unselecting msg
    (List.mem_append_right _ (List.mem_singleton.mpr rfl))
  cases decoded : MsgType.ofCode? msg.type with
  | none =>
      rw [dispatch_unknown decoded]
      exact before
  | some type =>
      rw [decoded] at here
      rw [dispatch_known decoded]
      have step := (handleType_unheard news_hideAnswers
        (fun same => absurd (congrArg some same) here) msg.data
        { server with dispatched := server.dispatched ++ [msg] }).related
      exact Eq.trans step.hw before

/-- In every run in which nothing is opened there is no news. -/
theorem watchMainLoop_noNews
    {iterations : List (List Callback)}
    (unopened :
      ∀ ready, ready ∈ iterations →
        ∀ callback, callback ∈ ready → callback.Unopened) :
    Keeps (fun loop : ServerLoop n => NoNews loop.state)
      (fun _ loop => NoNews loop.state) (watchMainLoop iterations) := by
  have beside :
      ∀ program : ServerM n Unit,
        Unheard Event.news? program →
        Keeps (fun loop : ServerLoop n => NoNews loop.state)
          (fun _ loop => NoNews loop.state)
          (within Receiver.stateOf program) :=
    fun program unheard loop holds => KeepsAt.within Receiver.stateOf
      (Keeps.of_relates unheard
        (fun _ _ holds step => holds.unheard step) loop.state holds)
  have callbacks :
      ∀ callback : Callback, callback.Unopened →
        Keeps (fun loop : ServerLoop n => NoNews loop.state)
          (fun _ loop => NoNews loop.state) (runCallback callback) := by
    rintro callback (rfl | rfl)
    · exact receive_keeps (fun _ _ holds => holds) (fun _ => id)
        fun msg server holds => .of_final (dispatch_noNews msg holds)
    · exact beside watchQuit (.update fun _ => ⟨rfl, rfl⟩)
  induction iterations with
  | nil =>
      exact fun _ holds => holds
  | cons ready rest inductionHypothesis =>
      have later := inductionHypothesis fun ready member =>
        unopened ready (List.mem_cons_of_mem _ member)
      have now := unopened ready List.mem_cons_self
      refine Keeps.bind (.read _) fun quitting =>
        .ite (.pure ()) (Keeps.bind ?_ fun _ => later)
      have timers : Unheard (n := n) Event.news? invokeTimers :=
        Undisturbing.unheard
          (invokeTimers_undisturbed news_hideAnswers.work)
      refine Keeps.bind (beside _ timers) fun _ loop holds => ?_
      refine KeepsAt.each ?_ holds
      intro before callback after middle shape _ holds
      exact callbacks callback (now callback (by simp [shape])) middle holds

/-! ## Answers to questions -/

/-- The messages that answer a question about boards. -/
def told (contents : List (MsgType × List UInt8)) :
    List (MsgType × List UInt8) :=
  Client.ofTypes (fun type => type = .listDevices || type = .boardInfo)
    contents

/-- What a server tells when it is asked a question. -/
def Rules.tells (rules : Rules n) :
    MsgType × List UInt8 → List (MsgType × List UInt8)
  | (.listDevices, _) =>
      (rules.listing ++ [[]]).map fun line => (.listDevices, line)
  | (.boardInfo, data) => [(.boardInfo, rules.describes data)]
  | _ => []

/-- One message is told about if it asks. -/
theorem told_handle
    (rules : Rules n)
    (session : Session n)
    (type : MsgType)
    (data : List UInt8) :
    told (replies (session.handle rules type data).2) =
      rules.tells (type, data) := by
  cases type with
  | console =>
      simp only [Session.handle]
      cases session.selected with
      | none => rfl
      | some device => rfl
  | fastbootDownload =>
      unfold Session.handle
      dsimp only
      split
      · cases session.selected with
        | none => rfl
        | some device => rfl
      · rfl
  | listDevices =>
      have lines :
          replies (session.handle rules .listDevices data).2 =
            rules.tells (.listDevices, data) := by
        simp only [Session.handle, replies, List.filterMap_map]
        exact congrFun (List.filterMap_eq_map (f := fun line =>
          (MsgType.listDevices, line))) _
      rw [lines]
      refine List.filter_eq_self.mpr fun content member => ?_
      obtain ⟨line, _, rfl⟩ := List.mem_map.mp member
      rfl
  | _ => rfl

/-- The machine tells what the questions among the messages ask. -/
theorem told_output
    (rules : Rules n)
    (session : Session n)
    (messages : List Msg) :
    told (replies ((sessionMachine rules).output session messages)) =
      (messages.filterMap question?).flatMap rules.tells := by
  induction messages generalizing session with
  | nil =>
      rfl
  | cons msg rest inductionHypothesis =>
      have split :
          told (replies
              ((sessionMachine rules).output session (msg :: rest))) =
            told (replies (session.read rules msg).2) ++
              told (replies ((sessionMachine rules).output
                (session.read rules msg).1 rest)) := by
        rw [Transducer.output, replies, List.filterMap_append, told,
          Client.ofTypes_append]
        rfl
      rw [split, inductionHypothesis, List.filterMap_cons, Session.read,
        question?, Client.content?]
      cases MsgType.ofCode? msg.type with
      | none => rfl
      | some type =>
          dsimp only [Option.map_some]
          rw [told_handle]
          cases type <;> rfl

/-! ## What is shown in the end -/

/-- The lines that a client shows which asks about boards. -/
def answerLines (call : Call) (host : Host n) : List (List UInt8) :=
  match call.verb with
  | .boot _ => []
  | .list => host.server.state.rules.listing
  | .info board => [host.server.state.rules.describes (board ++ [0])]

/-- A line on the standard output. -/
def printedLine (line : List UInt8) : Client.Destination × List UInt8 :=
  (.stdout, line ++ [0x0a])

/-- Messages that tell nothing about boards show nothing, unless they are news. -/
theorem shown_told
    (statusPipe : Bool)
    {contents : List (MsgType × List UInt8)}
    (noNews : ∀ content, content ∈ contents → content.1.isNews = false) :
    contents.flatMap (Client.shown statusPipe) =
      (told contents).flatMap (Client.shown statusPipe) := by
  induction contents with
  | nil =>
      rfl
  | cons content rest inductionHypothesis =>
      have later := inductionHypothesis fun other member =>
        noNews other (List.mem_cons_of_mem _ member)
      have first := noNews content List.mem_cons_self
      obtain ⟨type, data⟩ := content
      rw [List.flatMap_cons, later]
      unfold told Client.ofTypes
      cases type with
      | console => cases first
      | statusUpdate => cases first
      | listDevices => rfl
      | boardInfo => rfl
      | _ => rfl

/-- The answer to the question of the command line is shown as its lines. -/
theorem shown_tells
    (call : Call)
    (host : Host n)
    (statusPipe : Bool)
    (named : [] ∉ host.server.state.rules.listing) :
    (host.server.state.rules.tells call.verb.question).flatMap
        (Client.shown statusPipe) =
      (answerLines call host).map printedLine := by
  unfold answerLines
  cases call.verb with
  | boot board => rfl
  | info board => rfl
  | list =>
      generalize host.server.state.rules = rules at named
      simp only [Client.Verb.question, Rules.tells, List.map_append,
        List.flatMap_append]
      rw [show ([[]].map fun line => (MsgType.listDevices, line)).flatMap
        (Client.shown statusPipe) = [] from rfl, List.append_nil]
      generalize rules.listing = lines at named
      induction lines with
      | nil =>
          rfl
      | cons line rest inductionHypothesis =>
          have nonempty : line ≠ [] :=
            fun empty => named (empty ▸ List.mem_cons_self)
          rw [List.map_cons, List.flatMap_cons, List.map_cons,
            inductionHypothesis
              fun member => named (List.mem_cons_of_mem _ member)]
          simp [Client.shown, nonempty, printedLine]

/-- A prefix that holds an item which only the end is, is everything. -/
theorem eq_of_prefix_concat
    {items shorter : List β}
    {last : β}
    (begins : shorter <+: items ++ [last])
    (member : last ∈ shorter)
    (once : last ∉ items) :
    shorter = items ++ [last] := by
  rcases List.prefix_concat_iff.mp begins with whole | inside
  · exact whole
  · exact absurd (inside.subset member) once

/-- A message at which a client quits tells about boards, or is news. -/
theorem mayQuit_told
    {msg : Msg}
    (quits : Client.mayQuit msg = true) :
    ∃ content,
      Client.content? msg = some content ∧
        (content.1.isNews = false →
          content = (.listDevices, []) ∨ content.1 = .boardInfo) := by
  unfold Client.mayQuit at quits
  unfold Client.content?
  cases decoded : MsgType.ofCode? msg.type with
  | none =>
      rw [decoded] at quits
      cases quits
  | some type =>
      rw [decoded] at quits
      refine ⟨(type, msg.data), rfl, fun solicited => ?_⟩
      cases type with
      | listDevices =>
          rw [of_decide_eq_true quits]
          exact .inl rfl
      | boardInfo => exact .inr rfl
      | fastbootPresent => cases solicited
      | _ => cases quits

/-- Of the answer to its question, the client has dispatched what ends it. -/
theorem tells_whole
    {call : Call}
    {host : Host n}
    (asking : ∀ board, call.verb ≠ .boot board)
    (named : [] ∉ host.server.state.rules.listing)
    {contents : List (MsgType × List UInt8)}
    (begins : contents <+: host.server.state.rules.tells call.verb.question)
    {content : MsgType × List UInt8}
    (member : content ∈ contents)
    (ends : content = (.listDevices, []) ∨ content.1 = .boardInfo) :
    contents = host.server.state.rules.tells call.verb.question := by
  have told := begins.subset member
  cases verb : call.verb with
  | boot board => exact absurd verb (asking board)
  | list =>
      rw [verb] at begins told
      simp only [Client.Verb.question, Rules.tells, List.map_append,
        List.map_cons, List.map_nil] at begins told ⊢
      refine eq_of_prefix_concat begins ?_ ?_
      · rcases ends with rfl | info
        · exact member
        · rcases List.mem_append.mp told with line | last
          · obtain ⟨_, _, rfl⟩ := List.mem_map.mp line
            cases info
          · rw [List.mem_singleton.mp last] at info
            cases info
      · intro inside
        obtain ⟨line, listed, same⟩ := List.mem_map.mp inside
        rw [Prod.mk.injEq] at same
        exact named (same.2 ▸ listed)
  | info board =>
      rw [verb] at begins told
      have answer := List.mem_singleton.mp told
      exact eq_of_prefix_concat begins (answer ▸ member) List.not_mem_nil

section Asking

variable {call : Call} {host : Host n} {turns : List Turn}

/-- Nothing was opened, so the callbacks are those of a server without a board. -/
def UnopenedTurns (turns : List Turn) : Prop :=
  ∀ ready reads, .server ready reads ∈ turns →
    ∀ callback, callback ∈ ready → callback.Unopened

theorem UnopenedTurns.fitting
    (unopened : UnopenedTurns turns)
    (fits : Client.VerbFits call.verb)
    (tellable :
      ∀ device,
        deviceCheckAccess (host.devices device) (some host.username) =
            true →
          (host.devices device).Tellable) :
    Fitting call host turns where
  verb := fits
  tellable := tellable
  fromBuffers := by
    intro ready reads member callback inReady
    rcases unopened ready reads member callback inReady with rfl | rfl
    · trivial
    · trivial

/-- A server of which no board is asked has no news. -/
theorem Conversation.server_noNews
    (unopened : UnopenedTurns turns)
    (unselecting :
      Unselecting
        ((start call host).after turns).server.state.dispatched) :
    news ((start call host).after turns).server.state.hw.log = [] := by
  refine (after_server (start call host) turns NoNews NoNews
    (fun _ => rfl) (fun _ => id) (fun _ _ => ⟨id, id⟩) ?_ ?_).2 unselecting
  · intro ready reads member
    refine watchMainLoop_noNews fun one inTurn callback inReady => ?_
    rw [List.mem_singleton.mp inTurn] at inReady
    exact unopened ready reads member callback inReady
  · intro server holds
    have closing : Unheard (n := n) Event.news? closeSelected :=
      Undisturbing.unheard (closeSelected_undisturbed news_hideAnswers.work)
    exact holds.unheard (closing server).related

/-- Without news, every message is a reply. -/
theorem sends_solicited
    {log : List (Stamped (Event n))}
    (noNews : news log = [])
    {content : MsgType × List UInt8}
    (member : content ∈ sends log) :
    content.1.isNews = false := by
  obtain ⟨event, logged, sent⟩ := List.mem_filterMap.mp member
  have silent := List.filterMap_eq_nil_iff.mp noNews event logged
  cases value : event.value with
  | send type payload =>
      rw [value] at sent silent
      cases sent
      cases isNews : type.isNews with
      | false => rfl
      | true => simp [Event.news?, isNews] at silent
  | _ =>
      rw [value] at sent
      cases sent

/-- Without news, what the client has dispatched are replies. -/
theorem Conversation.dispatched_replied
    (fitting : Fitting call host turns)
    (noNews :
      news ((start call host).after turns).server.state.hw.log = []) :
    let talk := (start call host).after turns
    talk.client.state.dispatched.filterMap Client.content? <+:
      replies (answers talk.server.state.hw.log) := by
  intro talk
  rw [replies_answers, Cdba.solicited, List.filter_eq_self.mpr ?_]
  · exact client_dispatched fitting
  · intro content member
    simp [sends_solicited noNews member]

/-- The client is told what the server tells those who asked. -/
theorem Conversation.told_begins
    {requests : List Msg}
    (dispatched :
      ((start call host).after turns).server.state.dispatched <+: requests)
    (replied :
      let talk := (start call host).after turns
      talk.client.state.dispatched.filterMap Client.content? <+:
        replies (answers talk.server.state.hw.log)) :
    told
        (((start call host).after
          turns).client.state.dispatched.filterMap Client.content?) <+:
      (requests.filterMap question?).flatMap
        host.server.state.rules.tells := by
  obtain ⟨_, _, _, _, _, _, answered⟩ := server_answers call host turns
  have given := (answered.trans
    (output_begins _ Session.fresh dispatched)).filterMap Answer.reply?
  rw [← told_output host.server.state.rules Session.fresh]
  exact (replied.trans given).filter _

/-- Without news, a client that quits unforced was told what ends an answer. -/
theorem Conversation.quit_told
    (solicited :
      ∀ content,
        content ∈
          ((start call host).after
            turns).client.state.dispatched.filterMap Client.content? →
        content.1.isNews = false)
    (quit : ((start call host).after turns).client.state.quit = true)
    (unforced :
      .quit ∉
        Client.typing.output .idle ((start call host).after turns).typed) :
    ∃ content,
      content ∈
          told
            (((start call host).after
              turns).client.state.dispatched.filterMap Client.content?) ∧
        (content = (.listDevices, []) ∨ content.1 = .boardInfo) := by
  rcases client_quits quit with forced | ⟨msg, member, may⟩
  · exact absurd forced unforced
  · obtain ⟨content, same, answers⟩ := mayQuit_told may
    have among := List.mem_filterMap.mpr ⟨msg, member, same⟩
    have answer := answers (solicited content among)
    refine ⟨content, List.mem_filter.mpr ⟨among, ?_⟩, answer⟩
    rcases answer with rfl | info
    · rfl
    · simp [info]

/--
In a conversation of a client that asks about boards: of what the server sends,
the client shows the answer to its question, line by line, and nothing else.  If
it quits, and not because it was told to, it has shown the whole answer.
-/
theorem conversation_asked
    (asking : ∀ board, call.verb ≠ .boot board)
    (fits : Client.VerbFits call.verb)
    (tellable :
      ∀ device,
        deviceCheckAccess (host.devices device) (some host.username) =
            true →
          (host.devices device).Tellable)
    (named : [] ∉ host.server.state.rules.listing)
    (writable : ∀ outcome, outcome ∈ call.writes → outcome = .done)
    (unopened : UnopenedTurns turns)
    (unprobed :
      ((Conversation.start call host).after turns).server.state.probed =
        []) :
    let talk := (Conversation.start call host).after turns
    Client.outputs talk.client.state.log <+:
        (answerLines call host).map printedLine ∧
      (talk.client.state.quit = true →
        .quit ∉ Client.typing.output .idle talk.typed →
        Client.outputs talk.client.state.log =
          (answerLines call host).map printedLine) := by
  intro talk
  have fitting := unopened.fitting fits tellable
  obtain ⟨requests, written, asks⟩ :=
    Conversation.client_requests host turns fits writable
  have dispatched := Conversation.server_dispatched unprobed written
  have unselecting : Unselecting requests := by
    rcases asks.split with unselecting | ⟨board, _, _, _, verb, _⟩
    · exact unselecting
    · exact absurd verb (asking board)
  have noNews := Conversation.server_noNews unopened
    fun msg member => unselecting msg (dispatched.subset member)
  have solicited :
      ∀ content,
        content ∈
          talk.client.state.dispatched.filterMap Client.content? →
        content.1.isNews = false :=
    fun content member =>
      sends_solicited noNews
        ((Conversation.client_dispatched fitting).subset member)
  have begins := Conversation.told_begins dispatched
    (Conversation.dispatched_replied fitting noNews)
  have quits := @Conversation.quit_told _ _ _ turns solicited
  have outputs :
      Client.outputs talk.client.state.log =
        (talk.client.state.dispatched.filterMap Client.content?).flatMap
          (Client.shown call.statusPipe) :=
    Conversation.client_outputs call host turns
  rw [outputs, shown_told _ solicited]
  rcases asks.questions with none | one
  · rw [none, List.flatMap_nil, List.prefix_nil] at begins
    rw [begins] at quits ⊢
    refine ⟨List.nil_prefix, fun quit unforced => ?_⟩
    obtain ⟨_, member, _⟩ := quits quit unforced
    cases member
  · rw [one, List.flatMap_singleton] at begins
    refine ⟨?_, fun quit unforced => ?_⟩
    · rw [← shown_tells call host call.statusPipe named]
      exact List.IsPrefix.flatMap begins _
    · obtain ⟨content, member, ends⟩ := quits quit unforced
      rw [tells_whole asking named begins member ends,
        shown_tells call host call.statusPipe named]

end Asking

/-- The bench is listed to the end. -/
theorem listed_asked :
    listed.client.state.quit = true ∧
      Client.outputs listed.client.state.log <+:
        (answerLines listCall benchHost).map printedLine ∧
      (listed.client.state.quit = true →
        .quit ∉ Client.typing.output .idle listed.typed →
        Client.outputs listed.client.state.log =
          (answerLines listCall benchHost).map printedLine) :=
  ⟨by decide +kernel,
    conversation_asked (by simp [listCall]) trivial
      (fun _ _ => ftdiBoard_tellable) (by decide +kernel)
      (by simp [listCall])
      (fun ready reads member callback inReady =>
        .inl (listTurns_stdin ready reads member callback inReady))
      (by decide +kernel)⟩

end Cdba
