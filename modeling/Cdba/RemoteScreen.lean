import Cdba.ListingSession

namespace Cdba

/-!
# The screen of the board

The other direction of the console: what the board prints and what its status
commands report is what the user sees, in order and without gaps, and nothing
else is seen.
-/

open Program

variable {n : Nat}

/-! ## What the server passes on -/

/-- What the descriptors of the server deliver in a turn. -/
def Turn.delivers : Turn → List (MsgType × List UInt8)
  | .client _ _ => []
  | .server ready _ => ready.flatMap Callback.forwards

namespace Conversation

/-- A server that goes on has passed on everything, an ended one may not have. -/
structure PassedOn
    (messages : List (MsgType × List UInt8))
    (talk : Conversation n) :
    Prop where
  going : talk.serverLeft = false → talk.server.state.quitInvoked = false
  whole :
    talk.serverLeft = false → forwarded talk.server.state.hw.log = messages
  begins : forwarded talk.server.state.hw.log <+: messages

/-- A server that has not ended was not asked to quit. -/
theorem quitInvoked_of_stays
    {result : EStateM.Result Stop (ServerLoop n) Unit}
    (stays : serverLeaves result = false) :
    (endOfTurn result).state.quitInvoked = false := by
  obtain ⟨final, rfl, same⟩ := returns_of_stays stays
  rw [same]
  unfold serverLeaves endOfProcess? at stays
  cases quit : final.state.quitInvoked with
  | false => rfl
  | true => simp [quit] at stays

/-- Closing the selected device passes nothing on. -/
theorem endOfTurn_forwarded
    (result : EStateM.Result Stop (ServerLoop n) Unit) :
    forwarded (endOfTurn result).state.hw.log =
      forwarded (finalState result).state.hw.log := by
  rcases endOfTurn_state result with same | closed
  · rw [same]
  · rw [closed]
    exact (closeSelected_undisturbed forwarded_hideAnswers.work
      (finalState result).state).related.hw

/-- One more turn, and what it delivers. -/
theorem PassedOn.turn
    {messages : List (MsgType × List UInt8)}
    {talk : Conversation n}
    (holds : PassedOn messages talk)
    (next : Turn) :
    PassedOn (messages ++ next.delivers) (talk.turn next) := by
  cases next with
  | client ready reads =>
      rw [Turn.delivers, List.append_nil]
      unfold Conversation.turn clientTurn
      dsimp only
      split
      · exact holds
      · exact ⟨holds.going, holds.whole, holds.begins⟩
  | server ready reads =>
      unfold Conversation.turn serverTurn
      dsimp only
      split
      · rename_i left
        have gone :
            ∀ {result : Prop}, talk.serverLeft = false → result :=
          fun stays => absurd (left.symm.trans stays) (by simp)
        exact ⟨gone, gone, holds.begins.trans (List.prefix_append _ _)⟩
      · rename_i left
        have stays := eq_false_of_ne_true left
        have begun :
            (talk.server.onInput Server.stdinOf
              (Input.reading reads)).state.quitInvoked = false :=
          holds.going stays
        have passes := watchMainLoop_passesOn ready begun
        unfold PassesOnAt KeepsAt at passes
        generalize watchMainLoop [ready]
          (talk.server.onInput Server.stdinOf (Input.reading reads)) =
            result at passes
        refine ⟨quitInvoked_of_stays, fun running => ?_, ?_⟩
        · obtain ⟨final, rfl, same⟩ := returns_of_stays running
          rw [same, Turn.delivers, ← holds.whole stays]
          exact passes
        · have first :
              talk.server.state.PassedOnFirst
                (ready.flatMap Callback.forwards)
                (finalState result).state := by
            cases result with
            | ok value final => exact ⟨_, List.prefix_rfl, passes⟩
            | error reason final => exact passes
          obtain ⟨given, begins, passed⟩ := first
          rw [endOfTurn_forwarded, passed, holds.whole stays, Turn.delivers]
          exact (List.prefix_append_right_inj _).mpr begins

/-- The server has passed on what its descriptors have delivered. -/
theorem server_passedOn
    (call : Call)
    (host : Host n)
    (turns : List Turn) :
    PassedOn (turns.flatMap Turn.delivers)
      ((start call host).after turns) := by
  have follows :
      ∀ (messages : List (MsgType × List UInt8)) (talk : Conversation n),
        PassedOn messages talk →
        PassedOn (messages ++ turns.flatMap Turn.delivers)
          (talk.after turns) := by
    induction turns with
    | nil =>
        intro messages talk holds
        rw [List.flatMap_nil, List.append_nil]
        exact holds
    | cons next rest inductionHypothesis =>
        intro messages talk holds
        rw [List.flatMap_cons, ← List.append_assoc]
        exact inductionHypothesis _ _ (holds.turn next)
  exact follows [] _ ⟨fun _ => rfl, fun _ => rfl, List.prefix_rfl⟩

end Conversation

/-! ## What the user sees -/

/-- What is passed on are the messages of two types. -/
theorem ofTypes_forwarded
    (log : List (Stamped (Event n))) :
    Client.ofTypes MsgType.isForwarded (sends log) = forwarded log := by
  unfold Client.ofTypes sends forwarded
  rw [List.filter_filterMap]
  congr 1
  funext event
  cases event.value with
  | send type payload =>
      cases isForwarded : type.isForwarded <;>
        simp [Event.send?, Event.forwarded?, Option.filter, isForwarded]
  | _ => rfl

/-- Of messages that tell nothing about boards, these are shown. -/
theorem shown_forwarded
    (statusPipe : Bool)
    {contents : List (MsgType × List UInt8)}
    (untold : told contents = []) :
    contents.flatMap (Client.shown statusPipe) =
      (Client.ofTypes MsgType.isForwarded contents).flatMap
        (Client.shown statusPipe) := by
  induction contents with
  | nil =>
      rfl
  | cons content rest inductionHypothesis =>
      obtain ⟨type, data⟩ := content
      unfold told Client.ofTypes at untold inductionHypothesis
      rw [List.filter_cons] at untold
      have later : told rest = [] := by
        split at untold
        · cases untold
        · exact untold
      rw [List.flatMap_cons, inductionHypothesis later]
      unfold Client.ofTypes
      cases type with
      | listDevices => cases untold
      | boardInfo => cases untold
      | _ => rfl

/-- News tells nothing about boards. -/
theorem told_solicited
    (contents : List (MsgType × List UInt8)) :
    told (solicited contents) = told contents := by
  unfold told Client.ofTypes solicited
  rw [List.filter_filter]
  congr 1
  funext content
  cases content.1 <;> rfl

section Booting

variable {call : Call} {host : Host n} {turns : List Turn} {board : CString}

/-- A server that is to boot a board is not asked about boards. -/
theorem Conversation.server_untold
    (boots : call.verb = .boot board)
    (fits : Client.VerbFits call.verb)
    (writable : ∀ outcome, outcome ∈ call.writes → outcome = .done)
    (unprobed :
      ((start call host).after turns).server.state.probed = []) :
    told (sends ((start call host).after turns).server.state.hw.log) =
      [] := by
  obtain ⟨requests, written, asks⟩ :=
    client_requests host turns fits writable
  obtain ⟨_, _, _, _, _, _, answered⟩ := server_answers call host turns
  have dispatched := server_dispatched unprobed written
  have given := (answered.trans
    (output_begins _ Session.fresh dispatched)).filterMap Answer.reply?
  have tells :
      told (replies ((sessionMachine host.server.state.rules).output
        Session.fresh requests)) = [] := by
    rw [told_output]
    rcases asks.questions with none | one
    · rw [none]
      rfl
    · rw [one, boots]
      rfl
  have nothing :
      told (replies (answers
        ((start call host).after turns).server.state.hw.log)) <+: [] :=
    tells ▸ given.filter _
  rw [replies_answers, told_solicited] at nothing
  exact List.prefix_nil.mp nothing

/--
However a conversation goes in which a board is named: what the client hands to
`write()` is what the board's console and status descriptors have delivered, from
the first byte on, in order and without gaps, and nothing else; only status
updates that find the pipe full are lost.  A client that has dispatched
everything that a running server wrote has handed on all of it.
-/
theorem conversation_screen
    (boots : call.verb = .boot board)
    (fitting : Fitting call host turns)
    (writable : ∀ outcome, outcome ∈ call.writes → outcome = .done)
    (unprobed :
      ((Conversation.start call host).after turns).server.state.probed =
        []) :
    let talk := (Conversation.start call host).after turns
    Client.outputs talk.client.state.log <+:
        (turns.flatMap Turn.delivers).flatMap
          (Client.shown call.statusPipe) ∧
      (talk.serverLeft = false →
        talk.server.state.written =
            wire.encodeAll talk.client.state.dispatched →
          Client.outputs talk.client.state.log =
            (turns.flatMap Turn.delivers).flatMap
              (Client.shown call.statusPipe)) ∧
      Client.piped talk.client.state.log =
        Client.withRoom call.options.statusFull
          (Client.toPipe (Client.outputs talk.client.state.log)) := by
  intro talk
  have passed := Conversation.server_passedOn call host turns
  have untold :=
    Conversation.server_untold boots fitting.verb writable unprobed
  have seen :
      talk.client.state.dispatched.filterMap Client.content? <+:
        sends talk.server.state.hw.log :=
    Conversation.client_dispatched fitting
  have outputs :
      Client.outputs talk.client.state.log =
        (talk.client.state.dispatched.filterMap Client.content?).flatMap
          (Client.shown call.statusPipe) :=
    Conversation.client_outputs call host turns
  have whole :
      (sends talk.server.state.hw.log).flatMap
          (Client.shown call.statusPipe) =
        (forwarded talk.server.state.hw.log).flatMap
          (Client.shown call.statusPipe) := by
    rw [shown_forwarded _ untold, ofTypes_forwarded]
  refine ⟨?_, fun runs everything => ?_,
    Conversation.client_piping call host turns⟩
  · rw [outputs]
    refine (List.IsPrefix.flatMap seen _).trans ?_
    rw [whole]
    exact List.IsPrefix.flatMap passed.begins _
  · obtain ⟨frames, written, contents⟩ :=
      Conversation.server_frames fitting
    have stream :
        wire.encodeAll frames =
          wire.encodeAll talk.client.state.dispatched ++ [] := by
      rw [← written, List.append_nil]
      exact everything
    have same :=
      (FrameFormat.eq_of_encodeAll_eq stream wire.next?_nil).1
    rw [outputs, ← same, contents, whole, passed.whole runs]

end Booting

/-- The board prints while the client reads in small pieces. -/
def screenTurns : List Turn :=
  [.client ⟨none, none, false, true⟩ [],
    .server [.stdin] [.deliver 99, .wouldBlock],
    .server [.consoleData (some (ascii "login: "))] [],
    .client ⟨none, none, true, false⟩ [.deliver 9, .deliver 99, .wouldBlock],
    .server [.consoleData (some (ascii "pass"))] []]

/-- The second text is still on its way. -/
def screened : Conversation 1 :=
  (Conversation.start consoleCall benchHost).after screenTurns

theorem screenTurns_fitting : Fitting consoleCall benchHost screenTurns where
  verb := consoleCall_fits
  tellable := fun _ _ => ftdiBoard_tellable
  fromBuffers := by
    intro ready reads member callback inReady
    simp only [screenTurns, List.mem_cons, reduceCtorEq, Turn.server.injEq,
      List.not_mem_nil, or_false, false_or] at member
    rcases member with ⟨rfl, _⟩ | ⟨rfl, _⟩ | ⟨rfl, _⟩
    · rw [List.mem_singleton.mp inReady]
      trivial
    · rw [List.mem_singleton.mp inReady]
      show (ascii "login: ").length ≤ 128
      decide
    · rw [List.mem_singleton.mp inReady]
      show (ascii "pass").length ≤ 128
      decide

/-- What the board of the bench prints is seen. -/
theorem screened_screen :
    Client.outputs screened.client.state.log =
        [(.stdout, ascii "login: ")] ∧
      Client.outputs screened.client.state.log <+:
          (screenTurns.flatMap Turn.delivers).flatMap
            (Client.shown consoleCall.statusPipe) ∧
        (screened.serverLeft = false →
          screened.server.state.written =
              wire.encodeAll screened.client.state.dispatched →
            Client.outputs screened.client.state.log =
              (screenTurns.flatMap Turn.delivers).flatMap
                (Client.shown consoleCall.statusPipe)) ∧
        Client.piped screened.client.state.log =
          Client.withRoom consoleCall.options.statusFull
            (Client.toPipe
              (Client.outputs screened.client.state.log)) :=
  ⟨by decide +kernel,
    conversation_screen rfl screenTurns_fitting (by simp [consoleCall])
      (by decide +kernel)⟩

end Cdba
