import Cdba.Keyboard
import Cdba.MessageLengths
import Mathlib.Data.List.Perm.Basic

namespace Cdba

/-!
# What a turn of the client comes to

Between two points of a run the client has read some characters, dispatched
some messages, printed something and written something to the server.  What it
has printed follows from the messages.  What it has written are frames, as long
as no write is refused: those that were typed, those that work items stood for,
and requests for power and chunks of an image.  Each part of the main loop gets
one lemma, and these compose.
-/

open Program

namespace Client

/-! ## What is printed -/

/-- Where the client passes on what the server sends. -/
inductive Destination where
  | stdout
  | statusPipe
  deriving DecidableEq, Repr

/-- Bytes that the client hands to `write()` to pass them on. -/
def output? : ClientEvent → Option (Destination × List UInt8)
  | .stdout bytes => some (.stdout, bytes)
  | .statusPipe bytes _ => some (.statusPipe, bytes)
  | _ => none

/-- Everything that was passed on, in order. -/
def outputs (log : List ClientEvent) : List (Destination × List UInt8) :=
  log.filterMap output?

/-- What is passed on to the status pipe. -/
def toPipe (handed : List (Destination × List UInt8)) : List (List UInt8) :=
  (handed.filter (·.1 = .statusPipe)).map Prod.snd

/-- A status update that found room in the pipe. -/
def piped? : ClientEvent → Option (List UInt8)
  | .statusPipe bytes true => some bytes
  | _ => none

/-- What has come into the status pipe. -/
def piped (log : List ClientEvent) : List (List UInt8) :=
  log.filterMap piped?

/-- Without those writes that find the pipe full. -/
def withRoom : List Bool → List (List UInt8) → List (List UInt8)
  | _, [] => []
  | full, bytes :: rest =>
      (if full.headD false then [] else [bytes]) ++ withRoom full.tail rest

/--
All that was handed to `write()` for the status pipe has come there, but for
what found it full.
-/
structure Piping (full : List Bool) (client : Client) : Prop where
  statusFull : client.options.statusFull = full
  came :
    piped client.log = withRoom full (toPipe (outputs client.log))

/-- A change to something else. -/
theorem Piping.elsewhere
    {full : List Bool}
    {first last : Client}
    (piping : Piping full first)
    (options : last.options = first.options)
    (log : last.log = first.log) :
    Piping full last where
  statusFull := options.symm ▸ piping.statusFull
  came := log.symm ▸ piping.came

/-- What the handler of a message passes on. -/
def printed (statusFd : Bool) (msg : Msg) : List (Destination × List UInt8) :=
  match MsgType.ofCode? msg.type with
  | some .console => [(.stdout, msg.data)]
  | some .listDevices =>
      if msg.data = [] then [] else [(.stdout, msg.data ++ [0x0a])]
  | some .boardInfo => [(.stdout, msg.data ++ [0x0a])]
  | some .statusUpdate =>
      if statusFd then [(.statusPipe, msg.data)] else []
  | _ => []

/-- The messages whose handler may make the client quit. -/
def mayQuit (msg : Msg) : Bool :=
  match MsgType.ofCode? msg.type with
  | some .listDevices => msg.data = []
  | some .boardInfo => true
  | some .fastbootPresent => true
  | _ => false

/-! ## What is written -/

/-- What a work item asks the server once, and is freed. -/
def Work.question? : Work → Option (MsgType × List UInt8)
  | .listBoards => some (.listDevices, [])
  | .boardInfo board => some (.boardInfo, board ++ [0])
  | .selectBoard board => some (.selectBoard, board ++ [0])
  | _ => none

/-- The questions that are still to be asked. -/
def questions (works : List (Option Work)) : List (MsgType × List UInt8) :=
  works.filterMap fun work => work.bind Work.question?

/-- The type of a message and its payload. -/
def content? (msg : Msg) : Option (MsgType × List UInt8) :=
  (MsgType.ofCode? msg.type).map fun type => (type, msg.data)

/-- The types of the questions. -/
def asks (type : MsgType) : Bool :=
  type = .listDevices || type = .boardInfo || type = .selectBoard

/-- The types that no work item sends: if they are sent, they were typed. -/
def onlyTyped (type : MsgType) : Bool :=
  type = .console || type = .vbusOn || type = .vbusOff ||
    type = .sendBreak || type = .keyPress || type = .fastbootReboot

/-- The message of a keystroke. -/
def Keystroke.content? : Keystroke → Option (MsgType × List UInt8)
  | .quit => none
  | .send type payload => some (type, payload)

/-- The messages of some types, in order. -/
def ofTypes
    (types : MsgType → Bool)
    (contents : List (MsgType × List UInt8)) :
    List (MsgType × List UInt8) :=
  contents.filter fun content => types content.1

@[simp] theorem ofTypes_nil
    (types : MsgType → Bool) :
    ofTypes types [] = [] :=
  rfl

@[simp] theorem ofTypes_append
    (types : MsgType → Bool)
    (before after : List (MsgType × List UInt8)) :
    ofTypes types (before ++ after) =
      ofTypes types before ++ ofTypes types after :=
  List.filter_append ..

/-- No write is refused, and the board names of the work items fit. -/
structure Speaking (client : Client) : Prop where
  writable : ∀ outcome, outcome ∈ client.writes → outcome = .done
  fitting : ∀ work, some work ∈ client.works → WorkFits work

/--
The client has written frames: of those that are only typed the ones of some
keystrokes, and of the questions those that are asked no more.
-/
structure Speech
    (first last : Client)
    (strokes : List Keystroke)
    (frames : List Msg) :
    Prop where
  speaking : Speaking last
  stream : last.sshStdin = first.sshStdin ++ wire.encodeAll frames
  known : ∀ frame, frame ∈ frames → (content? frame).isSome = true
  typed :
    ofTypes onlyTyped (frames.filterMap content?) =
      ofTypes onlyTyped (strokes.filterMap Keystroke.content?)
  asked :
    (ofTypes asks (frames.filterMap content?) ++
      questions last.works).Perm (questions first.works)

/--
In between, the client has read some characters, dispatched some messages and
passed some bytes on.
-/
structure Passes
    (chars : List UInt8)
    (messages : List Msg)
    (shown : List (Destination × List UInt8))
    (first last : Client) :
    Prop where
  appended : first.sshStdin <+: last.sshStdin
  keyboard : last.keyboard = typing.after first.keyboard chars
  statusFd : last.statusFd = first.statusFd
  dispatched : last.dispatched = first.dispatched ++ messages
  outputs : outputs last.log = outputs first.log ++ shown
  quits :
    last.quit = true →
      first.quit = true ∨
        .quit ∈ typing.output first.keyboard chars ∨
        ∃ msg, msg ∈ messages ∧ mayQuit msg = true
  pipes : ∀ full, Piping full first → Piping full last
  speaks :
    Speaking first →
      ∃ frames, Speech first last (typing.output first.keyboard chars) frames

/-- One stretch after the other. -/
theorem Speech.trans
    {first middle last : Client}
    {strokes strokes' : List Keystroke}
    {frames frames' : List Msg}
    (step : Speech first middle strokes frames)
    (later : Speech middle last strokes' frames') :
    Speech first last (strokes ++ strokes') (frames ++ frames') where
  speaking := later.speaking
  stream := by
    rw [later.stream, step.stream, FrameFormat.encodeAll_append,
      List.append_assoc]
  known := fun frame member =>
    (List.mem_append.mp member).elim (step.known frame)
      (later.known frame)
  typed := by
    rw [List.filterMap_append, List.filterMap_append, ofTypes_append,
      ofTypes_append, step.typed, later.typed]
  asked := by
    rw [List.filterMap_append, ofTypes_append, List.append_assoc]
    exact (later.asked.append_left _).trans step.asked

theorem Passes.refl
    (client : Client) :
    Passes [] [] [] client client where
  appended := List.prefix_rfl
  keyboard := rfl
  statusFd := rfl
  dispatched := (List.append_nil _).symm
  outputs := (List.append_nil _).symm
  quits := Or.inl
  pipes := fun _ => id
  speaks := fun speaking =>
    ⟨[], speaking, (List.append_nil _).symm, by simp, rfl, .refl _⟩

theorem Passes.trans
    {chars chars' : List UInt8}
    {messages messages' : List Msg}
    {shown shown' : List (Destination × List UInt8)}
    {first middle last : Client}
    (step : Passes chars messages shown first middle)
    (later : Passes chars' messages' shown' middle last) :
    Passes (chars ++ chars') (messages ++ messages') (shown ++ shown')
      first last where
  appended := step.appended.trans later.appended
  keyboard := by
    rw [later.keyboard, step.keyboard, Transducer.after_append]
  statusFd := later.statusFd.trans step.statusFd
  dispatched := by
    rw [later.dispatched, step.dispatched, List.append_assoc]
  outputs := by
    rw [later.outputs, step.outputs, List.append_assoc]
  quits := by
    intro quit
    rw [Transducer.output_append, ← step.keyboard]
    rcases later.quits quit with before | typed | ⟨msg, member, quits⟩
    · rcases step.quits before with before | typed | ⟨msg, member, quits⟩
      · exact .inl before
      · exact .inr (.inl (List.mem_append_left _ typed))
      · exact .inr (.inr ⟨msg, List.mem_append_left _ member, quits⟩)
    · exact .inr (.inl (List.mem_append_right _ typed))
    · exact .inr (.inr ⟨msg, List.mem_append_right _ member, quits⟩)
  pipes := fun full piping => later.pipes full (step.pipes full piping)
  speaks := by
    intro speaking
    obtain ⟨frames, speech⟩ := step.speaks speaking
    obtain ⟨frames', speech'⟩ := later.speaks speech.speaking
    refine ⟨frames ++ frames', ?_⟩
    rw [Transducer.output_append, ← step.keyboard]
    exact speech.trans speech'

/-- Work in between: nothing is read, dispatched or passed on. -/
abbrev Works (first last : Client) : Prop :=
  Passes [] [] [] first last

instance Works.composes : Composes Works where
  refl := Passes.refl
  trans := fun step later => step.trans later

/-- Programs that only work, however they end. -/
abbrev Working (program : ClientM α) : Prop :=
  Relates Works AnyStop program

/-! ## Work in between -/

/-- The parts of the client that turns are about. -/
def turnParts (client : Client) :=
  (client.sshStdin, client.special, client.keyState, client.statusFd,
    client.dispatched, outputs client.log, client.quit, client.works,
    client.writes, client.options, piped client.log)

/-- The same in every part. -/
theorem Works.of_same
    {first last : Client}
    (same : last.turnParts = first.turnParts) :
    Works first last := by
  simp only [turnParts, Prod.mk.injEq] at same
  obtain ⟨sshStdin, special, keyState, statusFd, dispatched, outputs,
    quit, works, writes, options, piped⟩ := same
  exact
    { appended := sshStdin ▸ List.prefix_rfl
      keyboard := by
        simp only [Client.keyboard, special, keyState, Transducer.after]
      statusFd := statusFd
      dispatched := by rw [dispatched, List.append_nil]
      outputs := by rw [outputs, List.append_nil]
      quits := fun quitting => .inl (quit ▸ quitting)
      pipes := fun full piping =>
        { statusFull := options.symm ▸ piping.statusFull
          came := by
            rw [piped, outputs]
            exact piping.came }
      speaks := fun speaking =>
        ⟨[],
          { speaking :=
              ⟨writes ▸ speaking.writable, works ▸ speaking.fitting⟩
            stream := by simp [sshStdin]
            known := by simp
            typed := rfl
            asked := works ▸ .refl _ }⟩ }

theorem update_working
    {change : Client → Client}
    (same : ∀ client, (change client).turnParts = client.turnParts) :
    Working (update change) :=
  .update fun client => .of_same (same client)

theorem record_working
    {event : ClientEvent}
    (silent : output? event = none) :
    Working (record event) := by
  have unpiped : piped? event = none := by
    cases event with
    | statusPipe bytes room => cases silent
    | _ => rfl
  exact update_working fun client => by
    simp [turnParts, outputs, piped, silent, unpiped]

theorem enqueue_working
    (node : WorkNode) :
    Working (enqueue node) :=
  update_working fun _ => rfl

theorem request_working
    (node : WorkNode) :
    Working (request node) :=
  .bind (record_working rfl) fun _ => enqueue_working node

theorem content?_ofData
    (type : MsgType)
    {payload : List UInt8}
    (fits : payload.length < 2 ^ 16) :
    content? (Msg.ofData type.code payload fits) = some (type, payload) := by
  simp [content?, Msg.ofData]

/-- What `cdba_send_buf` does when no write is refused. -/
theorem sendResult_speaking
    {client : Client}
    (speaking : Speaking client)
    (type : MsgType)
    {payload : List UInt8}
    (fits : payload.length < 2 ^ 16) :
    (sendResult type payload client.writes).1 = none ∧
      (sendResult type payload client.writes).2.1 =
        wire.encodeAll [Msg.ofData type.code payload fits] := by
  have sent := sendResult_writable speaking.writable type payload
  rw [sent]
  exact ⟨rfl, (List.append_nil _).symm⟩

/--
A message of the work queue was sent.  If it is a question, it is no longer
among those that work items stand for.
-/
theorem Works.of_send
    {client : Client}
    {type : MsgType}
    {payload : List UInt8}
    {works : List (Option Work)}
    {log : List ClientEvent}
    {workItems : Links WorkNode}
    (fits : Speaking client → payload.length < 2 ^ 16)
    (untyped : onlyTyped type = false)
    (silent :
      (outputs log, piped log) = (outputs client.log, piped client.log))
    (fitting :
      Speaking client →
        ∀ work, some work ∈ works → WorkFits work)
    (asked :
      Speaking client →
        (ofTypes asks [(type, payload)] ++ questions works).Perm
          (questions client.works)) :
    Works client
      { client with
        sshStdin :=
          client.sshStdin ++ (sendResult type payload client.writes).2.1
        writes := (sendResult type payload client.writes).2.2
        works := works
        workItems := workItems
        log := log } where
  appended := List.prefix_append _ _
  keyboard := rfl
  statusFd := rfl
  dispatched := (List.append_nil _).symm
  outputs := by rw [(Prod.mk.inj silent).1, List.append_nil]
  quits := Or.inl
  pipes := fun full piping =>
    { statusFull := piping.statusFull
      came := by
        obtain ⟨handed, came⟩ := Prod.mk.inj silent
        rw [handed, came]
        exact piping.came }
  speaks := by
    intro speaking
    have fits := fits speaking
    refine ⟨[Msg.ofData type.code payload fits],
      { speaking := ⟨?_, fitting speaking⟩
        stream := by rw [(sendResult_speaking speaking type fits).2]
        known := ?_
        typed := ?_
        asked := ?_ }⟩
    · exact fun outcome member => speaking.writable outcome
        ((sendResult_suffix _ _ _).subset member)
    · intro frame member
      rw [List.mem_singleton.mp member, content?_ofData]
      rfl
    · rw [List.filterMap_cons_some (content?_ofData type fits)]
      simp [ofTypes, untyped, Transducer.output]
    · rw [List.filterMap_cons_some (content?_ofData type fits)]
      exact asked speaking

/-- A message that is no question is sent. -/
theorem cdbaSendBuf_working
    {type : MsgType}
    {payload : List UInt8}
    (fits : payload.length < 2 ^ 16)
    (untyped : onlyTyped type = false)
    (plain : asks type = false) :
    Working (cdbaSendBuf type payload) := by
  intro client
  refine .of_ok (cdbaSendBuf_eq type payload client) ?_
  refine .of_send (fun _ => fits) untyped rfl
    (fun speaking => speaking.fitting) ?_
  intro _
  simp [ofTypes, plain]

theorem sendOrErr_working
    {type : MsgType}
    {message : String}
    (untyped : onlyTyped type = false)
    (plain : asks type = false) :
    Working (sendOrErr type [] message) :=
  .bind (cdbaSendBuf_working Msg.nil_fits untyped plain) fun _ =>
    .ite (.stop trivial) (record_working rfl)

/-! ## The work queue -/

/-- Changing a work item that asks nothing into another one that does not. -/
theorem questions_set
    {works : List (Option Work)}
    {index : Nat}
    {work : Option Work}
    (before :
      (works[index]?).all (fun work =>
        (work.bind Work.question?).isNone) = true)
    (after : work.bind Work.question? = none) :
    questions (works.set index work) = questions works := by
  induction works generalizing index with
  | nil =>
      rfl
  | cons first rest inductionHypothesis =>
      cases index with
      | zero =>
          simp only [List.getElem?_cons_zero, Option.all_some,
            Option.isNone_iff_eq_none] at before
          simp only [List.set_cons_zero, questions, List.filterMap_cons,
            after, before]
      | succ index =>
          rw [List.getElem?_cons_succ] at before
          have later := inductionHypothesis before
          simp only [questions] at later
          rw [List.set_cons_succ, questions, questions,
            List.filterMap_cons, List.filterMap_cons, later]

/-- Freeing a work item takes its question off the others. -/
theorem questions_free
    {works : List (Option Work)}
    {index : Nat}
    {work : Work}
    {question : MsgType × List UInt8}
    (found : works[index]? = some (some work))
    (asking : Work.question? work = some question) :
    (question :: questions (works.set index none)).Perm
      (questions works) := by
  induction works generalizing index with
  | nil =>
      cases found
  | cons first rest inductionHypothesis =>
      cases index with
      | zero =>
          rw [List.getElem?_cons_zero, Option.some.injEq] at found
          subst found
          have same :
              questions (some work :: rest) = question :: questions rest :=
            List.filterMap_cons_some asking
          rw [same]
          exact .refl _
      | succ index =>
          rw [List.getElem?_cons_succ] at found
          have later := inductionHypothesis found
          rw [List.set_cons_succ]
          simp only [questions, List.filterMap_cons] at later ⊢
          cases first.bind Work.question? with
          | none => exact later
          | some other => exact (List.Perm.swap _ _ _).trans (later.cons _)

/-- Items stay fitting when one of them is replaced by a fitting one. -/
theorem fitting_set
    {works : List (Option Work)}
    {index : Nat}
    {work : Option Work}
    (fitting : ∀ other, some other ∈ works → WorkFits other)
    (fits : ∀ other, work = some other → WorkFits other) :
    ∀ other, some other ∈ works.set index work → WorkFits other := by
  intro other member
  rcases List.mem_or_eq_of_mem_set member with old | new
  · exact fitting other old
  · exact fits other new.symm

/-- A question is asked, and its work item is freed. -/
theorem ask_working
    {client : Client}
    {index : Nat}
    {work : Work}
    {type : MsgType}
    {payload : List UInt8}
    {message : String}
    (found : client.works[index]? = some (some work))
    (asking : Work.question? work = some (type, payload))
    (untyped : onlyTyped type = false)
    (question : asks type = true)
    (fits : Speaking client → payload.length < 2 ^ 16) :
    RelatesAt Works AnyStop
      (sendOrErr type payload message >>= fun _ => free index) client := by
  cases sent : (sendResult type payload client.writes).1 with
  | none =>
      have sends := sendOrErr_eq type payload message client
      rw [if_pos sent] at sends
      refine .of_ok (show _ = EStateM.Result.ok () _ from bind_of_ok sends _)
        (.of_send fits untyped
          (by simp [outputs, output?, piped, piped?]) ?_ ?_)
      · exact fun speaking => fitting_set speaking.fitting (by simp)
      · intro _
        rw [show ofTypes asks [(type, payload)] = [(type, payload)] by
          simp [ofTypes, question]]
        exact questions_free found asking
  | some errno =>
      have sends := sendOrErr_eq type payload message client
      rw [if_neg (by simp [sent])] at sends
      refine .of_error (bind_of_error sends _)
        (.of_send fits untyped rfl ?_ ?_) trivial
      · exact fun speaking => speaking.fitting
      · intro speaking
        have whole :=
          (sendResult_speaking speaking type (fits speaking)).1
        rw [sent] at whole
        cases whole

/-- A chunk is sent; the work item goes on, waits, or is done. -/
theorem fastbootWorkFn_working
    {client : Client}
    {index : Nat}
    {data : List UInt8}
    {offset size : Nat}
    (found :
      client.works[index]? =
        some (some (.fastbootDownload data offset size))) :
    RelatesAt Works AnyStop (fastbootWorkFn index data offset size)
      client := by
  have short : (piece data offset size).length < 2 ^ 16 := by
    simp only [piece, List.length_take]
    omega
  have silent :
      (client.works[index]?).all (fun work =>
        (work.bind Work.question?).isNone) = true := by
    rw [found]
    rfl
  have sends :
      ∀ (works : List (Option Work)) (workItems : Links WorkNode),
        (works = client.works ∨
          ∃ work : Option Work,
            works = client.works.set index work ∧
              ∀ other, work = some other →
                WorkFits other ∧ Work.question? other = none) →
        Works client
          { client with
            sshStdin :=
              client.sshStdin ++
                (sendResult .fastbootDownload (piece data offset size)
                  client.writes).2.1
            writes :=
              (sendResult .fastbootDownload (piece data offset size)
                client.writes).2.2
            works := works
            workItems := workItems } := by
    rintro works workItems (rfl | ⟨work, rfl, plain⟩)
    · exact .of_send (fun _ => short) rfl rfl
        (fun speaking => speaking.fitting) fun _ => .refl _
    · refine .of_send (fun _ => short) rfl rfl ?_ fun _ => ?_
      · exact fun speaking => fitting_set speaking.fitting
          fun other same => (plain other same).1
      · have asksNothing : work.bind Work.question? = none := by
          cases work with
          | none => rfl
          | some other => exact (plain other rfl).2
        rw [questions_set silent asksNothing]
        exact .refl _
  have run := fastbootWorkFn_eq index data offset size client
  generalize sendResult .fastbootDownload (piece data offset size)
    client.writes = sent at run sends
  obtain ⟨failed, bytes, writes⟩ := sent
  cases failed with
  | none =>
      dsimp only at run
      split at run
      · exact .of_ok run (sends _ _ (.inr ⟨none, rfl, by simp⟩))
      · exact .of_ok run
          (sends _ _ (.inr ⟨_, rfl, by rintro _ ⟨⟩; exact ⟨trivial, rfl⟩⟩))
  | some errno =>
      cases errno with
      | eagain => exact .of_ok run (sends _ _ (.inl rfl))
      | epipe => exact .of_error run (sends _ _ (.inl rfl)) trivial
      | other => exact .of_error run (sends _ _ (.inl rfl)) trivial

/-- The function of an allocated work item. -/
theorem runWork_working
    {client : Client}
    {index : Nat}
    {work : Work}
    (found : client.works[index]? = some (some work)) :
    RelatesAt Works AnyStop (runWork index work) client := by
  have fits :
      ∀ board, WorkFits work = BoardFits board →
        Speaking client → (board ++ [(0 : UInt8)]).length < 2 ^ 16 := by
    intro board same speaking
    have bound := speaking.fitting work (List.mem_of_getElem? found)
    rw [same, BoardFits, maxPayload] at bound
    rw [List.length_append, List.length_singleton]
    omega
  cases work with
  | listBoards =>
      exact ask_working found rfl rfl rfl fun _ => Msg.nil_fits
  | boardInfo board =>
      exact ask_working found rfl rfl rfl (fits board rfl)
  | selectBoard board =>
      exact ask_working found rfl rfl rfl (fits board rfl)
  | statusEnable =>
      have asksNothing :
          (client.works[index]?).all (fun work =>
            (work.bind Work.question?).isNone) = true := by
        rw [found]
        rfl
      refine .of_ok
        (show _ = EStateM.Result.ok () _ from
          bind_of_ok (cdbaSendBuf_eq .statusUpdate [] client) _)
        (.of_send (fun _ => Msg.nil_fits) rfl rfl ?_ ?_)
      · exact fun speaking => fitting_set speaking.fitting (by simp)
      · intro _
        rw [questions_set asksNothing rfl]
        exact .refl _
  | fastbootDownload data offset size =>
      exact fastbootWorkFn_working found

theorem runNode_working
    (node : WorkNode) :
    Working (runNode node) := by
  refine .bind (update_working fun _ => rfl) fun _ => ?_
  cases node with
  | head => exact .stop trivial
  | powerOn => exact sendOrErr_working rfl rfl
  | powerOff => exact sendOrErr_working rfl rfl
  | fastbootContinue => exact sendOrErr_working rfl rfl
  | heap index =>
      intro client
      refine (Relates.read _ client).bind fun work middle outcome => ?_
      cases outcome
      cases found : (client.works[index]?).join with
      | none =>
          simp only [found]
          exact Relates.stop trivial client
      | some work =>
          simp only [found]
          exact runWork_working (Option.join_eq_some_iff.mp found)

theorem workPass_working :
    Working workPass :=
  .bind (.read _) fun _ => .bind (.read _) fun _ => .bind (.read _) fun _ =>
    Links.forEachEntrySafe_relates runNode_working trivial _ _ _

/-! ## Messages of the server -/

/-- Before a handler runs, its message is recorded. -/
def recorded (msg : Msg) (client : Client) : Client :=
  { client with dispatched := client.dispatched ++ [msg] }

theorem dispatch_eq
    (msg : Msg)
    (client : Client) :
    dispatch msg client =
      handleType (MsgType.ofCode? msg.type) msg.data
        (client.recorded msg) :=
  rfl

/-- A handler that passes something on and otherwise only works. -/
theorem Passes.of_recorded
    {msg : Msg}
    {shown : List (Destination × List UInt8)}
    {client last : Client}
    (passes : Passes [] [] shown (client.recorded msg) last) :
    Passes [] [msg] shown client last where
  appended := passes.appended
  keyboard := passes.keyboard
  statusFd := passes.statusFd
  dispatched := passes.dispatched.trans (List.append_nil _)
  outputs := passes.outputs
  quits := fun quit => .inl ((passes.quits quit).resolve_right (by
    simp [Transducer.output]))
  pipes := fun full piping =>
    passes.pipes full (piping.elsewhere rfl rfl)
  speaks := by
    intro speaking
    obtain ⟨frames, speech⟩ :=
      passes.speaks ⟨speaking.writable, speaking.fitting⟩
    exact ⟨frames, speech.speaking, speech.stream, speech.known,
      speech.typed, speech.asked⟩

/-- One more write to the pipe. -/
theorem withRoom_append
    (full : List Bool)
    (before : List (List UInt8))
    (bytes : List UInt8) :
    withRoom full (before ++ [bytes]) =
      withRoom full before ++
        if full.getD before.length false then [] else [bytes] := by
  induction before generalizing full with
  | nil => cases full <;> simp [withRoom]
  | cons first rest inductionHypothesis =>
      rw [List.cons_append, withRoom, inductionHypothesis, withRoom,
        List.append_assoc]
      cases full <;> simp

/-- The writes to the pipe are those that were handed to it. -/
theorem countP_toStatusPipe
    (log : List ClientEvent) :
    log.countP toStatusPipe = (toPipe (outputs log)).length := by
  induction log with
  | nil => rfl
  | cons event rest inductionHypothesis =>
      rw [List.countP_cons, inductionHypothesis]
      cases event <;>
        simp [outputs, toPipe, output?, toStatusPipe, List.filterMap_cons]

section Pipes

variable {full : List Bool} {client : Client}

theorem Piping.stdout
    (piping : Piping full client)
    (bytes : List UInt8) :
    Piping full { client with log := client.log ++ [.stdout bytes] } where
  statusFull := piping.statusFull
  came := by
    simpa [piped, outputs, toPipe, piped?, output?, List.filterMap_cons]
      using piping.came

theorem Piping.statusPipe
    (piping : Piping full client)
    (bytes : List UInt8) :
    Piping full
      { client with
        log := client.log ++ [.statusPipe bytes client.statusRoom] } where
  statusFull := piping.statusFull
  came := by
    have handed :
        toPipe (outputs
            (client.log ++ [.statusPipe bytes client.statusRoom])) =
          toPipe (outputs client.log) ++ [bytes] := by
      simp [outputs, toPipe, output?]
    dsimp only
    rw [handed, withRoom_append, ← piping.came, ← countP_toStatusPipe]
    unfold statusRoom
    rw [piping.statusFull]
    cases full.getD _ false <;> simp [piped, piped?]

end Pipes

/-- Something is passed on. -/
theorem Passes.of_output
    {client last : Client}
    {event : ClientEvent}
    {shown : Destination × List UInt8}
    (shows : output? event = some shown)
    (pipes :
      ∀ full,
        Piping full last →
        Piping full { last with log := last.log ++ [event] })
    (works : Works client last) :
    Passes [] [] [shown] client
      { last with log := last.log ++ [event] } where
  appended := works.appended
  keyboard := works.keyboard
  statusFd := works.statusFd
  dispatched := works.dispatched
  outputs := by
    have before := works.outputs
    simp only [Client.outputs, List.append_nil] at before ⊢
    rw [List.filterMap_append, before]
    simp [shows]
  quits := works.quits
  pipes := fun full piping => pipes full (works.pipes full piping)
  speaks := by
    intro speaking
    obtain ⟨frames, speech⟩ := works.speaks speaking
    exact ⟨frames, ⟨speech.speaking.writable, speech.speaking.fitting⟩,
      speech.stream, speech.known, speech.typed, speech.asked⟩

/-- The handler makes the client quit. -/
theorem Passes.of_quit
    {msg : Msg}
    {shown : List (Destination × List UInt8)}
    {client last : Client}
    (quits : mayQuit msg = true)
    (passes : Passes [] [msg] shown client last) :
    Passes [] [msg] shown client { last with quit := true } where
  appended := passes.appended
  keyboard := passes.keyboard
  statusFd := passes.statusFd
  dispatched := passes.dispatched
  outputs := passes.outputs
  quits := fun _ =>
    .inr (.inr ⟨msg, List.mem_singleton.mpr rfl, quits⟩)
  pipes := fun full piping =>
    (passes.pipes full piping).elsewhere rfl rfl
  speaks := by
    intro speaking
    obtain ⟨frames, speech⟩ := passes.speaks speaking
    exact ⟨frames, ⟨speech.speaking.writable, speech.speaking.fitting⟩,
      speech.stream, speech.known, speech.typed, speech.asked⟩

/-- A handler that only works passes nothing on. -/
theorem Passes.of_working
    {program : ClientM Unit}
    (working : Working program)
    (msg : Msg)
    (client : Client) :
    Passes [] [msg] [] client
      (finalState (program (client.recorded msg))) :=
  .of_recorded (working _).related

/-- A work item that asks nothing is allocated and queued. -/
theorem requestWork_working
    {work : Work}
    (fits : WorkFits work)
    (plain : Work.question? work = none) :
    Working (requestWork work) := by
  refine .bind
    (.bind (.read _) fun _ => .bind (.update fun client => ?_) fun _ =>
      .pure _)
    fun node => request_working node
  exact
    { appended := List.prefix_rfl
      keyboard := rfl
      statusFd := rfl
      dispatched := (List.append_nil _).symm
      outputs := (List.append_nil _).symm
      quits := Or.inl
      pipes := fun _ piping => piping.elsewhere rfl rfl
      speaks := by
        intro speaking
        refine ⟨[],
          { speaking := ⟨speaking.writable, fun other member => ?_⟩
            stream := (List.append_nil _).symm
            known := by simp
            typed := rfl
            asked := ?_ }⟩
        · rcases List.mem_append.mp member with old | new
          · exact speaking.fitting other old
          · cases List.mem_singleton.mp new
            exact fits
        · simp [questions, plain] }

/-- The end of `fastboot_present`: it requests something, or quits. -/
theorem fastbootPresent_passes
    {msg : Msg}
    (quits : mayQuit msg = true)
    (client : Client) :
    Passes [] [msg] [] client
      (finalState (fastbootPresent (client.recorded msg))) := by
  have continuing :
      Working (do
        requestFastbootContinue
        update fun client => { client with fastbootContinue := false }) :=
    .bind (request_working _) fun _ => update_working fun _ => rfl
  have uploading : Working requestFastbootFiles := by
    refine .bind (.read _) fun file => ?_
    cases file with
    | none => exact .stop trivial
    | some data => exact requestWork_working trivial rfl
  unfold fastbootPresent
  rw [bind_of_ok (read_apply _ _)]
  split
  · exact .of_working continuing msg client
  · split
    · exact .of_working uploading msg client
    · exact .of_quit quits (.of_recorded (.refl _))

/-- What dispatching a message comes to. -/
theorem dispatch_passes
    (msg : Msg)
    (client : Client) :
    Passes [] [msg] (printed client.statusFd msg) client
      (finalState (dispatch msg client)) := by
  have ignored :
      Passes [] [msg] [] client (client.recorded msg) :=
    .of_recorded (.refl _)
  have stays :
      ∀ program : ClientM Unit,
        Working program →
        Passes [] [msg] [] client
          (finalState (program (client.recorded msg))) :=
    fun _ working => .of_working working msg client
  rw [dispatch_eq]
  unfold printed
  cases decoded : MsgType.ofCode? msg.type with
  | none => exact ignored
  | some type =>
      cases type with
      | selectBoard => exact stays _ (request_working _)
      | console =>
          obtain ⟨chars, received, counted⟩ :=
            handleConsole_counts msg.data (client.recorded msg)
          dsimp only [handleType]
          rw [handleConsole, bind_of_ok (update_apply _ _), counted]
          exact .of_recorded
            (.of_output rfl (fun _ piping => piping.stdout _) (.of_same rfl))
      | powerOff =>
          exact stays _
            (.bind (.read _) fun _ => .onlyIf
              (.bind (update_working fun _ => rfl)
                fun _ => request_working _))
      | fastbootPresent =>
          have quits : mayQuit msg = true := by simp [mayQuit, decoded]
          dsimp only [handleType]
          rw [bind_of_ok (read_apply _ _), onlyIf]
          split
          · exact fastbootPresent_passes quits client
          · exact ignored
      | fastbootDownload => exact stays _ (update_working fun _ => rfl)
      | fastbootContinue => exact stays _ (update_working fun _ => rfl)
      | statusUpdate =>
          dsimp only [handleType, handleStatusUpdate]
          rw [bind_of_ok (read_apply _ _), bind_of_ok (read_apply _ _), onlyIf]
          refine .of_recorded ?_
          rw [show (client.recorded msg).statusFd = client.statusFd from rfl]
          split
          · exact .of_output rfl (fun _ piping => piping.statusPipe _) (.refl _)
          · exact .refl _
      | listDevices =>
          dsimp only [handleType, handleListDevices]
          split
          · rename_i empty
            exact .of_quit (by simp [mayQuit, decoded, empty]) ignored
          · exact .of_recorded
              (.of_output rfl (fun _ piping => piping.stdout _) (.refl _))
      | boardInfo =>
          exact .of_quit (by simp [mayQuit, decoded])
            (.of_recorded (.of_output rfl (fun _ piping => piping.stdout _) (.refl _)))
      | _ => exact ignored

/-! ## Whole turns -/

/--
In between, the client has read some characters; what it has passed on follows
from the messages it has dispatched.
-/
def Proceeds (chars : List UInt8) (first last : Client) : Prop :=
  ∃ messages,
    Passes chars messages (messages.flatMap (printed first.statusFd))
      first last

theorem Works.proceeds
    {first last : Client}
    (works : Works first last) :
    Proceeds [] first last :=
  ⟨[], works⟩

theorem Proceeds.trans
    {chars chars' : List UInt8}
    {first middle last : Client}
    (step : Proceeds chars first middle)
    (later : Proceeds chars' middle last) :
    Proceeds (chars ++ chars') first last := by
  obtain ⟨messages, passes⟩ := step
  obtain ⟨messages', passes'⟩ := later
  refine ⟨messages ++ messages', ?_⟩
  rw [passes.statusFd] at passes'
  rw [List.flatMap_append]
  exact passes.trans passes'

theorem dispatch_proceeds
    (msg : Msg)
    (client : Client) :
    Proceeds [] client (finalState (dispatch msg client)) :=
  ⟨[msg], by simpa using dispatch_passes msg client⟩

theorem gettimeofday_working :
    Working gettimeofday :=
  .bind (update_working fun _ => rfl) fun _ => .read _

theorem armInactivity_working :
    Working armInactivity :=
  .bind (.read _) fun _ =>
    .bind (.bind gettimeofday_working fun _ => .pure _) fun _ =>
      update_working fun _ => rfl

theorem waitReady_working
    (ready : Ready) :
    Working (waitReady ready) := by
  have cycles : Working powerCycle :=
    .bind (.read _) fun _ =>
      .ite
        (.ite (.stop trivial)
          (.ite (.stop trivial)
            (.bind (record_working rfl) fun _ =>
              .bind (update_working fun _ => rfl) fun _ =>
                .bind (request_working _) fun _ => armInactivity_working)))
        (.pure _)
  have times : Working selectTimeout :=
    .bind (.read _) fun _ =>
      .ite (.bind gettimeofday_working fun _ => .pure _) (.pure _)
  refine .bind cycles fun _ => .bind times fun timeout =>
    .bind (record_working rfl) fun _ => .bind (.read _) fun _ => ?_
  cases timeout with
  | none => exact .ite (.stop trivial) (.pure _)
  | some tv =>
      exact .ite (.stop trivial)
        (.ite
          (.bind (update_working fun _ => rfl) fun _ => .pure _)
          (.pure _))

/-- The keystrokes of the machine send short messages that ask nothing. -/
theorem typing_sends
    {keyboard : Keyboard}
    {chars : List UInt8}
    {type : MsgType}
    {payload : List UInt8}
    (sent : .send type payload ∈ typing.output keyboard chars) :
    payload.length < 2 ^ 16 ∧ asks type = false ∧
      type ≠ .fastbootReboot := by
  have listed :
      ∀ content, content ∈ shortcutMessages →
        content.2.length < 2 ^ 16 ∧ asks content.1 = false ∧
          content.1 ≠ .fastbootReboot := by
    decide
  induction chars generalizing keyboard with
  | nil =>
      cases sent
  | cons char rest inductionHypothesis =>
      rcases List.mem_append.mp sent with now | later
      · simp only [typing, Keyboard.read] at now
        split at now
        · cases now
        · split at now
          · cases found : shortcut? char with
            | none =>
                rw [found] at now
                cases now
            | some shortcut =>
                rw [found] at now
                cases shortcut with
                | quit => simp [Keyboard.use] at now
                | message type' payload' =>
                    simp only [Keyboard.use, List.mem_singleton,
                      Keystroke.send.injEq] at now
                    obtain ⟨rfl, rfl⟩ := now
                    exact listed _ (mem_shortcutMessages found)
                | toggle key =>
                    simp only [Keyboard.use, List.mem_singleton,
                      Keystroke.send.injEq] at now
                    obtain ⟨rfl, rfl⟩ := now
                    exact ⟨by simp, rfl, by decide⟩
          · simp only [List.mem_singleton, Keystroke.send.injEq] at now
            obtain ⟨rfl, rfl⟩ := now
            exact ⟨by simp, rfl, by decide⟩
      · exact inductionHypothesis later

/-- What keystrokes come to: their messages are written, and nothing else. -/
theorem performAll_passes
    (strokes : List Keystroke)
    (client : Client) :
    (∃ bytes, (performAll client strokes).sshStdin =
        client.sshStdin ++ bytes) ∧
      performAll client strokes =
        { client with
          quit := (performAll client strokes).quit
          sshStdin := (performAll client strokes).sshStdin
          writes := (performAll client strokes).writes } ∧
      (performAll client strokes).writes <:+ client.writes ∧
      ((performAll client strokes).quit = true →
        client.quit = true ∨ .quit ∈ strokes) := by
  induction strokes generalizing client with
  | nil =>
      exact ⟨⟨[], (List.append_nil _).symm⟩, rfl, List.suffix_rfl, Or.inl⟩
  | cons stroke rest inductionHypothesis =>
      obtain ⟨⟨bytes, stream⟩, same, fewer, quits⟩ :=
        inductionHypothesis (perform client stroke)
      cases stroke with
      | quit =>
          exact ⟨⟨bytes, stream⟩, same, fewer,
            fun _ => .inr List.mem_cons_self⟩
      | send type payload =>
          refine ⟨⟨_, stream.trans (List.append_assoc _ _ _)⟩, same,
            fewer.trans (sendResult_suffix _ _ _), fun quit => ?_⟩
          exact (quits quit).imp_right (List.mem_cons_of_mem _)

/-- As long as no write is refused, each of them is a frame. -/
theorem performAll_frames
    {strokes : List Keystroke}
    {client : Client}
    (writable : ∀ outcome, outcome ∈ client.writes → outcome = .done)
    (short :
      ∀ type payload, .send type payload ∈ strokes →
        payload.length < 2 ^ 16) :
    ∃ frames,
      (performAll client strokes).sshStdin =
          client.sshStdin ++ wire.encodeAll frames ∧
        (∀ frame, frame ∈ frames → (content? frame).isSome = true) ∧
        frames.filterMap content? =
          strokes.filterMap Keystroke.content? := by
  induction strokes generalizing client with
  | nil =>
      exact ⟨[], (List.append_nil _).symm, by simp, rfl⟩
  | cons stroke rest inductionHypothesis =>
      have later := fun type payload member =>
        short type payload (List.mem_cons_of_mem _ member)
      cases stroke with
      | quit =>
          have quitting :
              ∀ outcome, outcome ∈ (perform client .quit).writes →
                outcome = .done :=
            writable
          exact inductionHypothesis quitting later
      | send type payload =>
          have fits := short type payload List.mem_cons_self
          have sent := congrArg (fun result => result.2.1)
            (sendResult_writable writable type payload)
          have sending :
              ∀ outcome,
                outcome ∈ (perform client (.send type payload)).writes →
                outcome = .done :=
            fun outcome member => writable outcome
              ((sendResult_suffix _ _ _).subset member)
          obtain ⟨frames, stream, known, contents⟩ :=
            inductionHypothesis sending later
          refine ⟨Msg.ofData type.code payload fits :: frames, ?_, ?_, ?_⟩
          · refine stream.trans ?_
            simp only [perform, sent, FrameFormat.encodeAll_cons,
              List.append_assoc]
            rfl
          · intro frame member
            rcases List.mem_cons.mp member with rfl | inRest
            · rw [content?_ofData]
              rfl
            · exact known frame inRest
          · rw [List.filterMap_cons_some (content?_ofData type fits),
              contents]
            rfl

/-- A read of the terminal. -/
theorem ttyCallback_proceeds
    (buf : List UInt8)
    (client : Client) :
    Proceeds buf client (finalState (ttyCallback (some buf) client)) := by
  rw [ttyCallback_eq, finalState]
  have sends :
      ∀ type payload,
        .send type payload ∈ typing.output client.keyboard buf →
        payload.length < 2 ^ 16 ∧ asks type = false ∧
          type ≠ .fastbootReboot :=
    fun _ _ => typing_sends
  generalize strokesAre : typing.output client.keyboard buf = strokes
    at sends
  obtain ⟨⟨bytes, stream⟩, same, fewer, quits⟩ :=
    performAll_passes strokes client
  refine ⟨[], ?_⟩
  rw [same]
  refine
    { appended := ⟨bytes, stream.symm⟩
      keyboard := rfl
      statusFd := rfl
      dispatched := (List.append_nil _).symm
      outputs := (List.append_nil _).symm
      quits := fun quit => ?_
      pipes := fun _ piping => piping.elsewhere rfl rfl
      speaks := fun speaking => ?_ }
  · rw [strokesAre]
    exact (quits quit).imp_right .inl
  · obtain ⟨frames, written, known, contents⟩ :=
      performAll_frames speaking.writable
        fun type payload member => (sends type payload member).1
    rw [strokesAre]
    refine ⟨frames,
      { speaking := ⟨?_, speaking.fitting⟩
        stream := written
        known := known
        typed := by rw [contents]
        asked := ?_ }⟩
    · exact fun outcome member =>
        speaking.writable outcome (fewer.subset member)
    · have nothing :
          ofTypes asks (strokes.filterMap Keystroke.content?) = [] := by
        refine List.filter_eq_nil_iff.mpr fun content member => ?_
        obtain ⟨stroke, typed, shown⟩ := List.mem_filterMap.mp member
        cases stroke with
        | quit => cases shown
        | send type payload =>
            cases shown
            simp [(sends type payload typed).2.1]
      rw [contents, nothing]
      exact .refl _

/-- What the terminal delivers in one iteration of the main loop. -/
def charsRead (ready : Ready) (client : Client) : List UInt8 :=
  if client.quit then
    []
  else
    match waitReady ready client with
    | .ok interesting _ => interesting.tty.join.getD []
    | .error _ _ => []

/-- The part of an iteration behind the terminal. -/
theorem serve_proceeds
    (chars : List UInt8)
    (start : Client)
    (ready : Ready) :
    Keeps
      (fun loop => Proceeds chars start loop.state)
      (fun _ loop => Proceeds chars start loop.state)
      (serve ready) := by
  have later :
      ∀ first last,
        Proceeds chars start first →
        Proceeds [] first last →
        Proceeds chars start last := by
    intro first last step next
    rw [← List.append_nil chars]
    exact step.trans next
  have works :
      ∀ {α : Type} {program : ClientM α},
        Working program →
        Keeps
          (fun loop : ClientLoop => Proceeds chars start loop.state)
          (fun _ loop => Proceeds chars start loop.state)
          (within Receiver.stateOf program) :=
    fun working loop step => KeepsAt.within Receiver.stateOf
      (Keeps.of_relates working
        (fun first last before relates =>
          later first last before relates.proceeds)
        loop.state step)
  have receives :
      Keeps
        (fun loop : ClientLoop => Proceeds chars start loop.state)
        (fun _ loop => Proceeds chars start loop.state)
        handleMessage := by
    refine receive_keeps ?_ (fun _ => id) fun msg client step => ?_
    · intro client input step
      have arrived : Works client (sshStdoutOf.set client input) :=
        .of_same rfl
      exact later _ _ step arrived.proceeds
    · exact .of_final (later client _ step (dispatch_proceeds msg client))
  exact serve_keeps receives (works armInactivity_working)
    (works workPass_working) ready

/-- The terminal's part of an iteration. -/
theorem readTty_proceeds
    {start : Client}
    {loop : ClientLoop}
    (before : Proceeds [] start loop.state)
    (tty : Option (Option (List UInt8))) :
    KeepsAt
      (fun loop => Proceeds (tty.join.getD []) start loop.state)
      (fun _ loop => Proceeds (tty.join.getD []) start loop.state)
      (onlyIf tty.isSome (within Receiver.stateOf (ttyCallback tty.join)))
      loop := by
  cases tty with
  | none => exact before
  | some buf =>
      have typed := before.trans
        (ttyCallback_proceeds (buf.getD []) loop.state)
      have ran := ttyCallback_eq (buf.getD []) loop.state
      rw [ran] at typed
      have same : ttyCallback buf = ttyCallback (some (buf.getD [])) := rfl
      rw [Option.join_some, Option.isSome_some, same]
      exact KeepsAt.within Receiver.stateOf (.of_ok ran typed)

/-- One iteration of the main loop. -/
theorem mainLoop_proceeds
    (ready : Ready)
    (loop : ClientLoop) :
    Proceeds (charsRead ready loop.state) loop.state
      (finalState (mainLoop [ready] loop)).state := by
  rw [mainLoop, bind_of_ok (read_apply _ _)]
  unfold charsRead
  split
  · have nothing : Works loop.state loop.state := .of_same rfl
    exact nothing.proceeds
  · have waited := (waitReady_working ready loop.state).related
    rw [show mainLoop [] = pure () from rfl, bind_pure_unit]
    unfold iteration
    cases outcome : waitReady ready loop.state with
    | error reason middle =>
        rw [outcome] at waited
        have left :
            within Receiver.stateOf (waitReady ready) loop =
              .error reason { loop with state := middle } := by
          simp only [within, Receiver.stateOf, outcome]
        rw [bind_of_error left]
        exact waited.proceeds
    | ok interesting middle =>
        rw [outcome] at waited
        have went :
            within Receiver.stateOf (waitReady ready) loop =
              .ok interesting { loop with state := middle } := by
          simp only [within, Receiver.stateOf, outcome]
        rw [bind_of_ok went]
        refine KeepsAt.final
          (fun last : ClientLoop =>
            Proceeds (interesting.tty.join.getD []) loop.state last.state)
          (.bind (readTty_proceeds waited.proceeds interesting.tty) ?_)
        intro _ middle _ read
        split
        · exact read
        · exact read
        · exact read
        · exact serve_proceeds _ _ _ _ read
        · exact serve_proceeds _ _ _ _ read

/-! ## Where turns start -/

/-- The work item of what the command line asks for. -/
def Verb.work : Verb → Work
  | .boot board => .selectBoard board
  | .list => .listBoards
  | .info board => .boardInfo board

/-- What the server is asked on behalf of the command line. -/
def Verb.question : Verb → MsgType × List UInt8
  | .boot board => (.selectBoard, board ++ [0])
  | .list => (.listDevices, [])
  | .info board => (.boardInfo, board ++ [0])

/-- When the main loop starts, the question is to be asked. -/
theorem setUp_asks
    (verb : Verb)
    (statusPipe : Bool)
    (options : ClientOptions)
    (powerCycles : Int)
    (writes : List WriteOutcome)
    (sshStdout : Input)
    (clock : Clock)
    (beyond : UInt8) :
    ∃ ready,
      setUp verb statusPipe
            (initial options powerCycles writes sshStdout clock beyond) =
          .ok () ready ∧
        ready.turnParts =
          ([], false, fun _ => false, statusPipe, [], [], false,
            some verb.work ::
              if statusPipe then [some .statusEnable] else [],
            writes, options, []) ∧
        ready.sshStdout = sshStdout := by
  cases verb <;> cases statusPipe
  all_goals exact ⟨_, rfl, rfl, rfl⟩

end Client

end Cdba
