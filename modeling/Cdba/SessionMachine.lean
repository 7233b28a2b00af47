import Cdba.Listing
import Cdba.LogViews
import Cdba.Supervision
import Cdba.Transducer

namespace Cdba

/-!
# The session as a machine

What the server does for its client is decided by the messages alone: it is a
machine that remembers a selected board and an unfinished upload, reads
messages and writes answers.  Timers, devices that come and go and what the
board prints happen in between, and do not change an answer or its place.
-/

open Program

variable {n : Nat}

/-! ## The machine -/

/-- What the server does for its client because of a message. -/
inductive Answer (n : Nat) where
  | send (type : MsgType) (payload : List UInt8)
  | consoleWrite (device : Fin n) (bytes : List UInt8)
  | deviceBoot (device : Fin n) (image : List UInt8)
  deriving DecidableEq

/-- Messages that the server sends on its own. -/
def MsgType.isNews : MsgType → Bool
  | .console | .statusUpdate | .fastbootPresent => true
  | _ => false

/-- The answer that an event is a part of. -/
def Event.answer? : Event n → Option (Answer n)
  | .send type payload =>
      if type.isNews then none else some (.send type payload)
  | .consoleWrite device bytes => some (.consoleWrite device bytes)
  | .deviceBoot device image => some (.deviceBoot device image)
  | _ => none

/-- The answers in a log. -/
def answers (log : List (Stamped (Event n))) : List (Answer n) :=
  log.filterMap fun event => event.value.answer?

/-- What the configuration decides about a session. -/
structure Rules (n : Nat) where
  opens : List UInt8 → Option (Fin n)
  listing : List (List UInt8)
  describes : List UInt8 → List UInt8

/-- What a session remembers. -/
structure Session (n : Nat) where
  selected : Option (Fin n)
  upload : List UInt8

/-- Nothing is selected or uploaded. -/
def Session.fresh : Session n where
  selected := none
  upload := []

/-- A session reads a message of a known type. -/
def Session.handle
    (rules : Rules n)
    (session : Session n)
    (type : MsgType)
    (data : List UInt8) :
    Session n × List (Answer n) :=
  match type with
  | .console =>
      (session,
        (session.selected.map fun device =>
          Answer.consoleWrite device data).toList)
  | .selectBoard =>
      ({ session with selected := rules.opens data },
        [.send .selectBoard []])
  | .powerOn => (session, [.send .powerOn []])
  | .powerOff => (session, [.send .powerOff []])
  | .fastbootDownload =>
      if data = [] then
        ({ session with upload := [] },
          match session.selected with
          | none => []
          | some device =>
              [.deviceBoot device session.upload,
                .send .fastbootDownload []])
      else
        ({ session with upload := session.upload ++ data }, [])
  | .listDevices =>
      (session, (rules.listing ++ [[]]).map (.send .listDevices))
  | .boardInfo => (session, [.send .boardInfo (rules.describes data)])
  | .fastbootContinue => (session, [.send .fastbootContinue []])
  | _ => (session, [])

/-- A session reads a message. -/
def Session.read
    (rules : Rules n)
    (session : Session n)
    (msg : Msg) :
    Session n × List (Answer n) :=
  match MsgType.ofCode? msg.type with
  | some type => session.handle rules type msg.data
  | none => (session, [])

/-- The machine that a session is. -/
def sessionMachine (rules : Rules n) :
    Transducer (Session n) Msg (Answer n) where
  step := Session.read rules

/-! ## The server as such a machine -/

/-- What `device_info` answers. -/
def boardDescription
    (hw : Hw n)
    (username : Option CString)
    (data : Nat → UInt8)
    (dlen : Nat) :
    List UInt8 :=
  (((List.finRange n).find? fun device =>
      strncmpEq (hw.devices device).board data dlen &&
        deviceCheckAccess (hw.devices device) username &&
        (hw.devices device).description.isSome).bind fun device =>
    (hw.devices device).description).getD []

/-- The rules of a server. -/
def Server.rules (server : Server n) : Rules n where
  opens := fun data =>
    accessibleBoard? server.hw server.username
      (memoryAt data server.hw.beyond)
  listing :=
    (listedDevices server.hw.devices server.username).map fun device =>
      listingFrame server.hw.beyond (server.hw.devices device)
  describes := fun data =>
    boardDescription server.hw (some server.username)
      (memoryAt data server.hw.beyond) data.length

/-- The session of a server. -/
def Server.session (server : Server n) : Session n where
  selected := server.selectedDevice
  upload := server.fastbootPayload

/-- The configuration decides what is listed and described. -/
theorem rules_extends
    {first last : Server n}
    (extended : first.Extends last) :
    last.rules = first.rules := by
  have listing : ∀ device,
      listingFrame last.hw.beyond (last.hw.devices device) =
        listingFrame first.hw.beyond (first.hw.devices device) := by
    intro device
    rw [listingFrame, listingFrame, extended.hw.beyond,
      (extended.hw.config device).listingText_eq]
  have access : ∀ device,
      deviceCheckAccess (last.hw.devices device) (some last.username) =
        deviceCheckAccess (first.hw.devices device)
          (some first.username) := by
    intro device
    rw [(extended.hw.config device).checkAccess_eq, extended.username]
  have boards : ∀ device,
      (last.hw.devices device).board = (first.hw.devices device).board :=
    fun device => (extended.hw.config device).board
  have descriptions : ∀ device,
      (last.hw.devices device).description =
        (first.hw.devices device).description := by
    intro device
    rw [extended.hw.config device]
  unfold Server.rules
  simp only [accessibleBoard?_extends extended.hw, extended.username,
    extended.hw.beyond, listedDevices, boardDescription, boards,
    descriptions] at listing access ⊢
  simp only [listing, access]

/-! ## Work that answers nothing -/

/-- Programs that answer nothing, however they end. -/
abbrev Quiet (program : HwM n α) : Prop :=
  Overlooks Event.answer? program

theorem answers_hideWork :
    HidesWork (Event.answer? (n := n)) := by
  intro event plain
  cases event with
  | send type payload => cases plain
  | consoleWrite device bytes => cases plain
  | deviceBoot device image => cases plain
  | _ => rfl

theorem answers_hidePresence :
    HidesPresence (Event.answer? (n := n)) :=
  fun _ => rfl

/-! ## The server in between -/

/-- Programs of the server that answer nothing, however they end. -/
abbrev QuietServer (program : ServerM n α) : Prop :=
  Undisturbing Event.answer? program

theorem Server.Undisturbed.session
    {first last : Server n}
    (step : first.Undisturbed Event.answer? last) :
    last.session = first.session := by
  rw [Server.session, step.selected, step.payload]
  rfl

theorem Server.Undisturbed.answers
    {first last : Server n}
    (step : first.Undisturbed Event.answer? last) :
    Cdba.answers last.hw.log = Cdba.answers first.hw.log :=
  step.hw

/-- Every callback but standard input answers nothing. -/
theorem runCallback_quiet
    {callback : Callback}
    (other : callback ≠ .stdin) :
    ∃ program : ServerM n Unit,
      runCallback callback = within Receiver.stateOf program ∧
        QuietServer program := by
  have forwards :
      ∀ {α : Type} (forward : α → HwM n Unit) (result : Option α),
        (∀ value, Quiet (forward value)) →
        QuietServer (forwardData forward result) := by
    intro α forward result quiet
    cases result with
    | none => exact .stop trivial
    | some value => exact onHw_undisturbed (quiet value)
  cases callback with
  | stdin => contradiction
  | udev index event =>
      exact ⟨_, rfl, onHw_undisturbed
        (handleUdevEvent_unseen answers_hidePresence _ _)⟩
  | consoleData bytes =>
      exact ⟨_, rfl, forwards _ _ fun _ => emit_unseen rfl⟩
  | statusData bytes =>
      exact ⟨_, rfl, forwards _ _ fun _ => .onlyIf (emit_unseen rfl)⟩
  | controlData lines =>
      exact ⟨_, rfl, forwards _ _ fun _ =>
        .each fun _ _ => emit_unseen rfl⟩
  | sigpipe =>
      exact ⟨_, rfl,
        updateGlobals_undisturbed fun _ => ⟨_, _, _, _, _, rfl⟩⟩

/-! ## One message -/

/-- A reply was given completely, and the session has moved on. -/
structure Server.Replied
    (first : Server n)
    (reply : List (Answer n))
    (session : Session n)
    (last : Server n) :
    Prop where
  answers :
    Cdba.answers last.hw.log = Cdba.answers first.hw.log ++ reply
  session : last.session = session
  dispatched : last.dispatched = first.dispatched

/-- A reply was begun, and possibly cut off. -/
structure Server.CutOff
    (first : Server n)
    (reply : List (Answer n))
    (last : Server n) :
    Prop where
  answers :
    ∃ given,
      given <+: reply ∧
        Cdba.answers last.hw.log = Cdba.answers first.hw.log ++ given
  dispatched : last.dispatched = first.dispatched

/-- A program replies; if it stops, the reply may be cut off there. -/
abbrev RepliesAt
    (first : Server n)
    (reply : List (Answer n))
    (session : Session n)
    (program : ServerM n α) :
    Prop :=
  KeepsAt (first.Replied reply session) (fun _ => first.CutOff reply)
    program first

/-- What answers nothing goes on with the session. -/
theorem RepliesAt.of_quiet
    {program : ServerM n α}
    (quiet : QuietServer program)
    (server : Server n) :
    RepliesAt server [] server.session program := by
  refine (quiet server).keepsAt (fun last step => ?_)
    fun _ last _ step => ?_
  · exact ⟨step.answers.trans (List.append_nil _).symm, step.session,
      step.dispatched⟩
  · exact ⟨⟨[], List.prefix_rfl,
      step.answers.trans (List.append_nil _).symm⟩, step.dispatched⟩

/-- One reply behind another. -/
theorem RepliesAt.bind
    {server : Server n}
    {reply reply' : List (Answer n)}
    {session session' : Session n}
    {program : ServerM n α}
    {later : α → ServerM n β}
    (replies : RepliesAt server reply session program)
    (repliesLater :
      ∀ value middle,
        program server = .ok value middle →
        server.Replied reply session middle →
        RepliesAt middle reply' session' (later value)) :
    RepliesAt server (reply ++ reply') session' (program >>= later) := by
  refine KeepsAt.seq
    (replies.mono (fun _ => id) fun _ last cut => ?_) ?_
  · obtain ⟨given, begun, log⟩ := cut.answers
    exact ⟨⟨given, begun.trans (List.prefix_append _ _), log⟩,
      cut.dispatched⟩
  · intro value middle outcome replied
    refine (repliesLater value middle outcome replied).mono
      (fun last next => ?_) fun _ last cut => ?_
    · refine ⟨?_, next.session,
        next.dispatched.trans replied.dispatched⟩
      rw [next.answers, replied.answers, List.append_assoc]
    · obtain ⟨given, begun, log⟩ := cut.answers
      refine ⟨⟨reply ++ given,
        (List.prefix_append_right_inj _).mpr begun, ?_⟩,
        cut.dispatched.trans replied.dispatched⟩
      rw [log, replied.answers, List.append_assoc]

/-- Work in front of a reply. -/
theorem RepliesAt.behind
    {server : Server n}
    {reply : List (Answer n)}
    {session : Session n}
    {program : ServerM n α}
    {later : α → ServerM n β}
    (quiet : QuietServer program)
    (replies :
      ∀ value middle,
        program server = .ok value middle →
        server.Replied [] server.session middle →
        RepliesAt middle reply session (later value)) :
    RepliesAt server reply session (program >>= later) :=
  RepliesAt.bind (.of_quiet quiet server) replies

/-- An event that is an answer. -/
theorem RepliesAt.of_emit
    {event : Event n}
    {answer : Answer n}
    (answers : event.answer? = some answer)
    (server : Server n) :
    RepliesAt server [answer] server.session (onHw (emit event)) := by
  refine .of_ok (onHw_of_ok (show emit event server.hw = _ from rfl))
    ⟨?_, rfl, rfl⟩
  simp [Cdba.answers, answers]

/-- A program on the hardware in two parts. -/
theorem onHw_bind
    (first : HwM n α)
    (later : α → HwM n β) :
    onHw (first >>= later) = onHw first >>= fun value => onHw (later value) := by
  funext server
  rw [bind_apply]
  unfold onHw within
  simp only [Server.hwOf, bind_apply]
  cases first server.hw with
  | ok value hw => rfl
  | error reason hw => rfl

/-- Replies to messages that are acknowledged once the work is done. -/
theorem RepliesAt.acknowledged
    {work : HwM n Unit}
    (quiet : Quiet work)
    {type : MsgType}
    (solicited : type.isNews = false)
    (server : Server n) :
    RepliesAt server [.send type []] server.session
      (onHw (do
        work
        cdbaSend type)) := by
  rw [onHw_bind]
  refine .behind (onHw_undisturbed quiet) fun _ middle _ replied => ?_
  rw [← replied.session]
  exact .of_emit (by simp [Event.answer?, solicited]) middle

theorem deviceWrite_replies
    (data : List UInt8)
    (selected : Option (Fin n))
    (server : Server n) :
    RepliesAt server
      (selected.map fun device => Answer.consoleWrite device data).toList
      server.session (onHw (deviceWrite selected data)) := by
  cases selected with
  | none => exact RepliesAt.of_quiet (onHw_undisturbed (.pure _)) server
  | some device =>
      rw [deviceWrite, onHw_bind]
      refine RepliesAt.behind (onHw_undisturbed (.read _))
        fun console middle outcome _ => ?_
      cases outcome
      split
      · exact .of_error rfl
          ⟨⟨[], List.nil_prefix, (List.append_nil _).symm⟩, rfl⟩
      · exact RepliesAt.of_emit rfl server

/-- An image is booted, and what comes then answers nothing. -/
theorem deviceBoot_replies
    (device : Fin n)
    (image : List UInt8)
    (server : Server n) :
    RepliesAt server [.deviceBoot device image] server.session
      (onHw (deviceBoot (some device) image)) := by
  have transfers :
      ∀ dev : Device,
        Quiet
          (if dev.fastboot = none then
            stop (.nullDeref .fastboot)
          else do
            runBulk device (setActiveTransfer dev.setActive)
            acquire .memory
            let _ ← runBulk device (fastbootDownload image)
            bootMethod device
            onlyIf (dev.statusEnabled && !dev.usbAlwaysOn)
              (deviceUsb (some device) false)) :=
    fun dev => .ite (.stop trivial)
      (.bind (runBulk_unseen answers_hideWork _ _) fun _ =>
        .bind (acquire_unseen _) fun _ =>
          .bind (runBulk_unseen answers_hideWork _ _) fun _ =>
            .bind (bootMethod_unseen answers_hideWork _) fun _ =>
              .onlyIf (deviceUsb_unseen answers_hideWork _ _))
  rw [deviceBoot, deref, pure_bind, onHw_bind]
  refine .behind (onHw_undisturbed (.read _)) fun dev middle outcome _ => ?_
  cases outcome
  rw [onHw_bind]
  have marks := RepliesAt.of_emit
    (show (Event.deviceBoot device image).answer? = some _ from rfl) server
  refine RepliesAt.bind marks fun _ booted _ replied => ?_
  rw [← replied.session]
  exact .of_quiet (onHw_undisturbed (transfers _)) booted

/-- A chunk is kept; the empty one has the whole upload booted. -/
theorem msgFastbootDownload_replies
    (data : List UInt8)
    (server : Server n) :
    RepliesAt server
      (server.session.handle server.rules .fastbootDownload data).2
      (server.session.handle server.rules .fastbootDownload data).1
      (msgFastbootDownload data) := by
  unfold Session.handle
  dsimp only
  split
  · rename_i empty
    rw [empty, msgFastbootDownload_nil]
    have collects :
        RepliesAt server [] server.session
          (update fun server : Server n =>
            { server with
              fastbootPayload := server.fastbootPayload ++ [] }) := by
      refine .of_ok (update_apply _ _)
        ⟨(List.append_nil _).symm, ?_, rfl⟩
      rw [Server.session, List.append_nil]
      rfl
    have forgets :
        ∀ middle : Server n,
          RepliesAt middle [] { middle.session with upload := [] }
            (update fun server : Server n =>
              { server with fastbootPayload := [] }) :=
      fun _ => .of_ok (update_apply _ _)
        ⟨(List.append_nil _).symm, rfl, rfl⟩
    have kept :
        ∀ middle : Server n,
          server.Replied [] server.session middle →
          middle.selectedDevice = server.selectedDevice ∧
            middle.fastbootPayload = server.fastbootPayload := by
      intro middle replied
      exact ⟨congrArg Session.selected replied.session,
        congrArg Session.upload replied.session⟩
    refine RepliesAt.bind collects fun _ middle _ replied => ?_
    obtain ⟨sameDevice, samePayload⟩ := kept middle replied
    refine KeepsAt.read (KeepsAt.read ?_)
    rw [sameDevice, samePayload]
    cases selected : server.selectedDevice with
    | none =>
        exact .of_error rfl
          ⟨⟨[], List.nil_prefix, (List.append_nil _).symm⟩, rfl⟩
    | some device =>
        have selection : server.session.selected = some device := selected
        rw [selection]
        refine RepliesAt.bind
          (deviceBoot_replies device server.fastbootPayload middle)
          fun _ booted _ replied' => ?_
        refine RepliesAt.bind
          (RepliesAt.of_emit
            (show (Event.send .fastbootDownload []).answer? = _ from rfl)
            booted)
          fun _ last _ replied'' => ?_
        have same : last.session = server.session :=
          replied''.session.trans (replied'.session.trans replied.session)
        have forgets := forgets last
        rw [same] at forgets
        dsimp only at forgets
        rw [selection] at forgets
        exact forgets
  · rename_i chunk
    rw [msgFastbootDownload_chunk chunk]
    refine RepliesAt.behind (onHw_undisturbed (acquire_unseen _))
      fun _ middle _ replied => ?_
    refine .of_ok (update_apply _ _) ⟨(List.append_nil _).symm, ?_, rfl⟩
    rw [← replied.session]
    rfl

/-- Selecting answers once the board is open, or is known not to be. -/
theorem msgSelectBoard_replies
    (data : List UInt8)
    (server : Server n) :
    RepliesAt server [.send .selectBoard []]
      { server.session with selected := server.rules.opens data }
      (msgSelectBoard data) := by
  refine KeepsAt.read ?_
  refine RepliesAt.behind (deviceOpen_undisturbed answers_hideWork _)
    fun opened middle outcome replied => ?_
  have chosen : opened = server.rules.opens data :=
    deviceOpen_returns outcome
  have selects :
      RepliesAt middle []
        { server.session with selected := server.rules.opens data }
        (update fun server : Server n =>
          { server with selectedDevice := opened }) := by
    refine .of_ok (update_apply _ _)
      ⟨(List.append_nil _).symm, ?_, rfl⟩
    rw [← chosen, ← replied.session]
    rfl
  refine RepliesAt.bind selects fun _ selected _ replied' => ?_
  rw [← replied'.session]
  have acknowledges :
      ∀ work : ServerM n Unit,
        QuietServer work →
        RepliesAt selected [.send .selectBoard []] selected.session
          (work >>= fun _ => onHw (cdbaSend .selectBoard)) := by
    intro work quiet
    refine RepliesAt.behind quiet fun _ last _ replied => ?_
    rw [← replied.session]
    exact RepliesAt.of_emit rfl last
  cases opened with
  | none =>
      exact acknowledges _
        (updateGlobals_undisturbed fun _ => ⟨_, _, _, _, _, rfl⟩)
  | some device =>
      exact acknowledges _ (onHw_undisturbed
        (deviceFastbootOpen_unseen answers_hidePresence device))

/-- A listing is always given completely. -/
theorem deviceListDevices_replies
    (server : Server n) :
    RepliesAt server
      ((server.rules.listing ++ [[]]).map (.send .listDevices))
      server.session
      (onHw (deviceListDevices (some server.username))) := by
  obtain ⟨middle, lists⟩ :=
    listDevices_run server.username (List.finRange n) server.hw
  obtain ⟨ran, stamped, log, values⟩ :=
    lists.seq (Does.emit (.send .listDevices []) middle)
  have listed :
      answers stamped =
        ((server.rules.listing ++ [[]]).map (.send .listDevices)) := by
    have view :
        answers stamped =
          (stamped.map Stamped.value).filterMap Event.answer? := by
      rw [List.filterMap_map]
      rfl
    rw [view, values, List.filterMap_append, List.map_append]
    congr 1
    rw [Server.rules, List.map_map, listedDevices, List.filterMap_map]
    exact congrFun (List.filterMap_eq_map (f := fun device =>
      Answer.send .listDevices
        (listingFrame server.hw.beyond (server.hw.devices device)))) _
  refine .of_ok (onHw_of_ok ran) ⟨?_, rfl, rfl⟩
  rw [← listed]
  dsimp only
  rw [log, answers, List.filterMap_append]
  rfl

/-- A message of a known type is answered as the machine answers it. -/
theorem handleType_replies
    (type : MsgType)
    (data : List UInt8)
    (server : Server n) :
    RepliesAt server
      (server.session.handle server.rules type data).2
      (server.session.handle server.rules type data).1
      (handleType type data) := by
  have quiet :
      ∀ program : ServerM n Unit,
        QuietServer program →
        RepliesAt server [] server.session program :=
    fun _ quiet => RepliesAt.of_quiet quiet server
  cases type with
  | console =>
      exact KeepsAt.read (deviceWrite_replies data _ server)
  | selectBoard => exact msgSelectBoard_replies data server
  | hardreset => exact quiet _ (.pure _)
  | powerOn =>
      exact KeepsAt.read
        (RepliesAt.acknowledged
          (devicePower_unseen answers_hideWork _ _) rfl server)
  | powerOff =>
      exact KeepsAt.read
        (RepliesAt.acknowledged
          (devicePower_unseen answers_hideWork _ _) rfl server)
  | fastbootPresent => exact quiet _ (.pure _)
  | fastbootDownload => exact msgFastbootDownload_replies data server
  | fastbootBoot => exact quiet _ (.pure _)
  | statusUpdate =>
      exact quiet _
        (onSelected_undisturbed (deviceStatusEnable_unseen answers_hideWork))
  | vbusOn =>
      exact quiet _
        (onSelected_undisturbed fun _ => deviceUsb_unseen answers_hideWork _ _)
  | vbusOff =>
      exact quiet _
        (onSelected_undisturbed fun _ => deviceUsb_unseen answers_hideWork _ _)
  | fastbootReboot => exact quiet _ (.stop trivial)
  | sendBreak =>
      exact quiet _
        (onSelected_undisturbed (deviceSendBreak_unseen answers_hideWork))
  | listDevices => exact KeepsAt.read (deviceListDevices_replies server)
  | boardInfo =>
      exact KeepsAt.read (KeepsAt.read (RepliesAt.of_emit rfl server))
  | fastbootContinue =>
      exact KeepsAt.read
        (RepliesAt.acknowledged
          (.bind (deref_unseen _) fun _ =>
            .bind (.read _) fun _ => .onlyIf (runBulk_unseen answers_hideWork _ _))
          rfl server)
  | keyPress =>
      exact quiet _
        (onSelected_undisturbed fun _ =>
          msgKeyPress_unseen answers_hideWork _ _)

/-! ## Whole runs -/

/-- The machine that goes by the rules of a server. -/
abbrev Server.machine (server : Server n) :
    Transducer (Session n) Msg (Answer n) :=
  sessionMachine server.rules

/--
Between messages: the server has answered what it has dispatched as the machine
does, from some session on.
-/
structure Answered
    (start : Server n)
    (session : Session n)
    (server : Server n) :
    Prop where
  guards : Permission.everything.Guards start server
  answers :
    Cdba.answers server.hw.log =
      start.machine.output session server.dispatched
  session :
    server.session = start.machine.after session server.dispatched

/-- The server may have stopped in the middle of its last answer. -/
structure Unanswered
    (start : Server n)
    (session : Session n)
    (server : Server n) :
    Prop where
  guards : Permission.everything.Guards start server
  answers :
    ∃ handled unfinished,
      server.dispatched = handled ++ unfinished ∧
        unfinished.length ≤ 1 ∧
        start.machine.output session handled <+:
          Cdba.answers server.hw.log ∧
        Cdba.answers server.hw.log <+:
          start.machine.output session server.dispatched

theorem Answered.unanswered
    {start server : Server n}
    {session : Session n}
    (answered : Answered start session server) :
    Unanswered start session server where
  guards := answered.guards
  answers :=
    ⟨server.dispatched, [], (List.append_nil _).symm, Nat.zero_le _,
      answered.answers ▸ List.prefix_rfl,
      answered.answers ▸ List.prefix_rfl⟩

/-- What an answered server may do next. -/
abbrev Answering
    (start : Server n)
    (session : Session n)
    (program : ServerM n α) :
    Prop :=
  Keeps (Answered start session) (fun _ => Unanswered start session) program

/-- What answers nothing leaves everything answered. -/
theorem Answered.quiet
    {start server last : Server n}
    {session : Session n}
    (answered : Answered start session server)
    (guards : Permission.everything.Guards start last)
    (step : server.Undisturbed Event.answer? last) :
    Answered start session last where
  guards := guards
  answers := by
    rw [step.answers, step.dispatched]
    exact answered.answers
  session := by
    rw [step.session, step.dispatched]
    exact answered.session

/-- The rules stay what they were when the server started. -/
theorem Answered.rules
    {start server : Server n}
    {session : Session n}
    (answered : Answered start session server) :
    server.rules = start.rules :=
  rules_extends
    ⟨answered.guards.hw.extended, answered.guards.username⟩

/-- What the machine writes for one more message. -/
theorem machine_output_concat
    (machine : Transducer (Session n) Msg (Answer n))
    (session : Session n)
    (handled : List Msg)
    (msg : Msg) :
    machine.output session (handled ++ [msg]) =
      machine.output session handled ++
        (machine.step (machine.after session handled) msg).2 := by
  rw [Transducer.output_append]
  exact congrArg _ (List.append_nil _)

/-- A message is answered, or the server stops on the way. -/
theorem dispatch_answering
    (start : Server n)
    (session : Session n)
    (msg : Msg) :
    Answering start session (dispatch msg) := by
  intro server answered
  have guarding := dispatch_guarding
    (Permission.everything.messagesMayStop_any start.hw)
    (everything_publishes start.hw start.username)
    (fun _ _ _ => trivial) msg server answered.guards
  have outputs := machine_output_concat start.machine session
    server.dispatched msg
  rw [← answered.session, ← answered.answers] at outputs
  let recorded : Server n :=
    { server with dispatched := server.dispatched ++ [msg] }
  cases decoded : MsgType.ofCode? msg.type with
  | none =>
      have stops :
          KeepsAt (fun _ => False)
            (fun _ last =>
              last.dispatched = server.dispatched ++ [msg] ∧
                answers last.hw.log = answers server.hw.log)
            (dispatch msg) server :=
        .of_error (dispatch_unknown decoded server) ⟨rfl, rfl⟩
      refine (guarding.and stops).mono (fun _ both => both.2.elim) ?_
      rintro _ last ⟨⟨_, guards⟩, dispatched, log⟩
      refine ⟨guards, server.dispatched, [msg], dispatched,
        Nat.le_refl _, ?_, ?_⟩
      · exact log.trans answered.answers ▸ List.prefix_rfl
      · rw [log, dispatched, outputs]
        exact List.prefix_append _ _
  | some type =>
      have step :
          start.machine.step server.session msg =
            recorded.session.handle recorded.rules type msg.data := by
        have rules : recorded.rules = start.rules := answered.rules
        rw [rules]
        simp only [sessionMachine, Session.read, decoded]
        rfl
      have replies := handleType_replies type msg.data recorded
      rw [← step] at replies
      have replies' :
          KeepsAt
            (recorded.Replied (start.machine.step server.session msg).2
              (start.machine.step server.session msg).1)
            (fun _ =>
              recorded.CutOff (start.machine.step server.session msg).2)
            (dispatch msg) server := by
        unfold KeepsAt
        rw [dispatch_known decoded]
        exact replies
      refine (guarding.and replies').mono ?_ ?_
      · rintro last ⟨guards, replied⟩
        refine ⟨guards, ?_, ?_⟩
        · rw [replied.dispatched, replied.answers]
          exact outputs.symm
        · rw [replied.session, replied.dispatched,
            Transducer.after_append, ← answered.session]
          rfl
      · rintro _ last ⟨⟨_, guards⟩, cut⟩
        obtain ⟨given, begun, log⟩ := cut.answers
        refine ⟨guards, server.dispatched, [msg], cut.dispatched,
          Nat.le_refl _, ?_, ?_⟩
        · rw [log, ← answered.answers]
          exact List.prefix_append _ _
        · rw [log, cut.dispatched]
          refine ((List.prefix_append_right_inj _).mpr begun).trans ?_
          exact outputs ▸ List.prefix_rfl

/-- Work beside the receive buffer that answers nothing. -/
theorem onState_answering
    {start : Server n}
    {session : Session n}
    {program : ServerM n Unit}
    (quiet : QuietServer program)
    {loop : ServerLoop n}
    (answered : Answered start session loop.state)
    (guarding :
      KeepsAt
        (fun last : ServerLoop n =>
          Permission.everything.Guards start last.state)
        (fun reason last =>
          reason.Any ∧ Permission.everything.Guards start last.state)
        (within Receiver.stateOf program) loop) :
    KeepsAt
      (fun last : ServerLoop n => Answered start session last.state)
      (fun _ last => Unanswered start session last.state)
      (within Receiver.stateOf program) loop := by
  have steps :
      KeepsAt
        (fun last : ServerLoop n =>
          loop.state.Undisturbed Event.answer? last.state)
        (fun _ last => loop.state.Undisturbed Event.answer? last.state)
        (within Receiver.stateOf program) loop :=
    KeepsAt.within Receiver.stateOf
      ((quiet loop.state).keepsAt (fun _ => id) fun _ _ _ => id)
  refine (guarding.and steps).mono ?_ ?_
  · exact fun last both => answered.quiet both.1 both.2
  · exact fun _ last both => (answered.quiet both.1.2 both.2).unanswered

theorem runCallback_answering
    (start : Server n)
    (session : Session n)
    (callback : Callback) :
    Keeps
      (fun loop : ServerLoop n => Answered start session loop.state)
      (fun _ loop => Unanswered start session loop.state)
      (runCallback callback) := by
  by_cases stdin : callback = .stdin
  · rw [stdin]
    refine receive_keeps (fun server input answered => ?_)
      (fun _ answered => answered.unanswered)
      (dispatch_answering start session)
    have guards := answered.guards
    exact ⟨⟨guards.hw, guards.selected, guards.username⟩,
      answered.answers, answered.session⟩
  · intro loop answered
    obtain ⟨program', beside⟩ := runCallback_beside (n := n) stdin
    obtain ⟨program, runs, quiet⟩ := runCallback_quiet (n := n) stdin
    have permitted :
        Permission.everything.Guarding Stop.Any start program' :=
      beside.guarding trivial
        (everything_publishes start.hw start.username)
        (everything_forwardsAll [[callback]] _ List.mem_cons_self _
          List.mem_cons_self)
    have guarding := onState_guarding permitted loop answered.guards
    rw [← beside.runs, runs] at guarding
    rw [runs]
    exact onState_answering quiet answered guarding

/-- However a run goes, what was dispatched was answered as by the machine. -/
theorem watchMainLoop_answering
    (start : Server n)
    (session : Session n)
    (iterations : List (List Callback)) :
    Keeps
      (fun loop : ServerLoop n => Answered start session loop.state)
      (fun _ loop => Unanswered start session loop.state)
      (watchMainLoop iterations) := by
  have timers :
      Keeps
        (fun loop : ServerLoop n => Answered start session loop.state)
        (fun _ loop => Unanswered start session loop.state)
        (within Receiver.stateOf invokeTimers) :=
    fun loop answered => onState_answering
      (invokeTimers_undisturbed answers_hideWork) answered
      (onState_guarding
        (invokeTimers_guarding (fun _ _ => trivial) trivial)
        loop answered.guards)
  induction iterations with
  | nil =>
      exact fun _ answered => answered
  | cons ready rest inductionHypothesis =>
      have step :
          Keeps
            (fun loop : ServerLoop n => Answered start session loop.state)
            (fun _ loop => Unanswered start session loop.state)
            (iteration ready) :=
        Keeps.bind timers fun _ =>
          Keeps.each (runCallback_answering start session) ready
      exact Keeps.bind (.read _) fun _ =>
        .ite (.pure _) (Keeps.bind step fun _ => inductionHypothesis)

/--
In every run of the server, whatever its messages, timers and devices do: its
answers are those that the machine of its configuration gives to the messages it
has dispatched, in the same order.  Only if the server stops may the answer to
the last message be cut off.
-/
theorem session_answered
    (devices : Fin n → Device)
    (username : CString)
    (stdin : Input)
    (hw : Hw n)
    (lockOpens flocks : List Bool)
    (iterations : List (List Callback)) :
    let start := Server.start devices username stdin hw lockOpens flocks
    let machine := sessionMachine start.state.rules
    let result := watchMainLoop iterations start
    let final := (finalState result).state
    (stopped? result = none →
        answers final.hw.log =
          machine.output Session.fresh final.dispatched) ∧
      ∃ handled unfinished,
        final.dispatched = handled ++ unfinished ∧
          unfinished.length ≤ 1 ∧
          machine.output Session.fresh handled <+: answers final.hw.log ∧
          answers final.hw.log <+:
            machine.output Session.fresh final.dispatched := by
  intro start machine result final
  have fresh : Answered start.state Session.fresh start.state :=
    ⟨Permission.guards_start _ devices username stdin hw lockOpens flocks,
      rfl, rfl⟩
  have run := watchMainLoop_answering start.state Session.fresh iterations
    start fresh
  unfold KeepsAt at run
  cases outcome : watchMainLoop iterations start with
  | ok value last =>
      rw [outcome] at run
      have same : final = last.state :=
        congrArg (fun result => (finalState result).state) outcome
      rw [same]
      exact ⟨fun _ => run.answers, run.unanswered.answers⟩
  | error reason last =>
      rw [outcome] at run
      have same : final = last.state :=
        congrArg (fun result => (finalState result).state) outcome
      have stopped : stopped? result = some reason :=
        congrArg stopped? outcome
      rw [same, stopped]
      exact ⟨by simp, run.answers⟩

end Cdba
