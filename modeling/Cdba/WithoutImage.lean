import Cdba.Requests

namespace Cdba

/-!
# Runs without a boot image

Whether an appearance of the fastboot device is answered by a request to go on
booting, by an upload or by quitting depends on two flags and an option.  The
messages handled so far decide what they are, so they also decide when a client
without an image reaches for one all the same.
-/

open Program

namespace Client

/-! ## The messages that count -/

/-- `MSG_FASTBOOT_PRESENT` with a first byte other than zero. -/
def appears (beyond : UInt8) (msg : Msg) : Bool :=
  MsgType.ofCode? msg.type = some .fastbootPresent &&
    msg.data.headD beyond ≠ 0

/-- The two messages that set `fastboot_done`. -/
def acknowledges (msg : Msg) : Bool :=
  MsgType.ofCode? msg.type = some .fastbootDownload ||
    MsgType.ofCode? msg.type = some .fastbootContinue

/-- `err(1, "failed to open \"%s\"", fastboot_file)` -/
def cannotOpen : ClientStop :=
  .err "failed to open fastboot file"

/-- Whether `main` is started to boot a board. -/
def Verb.boots : Verb → Bool
  | .boot _ => true
  | _ => false

/--
Every appearance is the first one of a boot, or comes behind an acknowledgement
and uploads are not to be repeated.
-/
def Answerable
    (boots repeats : Bool)
    (beyond : UInt8)
    (msgs : List Msg) :
    Prop :=
  ∀ earlier msg later, msgs = earlier ++ msg :: later →
    appears beyond msg = true →
      (boots = true ∧ earlier.any (appears beyond) = false) ∨
        (repeats = false ∧ earlier.any acknowledges = true)

/--
Every appearance has been answered: the first one of a boot by a request to
continue, any other by quitting.
-/
def Answered
    (boots : Bool)
    (beyond : UInt8)
    (client : Client) :
    Prop :=
  ∀ earlier msg later, client.dispatched = earlier ++ msg :: later →
    appears beyond msg = true →
      (boots = true ∧ earlier.any (appears beyond) = false ∧
        .request .fastbootContinue ∈ client.log) ∨
      client.quit = true

/-- A run that does not try to upload, and answers every appearance. -/
structure AnswersEach
    (boots : Bool)
    (beyond : UInt8)
    (result : EStateM.Result ClientStop ClientLoop Unit) :
    Prop where
  neverOpens : stopped? result ≠ some cannotOpen
  answered : Answered boots beyond (finalState result).state

/-! ## What leaves the flags alone -/

/-- What decides how an appearance is answered. -/
def fastbootParts (client : Client) :=
  (client.options, client.beyond, client.dispatched, client.fastbootDone,
    client.fastbootContinue)

/-- Later state of the client, with no message handled in between. -/
structure Between (first last : Client) : Prop where
  parts : last.fastbootParts = first.fastbootParts
  quits : first.quit = true → last.quit = true
  logged : first.log <+: last.log

instance Between.composes : Composes Between where
  refl := fun _ => ⟨rfl, id, List.prefix_rfl⟩
  trans := fun firstStep laterStep =>
    { parts := laterStep.parts.trans firstStep.parts
      quits := laterStep.quits ∘ firstStep.quits
      logged := firstStep.logged.trans laterStep.logged }

/-- Programs that do not handle messages, and do not open the image. -/
abbrev Beside (program : ClientM α) : Prop :=
  Relates Between (· ≠ cannotOpen) program

theorem record_beside
    (event : ClientEvent) :
    Beside (record event) :=
  .update fun _ => ⟨rfl, id, List.prefix_append _ _⟩

/-- A change to anything else. -/
theorem Between.other
    {first last : Client}
    (parts : last.fastbootParts = first.fastbootParts)
    (quit : last.quit = first.quit)
    (log : last.log = first.log) :
    Between first last where
  parts := parts
  quits := by
    rw [quit]
    exact id
  logged := by
    exact log ▸ List.prefix_rfl

theorem cdbaSendBuf_beside
    (type : MsgType)
    (buf : List UInt8) :
    Beside (cdbaSendBuf type buf) := by
  intro client
  refine ⟨?_, ?_⟩
  · rw [cdbaSendBuf_eq]
    exact .other rfl rfl rfl
  · rw [cdbaSendBuf_eq]
    simp [stopped?]

theorem sendOrErr_beside
    {type : MsgType}
    {buf : List UInt8}
    {message : String}
    (other : ClientStop.err message ≠ cannotOpen) :
    Beside (sendOrErr type buf message) :=
  .bind (cdbaSendBuf_beside _ _) fun _ =>
    .ite (.stop other) (record_beside _)

theorem enqueue_beside
    (node : WorkNode) :
    Beside (enqueue node) :=
  .update fun _ => .other rfl rfl rfl

theorem request_beside
    (node : WorkNode) :
    Beside (request node) :=
  .bind (record_beside _) fun _ => enqueue_beside node

theorem requestWork_beside
    (work : Work) :
    Beside (requestWork work) :=
  .bind
    (.bind (.read _) fun _ =>
      .bind (.update fun _ => .other rfl rfl rfl) fun _ => .pure _)
    fun _ => request_beside _

theorem free_beside
    (index : Nat) :
    Beside (free index) :=
  .update fun _ => .other rfl rfl rfl

theorem runWork_beside
    (index : Nat)
    (work : Work) :
    Beside (runWork index work) := by
  cases work with
  | listBoards =>
      exact .bind (sendOrErr_beside (by decide)) fun _ => free_beside _
  | boardInfo board =>
      exact .bind (sendOrErr_beside (by decide)) fun _ => free_beside _
  | selectBoard board =>
      exact .bind (sendOrErr_beside (by decide)) fun _ => free_beside _
  | statusEnable =>
      exact .bind (cdbaSendBuf_beside _ _) fun _ => free_beside _
  | fastbootDownload data offset size =>
      refine .bind (cdbaSendBuf_beside _ _) fun failed => ?_
      split
      · exact enqueue_beside _
      · exact .stop (by decide)
      · exact .bind (.update fun _ => .other rfl rfl rfl) fun _ =>
          .ite (free_beside _) (enqueue_beside _)

theorem workPass_beside :
    Beside workPass := by
  have runs : ∀ node, Beside (runNode node) := by
    intro node
    refine .bind (.update fun _ => .other rfl rfl rfl) fun _ => ?_
    cases node with
    | head => exact .stop (by decide)
    | powerOn => exact sendOrErr_beside (by decide)
    | powerOff => exact sendOrErr_beside (by decide)
    | fastbootContinue => exact sendOrErr_beside (by decide)
    | heap index =>
        refine .bind (.read _) fun work => ?_
        cases work with
        | none => exact .stop (by decide)
        | some work => exact runWork_beside _ _
  exact .bind (.read _) fun _ => .bind (.read _) fun _ => .bind (.read _)
    fun _ => Links.forEachEntrySafe_relates runs (by decide) _ _ _

theorem ttyCallback_beside
    (buf : Option (List UInt8)) :
    Beside (ttyCallback buf) := by
  have sends :
      ∀ type buf, Beside (discard (cdbaSendBuf type buf)) :=
    fun type buf => .bind (cdbaSendBuf_beside type buf) fun _ => .pure _
  have toggles : ∀ key, Beside (cdbaToggleKey key) := fun key =>
    .bind (.update fun _ => .other rfl rfl rfl) fun _ =>
      .bind (.read _) fun _ =>
        .bind (cdbaSendBuf_beside _ _) fun _ => .pure _
  have command : ∀ char, Beside (ttyCommand char) := fun char =>
    .ite (.update fun _ => ⟨rfl, fun _ => rfl, List.prefix_rfl⟩)
      (.ite (sends _ _) (.ite (sends _ _) (.ite (sends _ _)
        (.ite (sends _ _) (.ite (sends _ _) (.ite (sends _ _)
          (.ite (sends _ _) (.ite (sends _ _) (.ite (toggles _)
            (.ite (sends _ _) (.ite (toggles _) (.pure _))))))))))))
  exact .each fun char _ => .bind (.read _) fun _ =>
    .ite (.update fun _ => .other rfl rfl rfl)
      (.ite
        (.bind (command char) fun _ =>
          .update fun _ => .other rfl rfl rfl)
        (sends _ _))

theorem armInactivity_beside :
    Beside armInactivity :=
  .bind (.read _) fun _ =>
    .bind
      (.bind (.bind (.update fun _ => .other rfl rfl rfl) fun _ => .read _)
        fun _ => .pure _)
      fun _ => .update fun _ => .other rfl rfl rfl

theorem waitReady_beside
    (ready : Ready) :
    Beside (waitReady ready) := by
  have cycles : Beside powerCycle :=
    .bind (.read _) fun _ =>
      .ite
        (.ite (.stop (by decide))
          (.ite (.stop (by decide))
            (.bind (record_beside _) fun _ =>
              .bind (.update fun _ => .other rfl rfl rfl) fun _ =>
                .bind (request_beside _) fun _ => armInactivity_beside)))
        (.pure _)
  have timeouts : Beside selectTimeout :=
    .bind (.read _) fun _ =>
      .ite
        (.bind
          (.bind (.update fun _ => .other rfl rfl rfl) fun _ => .read _)
          fun _ => .pure _)
        (.pure _)
  have selects : ∀ timeout, Beside (select timeout ready) := by
    intro timeout
    refine .bind (record_beside _) fun _ => .bind (.read _) fun _ => ?_
    cases timeout with
    | none => exact .ite (.stop (by decide)) (.pure _)
    | some tv =>
        exact .ite (.stop (by decide))
          (.ite (.bind (.update fun _ => .other rfl rfl rfl) fun _ =>
              .pure _)
            (.pure _))
  exact .bind cycles fun _ => .bind timeouts fun _ => selects _

/-! ## Handling a message -/

/-- The types whose handlers have to do with fastboot. -/
def concernsFastboot (type : Option MsgType) : Bool :=
  type = some .fastbootPresent || type = some .fastbootDownload ||
    type = some .fastbootContinue

theorem handleType_beside
    {type : Option MsgType}
    (other : concernsFastboot type = false)
    (data : List UInt8) :
    Beside (handleType type data) := by
  unfold handleType
  split
  · exact request_beside _
  · refine .bind (.update fun client => ?_) fun _ => record_beside _
    obtain ⟨_, _, counted⟩ := handleConsole_counts data client
    rw [counted]
    exact .other rfl rfl rfl
  · exact .pure _
  · exact .pure _
  · exact .bind (.read _) fun _ =>
      .onlyIf (.bind (.update fun _ => .other rfl rfl rfl) fun _ =>
        request_beside _)
  · contradiction
  · contradiction
  · exact .pure _
  · exact .bind (.read _) fun _ => .bind (.read _) fun _ =>
      .onlyIf (record_beside _)
  · exact .ite (.update fun _ => ⟨rfl, fun _ => rfl, List.prefix_rfl⟩)
      (record_beside _)
  · exact .bind
      (.bind (record_beside _) fun _ =>
        .update fun _ => ⟨rfl, fun _ => rfl, List.prefix_rfl⟩)
      fun _ => .stop (by decide)
  · contradiction
  · exact .stop (by decide)

/-- The client while it handles a message. -/
def handling (client : Client) (msg : Msg) : Client :=
  { client with dispatched := client.dispatched ++ [msg] }

/-- What handling a message does, unless it reaches for the image. -/
structure Handles (msg : Msg) (first last : Client) : Prop where
  options : last.options = first.options
  beyond : last.beyond = first.beyond
  dispatched : last.dispatched = first.dispatched ++ [msg]
  done : last.fastbootDone = (first.fastbootDone || acknowledges msg)
  pending :
    last.fastbootContinue =
      (first.fastbootContinue && !appears first.beyond msg)
  quits : first.quit = true → last.quit = true
  logged : first.log <+: last.log
  answers :
    appears first.beyond msg = true →
      (first.fastbootContinue = true ∧
        .request .fastbootContinue ∈ last.log) ∨
      (first.fastbootDone = true ∧
        first.options.fastbootRepeat = false ∧ last.quit = true)

/-- A client without an image that reaches for it. -/
structure ReachesForImage (msg : Msg) (first last : Client) : Prop where
  dispatched : last.dispatched = first.dispatched ++ [msg]
  appeared : appears first.beyond msg = true
  notPending : first.fastbootContinue = false
  unanswered :
    first.fastbootDone = false ∨ first.options.fastbootRepeat = true

/-- Handling a message that has nothing to do with fastboot. -/
theorem Handles.of_between
    {msg : Msg}
    {first last : Client}
    (noAcknowledgement : acknowledges msg = false)
    (noAppearance : appears first.beyond msg = false)
    (between : Between (first.handling msg) last) :
    Handles msg first last := by
  have parts := between.parts
  simp only [fastbootParts, Prod.mk.injEq] at parts
  obtain ⟨options, beyond, dispatched, done, pending⟩ := parts
  exact
    { options := options
      beyond := beyond
      dispatched := dispatched
      done := by rw [done, noAcknowledgement, Bool.or_false]; rfl
      pending := by
        rw [pending, noAppearance, Bool.not_false, Bool.and_true]
        rfl
      quits := between.quits
      logged := between.logged
      answers := fun appeared =>
        absurd appeared (by rw [noAppearance]; exact Bool.false_ne_true) }

/-- What becomes of a message at a client without an image. -/
abbrev HandlesAt
    (msg : Msg)
    (client : Client)
    (program : ClientM Unit)
    (state : Client) :
    Prop :=
  KeepsAt (Handles msg client)
    (fun reason last =>
      reason ≠ cannotOpen ∧ Handles msg client last ∨
        reason = cannotOpen ∧ ReachesForImage msg client last)
    program state

/-- The fastboot device has appeared. -/
theorem fastbootPresent_handles
    {client : Client}
    (noImage : client.options.fastbootFile = none)
    {msg : Msg}
    (noAcknowledgement : acknowledges msg = false)
    (appeared : appears client.beyond msg = true) :
    HandlesAt msg client fastbootPresent (client.handling msg) := by
  refine .read ?_
  dsimp only [id, handling]
  by_cases pending : client.fastbootContinue = true
  · rw [if_pos pending]
    refine .of_ok rfl ?_
    exact
      { options := rfl
        beyond := rfl
        dispatched := rfl
        done := by rw [noAcknowledgement, Bool.or_false]
        pending := by rw [appeared, Bool.not_true, Bool.and_false]
        quits := id
        logged := List.prefix_append _ _
        answers := fun _ =>
          .inl ⟨pending, List.mem_append_right _ List.mem_cons_self⟩ }
  · rw [if_neg pending]
    have notPending := eq_false_of_ne_true pending
    by_cases uploads :
        (!client.fastbootDone || client.options.fastbootRepeat) = true
    · rw [if_pos uploads]
      have opens : requestFastbootFiles (client.handling msg) =
          .error cannotOpen (client.handling msg) := by
        unfold requestFastbootFiles
        rw [bind_of_ok (read_apply _ _)]
        dsimp only [handling]
        rw [noImage]
        rfl
      rw [Bool.or_eq_true, Bool.not_eq_true'] at uploads
      exact .of_error opens
        (.inr ⟨rfl, rfl, appeared, notPending, uploads⟩)
    · rw [if_neg uploads]
      rw [Bool.or_eq_true, Bool.not_eq_true', not_or, Bool.not_eq_false,
        Bool.not_eq_true] at uploads
      refine .of_ok (update_apply _ _) ?_
      exact
        { options := rfl
          beyond := rfl
          dispatched := rfl
          done := by rw [noAcknowledgement, Bool.or_false]
          pending := by rw [notPending, Bool.false_and]
          quits := fun _ => rfl
          logged := List.prefix_rfl
          answers := fun _ => .inr ⟨uploads.1, uploads.2, rfl⟩ }

/-- An acknowledgement sets `fastboot_done`. -/
theorem acknowledgement_handles
    (client : Client)
    {msg : Msg}
    (acknowledged : acknowledges msg = true)
    (noAppearance : appears client.beyond msg = false) :
    HandlesAt msg client
      (update fun client => { client with fastbootDone := true })
      (client.handling msg) := by
  refine .of_ok (update_apply _ _) ?_
  exact
    { options := rfl
      beyond := rfl
      dispatched := rfl
      done := by rw [acknowledged, Bool.or_true]
      pending := by rw [noAppearance, Bool.not_false, Bool.and_true]; rfl
      quits := id
      logged := List.prefix_rfl
      answers := fun appeared =>
        absurd appeared (by rw [noAppearance]; exact Bool.false_ne_true) }

/-- The `switch` of `handle_message`, at a client without an image. -/
theorem handleType_handles
    {client : Client}
    (noImage : client.options.fastbootFile = none)
    (msg : Msg) :
    HandlesAt msg client (handleType (MsgType.ofCode? msg.type) msg.data)
      (client.handling msg) := by
  by_cases present : MsgType.ofCode? msg.type = some .fastbootPresent
  · have noAcknowledgement : acknowledges msg = false := by
      rw [acknowledges, present]
      decide
    rw [present]
    refine .read ?_
    by_cases appeared : msg.data.headD client.beyond ≠ 0
    · have shown : appears client.beyond msg = true := by
        rw [appears, present, decide_eq_true appeared]
        rfl
      have runs := fastbootPresent_handles noImage noAcknowledgement shown
      dsimp only [handling, onlyIf]
      rw [if_pos]
      · exact runs
      · exact decide_eq_true appeared
    · have shown : appears client.beyond msg = false := by
        rw [appears, present, decide_eq_false appeared]
        rfl
      dsimp only [handling, onlyIf]
      rw [if_neg]
      · exact .of_ok rfl
          (.of_between noAcknowledgement shown (Composes.refl _))
      · simpa using appeared
  · have noAppearance : appears client.beyond msg = false := by
      rw [appears, decide_eq_false present, Bool.false_and]
    by_cases acknowledged : acknowledges msg = true
    · have sets := acknowledgement_handles client acknowledged noAppearance
      rw [acknowledges, Bool.or_eq_true, decide_eq_true_eq,
        decide_eq_true_eq] at acknowledged
      rcases acknowledged with download | goesOn
      · rw [download]
        exact sets
      · rw [goesOn]
        exact sets
    · have noAcknowledgement : acknowledges msg = false :=
        eq_false_of_ne_true acknowledged
      have other :
          concernsFastboot (MsgType.ofCode? msg.type) = false := by
        rw [concernsFastboot, decide_eq_false present, Bool.false_or]
        exact noAcknowledgement
      have handled := fun final =>
        @Handles.of_between msg client final noAcknowledgement noAppearance
      exact (handleType_beside other msg.data _).keepsAt handled
        fun reason final notOpen between =>
          .inl ⟨notOpen, handled final between⟩

/-- Every message is handled, or the client reaches for the image it lacks. -/
theorem dispatch_handlesAt
    {client : Client}
    (noImage : client.options.fastbootFile = none)
    (msg : Msg) :
    HandlesAt msg client (dispatch msg) client := by
  have recorded : dispatch msg client =
      handleType (MsgType.ofCode? msg.type) msg.data
        (client.handling msg) :=
    bind_of_ok (update_apply _ _) _
  have handles := handleType_handles noImage msg
  unfold HandlesAt KeepsAt at handles ⊢
  rw [recorded]
  exact handles

/-! ## Whole runs -/

/-- What holds where a list with one more item is split. -/
theorem forall_split_append_singleton
    {holds : List α → α → Prop}
    (items : List α)
    (item : α) :
    (∀ earlier middle later,
        items ++ [item] = earlier ++ middle :: later →
          holds earlier middle) ↔
      (∀ earlier middle later,
        items = earlier ++ middle :: later → holds earlier middle) ∧
      holds items item := by
  constructor
  · intro all
    refine ⟨?_, all items item [] rfl⟩
    intro earlier middle later shape
    exact all earlier middle (later ++ [item]) (by simp [shape])
  · rintro ⟨before, last⟩ earlier middle later shape
    rcases List.eq_nil_or_concat later with rfl | ⟨init, final, rfl⟩
    · obtain ⟨rfl, same⟩ := List.append_inj' shape rfl
      obtain rfl := List.head_eq_of_cons_eq same
      exact last
    · refine before earlier middle init ?_
      have split : items ++ [item] =
          (earlier ++ middle :: init) ++ [final] := by
        rw [shape]
        simp
      exact (List.append_inj' split rfl).1

/-- The flags are what the messages handled so far have made them. -/
structure Tracks
    (boots : Bool)
    (options : ClientOptions)
    (beyond : UInt8)
    (client : Client) :
    Prop where
  sameOptions : client.options = options
  sameBeyond : client.beyond = beyond
  pending :
    client.fastbootContinue =
      (boots && !client.dispatched.any (appears beyond))
  done : client.fastbootDone = client.dispatched.any acknowledges
  answerable :
    Answerable boots options.fastbootRepeat beyond client.dispatched
  answered : Answered boots beyond client

section Tracks

variable {boots : Bool} {options : ClientOptions} {beyond : UInt8}

theorem Tracks.between
    {first last : Client}
    (tracks : Tracks boots options beyond first)
    (between : Between first last) :
    Tracks boots options beyond last := by
  have parts := between.parts
  simp only [fastbootParts, Prod.mk.injEq] at parts
  obtain ⟨sameOptions, sameBeyond, dispatched, done, pending⟩ := parts
  refine
    { sameOptions := sameOptions.trans tracks.sameOptions
      sameBeyond := sameBeyond.trans tracks.sameBeyond
      pending := by rw [pending, dispatched, tracks.pending]
      done := by rw [done, dispatched, tracks.done]
      answerable := by
        rw [dispatched]
        exact tracks.answerable
      answered := ?_ }
  intro earlier msg later shape appeared
  rw [dispatched] at shape
  rcases tracks.answered earlier msg later shape appeared with
    ⟨isBoot, isFirst, requested⟩ | quit
  · exact .inl ⟨isBoot, isFirst, between.logged.subset requested⟩
  · exact .inr (between.quits quit)

theorem Tracks.handles
    {first last : Client}
    {msg : Msg}
    (tracks : Tracks boots options beyond first)
    (handles : Handles msg first last) :
    Tracks boots options beyond last := by
  have pending := tracks.pending
  have answers := handles.answers
  rw [tracks.sameBeyond, tracks.sameOptions] at answers
  refine
    { sameOptions := handles.options.trans tracks.sameOptions
      sameBeyond := handles.beyond.trans tracks.sameBeyond
      pending := ?_
      done := ?_
      answerable := ?_
      answered := ?_ }
  · rw [handles.pending, pending, tracks.sameBeyond, handles.dispatched,
      List.any_append, List.any_cons, List.any_nil, Bool.or_false,
      Bool.not_or, Bool.and_assoc]
  · rw [handles.done, tracks.done, handles.dispatched, List.any_append,
      List.any_cons, List.any_nil, Bool.or_false]
  · rw [handles.dispatched]
    refine (forall_split_append_singleton _ _).mpr
      ⟨tracks.answerable, fun appeared => ?_⟩
    rcases answers appeared with ⟨isPending, _⟩ | ⟨done, once, _⟩
    · rw [pending, Bool.and_eq_true, Bool.not_eq_true'] at isPending
      exact .inl isPending
    · rw [tracks.done] at done
      exact .inr ⟨once, done⟩
  · unfold Answered
    rw [handles.dispatched]
    refine (forall_split_append_singleton _ _).mpr ⟨?_, fun appeared => ?_⟩
    · intro earlier other later shape appeared
      rcases tracks.answered earlier other later shape appeared with
        ⟨isBoot, isFirst, requested⟩ | quit
      · exact .inl ⟨isBoot, isFirst, handles.logged.subset requested⟩
      · exact .inr (handles.quits quit)
    · rcases answers appeared with ⟨isPending, requested⟩ | ⟨_, _, quit⟩
      · rw [pending, Bool.and_eq_true, Bool.not_eq_true'] at isPending
        exact .inl ⟨isPending.1, isPending.2, requested⟩
      · exact .inr quit

/-- Who reaches for the image has been sent a message it cannot answer. -/
theorem Tracks.reaches
    {first last : Client}
    {msg : Msg}
    (tracks : Tracks boots options beyond first)
    (reaches : ReachesForImage msg first last) :
    ¬ Answerable boots options.fastbootRepeat beyond last.dispatched := by
  have notPending := reaches.notPending
  have unanswered := reaches.unanswered
  have appeared := reaches.appeared
  rw [tracks.pending] at notPending
  rw [tracks.done, tracks.sameOptions] at unanswered
  rw [tracks.sameBeyond] at appeared
  rw [reaches.dispatched]
  intro answerable
  rcases ((forall_split_append_singleton _ _).mp answerable).2 appeared with
    ⟨isBoot, isFirst⟩ | ⟨once, done⟩
  · rw [isBoot, isFirst] at notPending
    contradiction
  · rw [done, once] at unanswered
    rcases unanswered with never | never <;> contradiction

/-- What a client that stopped was stopped by. -/
def StoppedTracking
    (boots : Bool)
    (options : ClientOptions)
    (beyond : UInt8)
    (reason : ClientStop)
    (client : Client) :
    Prop :=
  reason ≠ cannotOpen ∧ Tracks boots options beyond client ∨
    reason = cannotOpen ∧
      ¬ Answerable boots options.fastbootRepeat beyond client.dispatched

theorem tracking_of_beside
    {program : ClientM α}
    (beside : Beside program) :
    Keeps (Tracks boots options beyond)
      (StoppedTracking boots options beyond) program :=
  fun client tracks =>
    (beside client).keepsAt (fun _ between => tracks.between between)
      fun _ _ notOpen between => .inl ⟨notOpen, tracks.between between⟩

theorem dispatch_tracking
    (noImage : options.fastbootFile = none)
    (msg : Msg) :
    Keeps (Tracks boots options beyond)
      (StoppedTracking boots options beyond) (dispatch msg) := by
  intro client tracks
  refine (dispatch_handlesAt (by rw [tracks.sameOptions, noImage]) msg).mono
    (fun _ handles => tracks.handles handles) ?_
  rintro reason final (⟨notOpen, handles⟩ | ⟨opens, reaches⟩)
  · exact .inl ⟨notOpen, tracks.handles handles⟩
  · exact .inr ⟨opens, tracks.reaches reaches⟩

theorem mainLoop_tracking
    (noImage : options.fastbootFile = none)
    (iterations : List Ready) :
    Keeps (fun loop : ClientLoop => Tracks boots options beyond loop.state)
      (fun reason loop => StoppedTracking boots options beyond reason
        loop.state)
      (mainLoop iterations) := by
  have inside :
      ∀ {α : Type} {program : ClientM α}, Beside program →
        Keeps
          (fun loop : ClientLoop => Tracks boots options beyond loop.state)
          (fun reason loop => StoppedTracking boots options beyond reason
            loop.state)
          (within Receiver.stateOf program) :=
    fun beside loop tracks =>
      KeepsAt.within Receiver.stateOf
        (tracking_of_beside beside loop.state tracks)
  have leaves : ∀ client, Tracks boots options beyond client →
      StoppedTracking boots options beyond .leaveLoop client :=
    fun _ tracks => .inl ⟨by decide, tracks⟩
  refine mainLoop_keeps (fun ready => inside (waitReady_beside ready))
    (fun buf => inside (ttyCallback_beside buf))
    (fun loop => leaves loop.state)
    (receive_keeps ?_ leaves (dispatch_tracking noImage))
    (inside armInactivity_beside) (inside workPass_beside) iterations
  intro client input tracks
  exact tracks.between (.other rfl rfl rfl)

end Tracks

/-- Before the first message, with or without a boot to go on with. -/
theorem initial_tracks
    (options : ClientOptions)
    (powerCycles : Int)
    (writes : List WriteOutcome)
    (sshStdout : Input)
    (clock : Clock)
    (beyond : UInt8)
    (boots : Bool) :
    Tracks boots options beyond
      { initial options powerCycles writes sshStdout clock beyond with
        fastbootContinue := boots } where
  sameOptions := rfl
  sameBeyond := rfl
  pending := (Bool.and_true boots).symm
  done := rfl
  answerable := fun _ _ _ shape => absurd shape (by simp [initial])
  answered := fun _ _ _ shape => absurd shape (by simp [initial])

theorem setUp_tracks
    {options : ClientOptions}
    (noImage : options.fastbootFile = none)
    (powerCycles : Int)
    (writes : List WriteOutcome)
    (sshStdout : Input)
    (clock : Clock)
    (beyond : UInt8)
    (verb : Verb)
    (statusPipe : Bool) :
    KeepsAt (Tracks verb.boots options beyond)
      (StoppedTracking verb.boots options beyond) (setUp verb statusPipe)
      (initial options powerCycles writes sshStdout clock beyond) := by
  have started := initial_tracks options powerCycles writes sshStdout clock
    beyond
  have rest : Beside (afterRequest statusPipe) :=
    .bind
      (.onlyIf
        (.bind (.update fun _ => .other rfl rfl rfl)
          fun _ => requestWork_beside _))
      fun _ => .bind (.read _) fun _ =>
        .bind
          (.bind (.bind (.update fun _ => .other rfl rfl rfl)
            fun _ => .read _) fun _ => .pure _)
          fun _ => .bind (.update fun _ => .other rfl rfl rfl)
            fun _ => armInactivity_beside
  have requests : ∀ work, Beside (do
      requestWork work
      afterRequest statusPipe) :=
    fun work => .bind (requestWork_beside work) fun _ => rest
  cases verb with
  | boot board =>
      refine KeepsAt.bind (.of_ok (update_apply _ _) ?_) ?_
      · have flag : (initial options powerCycles writes sshStdout clock
            beyond).options.fastbootFile.isNone = true := by
          show options.fastbootFile.isNone = true
          rw [noImage]
          rfl
        rw [flag]
        exact started true
      · intro _ client _ tracks
        exact tracking_of_beside (requests _) client tracks
  | list => exact tracking_of_beside (requests _) _ (started false)
  | info board => exact tracking_of_beside (requests _) _ (started false)

/--
A run without an image answers every appearance, and never tries to open the
image, exactly if every appearance it handles is the first one of a boot, or
comes behind an acknowledgement in a run without `-R`.
-/
theorem run_answersEach_iff
    {options : ClientOptions}
    (noImage : options.fastbootFile = none)
    (powerCycles : Int)
    (writes : List WriteOutcome)
    (sshStdout : Input)
    (clock : Clock)
    (beyond : UInt8)
    (verb : Verb)
    (statusPipe : Bool)
    (iterations : List Ready) :
    let result := run verb statusPipe iterations
      (start options powerCycles writes sshStdout clock beyond)
    AnswersEach verb.boots beyond result ↔
      Answerable verb.boots options.fastbootRepeat beyond
        (finalState result).state.dispatched := by
  have kept : KeepsAt
      (fun loop : ClientLoop => Tracks verb.boots options beyond loop.state)
      (fun reason loop => StoppedTracking verb.boots options beyond reason
        loop.state)
      (run verb statusPipe iterations)
      (start options powerCycles writes sshStdout clock beyond) := by
    refine KeepsAt.bind
      (KeepsAt.within Receiver.stateOf
        (setUp_tracks noImage powerCycles writes sshStdout clock beyond verb
          statusPipe)) ?_
    intro _ loop _ tracks
    exact mainLoop_tracking noImage iterations loop tracks
  unfold KeepsAt at kept
  generalize run verb statusPipe iterations
    (start options powerCycles writes sshStdout clock beyond) = result
      at kept ⊢
  cases result with
  | ok value loop =>
      exact iff_of_true ⟨nofun, kept.answered⟩ kept.answerable
  | error reason loop =>
      rcases kept with ⟨notOpen, tracks⟩ | ⟨opens, unanswerable⟩
      · refine iff_of_true ⟨?_, tracks.answered⟩ tracks.answerable
        exact fun same => notOpen (Option.some.inj same)
      · refine iff_of_false ?_ unanswerable
        exact fun answers => answers.neverOpens (congrArg some opens)

theorem present_fits :
    ([1] : List UInt8).length < 2 ^ 16 := by
  decide

theorem absent_fits :
    ([0] : List UInt8).length < 2 ^ 16 := by
  decide

/-- The board comes up in fastboot, with a reset before it can boot. -/
def appearsTwice : Input where
  fd :=
    { unread :=
        wire.encodeAll
          [Msg.ofData MsgType.selectBoard.code [] Msg.nil_fits,
            Msg.ofData MsgType.fastbootPresent.code [1] present_fits,
            Msg.ofData MsgType.fastbootPresent.code [0] absent_fits,
            Msg.ofData MsgType.fastbootPresent.code [1] present_fits]
      closed := false }
  script := [.deliver 6, .wouldBlock, .deliver 7, .wouldBlock]

/-- Booting without an image, on that stream. -/
def bootsWithoutImage :
    EStateM.Result ClientStop ClientLoop Unit :=
  run (.boot (ascii "db410c")) false
    [⟨none, none, true, true⟩, ⟨none, none, true, true⟩]
    (start ⟨0, 0, true, false, none, false, []⟩ (-1) [] appearsTwice ⟨0, []⟩ 0)

theorem bootsWithoutImage_iff :
    AnswersEach true 0 bootsWithoutImage ↔
      Answerable true false 0
        (finalState bootsWithoutImage).state.dispatched :=
  run_answersEach_iff rfl (-1) [] appearsTwice ⟨0, []⟩ 0
    (.boot (ascii "db410c")) false
    [⟨none, none, true, true⟩, ⟨none, none, true, true⟩]

/-- The second appearance makes the client open an image that it was not given. -/
theorem bootsWithoutImage_opens :
    ¬ AnswersEach true 0 bootsWithoutImage := by
  intro answers
  have opens : stopped? bootsWithoutImage = some cannotOpen := by
    decide +kernel
  exact answers.neverOpens opens

end Client

end Cdba
