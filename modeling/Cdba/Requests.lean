import Cdba.WorkQueue

namespace Cdba

/-!
# Every request is executed

The invariant of the queue over whole runs of the client: handlers add nodes,
passes take them off, and everything else leaves the queue alone.
-/

open Program

namespace Client

/-! ## What does not concern the queue -/

/-- Events that are neither requests nor frames. -/
def ClientEvent.Outside : ClientEvent → Prop
  | .request _ => False
  | .frame _ => False
  | _ => True

/-- The queue, its memory and the account of requests stay as they are. -/
structure Aside (first last : Client) : Prop where
  workItems : last.workItems = first.workItems
  works : last.works = first.works
  fastbootContinue : last.fastbootContinue = first.fastbootContinue
  logged :
    ∃ events,
      last.log = first.log ++ events ∧
        ∀ event, event ∈ events → ClientEvent.Outside event

instance Aside.composes : Composes Aside where
  refl := fun client => ⟨rfl, rfl, rfl, [], by simp, by simp⟩
  trans := by
    intro first middle last firstStep laterStep
    obtain ⟨events, log, outside⟩ := firstStep.logged
    obtain ⟨events', log', outside'⟩ := laterStep.logged
    exact
      { workItems := laterStep.workItems.trans firstStep.workItems
        works := laterStep.works.trans firstStep.works
        fastbootContinue :=
          laterStep.fastbootContinue.trans firstStep.fastbootContinue
        logged :=
          ⟨events ++ events', by rw [log', log, List.append_assoc],
            fun event member =>
              (List.mem_append.mp member).elim
                (outside event) (outside' event)⟩ }

theorem Aside.unlogged
    {first last : Client}
    (workItems : last.workItems = first.workItems)
    (works : last.works = first.works)
    (fastbootContinue : last.fastbootContinue = first.fastbootContinue)
    (log : last.log = first.log) :
    Aside first last where
  workItems := workItems
  works := works
  fastbootContinue := fastbootContinue
  logged := ⟨[], by rw [log, List.append_nil], by simp⟩

theorem unrelated_of_outside
    {events : List ClientEvent}
    (outside : ∀ event, event ∈ events → ClientEvent.Outside event) :
    Unrelated events := by
  intro pair _
  rw [List.count_eq_zero, List.count_eq_zero]
  exact ⟨fun member => outside _ member, fun member => outside _ member⟩

theorem Queued.aside
    {items : List WorkNode}
    {first last : Client}
    (queued : Queued items first)
    (aside : Aside first last) :
    Queued items last := by
  obtain ⟨events, log, outside⟩ := aside.logged
  obtain ⟨balanced, once⟩ :=
    queued.balanced_append (unrelated_of_outside outside)
  exact
    { represents := by
        rw [aside.workItems]
        exact queued.represents
      allocated := by
        rw [aside.works]
        exact queued.allocated
      balanced := by
        rw [log]
        exact balanced
      continueOnce := fun isSet => by
        rw [log, once]
        exact queued.continueOnce (aside.fastbootContinue ▸ isSet) }

/-- A reason to stop that does not come from a damaged queue. -/
def NotStuck (reason : ClientStop) : Prop :=
  reason ≠ .diverges ∧ reason ≠ .useAfterFree

/-- While power is requested politely, the queue is in order. -/
def Accounted (client : Client) : Prop :=
  Polite client.log → ∃ items, Queued items client

/-- A client that stopped has a queue all the same. -/
def StoppedInOrder (reason : ClientStop) (client : Client) : Prop :=
  Polite client.log →
    NotStuck reason ∧ ∃ items, client.workItems.Represents .head items

/-- Programs that keep the queue in order. -/
abbrev Orderly (program : ClientM α) : Prop :=
  Keeps Accounted StoppedInOrder program

/-- Programs that do not concern the queue. -/
abbrev Asiding (program : ClientM α) : Prop :=
  Relates Aside NotStuck program

theorem orderly_of_asiding
    {program : ClientM α}
    (asiding : Asiding program) :
    Orderly program := by
  intro client accounted
  have before :
      ∀ final, Aside client final → Accounted final := by
    intro final aside polite
    obtain ⟨events, log, _⟩ := aside.logged
    obtain ⟨items, queued⟩ :=
      accounted (polite.shorten ⟨events, log.symm⟩)
    exact ⟨items, queued.aside aside⟩
  refine (asiding client).keepsAt before ?_
  intro reason final notStuck step polite
  obtain ⟨items, queued⟩ := before final step polite
  exact ⟨notStuck, items, queued.represents⟩

/-- The parts of the client that make up the queue and its account. -/
def queueParts (client : Client) :=
  (client.workItems, client.works, client.fastbootContinue, client.log)

theorem update_aside
    {change : Client → Client}
    (same : ∀ client, (change client).queueParts = client.queueParts) :
    Asiding (update change) := by
  refine .update fun client => ?_
  have parts := same client
  simp only [queueParts, Prod.mk.injEq] at parts
  obtain ⟨workItems, works, fastbootContinue, log⟩ := parts
  exact .unlogged workItems works fastbootContinue log

theorem record_aside
    {event : ClientEvent}
    (outside : ClientEvent.Outside event) :
    Asiding (record event) :=
  .update fun _ => ⟨rfl, rfl, rfl, [event], rfl, by simpa using outside⟩

theorem cdbaSendBuf_aside
    (type : MsgType)
    (buf : List UInt8) :
    Asiding (cdbaSendBuf type buf) := by
  intro client
  refine ⟨?_, ?_⟩
  · rw [cdbaSendBuf_eq]
    exact .unlogged rfl rfl rfl rfl
  · rw [cdbaSendBuf_eq]
    simp [stopped?]

theorem ttyCallback_aside
    (buf : Option (List UInt8)) :
    Asiding (ttyCallback buf) := by
  have sends :
      ∀ type buf, Asiding (discard (cdbaSendBuf type buf)) :=
    fun type buf => .bind (cdbaSendBuf_aside type buf) fun _ => .pure _
  have toggles : ∀ key, Asiding (cdbaToggleKey key) := fun key =>
    .bind (update_aside fun _ => rfl) fun _ => .bind (.read _) fun _ =>
      .bind (cdbaSendBuf_aside _ _) fun _ => .pure _
  have command : ∀ char, Asiding (ttyCommand char) := fun char =>
    .ite (update_aside fun _ => rfl)
      (.ite (sends _ _) (.ite (sends _ _) (.ite (sends _ _)
        (.ite (sends _ _) (.ite (sends _ _) (.ite (sends _ _)
          (.ite (sends _ _) (.ite (sends _ _) (.ite (toggles _)
            (.ite (sends _ _) (.ite (toggles _) (.pure _))))))))))))
  exact .each fun char _ => .bind (.read _) fun _ =>
    .ite (update_aside fun _ => rfl)
      (.ite
        (.bind (command char) fun _ => update_aside fun _ => rfl)
        (sends _ _))

theorem handleConsole_aside
    (data : List UInt8) :
    Asiding (handleConsole data) := by
  refine .bind (update_aside fun client => ?_)
    fun _ => record_aside trivial
  obtain ⟨_, _, counted⟩ := handleConsole_counts data client
  rw [counted]
  rfl

theorem armInactivity_aside :
    Asiding armInactivity :=
  .bind (.read _) fun _ =>
    .bind
      (.bind (.bind (update_aside fun _ => rfl) fun _ => .read _)
        fun _ => .pure _)
      fun _ => update_aside fun _ => rfl

theorem selectTimeout_aside :
    Asiding selectTimeout :=
  .bind (.read _) fun _ =>
    .ite
      (.bind (.bind (update_aside fun _ => rfl) fun _ => .read _)
        fun _ => .pure _)
      (.pure _)

theorem select_aside
    (timeout : Option Timeval)
    (ready : Ready) :
    Asiding (select timeout ready) := by
  have stops : ∀ message, NotStuck (.err message) :=
    fun message => ⟨nofun, nofun⟩
  refine .bind (record_aside trivial) fun _ => .bind (.read _) fun _ => ?_
  cases timeout with
  | none => exact .ite (.stop ⟨nofun, nofun⟩) (.pure _)
  | some tv =>
      exact .ite (.stop (stops _))
        (.ite (.bind (update_aside fun _ => rfl) fun _ => .pure _)
          (.pure _))

/-! ## What adds to the queue -/

/-- Power is requested in order if it is requested politely. -/
theorem requestPower_orderly
    (pair : WorkNode × MsgType)
    (power : pair ∈ powerFrames) :
    Orderly (request pair.1) := by
  intro client accounted
  refine .of_ok (bind_of_ok (update_apply _ _) _) ?_
  intro polite
  obtain ⟨items, queued⟩ :=
    accounted (polite.shorten (List.prefix_append _ _))
  have other : pair.1 ≠ .fastbootContinue := by
    have others :
        ∀ pair, pair ∈ powerFrames → pair.1 ≠ .fastbootContinue := by
      decide
    exact others pair power
  exact ⟨_, queued.request_static pair (List.mem_cons_of_mem _ power)
    (polite.last power) client.fastbootContinue
    (fun isSet => ⟨other, isSet⟩)⟩

/-- Requests with memory of their own are always in order. -/
theorem requestWork_orderly
    (work : Work) :
    Orderly (requestWork work) := by
  intro client accounted
  refine .of_ok rfl ?_
  intro polite
  obtain ⟨items, queued⟩ :=
    accounted (polite.shorten (List.prefix_append _ _))
  exact ⟨_, queued.allocate work⟩

/-- The request to go on booting is made at most once. -/
theorem fastbootPresent_orderly :
    Orderly fastbootPresent := by
  intro client accounted
  refine KeepsAt.bind (.of_ok (read_apply _ _) accounted) ?_
  intro value middle outcome _
  cases outcome
  dsimp only [id]
  split
  · rename_i isSet
    refine .of_ok rfl ?_
    intro polite
    obtain ⟨items, queued⟩ :=
      accounted (polite.shorten (List.prefix_append _ _))
    have once := queued.continueOnce isSet
    have balanced :=
      queued.balanced (.fastbootContinue, .fastbootContinue) (by decide)
    exact ⟨_, queued.request_static
      (.fastbootContinue, .fastbootContinue) (by decide)
      (by
        dsimp only at balanced ⊢
        omega)
      false nofun⟩
  · split
    · have files : Orderly requestFastbootFiles := by
        refine .bind (.read _) fun file => ?_
        cases file with
        | none =>
            exact .stop fun client accounted polite =>
              (accounted polite).elim fun items queued =>
                ⟨⟨nofun, nofun⟩, items, queued.represents⟩
        | some data => exact requestWork_orderly _
      exact files client accounted
    · have quits :
          Orderly (update fun client => { client with quit := true }) :=
        orderly_of_asiding (update_aside fun _ => rfl)
      exact quits client accounted

/-- Leaving the loop leaves the queue in order. -/
theorem leave_orderly :
    Orderly (stop .leaveLoop : ClientM α) :=
  .stop fun _ accounted polite =>
    (accounted polite).elim fun items queued =>
      ⟨⟨nofun, nofun⟩, items, queued.represents⟩

theorem dispatch_orderly
    (msg : Msg) :
    Orderly (dispatch msg) := by
  have handles :
      ∀ type, Orderly (handleType type msg.data) := by
    intro type
    unfold handleType
    split
    · exact requestPower_orderly (.powerOn, .powerOn) (by decide)
    · exact orderly_of_asiding (handleConsole_aside _)
    · exact .pure _
    · exact .pure _
    · exact .bind (.read _) fun _ => .onlyIf
        (.bind (orderly_of_asiding (update_aside fun _ => rfl)) fun _ =>
          requestPower_orderly (.powerOn, .powerOn) (by decide))
    · exact .bind (.read _) fun _ => .onlyIf fastbootPresent_orderly
    · exact orderly_of_asiding (update_aside fun _ => rfl)
    · exact .pure _
    · exact .bind (.read _) fun _ => .bind (.read _) fun _ => .onlyIf
        (orderly_of_asiding (record_aside trivial))
    · exact .ite (orderly_of_asiding (update_aside fun _ => rfl))
        (orderly_of_asiding (record_aside trivial))
    · exact .bind
        (orderly_of_asiding
          (.bind (record_aside trivial) fun _ =>
            update_aside fun _ => rfl))
        fun _ => leave_orderly
    · exact orderly_of_asiding (update_aside fun _ => rfl)
    · exact leave_orderly
  exact .bind (orderly_of_asiding (update_aside fun _ => rfl))
    fun _ => handles _

/-- The start of an iteration keeps the queue in order. -/
theorem waitReady_orderly
    (ready : Ready) :
    Orderly (waitReady ready) := by
  have cycles : Orderly powerCycle :=
    .bind (.read _) fun _ =>
      .ite
        (.ite leave_orderly
          (.ite leave_orderly
            (.bind (orderly_of_asiding (record_aside trivial)) fun _ =>
              .bind (orderly_of_asiding (update_aside fun _ => rfl))
                fun _ =>
                  .bind
                    (requestPower_orderly (.powerOff, .powerOff)
                      (by decide))
                    fun _ => orderly_of_asiding armInactivity_aside)))
        (.pure _)
  exact .bind cycles fun _ =>
    .bind (orderly_of_asiding selectTimeout_aside) fun _ =>
      orderly_of_asiding (select_aside _ _)

/-- A pass over the queue keeps it in order. -/
theorem workPass_orderly :
    Orderly workPass := by
  intro client accounted
  unfold KeepsAt
  by_cases polite : Polite client.log
  · obtain ⟨items, queued⟩ := accounted polite
    have pass := workPass_keeps queued
    unfold KeepsAt at pass
    cases outcome : workPass client with
    | ok value final =>
        rw [outcome] at pass
        obtain ⟨left, inPass, _⟩ := pass
        exact fun _ => ⟨left, inPass.queued⟩
    | error reason final =>
        rw [outcome] at pass
        obtain ⟨message, isErr⟩ := pass.err
        intro _
        rw [isErr]
        exact ⟨⟨nofun, nofun⟩, pass.represents⟩
  · have grows := (workPass_serves client).related
    obtain ⟨events, log, _⟩ := grows.logged
    cases outcome : workPass client with
    | ok value final =>
        rw [outcome] at log
        exact fun later =>
          absurd (later.shorten ⟨events, log.symm⟩) polite
    | error reason final =>
        rw [outcome] at log
        exact fun later =>
          absurd (later.shorten ⟨events, log.symm⟩) polite

/-! ## Whole runs -/

/-- A program of the main loop that keeps the queue in order. -/
abbrev OrderlyLoop (program : ClientLoopM α) : Prop :=
  Keeps
    (fun loop => Accounted loop.state)
    (fun reason loop => StoppedInOrder reason loop.state)
    program

theorem within_orderly
    {program : ClientM α}
    (orderly : Orderly program) :
    OrderlyLoop (within Receiver.stateOf program) :=
  fun loop accounted =>
    KeepsAt.within Receiver.stateOf
      (orderly loop.state accounted)

theorem mainLoop_orderly
    (iterations : List Ready) :
    OrderlyLoop (mainLoop iterations) := by
  refine mainLoop_keeps
    (fun ready => within_orderly (waitReady_orderly ready))
    (fun buf => within_orderly (orderly_of_asiding (ttyCallback_aside buf)))
    (fun loop => leave_orderly (α := Unit) loop.state)
    (receive_keeps ?_ (leave_orderly (α := Unit)) dispatch_orderly)
    (within_orderly (orderly_of_asiding armInactivity_aside))
    (within_orderly workPass_orderly) iterations
  intro client input accounted polite
  obtain ⟨items, queued⟩ := accounted polite
  exact ⟨items, queued.aside ⟨rfl, rfl, rfl, [], by
    simp [sshStdoutOf], by simp⟩⟩

/-- The queue is in order before anything was requested. -/
theorem initial_queued
    (options : ClientOptions)
    (powerCycles : Int)
    (writes : List WriteOutcome)
    (sshStdout : Input)
    (clock : Clock)
    (beyond : UInt8)
    (continue_ : Bool) :
    Queued []
      { initial options powerCycles writes sshStdout clock beyond with
        fastbootContinue := continue_ } where
  represents := Links.represents_init _
  allocated := by simp [initial]
  balanced := by simp [initial]
  continueOnce := fun _ => rfl

/-- A run keeps the queue in order from the start. -/
theorem run_orderly
    (options : ClientOptions)
    (powerCycles : Int)
    (writes : List WriteOutcome)
    (sshStdout : Input)
    (clock : Clock)
    (beyond : UInt8)
    (verb : Verb)
    (statusPipe : Bool)
    (iterations : List Ready) :
    KeepsAt
      (fun loop => Accounted loop.state)
      (fun reason loop => StoppedInOrder reason loop.state)
      (run verb statusPipe iterations)
      (start options powerCycles writes sshStdout clock beyond) := by
  have started :
      ∀ continue_,
        Accounted
          { initial options powerCycles writes sshStdout clock beyond with
            fastbootContinue := continue_ } :=
    fun continue_ _ => ⟨[], initial_queued options powerCycles writes
      sshStdout clock beyond continue_⟩
  have rest : Orderly (afterRequest statusPipe) :=
    .bind
      (.onlyIf
        (.bind (orderly_of_asiding (update_aside fun _ => rfl))
          fun _ => requestWork_orderly _))
      fun _ => .bind (.read _) fun _ =>
        .bind
          (orderly_of_asiding
            (.bind (.bind (update_aside fun _ => rfl) fun _ => .read _)
              fun _ => .pure _))
          fun _ => .bind (orderly_of_asiding (update_aside fun _ => rfl))
            fun _ => orderly_of_asiding armInactivity_aside
  have setsUp :
      KeepsAt Accounted StoppedInOrder (setUp verb statusPipe)
        (initial options powerCycles writes sshStdout clock beyond) := by
    cases verb with
    | boot board =>
        refine KeepsAt.bind (.of_ok (update_apply _ _) (started _)) ?_
        intro _ client _ accounted
        exact Keeps.bind (requestWork_orderly _) (fun _ => rest)
          client accounted
    | list =>
        exact Keeps.bind (requestWork_orderly _) (fun _ => rest) _
          (started false)
    | info board =>
        exact Keeps.bind (requestWork_orderly _) (fun _ => rest) _
          (started false)
  refine KeepsAt.bind
    (KeepsAt.within Receiver.stateOf setsUp) ?_
  intro _ loop _ accounted
  exact mainLoop_orderly iterations loop accounted

/-! ## Executing what was requested -/

/--
A queue that does its work: it is well-formed, every request for power is
queued or has led to one frame, and when writes succeed it becomes empty.
-/
structure ExecutesRequests (client : Client) : Prop where
  inOrder :
    ∃ items,
      client.workItems.Represents .head items ∧
        ∀ pair, pair ∈ powerFrames →
          client.log.count (.request pair.1) =
            client.log.count (.frame pair.2) +
              if pair.1 ∈ items then 1 else 0
  drains :
    (∀ outcome, outcome ∈ client.writes → outcome = .done) →
      ∃ passes final,
        workPasses passes client = .ok () final ∧
          final.workItems.listEmpty .head = true ∧
          client.log <+: final.log ∧
          ∀ pair, pair ∈ powerFrames →
            final.log.count (.request pair.1) =
              final.log.count (.frame pair.2)

/-- What a run leaves: a working queue, or at least a well-formed one. -/
def LeavesInOrder : EStateM.Result ClientStop ClientLoop Unit → Prop
  | .ok _ loop => ExecutesRequests loop.state
  | .error reason loop =>
      NotStuck reason ∧
        ∃ items, loop.state.workItems.Represents .head items

theorem Queued.executes
    {items : List WorkNode}
    {client : Client}
    (queued : Queued items client) :
    ExecutesRequests client where
  inOrder :=
    ⟨items, queued.represents, fun pair power =>
      queued.balanced pair (List.mem_cons_of_mem _ power)⟩
  drains := by
    intro writable
    obtain ⟨passes, final, ran, empty, log⟩ := queued.drains writable
    refine ⟨passes, final, ran,
      empty.represents.listEmpty_iff.mpr rfl, log, ?_⟩
    intro pair power
    have balanced := empty.balanced pair (List.mem_cons_of_mem _ power)
    simpa using balanced

/--
In every run of the client in which power is only requested when the frames of
all earlier requests have been sent, every request is executed exactly once.
-/
theorem requests_executed
    {options : ClientOptions}
    {powerCycles : Int}
    {writes : List WriteOutcome}
    {sshStdout : Input}
    {clock : Clock}
    {beyond : UInt8}
    {verb : Verb}
    {statusPipe : Bool}
    {iterations : List Ready}
    (polite :
      Polite
        (finalState
          (run verb statusPipe iterations
            (start options powerCycles writes sshStdout clock
              beyond))).state.log) :
    LeavesInOrder
      (run verb statusPipe iterations
        (start options powerCycles writes sshStdout clock beyond)) := by
  have kept := run_orderly options powerCycles writes sshStdout clock
    beyond verb statusPipe iterations
  unfold KeepsAt at kept
  unfold LeavesInOrder
  cases outcome : run verb statusPipe iterations
      (start options powerCycles writes sshStdout clock beyond) with
  | ok value loop =>
      rw [outcome] at kept polite
      obtain ⟨items, queued⟩ := kept polite
      exact queued.executes
  | error reason loop =>
      rw [outcome] at kept polite
      exact kept polite

/-- A console that reports a power off, and two acknowledgements behind it. -/
def powerOffStream : Input where
  fd :=
    { unread :=
        wire.encodeAll
          [Msg.ofData MsgType.selectBoard.code [] Msg.nil_fits,
            Msg.ofData MsgType.console.code (List.replicate 20 0x7e)
              (by decide),
            Msg.ofData MsgType.powerOff.code [] Msg.nil_fits,
            Msg.ofData MsgType.powerOff.code [] Msg.nil_fits]
      closed := false }
  script :=
    [.deliver 2, .wouldBlock, .deliver 22, .wouldBlock, .deliver 5,
      .wouldBlock]

/-- A client with automatic power cycles on that stream; the user types `^A p`. -/
def powerOffRun
    (iterations : List Ready) :
    EStateM.Result ClientStop ClientLoop Unit :=
  run (.boot (ascii "db410c")) false iterations
    (start ⟨0, 0, true, false, none, true, []⟩ 2 [] powerOffStream ⟨0, []⟩ 0)

/-- Selecting the board, powering it on, and the report that it went off. -/
def untilPowerOff : List Ready :=
  [⟨none, none, false, true⟩, ⟨none, none, true, true⟩,
    ⟨none, none, true, false⟩]

/-- An automatic power-off and one that is typed, and both acknowledgements. -/
def twoPowerOffs : List Ready :=
  [⟨some (some [0x01, 0x70]), none, false, true⟩,
    ⟨none, none, true, false⟩]

/-- Until the board went off, everything requested was executed. -/
theorem untilPowerOff_executed :
    LeavesInOrder (powerOffRun untilPowerOff) :=
  requests_executed (by decide +kernel)

/--
Two acknowledgements in one batch request power on twice: the node is linked to
itself, and the next pass over the queue never ends.
-/
theorem twoPowerOffs_selfLinked :
    returned? (powerOffRun (untilPowerOff ++ twoPowerOffs)) = some () ∧
      ¬ExecutesRequests
        (finalState
          (powerOffRun (untilPowerOff ++ twoPowerOffs))).state ∧
      stopped?
          (powerOffRun
            (untilPowerOff ++ twoPowerOffs ++
              [⟨none, none, false, true⟩])) =
        some .diverges := by
  refine ⟨by decide +kernel, ?_, by decide +kernel⟩
  intro executes
  obtain ⟨items, represents, _⟩ := executes.inOrder
  have first :
      (finalState (powerOffRun
        (untilPowerOff ++ twoPowerOffs))).state.workItems.next .head =
        .powerOn := by
    decide +kernel
  have queued : WorkNode.powerOn ∈ items := by
    rw [represents.chain.next_first] at first
    cases items with
    | nil => cases first
    | cons item rest =>
        rw [show item = .powerOn from first]
        simp
  exact represents.next_ne_self queued (by decide +kernel)

end Client

end Cdba
