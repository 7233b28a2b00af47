import Cdba.Tenancy

namespace Cdba

/-!
# Many users of the same boards

Every user has a server of their own.  What keeps them apart is `device_lock`:
a server operates a board only behind a lock that was granted, and has it until
its process ends.  So a board goes from one user to the next one only when the
process of the first one is gone, however the servers run.
-/

open Program FileLock

variable {n : Nat}

/-! ## Working under locks -/

/-- What a server is permitted by the locks it was granted. -/
def granted (start : Server n) (acts : List (Act CString CString)) :
    Permission n where
  device := fun device =>
    .attempt (lockPath (start.hw.devices device).board) true ∈ acts
  send := fun _ _ => True

/-- The names of the boards that a log says were operated, in order. -/
def boardsOf (start : Server n) (log : List (Stamped (Event n))) :
    List CString :=
  log.filterMap fun event =>
    event.value.device?.map fun device => (start.hw.devices device).board

/-- The work among some acts. -/
def worksOf (acts : List (Act CString CString)) : List CString :=
  acts.filterMap Act.work?

/-- A server that has only operated boards whose locks it was granted. -/
structure Lawful (start : Server n) (tenant : Tenant n) : Prop where
  disciplined : Disciplined lockPath tenant.acts
  lives : .exit ∉ tenant.acts
  complete : worksOf tenant.acts = boardsOf start tenant.server.hw.log
  guards : (granted start tenant.acts).Guards start tenant.server

/-- A lawful server that is not waiting for a lock. -/
structure Working (start : Server n) (tenant : Tenant n) : Prop
    extends Lawful start tenant where
  settled : Settled tenant.acts

/-- A lawful server that waits for a lock, or has begun to try. -/
structure Locking (start : Server n) (lock : CString) (tenant : Tenant n) :
    Prop extends Lawful start tenant where
  only :
    ∀ before other, tenant.acts = before ++ [.attempt other false] →
      other = lock

/-- How a lawful server stops: in front of a lock only by `exit()`. -/
def Stopped (start : Server n) (reason : Stop) (tenant : Tenant n) : Prop :=
  Lawful start tenant ∧ (reason = .leaveLoop → Settled tenant.acts)

section Lawful

variable {start : Server n} {tenant : Tenant n}

theorem Working.stopped
    (working : Working start tenant)
    (reason : Stop) :
    Stopped start reason tenant :=
  ⟨working.toLawful, fun _ => working.settled⟩

/-- A working server may begin to try any lock. -/
theorem Working.locking
    (working : Working start tenant)
    (lock : CString) :
    Locking start lock tenant where
  toLawful := working.toLawful
  only := fun before other last =>
    absurd last (working.settled before other)

/-- More acts permit more. -/
theorem Permission.Guards.granted_append
    {server : Server n}
    {acts : List (Act CString CString)}
    (guards : (granted start acts).Guards start server)
    (more : List (Act CString CString)) :
    (granted start (acts ++ more)).Guards start server where
  hw := guards.hw.mono (fun _ => List.mem_append_left _) fun _ _ => id
  selected := fun device selected =>
    List.mem_append_left _ (guards.selected device selected)
  username := guards.username

/--
A program that keeps every permission which covers the boards that were locked
and anything that is sent.
-/
def Obeys
    (start : Server n)
    (acts : List (Act CString CString))
    (program : ServerM n α) :
    Prop :=
  ∀ (permission : Permission n) (origin server : Server n),
    (∀ type payload, permission.send type payload) →
    (∀ device,
      (granted start acts).device device → permission.device device) →
    permission.Guards origin server →
    permission.Guards origin (finalState (program server))

theorem Obeys.of_guarding
    {acts : List (Act CString CString)}
    {program : ServerM n α}
    (guarding :
      ∀ (permission : Permission n) (origin : Server n),
        (∀ type payload, permission.send type payload) →
        (∀ device,
          (granted start acts).device device → permission.device device) →
        permission.Guarding Stop.Any origin program) :
    Obeys start acts program :=
  fun permission origin server sends covers guards =>
    KeepsAt.final (permission.Guards origin)
      ((guarding permission origin sends covers server guards).mono
        (fun _ => id) fun _ _ => And.right)

/-- Working goes on: what was operated since is under the same locks. -/
theorem Working.moved
    {server : Server n}
    (working : Working start tenant)
    (extended : tenant.server.hw.Extends server.hw)
    (guards : (granted start tenant.acts).Guards start server) :
    Working start (tenant.moved server) := by
  obtain ⟨events, log, _, _⟩ := extended.logged
  have names :
      Tenant.operated tenant.server.hw server.hw = boardsOf start events := by
    unfold Tenant.operated boardsOf
    rw [log, List.drop_left]
    congr 1
    funext event
    cases event.value.device? with
    | none => rfl
    | some device =>
        exact congrArg some (guards.hw.extended.config device).board
  have locked :
      ∀ board, board ∈ Tenant.operated tenant.server.hw server.hw →
        .attempt (lockPath board) true ∈ tenant.acts := by
    intro board member
    rw [names] at member
    obtain ⟨event, inEvents, named⟩ := List.mem_filterMap.mp member
    obtain ⟨device, on, rfl⟩ := Option.map_eq_some_iff.mp named
    have logged : event ∈ server.hw.log := by
      rw [log]
      exact List.mem_append_right _ inEvents
    exact (guards.hw.logged event logged).1 device on
  obtain ⟨disciplined, lives, settled⟩ :=
    working.disciplined.works working.lives working.settled locked
  refine
    { disciplined := disciplined
      lives := lives
      complete := ?_
      guards := guards.granted_append _
      settled := settled }
  have added :
      worksOf ((Tenant.operated tenant.server.hw server.hw).map Act.work) =
        Tenant.operated tenant.server.hw server.hw := by
    rw [worksOf, List.filterMap_map]
    exact List.filterMap_some
  have before := working.complete
  rw [worksOf] at before added
  show worksOf (tenant.acts ++ _) = boardsOf start server.hw.log
  rw [worksOf, List.filterMap_append, before, added, names, log, boardsOf,
    boardsOf, boardsOf, List.filterMap_append]

/-- An obedient program keeps a working server working. -/
theorem Working.keeps
    {program : ServerM n α}
    (working : Working start tenant)
    (obeys : Obeys start tenant.acts program) :
    KeepsAt
      (fun last => Working start last ∧ tenant.acts <+: last.acts)
      (Stopped start) (recorded program) tenant := by
  have guards := obeys _ start tenant.server (fun _ _ => trivial)
    (fun _ => id) working.guards
  have extended := (obeys .everything tenant.server tenant.server
    (fun _ _ => trivial) (fun _ _ => trivial)
    (everything_guards tenant.server)).hw.extended
  unfold KeepsAt recorded
  cases outcome : program tenant.server with
  | ok value server =>
      rw [outcome] at guards extended
      exact ⟨working.moved extended guards, List.prefix_append _ _⟩
  | error reason server =>
      rw [outcome] at guards extended
      exact (working.moved extended guards).stopped reason

end Lawful

/-! ## Waiting for a lock -/

section Locking

variable {start : Server n} {lock : CString} {tenant : Tenant n}

/-- Reasons to stop other than that a callback fails. -/
def Stop.Ends (reason : Stop) : Prop :=
  reason ≠ .leaveLoop

/-- Programs that log nothing and do not leave the main loop. -/
structure Idles (start : Server n) (program : ServerM n α) : Prop where
  silent :
    ∀ log,
      Keeps (fun server : Server n => server.hw.log = log)
        (fun _ server => server.hw.log = log) program
  guarding :
    ∀ permission : Permission n,
      permission.Guarding Stop.Ends start program

/-- Nothing was logged, so nothing is recorded. -/
theorem moved_silent
    {server : Server n}
    (silent : server.hw.log = tenant.server.hw.log) :
    tenant.moved server = { tenant with server := server } := by
  unfold Tenant.moved Tenant.operated
  rw [silent, List.drop_length, List.filterMap_nil, List.map_nil,
    List.append_nil]

/-- While a server waits for a lock, it does not leave its main loop. -/
theorem Idles.locking
    {program : ServerM n α}
    (idles : Idles start program) :
    Keeps (Locking start lock) (Stopped start) (recorded program) := by
  intro tenant locking
  have kept := idles.guarding _ tenant.server locking.guards
  have silent := KeepsAt.final
    (fun server : Server n => server.hw.log = tenant.server.hw.log)
    (idles.silent _ tenant.server rfl)
  unfold KeepsAt at kept
  unfold KeepsAt recorded
  cases outcome : program tenant.server with
  | ok value server =>
      rw [outcome] at kept silent
      have same : tenant.moved server = { tenant with server := server } :=
        moved_silent silent
      show Locking start lock (tenant.moved server)
      rw [same]
      exact ⟨⟨locking.disciplined, locking.lives,
        locking.complete.trans (congrArg _ silent.symm), kept⟩,
        locking.only⟩
  | error reason server =>
      rw [outcome] at kept silent
      have same : tenant.moved server = { tenant with server := server } :=
        moved_silent silent
      show Stopped start reason (tenant.moved server)
      rw [same]
      exact ⟨⟨locking.disciplined, locking.lives,
        locking.complete.trans (congrArg _ silent.symm), kept.2⟩,
        fun leaves => absurd leaves kept.1⟩

theorem updateGlobals_idles
    {change : Server n → Server n}
    (hw : ∀ server, (change server).hw = server.hw)
    (selected :
      ∀ server, (change server).selectedDevice = server.selectedDevice)
    (username : ∀ server, (change server).username = server.username) :
    Idles start (update change) where
  silent := fun log server same => by
    show (change server).hw.log = log
    rw [hw, same]
  guarding := fun _ => updateGlobals_guarding hw selected username

theorem sleep_idles : Idles start (onHw (sleep 3)) where
  silent := fun _ _ => id
  guarding := fun _ => onHw_guarding (sleep_respected _)

theorem probeConnection_idles :
    Idles start (probeConnection (n := n)) where
  silent := by
    intro log
    refine Keeps.bind (.read _) fun input => ?_
    split
    · exact .pure ()
    · split
      · exact fun _ => id
      · exact fun _ => id
      · exact fun _ => id
  guarding := fun _ => probeConnection_guarding
    { null := fun _ _ => by simp [Stop.Ends]
      exits := fun _ => by simp [Stop.Ends]
      asserts := fun _ _ _ => by simp [Stop.Ends] }

/-- An attempt on the lock that the server is waiting for. -/
theorem Locking.attemptedLock
    (locking : Locking start lock tenant)
    (answer : Bool) :
    Locking start lock
      { tenant with acts := tenant.acts ++ [.attempt lock answer] } where
  disciplined := by
    refine locking.disciplined.concat locking.lives (by simp) ?_
    intro before other last
    exact .inr ⟨answer, by rw [locking.only before other last]⟩
  lives := by simpa using locking.lives
  complete := by
    rw [worksOf, List.filterMap_append, ← locking.complete]
    exact List.append_nil _
  guards := locking.guards.granted_append _
  only := by
    intro before other shape
    cases (List.append_inj' shape rfl).2
    rfl

/-- A server that was granted a lock goes on to work. -/
theorem Locking.takes
    (locking : Locking start lock tenant) :
    Working start
        { tenant with acts := tenant.acts ++ [.attempt lock true] } ∧
      .attempt lock true ∈ tenant.acts ++ [.attempt lock true] := by
  refine ⟨⟨(locking.attemptedLock true).toLawful, ?_⟩, by simp⟩
  intro before other shape
  cases (List.append_inj' shape rfl).2

/-- The loop ends with the lock, or the process does. -/
theorem lockLoop_grants
    (flocks : List Bool)
    (locking : Locking start lock tenant) :
    KeepsAt
      (fun last => Working start last ∧ .attempt lock true ∈ last.acts)
      (Stopped start) (lockLoop lock flocks) tenant := by
  have globals :
      ∀ flocks : List Bool,
        Idles start
          (update fun server : Server n =>
            { server with flocks := flocks }) :=
    fun _ => updateGlobals_idles (fun _ => rfl) (fun _ => rfl) fun _ => rfl
  induction flocks generalizing tenant with
  | nil =>
      exact locking.takes
  | cons locked flocks inductionHypothesis =>
      refine ((globals flocks).locking tenant locking).seq
        fun _ tenant _ locking => ?_
      refine KeepsAt.update ?_
      cases locked with
      | true => exact locking.takes
      | false =>
          refine (sleep_idles.locking _ (locking.attemptedLock false)).seq
            fun _ tenant _ locking => ?_
          refine (probeConnection_idles.locking _ locking).seq
            fun _ tenant _ locking => ?_
          exact inductionHypothesis locking

/-- `device_lock` returns with the lock of the board. -/
theorem lockDevice_grants
    (device : Fin n)
    (working : Working start tenant) :
    KeepsAt
      (fun last =>
        Working start last ∧
          (granted start last.acts).device device)
      (Stopped start) (lockDevice device) tenant := by
  have board :
      (tenant.server.hw.devices device).board =
        (start.hw.devices device).board :=
    (working.guards.hw.extended.config device).board
  have opens :
      ∀ opens : List Bool,
        Idles start
          (update fun server : Server n =>
            { server with lockOpens := opens }) :=
    fun _ => updateGlobals_idles (fun _ => rfl) (fun _ => rfl) fun _ => rfl
  refine KeepsAt.read ?_
  rw [board]
  split
  · exact working.stopped _
  · refine KeepsAt.read ?_
    have locking :=
      working.locking (lockPath (start.hw.devices device).board)
    refine ((opens _).locking tenant locking).seq
      fun _ tenant _ locking => ?_
    split
    · exact KeepsAt.read (lockLoop_grants _ locking)
    · exact ⟨locking.toLawful, by simp⟩

end Locking

/-! ## Selecting a board -/

section Selecting

variable {start : Server n} {tenant : Tenant n}

/-- Changes to globals of a working server. -/
theorem Working.globals
    (working : Working start tenant)
    (change : Server n → Server n)
    (hw : ∀ server, (change server).hw = server.hw)
    (selected :
      (granted start tenant.acts).Covers
        (change tenant.server).selectedDevice)
    (username : ∀ server, (change server).username = server.username) :
    KeepsAt
      (fun last => Working start last ∧ last.acts = tenant.acts)
      (Stopped start) (recorded (update change)) tenant := by
  have silent := congrArg Hw.log (hw tenant.server)
  show Working start (tenant.moved (change tenant.server)) ∧ _
  rw [moved_silent silent]
  refine ⟨⟨⟨working.disciplined, working.lives,
    working.complete.trans (congrArg _ silent.symm), ?_⟩,
    working.settled⟩, rfl⟩
  refine ⟨?_, selected, ?_⟩
  · rw [hw]
    exact working.guards.hw
  · rw [username]
    exact working.guards.username

/-- The part of `device_open` behind the lock, on a permitted device. -/
theorem openLocked_respected
    {permission : Permission n}
    {start : Hw n}
    {device : Fin n}
    (permitted : permission.device device) :
    permission.Respected Stop.Any start (openLocked device) :=
  Keeps.bind (openControl_respected (fun _ => trivial) permitted) fun _ =>
    Keeps.bind (openConsole_respected (fun _ => trivial) permitted) fun _ =>
      settle_respected (fun _ _ => trivial) permitted

/-- Whatever `device_open` returns, the server was granted its lock. -/
theorem lockAndOpen_works
    (board : Nat → UInt8)
    (working : Working start tenant) :
    KeepsAt
      (fun last =>
        Working start last ∧
          (granted start last.acts).Covers
            (accessibleBoard? start.hw start.username board))
      (Stopped start) (lockAndOpen board) tenant := by
  refine KeepsAt.read ?_
  rw [accessibleBoard?_extends working.guards.hw.extended,
    working.guards.username]
  cases found : accessibleBoard? start.hw start.username board with
  | none =>
      exact ⟨working, by rintro _ ⟨⟩⟩
  | some device =>
      refine KeepsAt.read ?_
      split
      · exact working.stopped _
      · refine (lockDevice_grants device working).seq
          fun _ tenant _ locked => ?_
        obtain ⟨working, permitted⟩ := locked
        have opens :
            Obeys start tenant.acts (onHw (openLocked device)) :=
          .of_guarding fun _ _ _ covers =>
            onHw_guarding (openLocked_respected (covers _ permitted))
        refine (working.keeps opens).seq fun _ last _ opened => ?_
        refine ⟨opened.1, ?_⟩
        rintro _ ⟨rfl⟩
        exact opened.2.subset permitted

/-- What `device_open` returns. -/
theorem lockAndOpen_returns
    {board : Nat → UInt8}
    {last : Tenant n}
    {opened : Option (Fin n)}
    (working : Working start tenant)
    (outcome : lockAndOpen board tenant = .ok opened last) :
    opened = accessibleBoard? start.hw start.username board := by
  have same := lockAndOpen_mirrors board tenant
  rw [outcome] at same
  rw [deviceOpen_returns same.symm,
    accessibleBoard?_extends working.guards.hw.extended,
    working.guards.username]

/-- Selecting a board keeps a server working. -/
theorem lockAndSelect_works
    (data : List UInt8) :
    Keeps (Working start) (Stopped start)
      (lockAndSelect (n := n) data) := by
  intro tenant working
  refine KeepsAt.read ?_
  refine (lockAndOpen_works _ working).seq
    fun opened middle outcome both => ?_
  obtain ⟨opens, covered⟩ := both
  rw [← lockAndOpen_returns working outcome] at covered
  refine (opens.globals
    (fun server => { server with selectedDevice := opened })
    (fun _ => rfl) covered fun _ => rfl).seq
    fun _ chosen _ selecting => ?_
  obtain ⟨selecting, same⟩ := selecting
  have acknowledges :
      Keeps (Working start) (Stopped start)
        (recorded (onHw (cdbaSend (n := n) .selectBoard))) :=
    fun tenant working =>
      (working.keeps (.of_guarding fun _ _ sends _ =>
        onHw_guarding (send_respected (sends _ _)))).mono
        (fun _ => And.left) fun _ _ => id
  cases opened with
  | none =>
      refine (selecting.globals
        (fun server => { server with quitInvoked := true })
        (fun _ => rfl) selecting.guards.selected fun _ => rfl).seq
        fun _ last _ quits => ?_
      exact acknowledges last quits.1
  | some device =>
      have permitted : (granted start chosen.acts).device device := by
        rw [same]
        exact covered device rfl
      have probes :
          Obeys start chosen.acts (onHw (deviceFastbootOpen device)) :=
        .of_guarding fun _ _ sends covers =>
          onHw_guarding (deviceFastbootOpen_respected
            (fun _ _ => trivial) (fun _ => sends _ _) (covers _ permitted))
      refine (selecting.keeps probes).seq fun _ last _ probed => ?_
      exact acknowledges last probed.1

/-- So does every message. -/
theorem lockingDispatch_works
    (msg : Msg) :
    Keeps (Working start) (Stopped start) (lockingDispatch (n := n) msg) := by
  intro tenant working
  unfold lockingDispatch
  split
  · refine (working.globals
      (fun server =>
        { server with dispatched := server.dispatched ++ [msg] })
      (fun _ => rfl) working.guards.selected fun _ => rfl).seq
      fun _ tenant _ records => ?_
    exact lockAndSelect_works msg.data tenant records.1
  · rename_i other
    have obeys : Obeys start tenant.acts (dispatch msg) := by
      intro permission origin server sends _ guards
      refine dispatch_guards
        ⟨fun _ => sends _ _, fun _ => sends _ _, fun _ _ => sends _ _,
          fun _ _ _ _ => sends _ _⟩ ?_ guards
      intro one member select
      rw [List.mem_singleton.mp member] at select
      exact absurd select other
    exact (working.keeps obeys).mono (fun _ => And.left) fun _ _ => id

end Selecting

/-! ## The main loop -/

section MainLoop

variable {start : Server n}

/-- Timers work on devices that were opened. -/
theorem invokeTimers_works :
    Keeps (Working start) (Stopped start)
      (recorded (invokeTimers (n := n))) :=
  fun _ working =>
    (working.keeps (.of_guarding fun _ _ _ _ =>
      invokeTimers_guarding (fun _ _ => trivial) trivial)).mono
      (fun _ => And.left) fun _ _ => id

/-- A program beside the receive buffer is recorded beside it. -/
theorem recordedLoop_within
    (program : ServerM n α) :
    recordedLoop (within Receiver.stateOf program) =
      within Receiver.stateOf (recorded program) := by
  funext loop
  unfold recordedLoop within recorded unrecorded Receiver.stateOf
  dsimp only
  cases program loop.state.server <;> rfl

/-- What a server is like whose loop goes on, and how the loop is left. -/
abbrev LoopWorks
    (start : Server n)
    (program : EStateM Stop (Receiver (Tenant n)) Unit) :
    Prop :=
  Keeps (fun loop => Working start loop.state)
    (fun reason loop => Stopped start reason loop.state) program

theorem stateOf_works
    {program : TenantM n Unit}
    (works : Keeps (Working start) (Stopped start) program) :
    LoopWorks start (within Receiver.stateOf program) :=
  fun loop working => KeepsAt.within Receiver.stateOf
    (works loop.state working)

/-- A callback forwards what it reads; only messages select boards. -/
theorem lockingCallback_works
    (callback : Callback) :
    LoopWorks start (lockingCallback callback) := by
  have others :
      callback ≠ .stdin →
        LoopWorks start (recordedLoop (runCallback callback)) := by
    intro other
    obtain ⟨program, beside⟩ := runCallback_beside (n := n) other
    rw [beside.runs, recordedLoop_within]
    refine stateOf_works fun tenant working => ?_
    have obeys : Obeys start tenant.acts program := by
      refine .of_guarding fun permission origin sends _ => ?_
      refine beside.guarding trivial
        ⟨fun _ => sends _ _, fun _ => sends _ _, fun _ _ => sends _ _,
          fun _ _ _ _ => sends _ _⟩ ?_
      unfold Permission.Forwards
      split <;> simp [sends]
    exact (working.keeps obeys).mono (fun _ => And.left) fun _ _ => id
  cases callback with
  | stdin =>
      refine receive_keeps ?_ (fun _ working => working.stopped _)
        lockingDispatch_works
      exact fun tenant input working =>
        ⟨⟨working.disciplined, working.lives, working.complete,
          ⟨working.guards.hw, working.guards.selected,
            working.guards.username⟩⟩, working.settled⟩
  | udev index event => exact others (by simp)
  | consoleData bytes => exact others (by simp)
  | statusData bytes => exact others (by simp)
  | controlData lines => exact others (by simp)
  | sigpipe => exact others (by simp)

/-- However the main loop goes, the server works under its locks. -/
theorem lockingMainLoop_works
    (iterations : List (List Callback)) :
    LoopWorks start (lockingMainLoop iterations) := by
  induction iterations with
  | nil =>
      exact .pure ()
  | cons ready rest inductionHypothesis =>
      exact Keeps.bind (.read _) fun _ =>
        .ite (.pure ())
          (Keeps.bind
            (Keeps.bind (stateOf_works invokeTimers_works) fun _ =>
              .each lockingCallback_works ready)
            fun _ => inductionHypothesis)

end MainLoop

/-! ## Processes -/

/-- A server process: how it was started, and what happens to it. -/
structure ServerProcess where
  n : Nat
  devices : Fin n → Device
  username : CString
  stdin : Input
  hw : Hw n
  lockOpens : List Bool
  flocks : List Bool
  iterations : List (List Callback)

namespace ServerProcess

/-- The server in front of its main loop. -/
def start (process : ServerProcess) : ServerLoop process.n :=
  Server.start process.devices process.username process.stdin process.hw
    process.lockOpens process.flocks

/-- How its main loop ends. -/
def loop (process : ServerProcess) :
    EStateM.Result Stop (Receiver (Tenant process.n)) Unit :=
  lockingMainLoop process.iterations
    ⟨⟨process.start.state, []⟩, process.start.recvBuf⟩

/-- Whether `main` goes on behind the loop. -/
def leavesLoop : EStateM.Result Stop (Receiver (Tenant n)) Unit → Bool
  | .ok _ loop => loop.state.server.quitInvoked
  | .error .leaveLoop _ => true
  | .error _ _ => false

/-- The end of the process: `main` closes the selected device behind its loop. -/
def last (process : ServerProcess) : Tenant process.n :=
  if leavesLoop process.loop then
    finalState (recorded closeSelected (finalState process.loop).state)
  else
    (finalState process.loop).state

/-- What the process has done. -/
def acts (process : ServerProcess) : List (Act CString CString) :=
  process.last.acts

/-- The recording server ends where the server does. -/
theorem last_server
    (process : ServerProcess) :
    process.last.server =
      (endOfProcess? (watchMainLoop process.iterations process.start)).getD
        (finalState (watchMainLoop process.iterations process.start)).state := by
  have mirrors :=
    lockingMainLoop_mirrors process.iterations
      ⟨⟨process.start.state, []⟩, process.start.recvBuf⟩
  have runs :
      viewed unrecorded process.loop =
        watchMainLoop process.iterations process.start :=
    mirrors
  rw [← runs]
  have closing :=
    (recorded_mirrors (closeSelected (n := process.n))).finalState
      (finalState process.loop).state
  unfold last
  generalize process.loop = result at closing
  cases result with
  | ok value loop =>
      cases quits : loop.state.server.quitInvoked with
      | true =>
          simp only [leavesLoop, viewed, endOfProcess?, unrecorded, quits,
            if_true, Option.getD_some]
          exact closing
      | false =>
          simp [leavesLoop, viewed, endOfProcess?, unrecorded, quits,
            finalState]
  | error reason loop =>
      cases reason with
      | leaveLoop =>
          simp only [leavesLoop, viewed, endOfProcess?, unrecorded, if_true,
            Option.getD_some]
          exact closing
      | _ => rfl

/-- A process operates boards under their locks, and records all it does. -/
theorem last_lawful
    (process : ServerProcess) :
    Lawful process.start.state process.last := by
  have begins :
      Working process.start.state (⟨process.start.state, []⟩ : Tenant _) :=
    { disciplined := .nil _
      lives := List.not_mem_nil
      complete := rfl
      guards := Permission.guards_start _ _ _ _ _ _ _
      settled := by simp [Settled] }
  have closes :
      ∀ tenant : Tenant process.n,
        Working process.start.state tenant →
        Lawful process.start.state
          (finalState (recorded closeSelected tenant)) := by
    intro tenant working
    have obeys :
        Obeys process.start.state tenant.acts closeSelected :=
      fun _ _ _ _ _ guards => closeSelected_guards guards
    exact KeepsAt.final (Lawful process.start.state)
      ((working.keeps obeys).mono (fun _ both => both.1.toLawful)
        fun _ _ => And.left)
  have runs :
      KeepsAt
        (fun loop => Working process.start.state loop.state)
        (fun reason loop => Stopped process.start.state reason loop.state)
        (lockingMainLoop process.iterations)
        ⟨⟨process.start.state, []⟩, process.start.recvBuf⟩ :=
    lockingMainLoop_works process.iterations _ begins
  unfold KeepsAt at runs
  rw [show lockingMainLoop process.iterations
    ⟨⟨process.start.state, []⟩, process.start.recvBuf⟩ = process.loop
      from rfl] at runs
  unfold last
  generalize process.loop = result at runs
  cases result with
  | ok value loop =>
      have working : Working process.start.state loop.state := runs
      cases quits : leavesLoop (.ok value loop) with
      | true => exact closes _ working
      | false => exact working.toLawful
  | error reason loop =>
      have stopped : Stopped process.start.state reason loop.state := runs
      cases reason with
      | leaveLoop => exact closes _ ⟨stopped.1, stopped.2 rfl⟩
      | _ => exact stopped.1

end ServerProcess

/-! ## The fleet -/

/-- A process does what it does up to some time, at which it may exit. -/
def Lives
    (process : ServerProcess)
    (acts : List (Act CString CString)) :
    Prop :=
  acts <+: process.acts ∨
    ∃ done, done <+: process.acts ∧ acts = done ++ [.exit]

/-- The servers of some users, in any order the kernel lets them run in. -/
structure Fleet (User : Type) [DecidableEq User] where
  process : User → ServerProcess
  history : History User CString CString
  lives : ∀ user, Lives (process user) (ownActs user history)
  answered : Table.accepts [] history = true

theorem Lives.disciplined
    {process : ServerProcess}
    {acts : List (Act CString CString)}
    (lives : Lives process acts) :
    Disciplined lockPath acts := by
  have lawful := process.last_lawful
  have begins :
      ∀ done, done <+: process.acts →
        Disciplined lockPath done ∧ .exit ∉ done := by
    rintro done ⟨rest, whole⟩
    have disciplined := lawful.disciplined
    have exits := lawful.lives
    rw [show process.last.acts = done ++ rest from whole.symm]
      at disciplined exits
    exact ⟨disciplined.begins,
      fun member => exits (List.mem_append_left _ member)⟩
  rcases lives with goesOn | ⟨done, goesOn, rfl⟩
  · exact (begins acts goesOn).1
  · obtain ⟨disciplined, alive⟩ := begins done goesOn
    exact disciplined.concat alive (by simp) fun _ _ _ => .inl rfl

section Fleet

variable {User : Type} [DecidableEq User]

/--
However the servers of all users run: between an operation of one server on a
board and a later operation of another server on a board of this name, the
process of the first server has ended.
-/
theorem boards_exclusive
    (fleet : Fleet User)
    {before middle after : History User CString CString}
    {first second : User}
    {board : CString}
    (shape :
      fleet.history =
        before ++ (first, .work board) ::
          (middle ++ (second, .work board) :: after))
    (differ : first ≠ second) :
    (first, .exit) ∈ middle := by
  have answered := fleet.answered
  have disciplined :=
    fun user => (fleet.lives user).disciplined
  rw [shape] at answered disciplined
  exact exits_between answered disciplined rfl differ

/--
A server that tries to lock a board which it has locked before, because it is
told to select the board once more: it is refused, and operates no board and
takes no other lock any more; it tries again and is refused, until its process
ends.
-/
theorem reselection_waits
    (fleet : Fleet User)
    {before after : History User CString CString}
    {user : User}
    {lock : CString}
    {granted : Bool}
    (shape :
      fleet.history = before ++ (user, .attempt lock granted) :: after)
    (holds : FileLock.Holds before user lock) :
    granted = false ∧
      ∀ act, act ∈ ownActs user after →
        act = .exit ∨ act = .attempt lock false := by
  have answered := fleet.answered
  have disciplined := (fleet.lives user).disciplined
  rw [shape] at answered disciplined
  exact waits_forever answered disciplined holds

end Fleet

/-! ## A bench with two users -/

/-- A server that is told to select its board some number of times. -/
def benchProcess (selections : Nat) (flocks : List Bool) : ServerProcess where
  n := 1
  devices := fun _ => ftdiBoard
  username := ascii "user"
  stdin :=
    ⟨⟨(List.replicate selections
        (sendBufBytes .selectBoard (ascii "db410c" ++ [0]))).flatten, false⟩,
      [.deliver 99]⟩
  hw := Hw.initial fun _ => ftdiBoard
  lockOpens := []
  flocks := flocks
  iterations := [[.stdin]]

/-- One user selects the board twice; the other one once, and waits. -/
def benchUsers : Bool → ServerProcess
  | false => benchProcess 2 [true, false, false]
  | true => benchProcess 1 [false, true]

/-- The second user gets the board when the first one is gone. -/
def benchHistory : History Bool CString CString :=
  let lock := lockPath (ascii "db410c")
  let board := ascii "db410c"
  [(false, .attempt lock true), (false, .work board), (false, .work board),
    (true, .attempt lock false), (false, .attempt lock false),
    (false, .attempt lock false), (false, .exit),
    (true, .attempt lock true), (true, .work board), (true, .work board)]

theorem benchHistory_lives
    (user : Bool) :
    Lives (benchUsers user) (ownActs user benchHistory) := by
  cases user with
  | false =>
      refine .inr ⟨(benchUsers false).acts.take 5,
        List.take_prefix _ _, ?_⟩
      decide +kernel
  | true =>
      refine .inl ?_
      have whole :
          ownActs true benchHistory = (benchUsers true).acts := by
        decide +kernel
      exact whole ▸ List.prefix_rfl

theorem benchHistory_answered :
    Table.accepts [] benchHistory = true := by
  decide +kernel

/-- The bench, shared by two users. -/
def benchFleet : Fleet Bool where
  process := benchUsers
  history := benchHistory
  lives := benchHistory_lives
  answered := benchHistory_answered

/-- Between the first user's work and the second one's, the first has ended. -/
theorem benchFleet_exclusive :
    (false, .exit) ∈ (benchFleet.history.drop 3).take 5 :=
  boards_exclusive benchFleet
    (show benchFleet.history =
      benchFleet.history.take 2 ++ (false, .work (ascii "db410c")) ::
        ((benchFleet.history.drop 3).take 5 ++
          (true, .work (ascii "db410c")) :: benchFleet.history.drop 9) from
      by decide +kernel)
    (by decide)

/-- The first user's second selection is refused until the process ends. -/
theorem benchFleet_waits :
    false = false ∧
      ∀ act, act ∈ ownActs false (benchFleet.history.drop 5) →
        act = .exit ∨ act = .attempt (lockPath (ascii "db410c")) false :=
  reselection_waits benchFleet
    (show benchFleet.history =
      benchFleet.history.take 4 ++
        (false, .attempt (lockPath (ascii "db410c")) false) ::
          benchFleet.history.drop 5 from by decide +kernel)
    ⟨by decide +kernel, by decide +kernel⟩

end Cdba
