import Cdba.BootDispatch

namespace Cdba

/-!
# Automatic power cycles

`fastboot_done` is set when the first image has been accepted and never reset.
So the client sends its image once: when fastboot shows up after a power cycle
it quits, unless it was told to repeat the image every time.
-/

open Program

namespace Client

section Steps

variable {image : List UInt8} {cycles : Nat} {sent started : List Msg}
variable {course next : Course} {client final : Client}

/-! ## Receiving -/

/-- What was told so far is justified, and the next message has its turn. -/
theorem justified_concat
    {received : List Msg}
    {msg : Msg}
    (just : justified started (received ++ [msg]) = true) :
    justified started received = true ∧
      ∃ course next,
        Course.after? received = some course ∧
          course.next? msg = some next ∧
          Course.after? (received ++ [msg]) = some next ∧
          next.restarts ≤ framesOf .powerOff started := by
  unfold justified at just ⊢
  cases told : Course.after? (received ++ [msg]) with
  | none =>
      rw [told] at just
      contradiction
  | some next =>
      rw [told] at just
      rw [Course.after?_concat] at told
      obtain ⟨course, before, advance⟩ := Option.bind_eq_some_iff.mp told
      obtain ⟨presents, acceptances, restarts, connecting⟩ :=
        Course.next?_grows advance
      simp only [Bool.and_eq_true, Bool.or_eq_true, decide_eq_true_eq]
        at just
      obtain ⟨⟨⟨selected, powered⟩, uploaded⟩, stopped⟩ := just
      rw [before]
      refine ⟨?_, course, next, rfl, advance, rfl, stopped⟩
      simp only [Bool.and_eq_true, Bool.or_eq_true, decide_eq_true_eq]
      exact ⟨⟨⟨selected.imp connecting id, by omega⟩, by omega⟩, by omega⟩

/-- More requests justify as much. -/
theorem justified_mono
    {received : List Msg}
    (extends_ : started <+: sent)
    (just : justified started received = true) :
    justified sent received = true := by
  have selected := framesOf_mono .selectBoard extends_
  have powered := framesOf_mono .powerOn extends_
  have stopped := framesOf_mono .powerOff extends_
  have uploaded : uploadsOf started ≤ uploadsOf sent :=
    extends_.sublist.countP_le
  unfold justified at just ⊢
  split at just
  · contradiction
  · simp only [Bool.and_eq_true, Bool.or_eq_true, decide_eq_true_eq]
      at just ⊢
    obtain ⟨⟨⟨isSelected, isPowered⟩, isUploaded⟩, isStopped⟩ := just
    exact ⟨⟨⟨isSelected.imp id fun one => by omega, by omega⟩, by omega⟩,
      by omega⟩

/-- While the messages are justified, the client is on course. -/
def Justly
    (image : List UInt8)
    (cycles : Nat)
    (started : List Msg)
    (client : Client) :
    Prop :=
  justified started client.dispatched = true →
    OnCourse image cycles started client

/-- While they are, it only leaves the loop as it should. -/
def LeavesJustly
    (image : List UInt8)
    (cycles : Nat)
    (started : List Msg)
    (reason : ClientStop)
    (client : Client) :
    Prop :=
  justified started client.dispatched = true →
    LeavesFinished image cycles started reason client

theorem dispatch_justly
    (msg : Msg) :
    Keeps (Justly image cycles started) (LeavesJustly image cycles started)
      (dispatch msg) := by
  intro client justly
  have related := (dispatch_handles msg client).related
  by_cases just : justified started (client.dispatched ++ [msg]) = true
  · obtain ⟨before, course, next, told, advance, _, stopped⟩ :=
      justified_concat just
    obtain ⟨sent, course', extends_, booting, inOrder⟩ := justly before
    cases booting.told.symm.trans told
    refine (dispatch_advances booting inOrder advance
      (Nat.le_trans stopped (framesOf_mono _ extends_))).mono ?_ ?_
    · rintro final ⟨booting, inOrder⟩ _
      exact ⟨sent, next, extends_, booting, inOrder⟩
    · exact fun reason final aborts _ leaves => absurd leaves aborts
  · have unjust :
        ∀ final : Client,
          final.dispatched = client.dispatched ++ [msg] →
          ¬ justified started final.dispatched = true := by
      intro final handled
      rw [handled]
      exact just
    unfold KeepsAt
    cases outcome : dispatch msg client with
    | ok value final =>
        rw [outcome] at related
        obtain ⟨_, handled, _⟩ := related
        exact fun justFinal => absurd justFinal (unjust final handled)
    | error reason final =>
        rw [outcome] at related
        obtain ⟨_, handled, _⟩ := related
        exact fun justFinal => absurd justFinal (unjust final handled)

theorem handleMessage_justly
    {loop : ClientLoop}
    (onCourse : OnCourse image cycles started loop.state) :
    KeepsAt (fun loop => Justly image cycles started loop.state)
      (fun reason loop =>
        LeavesJustly image cycles started reason loop.state)
      handleMessage loop := by
  obtain ⟨sent, course, extends_, booting, inOrder⟩ := onCourse
  obtain ⟨stays, result⟩ :=
    circFillLoop_connected booting.connected loop.recvBuf
  unfold handleMessage receive
  refine .read ?_
  simp only [id, sshStdoutOf]
  refine .update ?_
  have arrived :
      OnCourse image cycles started
        { loop.state with
          sshStdout :=
            (circFill loop.state.sshStdout loop.recvBuf).2.2 } :=
    ⟨sent, course, extends_,
      { told := booting.told
        writable := booting.writable
        file := booting.file
        onlyOnce := booting.onlyOnce
        uploading := booting.uploading
        plain := booting.plain
        connected := stays
        stdin := booting.stdin
        fits := booting.fits
        uploads := booting.uploads
        untouched := booting.untouched
        accepted := booting.accepted
        logged := booting.logged
        single := fun none => { booting.single none with } },
      inOrder.aside (.unlogged rfl rfl rfl rfl)⟩
  have loops :=
    receiveLoop_keeps dispatch_justly
      (circAvail (circFill loop.state.sshStdout loop.recvBuf).2.1 + 1)
      { state :=
          { loop.state with
            sshStdout :=
              (circFill loop.state.sshStdout loop.recvBuf).2.2 }
        recvBuf := (circFill loop.state.sshStdout loop.recvBuf).2.1 }
      (fun _ => arrived)
  have status :
      (circFill loop.state.sshStdout loop.recvBuf).1 = .done ∨
        (circFill loop.state.sshStdout loop.recvBuf).1 =
          .failed .eagain :=
    result
  rcases status with done | waits
  · rw [done]
    exact loops
  · rw [waits]
    exact loops

/-! ## Iterations -/

/-- Programs that dispatch nothing keep their client on its course, if it is. -/
theorem justly_of_onCourse
    {program : ClientM α}
    (listening : Listening program)
    (keeps :
      Keeps (OnCourse image cycles started) (fun reason _ => Aborts reason)
        program) :
    Keeps (Justly image cycles started) (LeavesJustly image cycles started)
      program := by
  intro client justly
  have related := (listening client).related
  by_cases just : justified started client.dispatched = true
  · exact (keeps client (justly just)).mono (fun _ onCourse _ => onCourse)
      (fun _ _ aborts _ leaves => absurd leaves aborts)
  · have still :
        ∀ final : Client,
          stdoutJournal.Handles [] client final →
          ¬justified started final.dispatched = true := by
      rintro final ⟨_, handled, _⟩
      rw [show final.dispatched = client.dispatched ++ [] from handled,
        List.append_nil]
      exact just
    unfold KeepsAt
    cases outcome : program client with
    | ok value final =>
        rw [outcome] at related
        exact fun justFinal => absurd justFinal (still final related)
    | error reason final =>
        rw [outcome] at related
        exact fun justFinal => absurd justFinal (still final related)

/-- `select()` reports what is ready, except a terminal that is none. -/
theorem waitReady_reports
    {ready reported : Ready}
    (result : waitReady ready client = .ok reported final) :
    reported.stderr = ready.stderr ∧
      (reported.tty = ready.tty ∨ reported.tty = none) := by
  obtain ⟨_, _, _, result⟩ := bind_eq_ok result
  obtain ⟨timeout, waiting, _, result⟩ := bind_eq_ok result
  obtain ⟨_, asked, _, result⟩ := bind_eq_ok result
  obtain ⟨_, _, readResult, result⟩ := bind_eq_ok result
  cases readResult
  have reports : reported = asked.interest ready := by
    cases timeout with
    | none =>
        simp only at result
        split at result
        · cases result
        · cases result
          rfl
    | some tv =>
        simp only at result
        split at result
        · cases result
        · split at result
          · obtain ⟨_, _, _, result⟩ := bind_eq_ok result
            cases result
            rfl
          · cases result
            rfl
  rw [reports]
  refine ⟨rfl, ?_⟩
  unfold interest
  dsimp only
  split
  · exact .inl rfl
  · exact .inr rfl

/-- The start of an iteration in which no deadline has been reached. -/
theorem waitReady_onCourse
    (onCourse : OnCourse image cycles started client)
    (inTime : client.reachedTimeout = false)
    (ready : Ready) :
    KeepsAt (OnCourse image cycles started)
      (LeavesFinished image cycles started) (waitReady ready) client :=
  (powerCycle_onCourse onCourse inTime).bind fun _ middle _ onCourse =>
    finishes_of_onCourse
      (Keeps.bind (onCourse_of_steadying selectTimeout_steady)
        fun _ => onCourse_of_steadying (select_steady _ _))
      middle onCourse

theorem ttyCallback_onCourse
    {buf : Option (List UInt8)}
    (plain : ∀ char, char ∈ buf.getD [] → char ≠ 0x01)
    (onCourse : OnCourse image cycles started client) :
    KeepsAt (OnCourse image cycles started)
      (fun reason _ => Aborts reason) (ttyCallback buf) client :=
  KeepsAt.each
    (fun before char after middle shape _ onCourse =>
      ttyChar_onCourse (plain char (by rw [shape]; simp)) middle onCourse)
    onCourse

/-- The messages and the work of an iteration. -/
theorem serve_justly
    {loop : ClientLoop}
    (onCourse : OnCourse image cycles started loop.state)
    (ready : Ready) :
    KeepsAt (fun loop => Justly image cycles started loop.state)
      (fun reason loop =>
        LeavesJustly image cycles started reason loop.state)
      (serve ready) loop := by
  have within :
      ∀ {program : ClientM Unit},
        Keeps (Justly image cycles started)
            (LeavesJustly image cycles started) program →
          Keeps
            (fun loop : ClientLoop => Justly image cycles started loop.state)
            (fun reason loop =>
              LeavesJustly image cycles started reason loop.state)
            (within Receiver.stateOf program) :=
    fun keeps loop justly =>
      KeepsAt.within Receiver.stateOf (keeps loop.state justly)
  have rearms := within
    (justly_of_onCourse armInactivity_listening
      (onCourse_of_steadying armInactivity_steady))
  have passes := within
    (justly_of_onCourse (listening_of_serving workPass_serves)
      workPass_onCourse)
  have receives :
      KeepsAt (fun loop => Justly image cycles started loop.state)
        (fun reason loop =>
          LeavesJustly image cycles started reason loop.state)
        (onlyIf ready.stdout do
          handleMessage
          let sec ← read fun loop : ClientLoop =>
            loop.state.options.timeoutInactivity
          onlyIf (sec ≠ 0) (Program.within Receiver.stateOf armInactivity))
        loop := by
    unfold onlyIf
    split
    · exact (handleMessage_justly onCourse).bind fun _ middle _ justly =>
        Keeps.bind (.read _) (fun _ => .onlyIf rearms) middle justly
    · exact fun _ => onCourse
  exact receives.bind fun _ middle _ justly =>
    Keeps.onlyIf passes middle justly

/-- One iteration, from a state in which no deadline has been reached. -/
theorem iteration_justly
    {loop : ClientLoop}
    (onCourse : OnCourse image cycles started loop.state)
    (inTime : loop.state.reachedTimeout = false)
    {ready : Ready}
    (calm : Ready.calm ready = true) :
    KeepsAt (fun loop => Justly image cycles started loop.state)
      (fun reason loop =>
        LeavesJustly image cycles started reason loop.state)
      (iteration ready) loop := by
  simp only [Ready.calm, Bool.and_eq_true, List.all_eq_true,
    decide_eq_true_eq] at calm
  obtain ⟨⟨plain, noEof⟩, noFailure⟩ := calm
  have waits :=
    (KeepsAt.within Receiver.stateOf
      (waitReady_onCourse onCourse inTime ready)).mono (fun _ => id)
      (fun reason final leaves
        (_ : justified started final.state.dispatched = true) => leaves)
  refine KeepsAt.seq waits ?_
  intro reported middle result onCourse
  obtain ⟨waited, _⟩ := within_eq_ok result
  obtain ⟨sameStderr, tty⟩ := waitReady_reports waited
  have types :
      KeepsAt (fun loop => OnCourse image cycles started loop.state)
        (fun reason loop =>
          LeavesJustly image cycles started reason loop.state)
        (onlyIf reported.tty.isSome
          (within Receiver.stateOf (ttyCallback reported.tty.join)))
        middle := by
    unfold onlyIf
    split
    · refine (KeepsAt.within Receiver.stateOf
        (ttyCallback_onCourse ?_ onCourse)).mono (fun _ => id)
        (fun _ _ aborts _ leaves => absurd leaves aborts)
      rcases tty with same | none
      · rw [same]
        exact plain
      · rw [none]
        exact nofun
    · exact onCourse
  refine KeepsAt.seq types ?_
  intro _ typed _ onCourse
  rw [sameStderr]
  split
  · rename_i eof
    exact absurd eof noEof
  · exact fun _ => onCourse
  · rename_i failure
    exact absurd failure noFailure
  · exact serve_justly onCourse reported
  · exact serve_justly onCourse reported

/-! ## Whole runs -/

/-- With one boot, all tildes have been told when the board has printed any. -/
theorem Booting.finished
    (booting : Booting image cycles sent course client)
    (none : cycles = 0)
    (told :
      (Course.after? client.dispatched).map Course.runs =
        some (cycles + 1)) :
    course.stage = .finished := by
  rw [booting.told, none] at told
  simp only [Option.map_some, Course.runs, (booting.single none).first,
    Option.some.injEq] at told
  split at told
  · assumption
  · omega

/-- Without power cycles the first run of tildes ends the loop. -/
theorem iteration_finished
    {loop : ClientLoop}
    (booting : Booting image cycles sent course loop.state)
    (none : cycles = 0)
    (finished : course.stage = .finished)
    (ready : Ready) :
    iteration ready loop = .error .leaveLoop loop := by
  have single := booting.single none
  have received : loop.state.receivedPowerOff = true := by
    rw [single.received, finished]
    rfl
  have leaves :
      powerCycle loop.state = .error .leaveLoop loop.state := by
    unfold powerCycle
    rw [bind_of_ok (read_apply _ _)]
    simp only [id, received, single.cycles, Bool.true_or, ↓reduceIte,
      Int.le_refl]
    rfl
  have waits :
      within Receiver.stateOf (waitReady ready) loop =
        .error .leaveLoop loop := by
    have stops := bind_of_error leaves
      (fun _ => (do
        let timeout ← selectTimeout
        select timeout ready))
    unfold within
    rw [show waitReady ready (Receiver.stateOf.get loop) =
      .error .leaveLoop loop.state from stops]
    rfl
  exact bind_of_error waits _

/-- How a run ends, and with one boot that it ends after its tildes. -/
structure RunsToEnd
    (image : List UInt8)
    (cycles : Nat)
    (far : Bool)
    (result : EStateM.Result ClientStop ClientLoop Unit) :
    Prop where
  ends :
    leftLoop result = true →
      ∃ sent course,
        Booting image cycles sent course (finalState result).state ∧
          InOrder cycles (finalState result).state ∧
          (cycles = 0 →
            course.stage = .finished ∧
              justified sent (finalState result).state.dispatched = true ∧
              (finalState result).state.reachedTimeout = false)
  leaves : cycles = 0 → far = true → leftLoop result = true

theorem mainLoop_runsToEnd
    {iterations : List Ready}
    {loop : ClientLoop}
    (onCourse : OnCourse image cycles [] loop.state)
    (inTime : loop.state.reachedTimeout = false)
    (calm : undisturbed iterations loop = true) :
    RunsToEnd image cycles (ranFar cycles iterations loop)
      (mainLoop iterations loop) := by
  induction iterations generalizing loop with
  | nil =>
      obtain ⟨sent, course, _, booting, inOrder⟩ := onCourse
      refine
        ⟨fun quits => ⟨sent, course, booting, inOrder, fun none => ?_⟩,
          fun _ quits => quits⟩
      have goesOn := (booting.single none).goesOn
      exact absurd (quits.symm.trans goesOn) (by decide)
  | cons ready rest inductionHypothesis =>
      obtain ⟨sent, course, _, booting, inOrder⟩ := onCourse
      rw [mainLoop, bind_of_ok (read_apply _ _)]
      cases quits : loop.state.quit with
      | true =>
          refine
            ⟨fun _ => ⟨sent, course, booting, inOrder, fun none => ?_⟩,
              fun _ _ => quits⟩
          have goesOn := (booting.single none).goesOn
          exact absurd (quits.symm.trans goesOn) (by decide)
      | false =>
          rw [undisturbed, quits, Bool.false_or, booting.stdin,
            FrameFormat.parse_encodeAll] at calm
          simp only [Bool.and_eq_true, Bool.not_eq_eq_eq_not,
            Bool.not_true] at calm
          obtain ⟨⟨⟨calmReady, just⟩, stillInTime⟩, calmRest⟩ := calm
          have kept := iteration_justly
            ⟨sent, course, List.prefix_refl _, booting, inOrder⟩ inTime
            calmReady
          unfold KeepsAt at kept
          simp only [Bool.false_eq_true, ↓reduceIte]
          cases outcome : iteration ready loop with
          | ok value next =>
              rw [outcome] at kept just stillInTime calmRest
              obtain ⟨sent', course', _, booting', inOrder'⟩ := kept just
              have later := inductionHypothesis
                ⟨sent', course', List.nil_prefix, booting', inOrder'⟩
                stillInTime calmRest
              rw [bind_of_ok outcome]
              refine ⟨later.ends, fun none far => later.leaves none ?_⟩
              rw [ranFar, quits, outcome, Bool.false_or,
                Bool.or_eq_true] at far
              rcases far with told | far
              · -- With all tildes told, this iteration leaves the loop.
                rw [iteration_finished booting none
                  (booting.finished none (of_decide_eq_true told))]
                  at outcome
                contradiction
              · exact far
          | error reason next =>
              rw [outcome] at kept just stillInTime
              rw [bind_of_error outcome]
              refine ⟨fun leaves => ?_, fun none far => ?_⟩
              · obtain ⟨sent', course', extends_, booting', inOrder',
                  finished⟩ := kept just (of_decide_eq_true leaves)
                exact ⟨sent', course', booting', inOrder', fun none =>
                  ⟨finished none, justified_mono extends_ just,
                    stillInTime⟩⟩
              · rw [ranFar, quits, outcome, Bool.false_or,
                  Bool.or_eq_true] at far
                rcases far with told | far
                · rw [iteration_finished booting none
                    (booting.finished none (of_decide_eq_true told))]
                    at outcome
                  cases outcome
                  rfl
                · exact far

/-! ## Setting up -/

/-- The client before it has requested anything. -/
theorem initial_onCourse
    {options : ClientOptions}
    {writes : List WriteOutcome}
    {sshStdout : Input}
    (file : options.fastbootFile = some image)
    (onlyOnce : options.fastbootRepeat = false)
    (writable : ∀ outcome, outcome ∈ writes → outcome = .done)
    (connected : sshStdout.Connected)
    (clock : Clock)
    (beyond : UInt8) :
    OnCourse image cycles []
      { initial options cycles writes sshStdout clock beyond with
        fastbootContinue := false } := by
  have idle : NoUpload [] := by
    intro index data offset size
    simp
  refine ⟨[], .initial, List.prefix_refl _, ?_, fun _ =>
    ⟨[], initial_queued options cycles writes sshStdout clock beyond
      false⟩⟩
  exact
    { told := rfl
      writable := writable
      file := file
      onlyOnce := onlyOnce
      uploading := rfl
      plain := rfl
      connected := connected
      stdin := rfl
      fits := nofun
      uploads := .waiting idle
      untouched := fun _ => ⟨rfl, idle⟩
      accepted := rfl
      logged := fun _ _ => rfl
      single := fun none =>
        { cycles := by
            rw [none]
            rfl
          goesOn := rfl
          manual := rfl
          first := rfl
          counted := rfl
          received := rfl
          requested := rfl
          neverOff := rfl } }

/-- Work other than an upload is requested. -/
theorem requestWork_onCourse
    {work : Work}
    (fits : WorkFits work)
    (other :
      ∀ data offset size, work ≠ .fastbootDownload data offset size) :
    Keeps (OnCourse image cycles started) (fun reason _ => Aborts reason)
      (requestWork work) := by
  rintro client ⟨sent, course, extends_, booting, inOrder⟩
  refine .of_ok rfl ⟨sent, course, extends_, ?_, fun none => ?_⟩
  · refine booting.moves booting.told rfl ?_
      (booting.uploads.allocate other) ?_ booting.accepted
      (fun type => by simp) fun none => ?_
    · intro queued member
      rcases List.mem_append.mp member with old | new
      · exact booting.fits queued old
      · cases List.mem_singleton.mp new
        exact fits
    · exact fun unseen => ⟨(booting.untouched unseen).1,
        (booting.untouched unseen).2.allocate other⟩
    · exact (booting.single none).relogged rfl
        (List.count_append ..) (List.count_append ..)
  · obtain ⟨items, queued⟩ := inOrder none
    exact ⟨_, queued.allocate work⟩

/-- After `main` has set up the client, its selection is queued. -/
theorem setUp_onCourse
    {options : ClientOptions}
    {writes : List WriteOutcome}
    {sshStdout : Input}
    {board : CString}
    (file : options.fastbootFile = some image)
    (onlyOnce : options.fastbootRepeat = false)
    (writable : ∀ outcome, outcome ∈ writes → outcome = .done)
    (connected : sshStdout.Connected)
    (fits : BoardFits board)
    (clock : Clock)
    (beyond : UInt8)
    (statusPipe : Bool) :
    KeepsAt (OnCourse image cycles []) (fun reason _ => Aborts reason)
      (setUp (.boot board) statusPipe)
      (initial options cycles writes sshStdout clock beyond) := by
  have begins : OnCourse image cycles [] _ :=
    initial_onCourse file onlyOnce writable connected clock beyond
  have opens :
      Keeps (OnCourse image cycles []) (fun reason _ => Aborts reason)
        statusPipeOpen := by
    refine Keeps.bind ?_ fun _ => requestWork_onCourse trivial (by simp)
    rintro client ⟨sent, course, extends_, booting, inOrder⟩
    refine .of_ok (update_apply _ _)
      ⟨sent, course, extends_,
        booting.tells booting.told rfl rfl rfl rfl rfl rfl fun none => ?_,
        inOrder.aside (.unlogged rfl rfl rfl rfl)⟩
    exact { booting.single none with }
  have deadlines :
      Keeps (OnCourse image cycles []) (fun reason _ => Aborts reason)
        setDeadlines :=
    Keeps.bind (.read _) fun _ =>
      Keeps.bind
        (onCourse_of_steadying (.bind gettimeofday_steady fun _ => .pure _))
        fun _ =>
          Keeps.bind
            (onCourse_of_steadying
              (.update fun client => .unlogged client _ _ _ _))
            fun _ => onCourse_of_steadying armInactivity_steady
  refine .update ?_
  have selects :
      Keeps (OnCourse image cycles []) (fun reason _ => Aborts reason)
        (requestSelectBoard board) :=
    requestWork_onCourse fits (by simp)
  refine Keeps.bind selects
    (fun _ => Keeps.bind (.onlyIf opens) fun _ => deadlines) _ ?_
  rw [show (initial options cycles writes sshStdout clock
    beyond).options.fastbootFile = some image from file]
  exact begins

/-! ## How often the image is sent -/

/-- A run of the client with `-c` and an image. -/
def bootRun
    (options : ClientOptions)
    (cycles : Nat)
    (writes : List WriteOutcome)
    (sshStdout : Input)
    (clock : Clock)
    (beyond : UInt8)
    (board : CString)
    (statusPipe : Bool)
    (iterations : List Ready) :
    EStateM.Result ClientStop ClientLoop Unit :=
  run (.boot board) statusPipe iterations
    (start options cycles writes sshStdout clock beyond)

/-- The client in front of its main loop. -/
def bootLoop
    (options : ClientOptions)
    (cycles : Nat)
    (writes : List WriteOutcome)
    (sshStdout : Input)
    (clock : Clock)
    (beyond : UInt8)
    (board : CString)
    (statusPipe : Bool) :
    ClientLoop :=
  finalState
    (within Receiver.stateOf (setUp (.boot board) statusPipe)
      (start options cycles writes sshStdout clock beyond))

/-- One upload is not several. -/
theorem Uploads.count
    {count : Nat}
    {frames : List Msg}
    (uploads : Uploads image count frames) :
    uploadsOf frames = count := by
  induction uploads with
  | nil =>
      rfl
  | @cons count chunks rest carries later inductionHypothesis =>
      have last : uploadsOf [emptyFrame] = 1 := by decide
      rw [← List.singleton_append, uploadsOf_append, uploadsOf_append,
        carries.uploadsOf, last, inductionHypothesis]
      omega

/-- The only boot of a client whose tildes have been told. -/
theorem Booting.restarts
    {result : EStateM.Result ClientStop ClientLoop Unit}
    (booting : Booting image cycles sent course (finalState result).state)
    (inOrder : InOrder cycles (finalState result).state)
    (none : cycles = 0)
    (finished : course.stage = .finished)
    (just :
      justified sent (finalState result).state.dispatched = true)
    (inTime : (finalState result).state.reachedTimeout = false)
    (left : leftLoop result = true) :
    Restarts image cycles result := by
  have single := booting.single none
  obtain ⟨items, queued⟩ := inOrder none
  have balanced := queued.balanced (.powerOn, .powerOn) (by decide)
  have logged := booting.logged (.powerOn, .powerOn) (by decide)
  have requested := single.requested
  rw [finished, if_neg (by decide)] at requested
  dsimp only at balanced logged
  unfold justified at just
  rw [booting.told] at just
  simp only [Bool.and_eq_true, decide_eq_true_eq, Course.presents,
    Course.acceptances, finished, single.first] at just
  obtain ⟨⟨⟨_, powered⟩, uploaded⟩, _⟩ := just
  have once : framesOf .powerOn sent = 1 := by omega
  have stdin :
      wire.parse (finalState result).state.sshStdin = sent := by
    rw [booting.stdin, FrameFormat.parse_encodeAll]
  exact
    { left := left
      status := by
        have received : (finalState result).state.receivedPowerOff = true := by
          rw [single.received, finished]
          rfl
        simp only [exitStatus, inTime, received, Bool.or_true,
          Bool.false_eq_true, ↓reduceIte]
      told := by
        rw [booting.told, none]
        simp [Course.runs, finished, single.first]
      uploads := by
        rw [stdin, none]
        exact booting.uploads.uploads (by
          rw [uploadsOf_downloads]
          exact uploaded)
      power := by
        rw [stdin, none,
          powerRequests_eq (booting.neverOff inOrder none), once]
        rfl }

end Steps

/--
In every run that comes to its end, against a server and a board that answer
every request in its turn: the client restarts the board as often as `-c` says,
if and only if that is not at all.
-/
theorem restarts_iff
    {options : ClientOptions}
    {cycles : Nat}
    {writes : List WriteOutcome}
    {sshStdout : Input}
    {clock : Clock}
    {beyond : UInt8}
    {board : CString}
    {statusPipe : Bool}
    {iterations : List Ready}
    {image : List UInt8}
    (file : options.fastbootFile = some image)
    (onlyOnce : options.fastbootRepeat = false)
    (fits : BoardFits board)
    (writable : ∀ outcome, outcome ∈ writes → outcome = .done)
    (connected : sshStdout.Connected)
    (calm :
      undisturbed iterations
        (bootLoop options cycles writes sshStdout clock beyond board
          statusPipe) = true)
    (far :
      ranFar cycles iterations
        (bootLoop options cycles writes sshStdout clock beyond board
          statusPipe) = true) :
    Restarts image cycles
        (bootRun options cycles writes sshStdout clock beyond board
          statusPipe iterations) ↔
      cycles = 0 := by
  let started := start options cycles writes sshStdout clock beyond
  obtain ⟨client, setsUp, inTime⟩ :
      ∃ client,
        setUp (.boot board) statusPipe started.state = .ok () client ∧
          client.reachedTimeout = false := by
    cases statusPipe
    · exact ⟨_, rfl, rfl⟩
    · exact ⟨_, rfl, rfl⟩
  have begins :
      KeepsAt (OnCourse image cycles []) (fun reason _ => Aborts reason)
        (setUp (.boot board) statusPipe) started.state :=
    setUp_onCourse file onlyOnce writable connected fits clock beyond
      statusPipe
  have entered :
      within Receiver.stateOf (setUp (.boot board) statusPipe) started =
        .ok () { started with state := client } := by
    unfold within
    rw [show setUp (.boot board) statusPipe (Receiver.stateOf.get started) =
      .ok () client from setsUp]
    rfl
  have loop :
      bootLoop options cycles writes sshStdout clock beyond board
          statusPipe = { started with state := client } := by
    unfold bootLoop
    rw [entered]
    rfl
  have result :
      bootRun options cycles writes sshStdout clock beyond board statusPipe
          iterations =
        mainLoop iterations { started with state := client } :=
    bind_of_ok entered _
  rw [KeepsAt, setsUp] at begins
  rw [loop] at calm far
  rw [result]
  have runs := mainLoop_runsToEnd begins inTime calm
  constructor
  · intro restarts
    obtain ⟨sent, course, booting, _⟩ := runs.ends restarts.left
    have count := restarts.uploads.count
    rw [booting.stdin, FrameFormat.parse_encodeAll] at count
    have atMost := booting.uploads.uploadsOf_le
    omega
  · intro none
    have left := runs.leaves none far
    obtain ⟨sent, course, booting, inOrder, ends⟩ := runs.ends left
    obtain ⟨finished, just, inTime⟩ := ends none
    exact booting.restarts inOrder none finished just inTime left

/-! ## A board that boots -/

/-- A message of the server. -/
def told (type : MsgType) (data : List UInt8) : Msg :=
  if fits : data.length < 2 ^ 16 then
    Msg.ofData type.code data fits
  else
    emptyFrame

/-- One boot up to its tildes, and the beginning of the next one. -/
def conversation : List Msg :=
  [told .selectBoard [], told .powerOn [], told .fastbootPresent [1],
    told .fastbootDownload [], told .fastbootPresent [0],
    told .console (List.replicate 20 0x7e), told .powerOff [],
    told .powerOn [], told .fastbootPresent [1]]

/-- The conversation, cut into the wakeups in which it is read. -/
def conversationInput : Input where
  fd := ⟨wire.encodeAll conversation, false⟩
  script :=
    [.deliver 2, .wouldBlock, .deliver 6, .wouldBlock, .deliver 6,
      .wouldBlock, .deliver 22, .wouldBlock, .deliver 2, .wouldBlock,
      .deliver 6, .wouldBlock]

/-- The server has sent something. -/
def messagesArrive : Ready :=
  ⟨none, none, true, false⟩

/-- The pipe to the server takes what is queued. -/
def pipeReady : Ready :=
  ⟨none, none, false, true⟩

/-- The wakeups of a client that sends what it can before it reads on. -/
def bootWakeups : List Ready :=
  [pipeReady, messagesArrive, pipeReady, messagesArrive, pipeReady,
    pipeReady, messagesArrive, messagesArrive, pipeReady, messagesArrive,
    pipeReady, messagesArrive]

/-- A one-byte image and the timeout that is the default. -/
def bootOptions : ClientOptions where
  timeoutTotal := 600
  timeoutInactivity := 0
  powerCycleOnTimeout := true
  fastbootRepeat := false
  fastbootFile := some [0x7f]
  tty := false
  statusFull := []

/-- That run with `-c` and a number. -/
def exampleRun (cycles : Nat) : EStateM.Result ClientStop ClientLoop Unit :=
  bootRun bootOptions cycles [] conversationInput ⟨0, []⟩ 0
    (ascii "db410c") false bootWakeups

/-- The client of that run in front of its main loop. -/
def exampleLoop (cycles : Nat) : ClientLoop :=
  bootLoop bootOptions cycles [] conversationInput ⟨0, []⟩ 0
    (ascii "db410c") false

/-- Without power cycles the board is booted once. -/
theorem exampleRun_restarts :
    Restarts [0x7f] 0 (exampleRun 0) :=
  (restarts_iff rfl rfl
    (show BoardFits (ascii "db410c") by unfold BoardFits; decide)
    (by simp) ⟨rfl, by decide⟩
    (show undisturbed bootWakeups (exampleLoop 0) = true by decide +kernel)
    (show ranFar 0 bootWakeups (exampleLoop 0) = true by
      decide +kernel)).mpr rfl

/--
With `-c 1` the client turns the power off and on, and leaves the loop when
fastboot shows up again: the image was sent once, and the board told of one run
of tildes.
-/
theorem exampleRun_sendsOnce :
    undisturbed bootWakeups (exampleLoop 1) = true ∧
      ranFar 1 bootWakeups (exampleLoop 1) = true ∧
      leftLoop (exampleRun 1) = true ∧
      (Course.after? (finalState (exampleRun 1)).state.dispatched).map
          Course.runs =
        some 1 ∧
      uploadsOf (wire.parse (finalState (exampleRun 1)).state.sshStdin) =
        1 ∧
      ¬Restarts [0x7f] 1 (exampleRun 1) := by
  have told :
      (Course.after? (finalState (exampleRun 1)).state.dispatched).map
          Course.runs =
        some 1 := by
    decide +kernel
  refine ⟨by decide +kernel, by decide +kernel, by decide +kernel, told,
    by decide +kernel, fun restarts => ?_⟩
  have twice := restarts.told
  rw [told] at twice
  exact absurd (Option.some.inj twice) (by decide)

end Client

end Cdba
