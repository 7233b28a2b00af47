import Cdba.Boot

namespace Cdba

/-!
# A client that boots an image

The invariant of a client with one image, and what keeps it: waiting, power
cycles, the terminal, and passes over the work queue.
-/

open Program

namespace Client

/-! ## The invariant -/

/-- Without power cycles: the flags and the queue of a client in its only boot. -/
structure SingleBoot (course : Course) (client : Client) : Prop where
  cycles : client.powerCycles = 0
  goesOn : client.quit = false
  manual : client.autoPowerOn = false
  first : course.restarts = 0
  counted :
    client.powerOffChars =
      if course.tildes = 20 then 0 else course.tildes
  received :
    client.receivedPowerOff = decide (course.stage = .finished)
  requested :
    client.log.count (.request .powerOn) =
      if course.stage = .connecting then 0 else 1
  neverOff : client.log.count (.request .powerOff) = 0

/--
A client with one image, what it has sent, and what it has been told.  It sends
the image at most once, because it never forgets that one was accepted.
-/
structure Booting
    (image : List UInt8)
    (cycles : Nat)
    (sent : List Msg)
    (course : Course)
    (client : Client) :
    Prop where
  told : Course.after? client.dispatched = some course
  writable : ∀ outcome, outcome ∈ client.writes → outcome = .done
  file : client.options.fastbootFile = some image
  onlyOnce : client.options.fastbootRepeat = false
  uploading : client.fastbootContinue = false
  plain : client.special = false
  connected : client.sshStdout.Connected
  stdin : client.sshStdin = wire.encodeAll sent
  fits : ∀ work, some work ∈ client.works → WorkFits work
  uploads : SentOnce image (downloads sent) client.works
  untouched :
    course.presents = 0 → downloads sent = [] ∧ NoUpload client.works
  accepted : client.fastbootDone = decide (0 < course.acceptances)
  logged :
    ∀ pair, pair ∈ powerFrames →
      client.log.count (.frame pair.2) = framesOf pair.2 sent
  single : cycles = 0 → SingleBoot course client

/-- The parts of the client, other than its log, that say how its boot goes. -/
def bootFlags (client : Client) :=
  (client.powerCycles, client.quit, client.autoPowerOn, client.powerOffChars,
    client.receivedPowerOff)

/-- Without power cycles the queue is in order. -/
def InOrder (cycles : Nat) (client : Client) : Prop :=
  cycles = 0 → ∃ items, Queued items client

/-- Clocks, deadlines and the log change, but not by requests or frames. -/
def Steady (first last : Client) : Prop :=
  ∃ clock inactivity total reached events,
    last =
        { first with
          clock := clock
          timeoutInactivityTv := inactivity
          timeoutTotalTv := total
          reachedTimeout := reached
          log := first.log ++ events } ∧
      ∀ event, event ∈ events → ClientEvent.Outside event

instance Steady.composes : Composes Steady where
  refl := fun client =>
    ⟨client.clock, client.timeoutInactivityTv, client.timeoutTotalTv,
      client.reachedTimeout, [], by rw [List.append_nil], by simp⟩
  trans := by
    rintro first middle last
      ⟨clock, inactivity, total, reached, events, rfl, outside⟩
      ⟨clock', inactivity', total', reached', events', rfl, outside'⟩
    refine ⟨clock', inactivity', total', reached', events ++ events', ?_,
      ?_⟩
    · rw [List.append_assoc]
    · intro event member
      exact (List.mem_append.mp member).elim (outside event)
        (outside' event)

theorem Steady.aside
    {first last : Client}
    (steady : Steady first last) :
    Aside first last := by
  obtain ⟨_, _, _, _, events, rfl, outside⟩ := steady
  exact ⟨rfl, rfl, rfl, events, rfl, outside⟩

/-- Events that concern no node leave the account of power requests alone. -/
theorem count_outside
    (log : List ClientEvent)
    {events : List ClientEvent}
    (outside : ∀ event, event ∈ events → ClientEvent.Outside event)
    (type : MsgType)
    (node : WorkNode) :
    (log ++ events).count (.frame type) = log.count (.frame type) ∧
      (log ++ events).count (.request node) =
        log.count (.request node) := by
  have noFrame : events.count (.frame type) = 0 :=
    List.count_eq_zero.mpr fun member => outside _ member
  have noRequest : events.count (.request node) = 0 :=
    List.count_eq_zero.mpr fun member => outside _ member
  rw [List.count_append, List.count_append, noFrame, noRequest]
  exact ⟨rfl, rfl⟩

section Invariant

variable {image : List UInt8} {cycles : Nat} {sent : List Msg}
variable {course : Course} {client final : Client}

theorem InOrder.aside
    (inOrder : InOrder cycles client)
    (aside : Aside client final) :
    InOrder cycles final := by
  intro none
  obtain ⟨items, queued⟩ := inOrder none
  exact ⟨items, queued.aside aside⟩

/-- The only boot goes on while no further power request is logged. -/
theorem SingleBoot.relogged
    (single : SingleBoot course client)
    (flags : final.bootFlags = client.bootFlags)
    (requested :
      final.log.count (.request .powerOn) =
        client.log.count (.request .powerOn))
    (neverOff :
      final.log.count (.request .powerOff) =
        client.log.count (.request .powerOff)) :
    SingleBoot course final := by
  simp only [bootFlags, Prod.mk.injEq] at flags
  obtain ⟨cycles, goesOn, manual, counted, received⟩ := flags
  exact
    { cycles := cycles.trans single.cycles
      goesOn := goesOn.trans single.goesOn
      manual := manual.trans single.manual
      first := single.first
      counted := counted.trans single.counted
      received := received.trans single.received
      requested := requested.trans single.requested
      neverOff := neverOff.trans single.neverOff }

theorem SingleBoot.steady
    (single : SingleBoot course client)
    (steady : Steady client final) :
    SingleBoot course final := by
  obtain ⟨_, _, _, _, events, rfl, outside⟩ := steady
  have counts := fun node =>
    (count_outside client.log outside .powerOn node).2
  exact single.relogged rfl (counts _) (counts _)

theorem Booting.steady
    (booting : Booting image cycles sent course client)
    (steady : Steady client final) :
    Booting image cycles sent course final := by
  have single := fun none => (booting.single none).steady steady
  obtain ⟨_, _, _, _, events, rfl, outside⟩ := steady
  exact
    { told := booting.told
      writable := booting.writable
      file := booting.file
      onlyOnce := booting.onlyOnce
      uploading := booting.uploading
      plain := booting.plain
      connected := booting.connected
      stdin := booting.stdin
      fits := booting.fits
      uploads := booting.uploads
      untouched := booting.untouched
      accepted := booting.accepted
      logged := fun pair power =>
        (count_outside client.log outside pair.2 pair.1).1.trans
          (booting.logged pair power)
      single := single }

end Invariant

/-! ## Waiting -/

/-- The ways to stop that do not leave the main loop. -/
abbrev Aborts (reason : ClientStop) : Prop :=
  reason ≠ .leaveLoop

theorem Steady.unlogged
    (client : Client)
    (clock : Clock)
    (inactivity total : Timeval)
    (reached : Bool) :
    Steady client
      { client with
        clock := clock
        timeoutInactivityTv := inactivity
        timeoutTotalTv := total
        reachedTimeout := reached } :=
  ⟨_, _, _, _, [], by rw [List.append_nil], by simp⟩

/-- Programs that only change clocks, deadlines and the log. -/
abbrev Steadying (program : ClientM α) : Prop :=
  Relates Steady Aborts program

theorem gettimeofday_steady :
    Steadying gettimeofday :=
  .bind
    (.update fun client => .unlogged client _ _ _ _)
    fun _ => .read _

theorem armInactivity_steady :
    Steadying armInactivity :=
  .bind (.read _) fun _ =>
    .bind (.bind gettimeofday_steady fun _ => .pure _) fun _ =>
      .update fun client => .unlogged client _ _ _ _

theorem record_steady
    {event : ClientEvent}
    (outside : ClientEvent.Outside event) :
    Steadying (record event) :=
  .update fun _ =>
    ⟨_, _, _, _, [event], rfl, by simpa using outside⟩

theorem selectTimeout_steady :
    Steadying selectTimeout :=
  .bind (.read _) fun _ =>
    .ite (.bind gettimeofday_steady fun _ => .pure _) (.pure _)

theorem select_steady
    (timeout : Option Timeval)
    (ready : Ready) :
    Steadying (select timeout ready) := by
  refine .bind (record_steady trivial) fun _ => .bind (.read _) fun _ => ?_
  cases timeout with
  | none => exact .ite (.stop nofun) (.pure _)
  | some tv =>
      exact .ite (.stop nofun)
        (.ite
          (.bind
            (.update fun client => .unlogged client _ _ _ _)
            fun _ => .pure _)
          (.pure _))

/-- The parts of the client that its requests and power cycles leave alone. -/
def sendParts (client : Client) :=
  (client.writes, client.options, client.fastbootContinue, client.special,
    client.sshStdout, client.sshStdin)

section Steps

variable {image : List UInt8} {cycles : Nat} {sent started : List Msg}
variable {course next : Course} {client final : Client}

/-- What changes without anything being sent. -/
theorem Booting.moves
    (booting : Booting image cycles sent course client)
    (told : Course.after? final.dispatched = some next)
    (same : final.sendParts = client.sendParts)
    (fits : ∀ work, some work ∈ final.works → WorkFits work)
    (uploads : SentOnce image (downloads sent) final.works)
    (untouched :
      next.presents = 0 → downloads sent = [] ∧ NoUpload final.works)
    (accepted : final.fastbootDone = decide (0 < next.acceptances))
    (logged :
      ∀ type, final.log.count (.frame type) = client.log.count (.frame type))
    (single : cycles = 0 → SingleBoot next final) :
    Booting image cycles sent next final := by
  simp only [sendParts, Prod.mk.injEq] at same
  obtain ⟨writes, options, uploading, special, sshStdout, stdin⟩ := same
  exact
    { told := told
      writable := by rw [writes]; exact booting.writable
      file := by rw [options]; exact booting.file
      onlyOnce := by rw [options]; exact booting.onlyOnce
      uploading := uploading.trans booting.uploading
      plain := special.trans booting.plain
      connected := by rw [sshStdout]; exact booting.connected
      stdin := stdin.trans booting.stdin
      fits := fits
      uploads := uploads
      untouched := untouched
      accepted := accepted
      logged := fun pair power =>
        (logged pair.2).trans (booting.logged pair power)
      single := single }

/-- A frame that is sent, with what it does to the work in memory. -/
theorem Booting.sends
    (booting : Booting image cycles sent course client)
    (frame : Msg)
    (works : List (Option Work))
    (workItems : Links WorkNode)
    (events : List ClientEvent)
    {writes : List WriteOutcome}
    (suffix : writes <:+ client.writes)
    (fits : ∀ work, some work ∈ works → WorkFits work)
    (uploads : SentOnce image (downloads sent ++ downloads [frame]) works)
    (untouched :
      course.presents = 0 → downloads [frame] = [] ∧ NoUpload works)
    (frames :
      ∀ pair, pair ∈ powerFrames →
        events.count (.frame pair.2) = framesOf pair.2 [frame])
    (requests : ∀ node, events.count (.request node) = 0) :
    Booting image cycles (sent ++ [frame]) course
      { client with
        sshStdin := client.sshStdin ++ encodeMsg frame
        writes := writes
        works := works
        workItems := workItems
        log := client.log ++ events } where
  told := booting.told
  writable := fun outcome member =>
    booting.writable outcome (suffix.subset member)
  file := booting.file
  onlyOnce := booting.onlyOnce
  uploading := booting.uploading
  plain := booting.plain
  connected := booting.connected
  stdin := by simp [booting.stdin]
  fits := fits
  uploads := by rw [downloads_append]; exact uploads
  untouched := by
    intro none
    obtain ⟨noFrame, idle⟩ := untouched none
    rw [downloads_append, (booting.untouched none).1, noFrame]
    exact ⟨rfl, idle⟩
  accepted := booting.accepted
  logged := by
    intro pair power
    rw [List.count_append, framesOf_append, frames pair power,
      booting.logged pair power]
  single := by
    intro none
    have single := booting.single none
    have same :
        ∀ node,
          (client.log ++ events).count (.request node) =
            client.log.count (.request node) := by
      intro node
      rw [List.count_append, requests node, Nat.add_zero]
    exact single.relogged rfl (same _) (same _)

/-- The client is on course, and has sent more than `started`. -/
def OnCourse
    (image : List UInt8)
    (cycles : Nat)
    (started : List Msg)
    (client : Client) :
    Prop :=
  ∃ sent course,
    started <+: sent ∧ Booting image cycles sent course client ∧
      InOrder cycles client

/-- Without power cycles it only leaves the loop when the tildes are printed. -/
def LeavesFinished
    (image : List UInt8)
    (cycles : Nat)
    (started : List Msg)
    (reason : ClientStop)
    (client : Client) :
    Prop :=
  reason = .leaveLoop →
    ∃ sent course,
      started <+: sent ∧ Booting image cycles sent course client ∧
        InOrder cycles client ∧ (cycles = 0 → course.stage = .finished)

theorem onCourse_of_steadying
    {program : ClientM α}
    (steadying : Steadying program) :
    Keeps (OnCourse image cycles started) (fun reason _ => Aborts reason)
      program := by
  rintro client ⟨sent, course, extends_, booting, inOrder⟩
  refine (steadying client).keepsAt ?_ fun _ _ aborts _ => aborts
  intro final related
  exact ⟨sent, course, extends_, booting.steady related,
    inOrder.aside related.aside⟩

/-- Whoever aborts does not leave the loop. -/
theorem finishes_of_onCourse
    {program : ClientM α}
    (keeps :
      Keeps (OnCourse image cycles started) (fun reason _ => Aborts reason)
        program) :
    Keeps (OnCourse image cycles started)
      (LeavesFinished image cycles started) program :=
  fun client onCourse =>
    (keeps client onCourse).mono (fun _ => id)
      (fun _ _ aborts leaves => absurd leaves aborts)

/-- The start of an iteration: the loop ends here, or a power cycle begins. -/
theorem powerCycle_onCourse
    (onCourse : OnCourse image cycles started client)
    (inTime : client.reachedTimeout = false) :
    KeepsAt (OnCourse image cycles started)
      (LeavesFinished image cycles started) powerCycle client := by
  obtain ⟨sent, course, extends_, booting, inOrder⟩ := onCourse
  unfold powerCycle
  refine .read ?_
  simp only [id, inTime, Bool.or_false, Bool.false_and]
  cases received : client.receivedPowerOff with
  | false =>
      exact ⟨sent, course, extends_, booting, inOrder⟩
  | true =>
      by_cases noneLeft : client.powerCycles ≤ 0
      · rw [if_pos rfl, if_pos noneLeft]
        refine fun _ =>
          ⟨sent, course, extends_, booting, inOrder, fun none => ?_⟩
        have told := (booting.single none).received
        rw [received] at told
        exact of_decide_eq_true told.symm
      · have several : cycles ≠ 0 := fun none =>
          noneLeft (Int.le_of_eq (booting.single none).cycles)
        rw [if_pos rfl, if_neg noneLeft, if_neg Bool.false_ne_true]
        refine .update (.update (.update ?_))
        refine finishes_of_onCourse
          (onCourse_of_steadying armInactivity_steady) _
          ⟨sent, course, extends_, ?_, fun none => absurd none several⟩
        exact booting.moves booting.told rfl booting.fits booting.uploads
          booting.untouched booting.accepted
          (fun type => by simp)
          (fun none => absurd none several)

/-! ## Sending -/

/-- Neither a chunk of an image nor a request for power. -/
def Neutral (type : MsgType) : Prop :=
  type ≠ .fastbootDownload ∧ ∀ pair, pair ∈ powerFrames → type ≠ pair.2

instance (type : MsgType) : Decidable (Neutral type) :=
  inferInstanceAs (Decidable (_ ∧ _))

/-- A message that is sent whole. -/
theorem sendOrErr_ok
    (writable : ∀ outcome, outcome ∈ client.writes → outcome = .done)
    (type : MsgType)
    (buf : List UInt8)
    (message : String) :
    sendOrErr type buf message client =
      .ok ()
        { client with
          sshStdin := client.sshStdin ++ sendBufBytes type buf
          writes := (sendResult type buf client.writes).2.2
          log := client.log ++ [.frame type] } := by
  rw [sendOrErr_eq, sendResult_writable writable type buf, if_pos rfl]

theorem downloads_neutral
    {type : MsgType}
    (neutral : Neutral type)
    {buf : List UInt8}
    (fits : buf.length < 2 ^ 16) :
    downloads [Msg.ofData type.code buf fits] = [] := by
  have codes :
      ∀ type : MsgType, type ≠ .fastbootDownload →
        type.code ≠ MsgType.fastbootDownload.code := by
    intro type other
    cases type <;> first | contradiction | decide
  simp [downloads, Msg.ofData, codes type neutral.1]

theorem framesOf_ofData
    (type other : MsgType)
    {buf : List UInt8}
    (fits : buf.length < 2 ^ 16) :
    framesOf other [Msg.ofData type.code buf fits] =
      if type = other then 1 else 0 := by
  by_cases same : type = other
  · simp [framesOf, Msg.ofData, same]
  · have codes : type.code ≠ other.code := by
      intro codes
      have back := congrArg MsgType.ofCode? codes
      simp only [MsgType.ofCode?_code, Option.some.injEq] at back
      exact same back
    simp [framesOf, Msg.ofData, same, codes]

/-- A neutral message leaves the uploads as they are. -/
theorem Booting.sendsNeutral
    (booting : Booting image cycles sent course client)
    {type : MsgType}
    {buf : List UInt8}
    (fits : buf.length < 2 ^ 16)
    (neutral : Neutral type)
    (workItems : Links WorkNode)
    (log : List ClientEvent)
    (silent : log = [] ∨ log = [.frame type]) :
    Booting image cycles (sent ++ [Msg.ofData type.code buf fits]) course
      { client with
        sshStdin := client.sshStdin ++ sendBufBytes type buf
        writes := (sendResult type buf client.writes).2.2
        workItems := workItems
        log := client.log ++ log } := by
  refine booting.sends (Msg.ofData type.code buf fits) client.works
    workItems log (sendResult_suffix _ _ _) booting.fits ?_ ?_ ?_ ?_
  · rw [downloads_neutral neutral fits, List.append_nil]
    exact booting.uploads
  · exact fun none => ⟨downloads_neutral neutral fits,
      (booting.untouched none).2⟩
  · intro pair power
    rw [framesOf_ofData, if_neg (neutral.2 pair power)]
    rcases silent with rfl | rfl
    · rfl
    · simp [neutral.2 pair power]
  · intro node
    rcases silent with rfl | rfl
    · rfl
    · simp

/-- Work that is no upload is freed. -/
theorem Booting.frees
    (booting : Booting image cycles sent course client)
    {index : Nat}
    {work : Work}
    (found : client.works[index]? = some (some work))
    (other :
      ∀ data offset size, work ≠ .fastbootDownload data offset size) :
    Booting image cycles sent course
      { client with works := client.works.set index none } := by
  refine booting.moves booting.told rfl ?_
    (booting.uploads.free found other)
    (fun none => ⟨(booting.untouched none).1,
      (booting.untouched none).2.set_none index⟩)
    booting.accepted (fun _ => rfl) ?_
  · intro kept member
    rcases List.mem_or_eq_of_mem_set member with old | new
    · exact booting.fits kept old
    · exact absurd new nofun
  · intro none
    exact { booting.single none with }

/-- The client is on course towards `course`, and has sent `started`. -/
def SendsOn
    (image : List UInt8)
    (cycles : Nat)
    (started : List Msg)
    (course : Course)
    (client : Client) :
    Prop :=
  ∃ sent, started <+: sent ∧ Booting image cycles sent course client

/-- Programs that send frames on the way. -/
abbrev SendingOn
    (image : List UInt8)
    (cycles : Nat)
    (started : List Msg)
    (course : Course)
    (program : ClientM α) :
    Prop :=
  Keeps (SendsOn image cycles started course) (fun reason _ => Aborts reason)
    program

/-- Work that sends one neutral message and is freed. -/
theorem sendsOnce_sendingOn
    {index : Nat}
    {work : Work}
    (sends : SendsOn image cycles started course client)
    (found : client.works[index]? = some (some work))
    (other :
      ∀ data offset size, work ≠ .fastbootDownload data offset size)
    {type : MsgType}
    {buf : List UInt8}
    (fits : buf.length < 2 ^ 16)
    (neutral : Neutral type)
    (message : String) :
    KeepsAt (SendsOn image cycles started course)
      (fun reason _ => Aborts reason)
      (do
        sendOrErr type buf message
        free index) client := by
  obtain ⟨sent, extends_, booting⟩ := sends
  refine .of_ok (bind_of_ok (sendOrErr_ok booting.writable _ _ _) _) ?_
  have sentOne := booting.sendsNeutral fits neutral client.workItems
    [.frame type] (.inr rfl)
  exact ⟨_, extends_.trans (List.prefix_append _ _),
    sentOne.frees found other⟩

/-- The work function of a request for power. -/
theorem sendsPower_sendingOn
    (pair : WorkNode × MsgType)
    (power : pair ∈ powerFrames)
    (message : String) :
    SendingOn image cycles started course
      (sendOrErr pair.2 [] message) := by
  rintro client ⟨sent, extends_, booting⟩
  refine .of_ok (sendOrErr_ok booting.writable _ _ _) ?_
  have noDownload :
      downloads [Msg.ofData pair.2.code [] (by decide)] = [] := by
    have powers :
        ∀ pair, pair ∈ powerFrames →
          downloads [Msg.ofData pair.2.code [] (by decide)] = [] := by
      decide
    exact powers pair power
  refine ⟨sent ++ [Msg.ofData pair.2.code [] (by decide)],
    extends_.trans (List.prefix_append _ _),
    booting.sends _ client.works client.workItems [.frame pair.2]
      (sendResult_suffix _ _ _) booting.fits ?_ ?_ ?_ ?_⟩
  · rw [noDownload, List.append_nil]
    exact booting.uploads
  · exact fun none => ⟨noDownload, (booting.untouched none).2⟩
  · intro other _
    rw [framesOf_ofData]
    by_cases same : pair.2 = other.2
    · simp [same]
    · simp [same]
  · intro node
    simp

/-- A visit to the upload: a chunk of the image goes out, or its end. -/
theorem upload_sendingOn
    {index : Nat}
    {data : List UInt8}
    {offset size : Nat}
    (sends : SendsOn image cycles started course client)
    (found :
      client.works[index]? =
        some (some (.fastbootDownload data offset size))) :
    KeepsAt (SendsOn image cycles started course)
      (fun reason _ => Aborts reason)
      (fastbootWorkFn index data offset size) client := by
  obtain ⟨sent, extends_, booting⟩ := sends
  obtain ⟨rfl, rfl, inside, carries, only⟩ := booting.uploads.found found
  have begun : course.presents ≠ 0 := fun none =>
    (booting.untouched none).2 _ _ _ _ found
  have suffix := sendResult_suffix .fastbootDownload
    (piece data offset data.length) client.writes
  have whole := sendResult_writable booting.writable .fastbootDownload
    (piece data offset data.length)
  have silent :
      ∀ frame : Msg,
        frame.type = MsgType.fastbootDownload.code →
        downloads [frame] = [frame] ∧
          ∀ pair, pair ∈ powerFrames → framesOf pair.2 [frame] = 0 := by
    intro frame isDownload
    refine ⟨by simp [downloads, isDownload], ?_⟩
    have codes :
        ∀ pair, pair ∈ powerFrames →
          MsgType.fastbootDownload.code ≠ pair.2.code := by
      decide
    intro pair power
    simp [framesOf, isDownload, codes pair power]
  unfold KeepsAt
  rw [fastbootWorkFn_eq]
  dsimp only
  rw [whole]
  by_cases complete : data.length - offset = 0
  · obtain ⟨isDownload, noPower⟩ := silent emptyFrame rfl
    simp only [complete, Nat.min_zero, ↓reduceIte]
    have ended := booting.sends emptyFrame
      (client.works.set index none) client.workItems [] suffix
      (by
        intro kept member
        rcases List.mem_or_eq_of_mem_set member with old | new
        · exact booting.fits kept old
        · exact absurd new nofun)
      (by
        rw [isDownload]
        exact booting.uploads.finish found complete)
      (fun none => absurd none begun)
      (fun pair power => (noPower pair power).symm) (fun _ => rfl)
    have bytes :
        sendBufBytes .fastbootDownload (piece data offset data.length) =
          encodeMsg emptyFrame := by
      rw [piece_eq_nil_iff.mpr complete]
      rfl
    rw [List.append_nil] at ended
    rw [bytes]
    exact ⟨_, extends_.trans (List.prefix_append _ _), ended⟩
  · obtain ⟨isDownload, noPower⟩ := silent (pieceFrame data offset) rfl
    have progress : min 2048 (data.length - offset) ≠ 0 := by omega
    simp only [progress, ↓reduceIte]
    have advanced := booting.sends (pieceFrame data offset)
      (client.works.set index
        (some (.fastbootDownload data
          (offset + min 2048 (data.length - offset)) data.length)))
      (client.workItems.listAdd .head (.heap index)) [] suffix
      (by
        intro kept member
        rcases List.mem_or_eq_of_mem_set member with old | new
        · exact booting.fits kept old
        · cases new
          trivial)
      (by
        rw [isDownload]
        exact booting.uploads.advance found complete)
      (fun none => absurd none begun)
      (fun pair power => (noPower pair power).symm) (fun _ => rfl)
    rw [List.append_nil] at advanced
    exact ⟨_, extends_.trans (List.prefix_append _ _), advanced⟩

theorem Booting.requeues
    (booting : Booting image cycles sent course client)
    (workItems : Links WorkNode) :
    Booting image cycles sent course
      { client with workItems := workItems } :=
  booting.moves booting.told rfl booting.fits booting.uploads
    booting.untouched booting.accepted (fun _ => rfl)
    fun none => { booting.single none with }

theorem aborts_useAfterFree :
    Aborts .useAfterFree := by
  decide

/-- Whatever node is visited, its work is on course. -/
theorem runNode_sendingOn
    (node : WorkNode) :
    SendingOn image cycles started course (runNode node) := by
  intro client sends
  unfold runNode
  refine .update ?_
  replace sends :
      SendsOn image cycles started course
        { client with workItems := client.workItems.listDel node } := by
    obtain ⟨sent, extends_, booting⟩ := sends
    exact ⟨sent, extends_, booting.requeues _⟩
  cases node with
  | head => exact .of_error rfl aborts_useAfterFree
  | powerOn =>
      exact sendsPower_sendingOn (.powerOn, .powerOn) (by decide) _ _ sends
  | powerOff =>
      exact sendsPower_sendingOn (.powerOff, .powerOff) (by decide) _ _
        sends
  | fastbootContinue =>
      obtain ⟨sent, extends_, booting⟩ := sends
      exact .of_ok (sendOrErr_ok booting.writable _ _ _)
        ⟨_, extends_.trans (List.prefix_append _ _),
          booting.sendsNeutral (by decide) (by decide) _
            [.frame .fastbootContinue] (.inr rfl)⟩
  | heap index =>
      unfold workFn
      refine .read ?_
      cases found : client.works[index]? with
      | none => exact .of_error rfl aborts_useAfterFree
      | some memory =>
          cases memory with
          | none => exact .of_error rfl aborts_useAfterFree
          | some work =>
              simp only [Option.join_some]
              have fits : WorkFits work := by
                obtain ⟨sent, extends_, booting⟩ := sends
                exact booting.fits work (List.mem_of_getElem? found)
              have bound :
                  ∀ board : CString, BoardFits board →
                    (board ++ [0]).length < 2 ^ 16 := by
                intro board fits
                simp only [BoardFits, maxPayload] at fits
                rw [List.length_append, List.length_singleton]
                omega
              cases work with
              | listBoards =>
                  exact sendsOnce_sendingOn sends found (by simp)
                    (by decide) (by decide) _
              | boardInfo board =>
                  exact sendsOnce_sendingOn sends found (by simp)
                    (bound board fits) (by decide) _
              | selectBoard board =>
                  exact sendsOnce_sendingOn sends found (by simp)
                    (bound board fits) (by decide) _
              | statusEnable =>
                  obtain ⟨sent, extends_, booting⟩ := sends
                  refine .of_ok
                    (bind_of_ok (cdbaSendBuf_eq _ _ _) _) ?_
                  have neutral : Neutral .statusUpdate := by decide
                  have empty : ([] : List UInt8).length < 2 ^ 16 := by
                    decide
                  have sentOne := booting.sendsNeutral empty neutral
                    (client.workItems.listDel (.heap index)) [] (.inl rfl)
                  rw [List.append_nil] at sentOne
                  rw [sendResult_writable booting.writable]
                  exact ⟨_, extends_.trans (List.prefix_append _ _),
                    sentOne.frees found (by simp)⟩
              | fastbootDownload data offset size =>
                  exact upload_sendingOn sends found

/-- A pass over the queue is on course, and leaves the queue in order. -/
theorem workPass_onCourse :
    Keeps (OnCourse image cycles started) (fun reason _ => Aborts reason)
      workPass := by
  rintro client ⟨sent, course, extends_, booting, inOrder⟩
  have sends :
      SendingOn image cycles started course workPass :=
    Keeps.bind (.read _) fun _ => Keeps.bind (.read _) fun _ =>
      Keeps.bind (.read _) fun _ =>
        Links.forEachEntrySafe_invariant runNode_sendingOn
          (fun _ _ => by decide) _ _ _
  have orders :
      KeepsAt (InOrder cycles) (fun _ _ => True) workPass client := by
    by_cases none : cycles = 0
    · obtain ⟨items, queued⟩ := inOrder none
      refine (workPass_keeps queued).mono ?_ (fun _ _ _ => trivial)
      rintro final ⟨left, inPass, _⟩ _
      exact ⟨left, inPass.queued⟩
    · unfold KeepsAt
      split
      · exact fun isNone => absurd isNone none
      · trivial
  refine ((sends client ⟨sent, extends_, booting⟩).and orders).mono ?_
    (fun _ _ stopped => stopped.1)
  rintro final ⟨⟨sent, extends_, booting⟩, inOrder⟩
  exact ⟨sent, course, extends_, booting, inOrder⟩

/-- Characters other than `^A` go to the board's console. -/
theorem ttyChar_onCourse
    {char : UInt8}
    (plain : char ≠ 0x01) :
    Keeps (OnCourse image cycles started) (fun reason _ => Aborts reason)
      (ttyChar char) := by
  rintro client ⟨sent, course, extends_, booting, inOrder⟩
  unfold ttyChar
  refine .read ?_
  rw [if_neg plain, booting.plain, if_neg Bool.false_ne_true]
  refine .of_ok (bind_of_ok (cdbaSendBuf_eq _ _ _) _) ?_
  have neutral : Neutral .console := by decide
  have single : [char].length < 2 ^ 16 := by simp
  have sentOne :=
    booting.sendsNeutral single neutral client.workItems [] (.inl rfl)
  rw [List.append_nil] at sentOne
  rw [sendResult_writable booting.writable]
  exact ⟨_, course, extends_.trans (List.prefix_append _ _), sentOne,
    inOrder.aside (.unlogged rfl rfl rfl rfl)⟩

end Steps

end Client

end Cdba
