import Cdba.ClientLoop

namespace Cdba

/-!
# What the parts of the client leave alone

Handlers, the terminal and the work queue neither read the server's output nor
touch the deadlines, and none of them calls `select()`.  The terminal and the
work queue do not look at the clock either; a handler may sleep.  Each operation
gets one lemma, which callers cite.
-/

open Program

namespace Client

/-- The parts of the client that only `main` and `circ_fill` write. -/
def mainParts (client : Client) :=
  (client.dispatched, client.sshStdout, client.options,
    client.timeoutInactivityTv, client.timeoutTotalTv, client.clock,
    client.log)

/-- Later state of the client, between two calls of `select()`. -/
structure Serves (first last : Client) : Prop where
  dispatched : last.dispatched = first.dispatched
  sshStdout : last.sshStdout = first.sshStdout
  options : last.options = first.options
  inactivity : last.timeoutInactivityTv = first.timeoutInactivityTv
  total : last.timeoutTotalTv = first.timeoutTotalTv
  elapsed : first.clock.now ≤ last.clock.now
  logged :
    ∃ events,
      last.log = first.log ++ events ∧
        ∀ timeout, .select timeout ∉ events

instance Serves.composes : Composes Serves where
  refl := fun client =>
    ⟨rfl, rfl, rfl, rfl, rfl, Nat.le_refl _, [], by simp, by simp⟩
  trans := by
    intro first middle last firstStep laterStep
    obtain ⟨events, log, noSelect⟩ := firstStep.logged
    obtain ⟨events', log', noSelect'⟩ := laterStep.logged
    exact
      { dispatched := laterStep.dispatched.trans firstStep.dispatched
        sshStdout := laterStep.sshStdout.trans firstStep.sshStdout
        options := laterStep.options.trans firstStep.options
        inactivity := laterStep.inactivity.trans firstStep.inactivity
        total := laterStep.total.trans firstStep.total
        elapsed := Nat.le_trans firstStep.elapsed laterStep.elapsed
        logged :=
          ⟨events ++ events', by rw [log', log, List.append_assoc],
            fun timeout member =>
              (List.mem_append.mp member).elim
                (noSelect timeout) (noSelect' timeout)⟩ }

/-- A reason to stop other than a failing `select()`. -/
abbrev NotSelect (reason : ClientStop) : Prop :=
  reason ≠ .err "select"

/-- Programs that run between two calls of `select()`. -/
abbrev Serving (program : ClientM α) : Prop :=
  Relates Serves NotSelect program

/-- Later state of the client, at the same time of its clock. -/
structure Idles (first last : Client) : Prop where
  serves : Serves first last
  clock : last.clock = first.clock

instance Idles.composes : Composes Idles where
  refl := fun client => ⟨Composes.refl client, rfl⟩
  trans := fun step later =>
    ⟨Composes.trans step.serves later.serves, later.clock.trans step.clock⟩

/-- Programs that do not look at the clock. -/
abbrev Idling (program : ClientM α) : Prop :=
  Relates Idles NotSelect program

theorem serving_of_idling
    {program : ClientM α}
    (idling : Idling program) :
    Serving program :=
  idling.mono (fun _ _ => Idles.serves) fun _ => id

/-! ## Primitive actions -/

/-- A change to something else. -/
theorem update_idles
    {change : Client → Client}
    (same : ∀ client, (change client).mainParts = client.mainParts) :
    Idling (update change) := by
  refine .update fun client => ?_
  have parts := same client
  simp only [mainParts, Prod.mk.injEq] at parts
  obtain ⟨dispatched, sshStdout, options, inactivity, total, clock, log⟩ :=
    parts
  exact
    { serves :=
        ⟨dispatched, sshStdout, options, inactivity, total,
          Nat.le_of_eq (congrArg Clock.now clock).symm,
          [], by simp [log], by simp⟩
      clock := clock }

theorem record_idles
    {event : ClientEvent}
    (noSelect : ∀ timeout, event ≠ .select timeout) :
    Idling (record event) :=
  .update fun _ =>
    { serves :=
        ⟨rfl, rfl, rfl, rfl, rfl, Nat.le_refl _, [event], rfl,
          fun timeout member =>
            noSelect timeout (List.mem_singleton.mp member).symm⟩
      clock := rfl }

/-! ## Sending and the work queue -/

theorem writeSsh_idles
    (bytes : List UInt8) :
    Idling (writeSsh bytes) := by
  refine .bind (.read _) fun outcomes =>
    .bind (update_idles fun _ => rfl) fun _ => ?_
  cases outcomes.headD .done with
  | done =>
      exact .bind (update_idles fun _ => rfl)
        fun _ => .pure _
  | wouldBlock => exact .pure _
  | fail => exact .pure _

theorem cdbaSendBuf_idles
    (type : MsgType)
    (buf : List UInt8) :
    Idling (cdbaSendBuf type buf) :=
  .bind (writeSsh_idles _) fun _ =>
    .ite (.pure _) (.ite (writeSsh_idles _) (.pure _))

theorem sendOrErr_idles
    {type : MsgType}
    {buf : List UInt8}
    {message : String}
    (other : message ≠ "select") :
    Idling (sendOrErr type buf message) :=
  .bind (cdbaSendBuf_idles _ _) fun _ =>
    .ite (.stop (by simpa [NotSelect] using other))
      (record_idles (by simp))

theorem enqueue_idles
    (node : WorkNode) :
    Idling (enqueue node) :=
  update_idles fun _ => rfl

theorem request_idles
    (node : WorkNode) :
    Idling (request node) :=
  .bind (record_idles (by simp)) fun _ => enqueue_idles node

theorem requestWork_idles
    (work : Work) :
    Idling (requestWork work) :=
  .bind
    (.bind (.read _) fun _ =>
      .bind (update_idles fun _ => rfl) fun _ => .pure _)
    fun _ => request_idles _

theorem free_idles
    (index : Nat) :
    Idling (free index) :=
  update_idles fun _ => rfl

theorem fastbootWorkFn_idles
    (index : Nat)
    (data : List UInt8)
    (offset size : Nat) :
    Idling (fastbootWorkFn index data offset size) := by
  refine .bind (cdbaSendBuf_idles _ _) fun failed => ?_
  split
  · exact enqueue_idles _
  · exact .stop (by decide)
  · exact .bind (update_idles fun _ => rfl) fun _ =>
      .ite (free_idles _) (enqueue_idles _)

theorem runWork_idles
    (index : Nat)
    (work : Work) :
    Idling (runWork index work) := by
  cases work with
  | listBoards =>
      exact .bind (sendOrErr_idles (by decide)) fun _ => free_idles _
  | boardInfo board =>
      exact .bind (sendOrErr_idles (by decide)) fun _ => free_idles _
  | selectBoard board =>
      exact .bind (sendOrErr_idles (by decide)) fun _ => free_idles _
  | statusEnable =>
      exact .bind (cdbaSendBuf_idles _ _) fun _ => free_idles _
  | fastbootDownload data offset size =>
      exact fastbootWorkFn_idles _ _ _ _

theorem runNode_idles
    (node : WorkNode) :
    Idling (runNode node) := by
  refine .bind (update_idles fun _ => rfl) fun _ => ?_
  cases node with
  | head => exact .stop (by decide)
  | powerOn => exact sendOrErr_idles (by decide)
  | powerOff => exact sendOrErr_idles (by decide)
  | fastbootContinue => exact sendOrErr_idles (by decide)
  | heap index =>
      refine .bind (.read _) fun work => ?_
      cases work with
      | none => exact .stop (by decide)
      | some work => exact runWork_idles _ _

theorem workPass_idles :
    Idling workPass :=
  .bind (.read _) fun _ => .bind (.read _) fun _ => .bind (.read _) fun _ =>
    Links.forEachEntrySafe_relates runNode_idles (by decide) _ _ _

/-! ## The terminal -/

theorem ttyChar_idles
    (char : UInt8) :
    Idling (ttyChar char) := by
  have sends :
      ∀ type buf, Idling (discard (cdbaSendBuf type buf)) :=
    fun type buf => .bind (cdbaSendBuf_idles type buf) fun _ => .pure _
  have command : Idling (ttyCommand char) := by
    have toggles : ∀ key, Idling (cdbaToggleKey key) := fun key =>
      .bind (update_idles fun _ => rfl) fun _ =>
        .bind (.read _) fun _ =>
          .bind (cdbaSendBuf_idles _ _) fun _ => .pure _
    exact .ite (update_idles fun _ => rfl)
      (.ite (sends _ _) (.ite (sends _ _) (.ite (sends _ _)
        (.ite (sends _ _) (.ite (sends _ _) (.ite (sends _ _)
          (.ite (sends _ _) (.ite (sends _ _) (.ite (toggles _)
            (.ite (sends _ _) (.ite (toggles _) (.pure _))))))))))))
  exact .bind (.read _) fun _ =>
    .ite (update_idles fun _ => rfl)
      (.ite (.bind command fun _ => update_idles fun _ => rfl)
        (sends _ _))

theorem ttyCallback_idles
    (buf : Option (List UInt8)) :
    Idling (ttyCallback buf) :=
  .each fun char _ => ttyChar_idles char

theorem workPass_serves :
    Serving workPass :=
  serving_of_idling workPass_idles

theorem ttyCallback_serves
    (buf : Option (List UInt8)) :
    Serving (ttyCallback buf) :=
  serving_of_idling (ttyCallback_idles buf)

/-! ## Server messages -/

theorem sleep_serves
    (seconds : Nat) :
    Serving (Client.sleep seconds) :=
  .update fun client =>
    ⟨rfl, rfl, rfl, rfl, rfl,
      Nat.le_trans (Clock.now_le_tick _) (Nat.le_add_right _ _),
      [], by simp, by simp⟩

theorem handleConsole_idles
    (data : List UInt8) :
    Idling (handleConsole data) := by
  refine .bind (update_idles fun client => ?_)
    fun _ => record_idles (by simp)
  obtain ⟨_, _, counted⟩ := handleConsole_counts data client
  rw [counted]
  rfl

theorem handleStatusUpdate_idles
    (data : List UInt8) :
    Idling (handleStatusUpdate data) :=
  .bind (.read _) fun _ => .bind (.read _) fun _ =>
    .onlyIf (record_idles (by simp))

theorem fastbootPresent_idles :
    Idling fastbootPresent := by
  refine .bind (.read _) fun client => ?_
  refine .ite
    (.bind (request_idles _) fun _ => update_idles fun _ => rfl)
    (.ite (.bind (.read _) fun file => ?_)
      (update_idles fun _ => rfl))
  cases file with
  | none => exact .stop (by decide)
  | some data => exact requestWork_idles _

/-- Every handler but that of a power off, which sleeps, leaves the clock. -/
theorem handleType_serves
    (type : Option MsgType)
    (data : List UInt8) :
    Serving (handleType type data) := by
  unfold handleType
  split
  · exact serving_of_idling (request_idles _)
  · exact serving_of_idling (handleConsole_idles data)
  · exact .pure _
  · exact .pure _
  · exact .bind (.read _) fun _ =>
      .onlyIf (.bind (sleep_serves _) fun _ =>
        serving_of_idling (request_idles _))
  · exact .bind (.read _) fun _ =>
      .onlyIf (serving_of_idling fastbootPresent_idles)
  · exact serving_of_idling (update_idles fun _ => rfl)
  · exact .pure _
  · exact serving_of_idling (handleStatusUpdate_idles data)
  · exact serving_of_idling
      (.ite (update_idles fun _ => rfl) (record_idles (by simp)))
  · exact .bind
      (serving_of_idling
        (.bind (record_idles (by simp)) fun _ =>
          update_idles fun _ => rfl))
      fun _ => .stop (by decide)
  · exact serving_of_idling (update_idles fun _ => rfl)
  · exact .stop (by decide)

end Client

end Cdba
