import Cdba.ClientFrame

namespace Cdba

/-!
# Deadlines of the client

The timeout of `select()` is what is left until the earlier of two deadlines,
and nothing keeps it from being negative.  It is accepted, and the deadline
expires through the timeout path, exactly as long as the client gets back to
`select()` in time: before `-t` has run out since it was started, and before
`-T` has run out since something happened.
-/

open Program

namespace Client

/-! ## What a run keeps -/

/-- The deadlines are proper times, and `select()` accepted every timeout. -/
structure Armed (client : Client) : Prop where
  inactivity : client.timeoutInactivityTv.Normalised
  total : client.timeoutTotalTv.Normalised
  accepted :
    ∀ tv, .select (some tv) ∈ client.log → tv.NonNegative

/-- A client that stopped, but not because of `select()`. -/
def StoppedInTime (reason : ClientStop) (client : Client) : Prop :=
  NotSelect reason ∧ Armed client

/-- Programs that keep the deadlines proper and do not fail in `select()`. -/
abbrev InTime (program : ClientM α) : Prop :=
  Keeps Armed StoppedInTime program

/-- The same of the client's main loop. -/
abbrev LoopInTime (program : ClientLoopM α) : Prop :=
  Keeps
    (fun loop => Armed loop.state)
    (fun reason loop => StoppedInTime reason loop.state)
    program

theorem Armed.serves
    {first last : Client}
    (armed : Armed first)
    (serves : Serves first last) :
    Armed last where
  inactivity := by
    rw [serves.inactivity]
    exact armed.inactivity
  total := by
    rw [serves.total]
    exact armed.total
  accepted := by
    obtain ⟨events, log, noSelect⟩ := serves.logged
    intro tv member
    rw [log] at member
    rcases List.mem_append.mp member with early | late
    · exact armed.accepted tv early
    · exact absurd late (noSelect _)

theorem inTime_of_serving
    {program : ClientM α}
    (serving : Serving program) :
    InTime program :=
  fun client armed =>
    (serving client).keepsAt (fun _ step => armed.serves step)
      fun _ _ allowed step => ⟨allowed, armed.serves step⟩

theorem inTime_of_idling
    {program : ClientM α}
    (idling : Idling program) :
    InTime program :=
  inTime_of_serving (serving_of_idling idling)

theorem leave_inTime :
    InTime (stop .leaveLoop : ClientM α) :=
  .stop fun _ armed => ⟨by decide, armed⟩

theorem normalised_getTimeout
    (now : Nat)
    (sec : Int) :
    ((Timeval.ofMicros now).add ⟨sec, 0⟩).Normalised :=
  Timeval.normalised_add (Timeval.normalised_ofMicros now)
    (by decide : (0 : Int) ≤ 0 ∧ (0 : Int) < 1000000)

theorem armInactivity_inTime :
    InTime armInactivity :=
  fun _ armed =>
    { inactivity := normalised_getTimeout _ _
      total := armed.total
      accepted := armed.accepted }

theorem powerCycle_inTime :
    InTime powerCycle :=
  .bind (.read _) fun _ =>
    .ite
      (.ite leave_inTime
        (.ite leave_inTime
          (.bind (inTime_of_idling (record_idles (by simp)))
            fun _ => .bind (inTime_of_idling (update_idles fun _ => rfl))
              fun _ => .bind (inTime_of_idling (request_idles _))
                fun _ => armInactivity_inTime)))
      (.pure _)

theorem within_inTime
    {program : ClientM α}
    (inTime : InTime program) :
    LoopInTime (within Receiver.stateOf program) :=
  fun loop armed =>
    KeepsAt.within Receiver.stateOf
      (inTime loop.state armed)

theorem dispatch_inTime
    (msg : Msg) :
    InTime (dispatch msg) := by
  refine .bind ?_ fun _ => inTime_of_serving (handleType_serves _ _)
  exact fun client armed =>
    { inactivity := armed.inactivity
      total := armed.total
      accepted := armed.accepted }

theorem handleMessage_inTime :
    LoopInTime handleMessage := by
  refine receive_keeps ?_ (leave_inTime (α := Unit)) dispatch_inTime
  exact fun client input armed =>
    { inactivity := armed.inactivity
      total := armed.total
      accepted := armed.accepted }

/-! ## Computing the timeout -/

/-- No deadline that is switched on has passed when the clock is read next. -/
structure DeadlinesAhead (client : Client) : Prop where
  inactivity :
    client.options.timeoutInactivity ≠ 0 →
      (client.clock.tick.now : Int) ≤ client.timeoutInactivityTv.micros
  total :
    client.options.timeoutTotal ≠ 0 →
      (client.clock.tick.now : Int) ≤ client.timeoutTotalTv.micros

section Timeout

variable {client : Client}

/-- The deadline that counts is the earlier of those that are switched on. -/
theorem Armed.deadlinesAhead_iff
    (armed : Armed client)
    (timed : hasTimeout client.options = true) :
    DeadlinesAhead client ↔
      (client.clock.tick.now : Int) ≤ client.deadline.micros := by
  have compare := Timeval.lt_iff armed.inactivity armed.total
  simp only [hasTimeout, Bool.or_eq_true, decide_eq_true_eq] at timed
  have ahead_iff :
      DeadlinesAhead client ↔
        (client.options.timeoutInactivity ≠ 0 →
            (client.clock.tick.now : Int) ≤
              client.timeoutInactivityTv.micros) ∧
          (client.options.timeoutTotal ≠ 0 →
            (client.clock.tick.now : Int) ≤
              client.timeoutTotalTv.micros) :=
    ⟨fun ahead => ⟨ahead.inactivity, ahead.total⟩,
      fun both => ⟨both.1, both.2⟩⟩
  rw [ahead_iff]
  unfold deadline
  split
  · rename_i inactivity
    simp only [Bool.and_eq_true, Bool.or_eq_true, decide_eq_true_eq,
      compare] at inactivity
    omega
  · rename_i total
    simp only [Bool.and_eq_true, Bool.or_eq_true, decide_eq_true_eq,
      compare] at total
    omega

theorem Armed.deadline_normalised
    (armed : Armed client) :
    client.deadline.Normalised := by
  unfold deadline
  split
  · exact armed.inactivity
  · exact armed.total

/-- The timeout is what is left until the deadline. -/
theorem selectTimeout_eq
    (timed : hasTimeout client.options = true) :
    selectTimeout client =
      .ok
        (some (client.deadline.sub
          (Timeval.ofMicros client.clock.tick.now)))
        { client with clock := client.clock.tick } := by
  unfold selectTimeout
  rw [bind_of_ok (read_apply _ _)]
  simp only [id, timed, ↓reduceIte]
  rfl

/-- The timeout is accepted exactly when no deadline has passed. -/
theorem Armed.timeout_nonNegative_iff
    (armed : Armed client)
    (timed : hasTimeout client.options = true) :
    (client.deadline.sub
        (Timeval.ofMicros client.clock.tick.now)).NonNegative ↔
      DeadlinesAhead client := by
  rw [Timeval.nonNegative_iff
      (Timeval.normalised_sub armed.deadline_normalised
        (Timeval.normalised_ofMicros _)),
    Timeval.micros_sub, Timeval.micros_ofMicros,
    armed.deadlinesAhead_iff timed]
  omega

/-- Recording an accepted timeout. -/
theorem Armed.recorded
    (armed : Armed client)
    (timeout : Option Timeval)
    (accepted : ∀ tv, timeout = some tv → tv.NonNegative) :
    Armed
      { client with log := client.log ++ [.select timeout] } where
  inactivity := armed.inactivity
  total := armed.total
  accepted := by
    intro tv member
    rcases List.mem_append.mp member with early | late
    · exact armed.accepted tv early
    · have same := List.mem_singleton.mp late
      cases same
      exact accepted tv rfl

/-- What `select()` does with an accepted timeout, or without one. -/
theorem select_inTime
    (armed : Armed client)
    (timeout : Option Timeval)
    (accepted : ∀ tv, timeout = some tv → tv.NonNegative)
    (ready : Ready) :
    KeepsAt Armed StoppedInTime (select timeout ready) client := by
  have recorded := armed.recorded timeout accepted
  unfold select
  refine .update (.read ?_)
  cases timeout with
  | none =>
      dsimp only
      split
      · exact ⟨by decide, recorded⟩
      · exact recorded
  | some tv =>
      dsimp only
      rw [if_neg (not_not_intro (accepted tv rfl))]
      split
      · exact
          { inactivity := recorded.inactivity
            total := recorded.total
            accepted := recorded.accepted }
      · exact recorded

/-- With the deadlines ahead, waiting does not fail. -/
theorem Armed.wait_inTime
    (armed : Armed client)
    (ahead : DeadlinesAhead client)
    (ready : Ready) :
    KeepsAt Armed StoppedInTime
      (selectTimeout >>= fun timeout => select timeout ready)
      client := by
  unfold KeepsAt
  cases timed : hasTimeout client.options with
  | false =>
      have untimed : selectTimeout client = .ok none client := by
        unfold selectTimeout
        rw [bind_of_ok (read_apply _ _)]
        simp [timed]
      rw [bind_of_ok untimed]
      exact select_inTime armed none nofun ready
  | true =>
      have ticked : Armed { client with clock := client.clock.tick } :=
        { inactivity := armed.inactivity
          total := armed.total
          accepted := armed.accepted }
      rw [bind_of_ok (selectTimeout_eq timed)]
      refine select_inTime ticked _ ?_ ready
      rintro tv ⟨rfl⟩
      exact (armed.timeout_nonNegative_iff timed).mpr ahead

/-- With a deadline in the past, waiting fails. -/
theorem Armed.wait_fails
    (armed : Armed client)
    (passed : ¬DeadlinesAhead client)
    (ready : Ready) :
    ∃ final,
      (selectTimeout >>= fun timeout => select timeout ready) client =
        .error (.err "select") final := by
  have timed : hasTimeout client.options = true := by
    cases timed : hasTimeout client.options with
    | true => rfl
    | false =>
        simp only [hasTimeout, ne_eq, Bool.or_eq_false_iff,
          decide_eq_false_iff_not, Decidable.not_not] at timed
        exact absurd
          ⟨fun on => absurd timed.2 on, fun on => absurd timed.1 on⟩
          passed
  have negative := mt (armed.timeout_nonNegative_iff timed).mp passed
  rw [bind_of_ok (selectTimeout_eq timed)]
  unfold select record err
  rw [bind_of_ok (update_apply _ _), bind_of_ok (read_apply _ _)]
  dsimp only
  rw [if_pos negative]
  exact ⟨_, rfl⟩

/-- When nothing becomes ready, the deadline is reached and noted. -/
theorem Armed.wait_timesOut
    {ready : Ready}
    (armed : Armed client)
    (ahead : DeadlinesAhead client)
    (timed : hasTimeout client.options = true)
    (nothing : client.interest ready = nothingReady) :
    ∃ final,
      (selectTimeout >>= fun timeout => select timeout ready) client =
          .ok nothingReady final ∧
        final.reachedTimeout = true ∧
        client.deadline.micros ≤ final.clock.now := by
  have accepted := (armed.timeout_nonNegative_iff timed).mpr ahead
  have left :=
    (Timeval.nonNegative_iff
      (Timeval.normalised_sub armed.deadline_normalised
        (Timeval.normalised_ofMicros client.clock.tick.now))).mp accepted
  have later := Clock.now_le_tick client.clock.tick
  rw [Timeval.micros_sub, Timeval.micros_ofMicros] at left
  rw [bind_of_ok (selectTimeout_eq timed)]
  unfold select record
  rw [bind_of_ok (update_apply _ _), bind_of_ok (read_apply _ _)]
  have nothing' :
      Client.interest
          { client with
            clock := client.clock.tick
            log := client.log ++
              [.select (some (client.deadline.sub
                (Timeval.ofMicros client.clock.tick.now)))] } ready =
        nothingReady :=
    nothing
  dsimp only
  rw [if_neg (not_not_intro accepted), if_pos nothing',
    bind_of_ok (update_apply _ _), nothing']
  refine ⟨_, rfl, rfl, ?_⟩
  simp only [Clock.sleep, Timeval.micros_sub, Timeval.micros_ofMicros]
  omega

end Timeout

/-! ## Runs -/

/--
A run of the main loop comes to a call of `select()`: `ready` is what the call
would find, and the client is `awake`.
-/
inductive Waits : List Ready → ClientLoop → Ready → Client → Prop where
  | here
      {ready : Ready}
      {rest : List Ready}
      {loop : ClientLoop}
      {awake : Client}
      (running : loop.state.quit = false)
      (cycled : powerCycle loop.state = .ok () awake) :
      Waits (ready :: rest) loop ready awake
  | later
      {first ready : Ready}
      {rest : List Ready}
      {loop next : ClientLoop}
      {awake : Client}
      (running : loop.state.quit = false)
      (step : iteration first loop = .ok () next)
      (waits : Waits rest next ready awake) :
      Waits (first :: rest) loop ready awake

/--
Deadlines expire through the timeout path: `select()` accepts every timeout,
no call fails, and a call that finds nothing ready reaches the deadline and
notes it.
-/
structure ExpiresInTime
    (iterations : List Ready)
    (loop : ClientLoop) :
    Prop where
  accepted :
    ∀ tv,
      .select (some tv) ∈
          (finalState (mainLoop iterations loop)).state.log →
        tv.NonNegative
  noError :
    stopped? (mainLoop iterations loop) ≠ some (.err "select")
  timesOut :
    ∀ ready awake,
      Waits iterations loop ready awake →
      hasTimeout awake.options = true →
      awake.interest ready = nothingReady →
        ∃ final,
          (selectTimeout >>= fun timeout => select timeout ready) awake =
              .ok nothingReady final ∧
            final.reachedTimeout = true ∧
            awake.deadline.micros ≤ final.clock.now

section Run

variable {loop : ClientLoop} {iterations : List Ready}
variable {ready : Ready}

/-- An iteration keeps its deadlines when none has passed at its `select()`. -/
theorem iteration_inTime
    (ready : Ready)
    (armed : Armed loop.state)
    (ahead :
      ∀ awake,
        powerCycle loop.state = .ok () awake → DeadlinesAhead awake) :
    KeepsAt
      (fun loop => Armed loop.state)
      (fun reason loop => StoppedInTime reason loop.state)
      (iteration ready) loop := by
  refine iteration_keepsAt ?_
    (fun buf => within_inTime (inTime_of_serving (ttyCallback_serves buf)))
    (fun loop => leave_inTime (α := Unit) loop.state)
    (serve_keeps handleMessage_inTime
      (within_inTime armInactivity_inTime)
      (within_inTime (inTime_of_serving workPass_serves)))
  refine KeepsAt.within Receiver.stateOf ?_
  exact (powerCycle_inTime loop.state armed).bind
    fun _ awake cycled armed =>
      armed.wait_inTime (ahead awake cycled) ready

/-- In a run that has not failed, the deadlines are proper at every wait. -/
theorem Waits.armed
    {awake : Client}
    (waits : Waits iterations loop ready awake)
    (armed : Armed loop.state)
    (noError :
      stopped? (mainLoop iterations loop) ≠ some (.err "select")) :
    Armed awake ∧ DeadlinesAhead awake := by
  induction waits with
  | @here ready rest loop awake running cycled =>
      have cycledArmed := powerCycle_inTime loop.state armed
      rw [KeepsAt, cycled] at cycledArmed
      refine ⟨cycledArmed, ?_⟩
      refine Classical.byContradiction fun passed => noError ?_
      obtain ⟨final, failed⟩ := cycledArmed.wait_fails passed ready
      have waited :
          waitReady ready loop.state = .error (.err "select") final := by
        rw [waitReady, bind_of_ok cycled]
        exact failed
      rw [mainLoop, bind_of_ok (read_apply _ _)]
      simp only [running, Bool.false_eq_true, ↓reduceIte, iteration,
        bind_apply, within, Receiver.stateOf, waited, stopped?]
  | @later first ready rest loop next awake running step waits
      inductionHypothesis =>
      have continues :
          mainLoop (first :: rest) loop = mainLoop rest next := by
        rw [mainLoop, bind_of_ok (read_apply _ _)]
        simp only [running, Bool.false_eq_true, ↓reduceIte]
        rw [bind_of_ok step]
      have aheadHere :
          ∀ awake,
            powerCycle loop.state = .ok () awake →
              DeadlinesAhead awake := by
        intro awake cycled
        have cycledArmed := powerCycle_inTime loop.state armed
        rw [KeepsAt, cycled] at cycledArmed
        refine Classical.byContradiction fun passed => ?_
        obtain ⟨final, failed⟩ := cycledArmed.wait_fails passed first
        have waited :
            waitReady first loop.state =
              .error (.err "select") final := by
          rw [waitReady, bind_of_ok cycled]
          exact failed
        simp [iteration, bind_apply, within, Receiver.stateOf,
          waited] at step
      have kept := iteration_inTime first armed aheadHere
      rw [KeepsAt, step] at kept
      exact inductionHypothesis kept (by rwa [continues] at noError)

/-- A run keeps its deadlines when none has passed at any `select()`. -/
theorem mainLoop_inTime
    (armed : Armed loop.state)
    (ahead :
      ∀ ready awake,
        Waits iterations loop ready awake → DeadlinesAhead awake) :
    KeepsAt
      (fun loop => Armed loop.state)
      (fun reason loop => StoppedInTime reason loop.state)
      (mainLoop iterations) loop := by
  induction iterations generalizing loop with
  | nil =>
      exact armed
  | cons ready rest inductionHypothesis =>
      unfold mainLoop
      refine .read ?_
      cases running : loop.state.quit with
      | true => exact armed
      | false =>
          simp only [Bool.false_eq_true, ↓reduceIte]
          refine KeepsAt.bind
            (iteration_inTime ready armed fun awake cycled =>
              ahead ready awake (.here running cycled)) ?_
          exact fun _ next step armed =>
            inductionHypothesis armed fun ready awake waits =>
              ahead ready awake (.later running step waits)

theorem expiresInTime_iff
    (armed : Armed loop.state) :
    ExpiresInTime iterations loop ↔
      ∀ ready awake,
        Waits iterations loop ready awake → DeadlinesAhead awake := by
  constructor
  · intro expires ready awake waits
    exact (waits.armed armed expires.noError).2
  · intro ahead
    have kept := mainLoop_inTime armed ahead
    have noError :
        stopped? (mainLoop iterations loop) ≠ some (.err "select") := by
      intro failed
      unfold KeepsAt at kept
      split at kept
      · rename_i outcome
        rw [outcome] at failed
        contradiction
      · rename_i outcome
        rw [outcome] at failed
        cases failed
        exact kept.1 rfl
    refine ⟨?_, noError, ?_⟩
    · have final := KeepsAt.final
        (fun loop : ClientLoop => Armed loop.state)
        (KeepsAt.mono kept (fun _ => id) (fun _ _ stopped => stopped.2))
      exact final.accepted
    · intro ready awake waits timed nothing
      have armedAwake := (waits.armed armed noError).1
      exact armedAwake.wait_timesOut (ahead ready awake waits) timed
        nothing

end Run

/-! ## The time that has passed -/

/-- In an iteration the client hears from the server. -/
def heard (ready : Ready) : Bool :=
  ready.stdout && (ready.stderr = none || ready.stderr = some .data)

/-- When something last happened, once an iteration is about to wait. -/
def activeAtWait (active : Nat) (client awake : Client) : Nat :=
  if client.receivedPowerOff || client.reachedTimeout then
    awake.clock.now
  else
    active

/-- When something last happened, once an iteration is over. -/
def activeBehind (active : Nat) (ready : Ready) (next : Client) : Nat :=
  if heard ready then next.clock.now else active

/--
A run of the main loop comes to a call of `select()`, in front of which the
client is `awake`, and something last happened at `since`: an automatic power
cycle began, or the server was heard, or the client came to its loop (`active`).
-/
inductive WaitsSince :
    List Ready → ClientLoop → Nat → Client → Nat → Prop where
  | here
      {ready : Ready}
      {rest : List Ready}
      {loop : ClientLoop}
      {active : Nat}
      {awake : Client}
      (running : loop.state.quit = false)
      (cycled : powerCycle loop.state = .ok () awake) :
      WaitsSince (ready :: rest) loop active awake
        (activeAtWait active loop.state awake)
  | later
      {first : Ready}
      {rest : List Ready}
      {loop next : ClientLoop}
      {active since : Nat}
      {between awake : Client}
      (running : loop.state.quit = false)
      (cycled : powerCycle loop.state = .ok () between)
      (step : iteration first loop = .ok () next)
      (waits :
        WaitsSince rest next
          (activeBehind (activeAtWait active loop.state between) first
            next.state)
          awake since) :
      WaitsSince (first :: rest) loop active awake since

/--
At a reading of the clock, `-t` has not run out since the client was started,
and `-T` has not run out since something happened.
-/
structure WithinLimits
    (options : ClientOptions)
    (started since now : Nat) : Prop where
  total :
    options.timeoutTotal ≠ 0 →
      (now : Int) ≤ started + options.timeoutTotal * 1000000
  inactivity :
    options.timeoutInactivity ≠ 0 →
      (now : Int) ≤ since + options.timeoutInactivity * 1000000

/-- The deadlines count from the start and from the last activity. -/
structure Timed
    (given : ClientOptions)
    (started active : Nat)
    (client : Client) : Prop where
  options : client.options = given
  total :
    client.timeoutTotalTv.micros =
      started + given.timeoutTotal * 1000000
  inactivity :
    given.timeoutInactivity ≠ 0 →
      client.timeoutInactivityTv.micros =
        active + given.timeoutInactivity * 1000000

section Times

variable {given : ClientOptions} {started active since : Nat}
variable {client awake : Client}
variable {loop next : ClientLoop} {iterations : List Ready}

theorem Timed.deadlinesAhead_iff
    (timed : Timed given started active client) :
    DeadlinesAhead client ↔
      WithinLimits given started active client.clock.tick.now := by
  constructor
  · rintro ⟨inactivity, total⟩
    rw [timed.options] at inactivity total
    exact
      { total := fun on => timed.total ▸ total on
        inactivity := fun on => timed.inactivity on ▸ inactivity on }
  · rintro ⟨total, inactivity⟩
    constructor
    · rw [timed.options]
      exact fun on => (timed.inactivity on).symm ▸ inactivity on
    · rw [timed.options]
      exact fun on => timed.total.symm ▸ total on

theorem Timed.serves
    (timed : Timed given started active client)
    (serves : Serves client awake) :
    Timed given started active awake where
  options := serves.options.trans timed.options
  total := serves.total.symm ▸ timed.total
  inactivity := serves.inactivity.symm ▸ timed.inactivity

/-- Between two readings of the clock the deadlines stay. -/
theorem timed_of_serving
    {program : ClientM α}
    (serving : Serving program) :
    Keeps (Timed given started active) (fun _ _ => True) program :=
  fun client timed =>
    (serving client).keepsAt (fun _ => timed.serves)
      fun _ _ _ _ => trivial

theorem armInactivity_apply
    (client : Client) :
    armInactivity client =
      .ok ()
        { client with
          clock := client.clock.tick
          timeoutInactivityTv :=
            (Timeval.ofMicros client.clock.tick.now).add
              ⟨client.options.timeoutInactivity, 0⟩ } :=
  rfl

theorem micros_getTimeout
    (now : Nat)
    (sec : Int) :
    ((Timeval.ofMicros now).add ⟨sec, 0⟩).micros =
      now + sec * 1000000 := by
  rw [Timeval.micros_add, Timeval.micros_ofMicros]
  simp [Timeval.micros]

/-- Arming starts the time of inactivity again. -/
theorem Timed.armed
    (timed : Timed given started active client) :
    KeepsAt
      (fun armed => Timed given started armed.clock.now armed)
      (fun _ _ => True) armInactivity client :=
  .of_ok (armInactivity_apply client)
    { options := timed.options
      total := timed.total
      inactivity := fun _ => by
        rw [micros_getTimeout, timed.options] }

/-- An automatic power cycle starts the time of inactivity again. -/
theorem powerCycle_timed
    (timed : Timed given started active client)
    (cycled : powerCycle client = .ok () awake) :
    Timed given started (activeAtWait active client awake) awake := by
  unfold powerCycle at cycled
  rw [bind_of_ok (read_apply _ _)] at cycled
  simp only [id] at cycled
  unfold activeAtWait
  split at cycled
  · rename_i begins
    rw [if_pos begins]
    split at cycled
    · cases cycled
    · split at cycled
      · cases cycled
      · obtain ⟨_, noticed, notice, cycled⟩ := bind_eq_ok cycled
        cases notice
        obtain ⟨_, changed, change, cycled⟩ := bind_eq_ok cycled
        cases change
        obtain ⟨_, asked, ask, cycled⟩ := bind_eq_ok cycled
        cases ask
        refine (@Timed.armed given started active _ ?_).returned cycled
        exact ⟨timed.options, timed.total, timed.inactivity⟩
  · rename_i stays
    rw [if_neg stays]
    cases cycled
    exact timed

/-- Computing the timeout reads the clock. -/
theorem selectTimeout_timed :
    Ensures (Timed given started active) selectTimeout
      fun _ => Timed given started active := by
  intro client _ awake timed computed
  unfold selectTimeout at computed
  rw [bind_of_ok (read_apply _ _)] at computed
  simp only [id] at computed
  split at computed
  · cases computed
    exact ⟨timed.options, timed.total, timed.inactivity⟩
  · cases computed
    exact timed

/-- `select()` tells what is ready, and leaves the deadlines. -/
theorem select_timed
    (timeout : Option Timeval)
    (ready : Ready) :
    Ensures (Timed given started active) (select timeout ready)
      fun shown client =>
        Timed given started active client ∧ heard shown = heard ready := by
  intro client shown awake timed selected
  unfold select at selected
  obtain ⟨_, recorded, record, selected⟩ := bind_eq_ok selected
  cases record
  rw [bind_of_ok (read_apply _ _)] at selected
  cases timeout with
  | none =>
      dsimp only at selected
      split at selected
      · cases selected
      · cases selected
        exact ⟨⟨timed.options, timed.total, timed.inactivity⟩, rfl⟩
  | some tv =>
      dsimp only at selected
      split at selected
      · cases selected
      · split at selected
        · cases selected
          exact ⟨⟨timed.options, timed.total, timed.inactivity⟩, rfl⟩
        · cases selected
          exact ⟨⟨timed.options, timed.total, timed.inactivity⟩, rfl⟩

theorem handleMessage_timed :
    Keeps (fun loop : ClientLoop => Timed given started active loop.state)
      (fun _ _ => True) handleMessage := by
  have dispatches :
      ∀ msg,
        Keeps (Timed given started active) (fun _ _ => True)
          (dispatch msg) := by
    intro msg
    refine .bind ?_ fun _ => timed_of_serving (handleType_serves _ _)
    exact fun client timed =>
      ⟨timed.options, timed.total, timed.inactivity⟩
  exact receive_keeps
    (fun client input timed =>
      ⟨timed.options, timed.total, timed.inactivity⟩)
    (fun _ _ => trivial) dispatches

/-- Hearing from the server starts the time of inactivity again. -/
theorem hear_timed :
    Ensures
      (fun loop : ClientLoop => Timed given started active loop.state)
      (do
        handleMessage
        let sec ← read fun loop : ClientLoop =>
          loop.state.options.timeoutInactivity
        onlyIf (sec ≠ 0) (within Receiver.stateOf armInactivity))
      fun _ loop =>
        Timed given started loop.state.clock.now loop.state := by
  intro loop _ next timed returned
  obtain ⟨_, handled, handles, returned⟩ := bind_eq_ok returned
  have kept := (handleMessage_timed loop timed).returned handles
  rw [bind_of_ok (read_apply _ _)] at returned
  unfold onlyIf at returned
  split at returned
  · obtain ⟨arms, _⟩ := within_eq_ok returned
    exact kept.armed.returned arms
  · rename_i off
    cases returned
    rw [decide_eq_true_eq, not_not, kept.options] at off
    exact ⟨kept.options, kept.total, fun on => absurd off on⟩

theorem tty_timed
    (ready : Ready) :
    Ensures
      (fun loop : ClientLoop => Timed given started active loop.state)
      (onlyIf ready.tty.isSome
        (within Receiver.stateOf (ttyCallback ready.tty.join)))
      fun _ loop => Timed given started active loop.state := by
  intro loop _ next timed returned
  unfold onlyIf at returned
  split at returned
  · obtain ⟨types, _⟩ := within_eq_ok returned
    exact (timed_of_serving (ttyCallback_serves _) _ timed).returned types
  · cases returned
    exact timed

theorem workPass_timed
    (ready : Ready) :
    Ensures
      (fun loop : ClientLoop =>
        Timed given started
          (if ready.stdout then loop.state.clock.now else active) loop.state)
      (onlyIf ready.stdin (within Receiver.stateOf workPass))
      fun _ loop =>
        Timed given started
          (if ready.stdout then loop.state.clock.now else active)
          loop.state := by
  intro loop _ next timed returned
  unfold onlyIf at returned
  split at returned
  · obtain ⟨passes, _⟩ := within_eq_ok returned
    have idles := (workPass_idles loop.state).related
    change workPass loop.state = _ at passes
    rw [passes] at idles
    have sameClock : next.state.clock = loop.state.clock := idles.clock
    rw [sameClock]
    exact timed.serves idles.serves
  · cases returned
    exact timed

/-- The end of an iteration starts it again just if the server is heard. -/
theorem serve_timed
    (ready : Ready) :
    Ensures
      (fun loop : ClientLoop => Timed given started active loop.state)
      (serve ready)
      fun _ loop =>
        Timed given started
          (if ready.stdout then loop.state.clock.now else active)
          loop.state := by
  refine .bind ?_ fun _ => workPass_timed ready
  cases ready.stdout with
  | false => exact .pure fun _ => id
  | true => exact hear_timed

/-- One iteration, from the power cycle at its start to its end. -/
theorem iteration_timed
    {ready : Ready}
    {between : Client}
    (timed : Timed given started active loop.state)
    (cycled : powerCycle loop.state = .ok () between)
    (step : iteration ready loop = .ok () next) :
    Timed given started
      (activeBehind (activeAtWait active loop.state between) ready
        next.state)
      next.state := by
  obtain ⟨shown, waited, waits, rest⟩ := bind_eq_ok step
  obtain ⟨waitsHere, _⟩ := within_eq_ok waits
  unfold waitReady at waitsHere
  change (powerCycle >>= fun _ => _) loop.state = _ at waitsHere
  rw [bind_of_ok cycled] at waitsHere
  obtain ⟨awake, same⟩ :=
    selectTimeout_timed.bind (fun timeout => select_timed timeout ready)
      _ _ _ (powerCycle_timed timed cycled) waitsHere
  obtain ⟨_, typed, types, rest⟩ := bind_eq_ok rest
  have behind :
      Timed given started (activeAtWait active loop.state between)
        typed.state :=
    tty_timed shown _ _ _ awake types
  unfold activeBehind
  rw [← same]
  unfold heard
  cases stderr : shown.stderr with
  | none =>
      rw [stderr] at rest
      simpa using serve_timed shown _ _ _ behind rest
  | some end_ =>
      rw [stderr] at rest
      cases end_ with
      | data => simpa using serve_timed shown _ _ _ behind rest
      | eof => cases rest
      | wouldBlock =>
          cases rest
          simpa using behind
      | fail => cases rest

/-- What is waited for with a time of activity is waited for. -/
theorem WaitsSince.waits
    {active : Nat}
    (waits : WaitsSince iterations loop active awake since) :
    ∃ ready, Waits iterations loop ready awake := by
  induction waits with
  | here running cycled => exact ⟨_, .here running cycled⟩
  | later running cycled step waits inductionHypothesis =>
      obtain ⟨ready, later⟩ := inductionHypothesis
      exact ⟨ready, .later running step later⟩

/-- An iteration that comes to its end came to its `select()`. -/
theorem powerCycle_of_iteration
    {ready : Ready}
    (step : iteration ready loop = .ok () next) :
    ∃ between, powerCycle loop.state = .ok () between := by
  obtain ⟨shown, waited, waits, _⟩ := bind_eq_ok step
  obtain ⟨waitsHere, _⟩ := within_eq_ok waits
  obtain ⟨_, between, cycled, _⟩ := bind_eq_ok waitsHere
  exact ⟨between, cycled⟩

theorem Waits.counted
    {ready : Ready}
    (waits : Waits iterations loop ready awake)
    (active : Nat) :
    ∃ since, WaitsSince iterations loop active awake since := by
  induction waits generalizing active with
  | here running cycled => exact ⟨_, .here running cycled⟩
  | later running step waits inductionHypothesis =>
      obtain ⟨between, cycled⟩ := powerCycle_of_iteration step
      obtain ⟨since, later⟩ := inductionHypothesis _
      exact ⟨since, .later running cycled step later⟩

/-- At every wait the deadlines count from the times of the run. -/
theorem WaitsSince.timed
    {active : Nat}
    (waits : WaitsSince iterations loop active awake since)
    (timed : Timed given started active loop.state) :
    Timed given started since awake := by
  induction waits with
  | here running cycled => exact powerCycle_timed timed cycled
  | later running cycled step waits inductionHypothesis =>
      exact inductionHypothesis (iteration_timed timed cycled step)

/-- In terms of the times of the run, no deadline has passed at a wait. -/
theorem deadlinesAhead_iff
    (timed : Timed given started active loop.state) :
    (∀ ready awake,
      Waits iterations loop ready awake → DeadlinesAhead awake) ↔
      ∀ awake since,
        WaitsSince iterations loop active awake since →
        WithinLimits given started since awake.clock.tick.now := by
  constructor
  · intro ahead awake since waits
    obtain ⟨ready, waitsHere⟩ := waits.waits
    exact (waits.timed timed).deadlinesAhead_iff.mp
      (ahead ready awake waitsHere)
  · intro within ready awake waits
    obtain ⟨since, waitsSince⟩ := waits.counted active
    exact (waitsSince.timed timed).deadlinesAhead_iff.mpr
      (within awake since waitsSince)

end Times

/-- The client when `main` enters its loop. -/
def afterSetUp
    (verb : Verb)
    (statusPipe : Bool)
    (loop : ClientLoop) :
    ClientLoop :=
  finalState (within Receiver.stateOf (setUp verb statusPipe) loop)

theorem setUp_inTime
    (verb : Verb)
    (statusPipe : Bool) :
    InTime (setUp verb statusPipe) := by
  have requests : ∀ work, InTime (requestWork work) :=
    fun work => inTime_of_idling (requestWork_idles work)
  have arms : InTime setDeadlines :=
    fun _ armed =>
      { inactivity := normalised_getTimeout _ _
        total := normalised_getTimeout _ _
        accepted := armed.accepted }
  have rest : InTime (afterRequest statusPipe) :=
    .bind
      (.onlyIf
        (.bind (inTime_of_idling (update_idles fun _ => rfl))
          fun _ => requests _))
      fun _ => arms
  cases verb with
  | boot board =>
      exact .bind (inTime_of_idling (update_idles fun _ => rfl))
        fun _ => .bind (requests _) fun _ => rest
  | list => exact .bind (requests _) fun _ => rest
  | info board => exact .bind (requests _) fun _ => rest

/-- The deadlines are proper when the loop is entered. -/
theorem afterSetUp_armed
    (options : ClientOptions)
    (powerCycles : Int)
    (writes : List WriteOutcome)
    (sshStdout : Input)
    (clock : Clock)
    (beyond : UInt8)
    (verb : Verb)
    (statusPipe : Bool) :
    Armed
      (afterSetUp verb statusPipe
        (start options powerCycles writes sshStdout clock beyond)).state := by
  have zero : Timeval.Normalised ⟨0, 0⟩ := by decide
  have initially :
      Armed (initial options powerCycles writes sshStdout clock beyond) :=
    { inactivity := zero
      total := zero
      accepted := by simp [initial] }
  have kept := within_inTime (setUp_inTime verb statusPipe)
    (start options powerCycles writes sshStdout clock beyond) initially
  exact KeepsAt.final
    (fun loop : ClientLoop => Armed loop.state)
    (KeepsAt.mono kept (fun _ => id) (fun _ _ stopped => stopped.2))

/-- The deadlines count from the first two readings of the clock. -/
theorem afterSetUp_timed
    (options : ClientOptions)
    (powerCycles : Int)
    (writes : List WriteOutcome)
    (sshStdout : Input)
    (clock : Clock)
    (beyond : UInt8)
    (verb : Verb)
    (statusPipe : Bool) :
    Timed options clock.tick.now clock.tick.tick.now
      (afterSetUp verb statusPipe
        (start options powerCycles writes sshStdout clock beyond)).state := by
  cases verb <;> cases statusPipe <;>
    exact ⟨rfl, micros_getTimeout _ _, fun _ => micros_getTimeout _ _⟩

/--
In every run of the client the deadlines expire through the timeout path if and
only if it always gets back to `select()` in time: before `-t` has run out since
it was started, and before `-T` has run out since it was started, began an
automatic power cycle or heard from the server.
-/
theorem deadlines_expire_iff
    (options : ClientOptions)
    (powerCycles : Int)
    (writes : List WriteOutcome)
    (sshStdout : Input)
    (clock : Clock)
    (beyond : UInt8)
    (verb : Verb)
    (statusPipe : Bool)
    (iterations : List Ready) :
    ExpiresInTime iterations
        (afterSetUp verb statusPipe
          (start options powerCycles writes sshStdout clock beyond)) ↔
      ∀ awake since,
        WaitsSince iterations
            (afterSetUp verb statusPipe
              (start options powerCycles writes sshStdout clock beyond))
            clock.tick.tick.now awake since →
          WithinLimits options clock.tick.now since
            awake.clock.tick.now :=
  (expiresInTime_iff
      (afterSetUp_armed options powerCycles writes sshStdout clock beyond
        verb statusPipe)).trans
    (deadlinesAhead_iff
      (afterSetUp_timed options powerCycles writes sshStdout clock beyond
        verb statusPipe))

/-- A client with one power cycle left that gives up after a second. -/
def oneSecondRun : ClientLoop :=
  afterSetUp (.boot (ascii "db410c")) false
    (start ⟨1, 0, true, false, none, false, []⟩ 1 [] ⟨⟨[], false⟩, []⟩
      ⟨0, [0, 0, 0, 1]⟩ 0)

/-- The first wait of this client is in time. -/
theorem firstSecond_expires :
    ExpiresInTime [nothingReady] oneSecondRun := by
  refine (deadlines_expire_iff _ _ _ _ _ _ _ _ _).mpr ?_
  intro awake since waits
  cases waits with
  | here running cycled =>
      have first :
          powerCycle oneSecondRun.state = .ok () oneSecondRun.state := by
        rfl
      have same := first.symm.trans cycled
      cases same
      exact
        { total := fun _ => by decide
          inactivity := fun on => absurd rfl on }
  | later running cycled step waits => cases waits

/--
The total deadline is reached and the client starts its power cycle; as that
deadline is not armed again, the next `select()` fails.
-/
theorem powerCycleAfterTotal_fails :
    stopped? (mainLoop [nothingReady, nothingReady] oneSecondRun) =
        some (.err "select") ∧
      ¬ExpiresInTime [nothingReady, nothingReady] oneSecondRun := by
  have failed :
      stopped? (mainLoop [nothingReady, nothingReady] oneSecondRun) =
        some (.err "select") := by
    decide +kernel
  exact ⟨failed, fun expires => expires.noError failed⟩

end Client

end Cdba
