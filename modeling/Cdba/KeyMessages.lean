import Cdba.Background
import Cdba.PowerDown
import Cdba.PowerSequence
import Mathlib.Data.List.Induction

namespace Cdba

/-!
# Key messages and release timers

A client presses, releases or pulses a key of the selected board.  A pulse
presses the key and arms a timer that releases it; the timer only knows the
number of the key, and no later message cancels it.
-/

open Program

variable {n : Nat}

/-! ## Commands -/

/-- `KEY_PRESS_RELEASE`, `KEY_PRESS_PRESS` and `KEY_PRESS_PULSE` -/
inductive KeyCommand where
  | release
  | press
  | pulse
  deriving DecidableEq, Repr

/-- The `state` member of `struct key_press`. -/
def KeyCommand.state : KeyCommand → UInt8
  | .release => 0
  | .press => 1
  | .pulse => 2

/-- What happens to the keys of a board outside of a power-on sequence. -/
inductive KeyInput where
  /-- A well-formed `MSG_KEY_PRESS`. -/
  | message (key : UInt8) (command : KeyCommand)
  /-- The server invokes the timers that have expired. -/
  | expire
  deriving DecidableEq

/-- The same as an input of the board. -/
def KeyInput.boardInput : KeyInput → BoardInput
  | .message key command => .key [key, command.state]
  | .expire => .expire

/-- The command of an input for a key. -/
def KeyInput.command? (key : UInt8) : KeyInput → Option KeyCommand
  | .message other command => if other = key then some command else none
  | .expire => none

/-- The last command for a key. -/
def lastCommand (key : UInt8) (inputs : List KeyInput) : Option KeyCommand :=
  (inputs.filterMap (KeyInput.command? key)).getLast?

/-- The state in which a sequence of such inputs leaves the server. -/
def afterKeys (server : Server n) (inputs : List KeyInput) : Server n :=
  afterInputs server (inputs.map KeyInput.boardInput)

/-- A call of the `key` operation of a device for one key. -/
def Event.keyCall (device : Fin n) (key : Nat) : Event n → Option Bool
  | .key called number asserted =>
      if called = device ∧ number = key then some asserted else none
  | _ => none

/-- Whether an event is a call of the `key` operation. -/
def Event.isKey : Event n → Bool
  | .key _ _ _ => true
  | _ => false

/-- The level of a key at the driver: that of the last call for it. -/
def Hw.keyLevel (device : Fin n) (key : Nat) (hw : Hw n) : Option Bool :=
  lastCall (Event.keyCall device key) hw.log

/-- A timer will release a key. -/
def Hw.ReleasePending (key : Nat) (hw : Hw n) : Prop :=
  ∃ timer, timer ∈ hw.timers ∧ timer.cb = .msgKeyRelease key

instance
    (key : Nat)
    (hw : Hw n) :
    Decidable (hw.ReleasePending key) :=
  inferInstanceAs (Decidable (∃ timer, timer ∈ hw.timers ∧ _))

/-- A board with keys is selected; no sequence runs, no key is being pulsed. -/
structure KeysIdle (device : Fin n) (server : Server n) : Prop where
  selected : server.selectedDevice = some device
  hasKey : (server.hw.devices device).hasControl .key = true
  idle : ∀ timer, timer ∈ server.hw.timers → timer.cb.Background

/-- The level of a key is what its last command says. -/
def LevelFollows : Option KeyCommand → Option Bool → Prop
  | none, _ => True
  | some .press, level => level = some true
  | some .release, level => level = some false
  | some .pulse, level => level = some false

/-- Nothing releases a key within 100 ms of a pulse but a message that does. -/
def PulseHolds
    (server : Server n)
    (device : Fin n)
    (key : UInt8)
    (before middle : List KeyInput) :
    Prop :=
  ∃ asserted later,
    (afterKeys server (before ++ .message key .pulse :: middle)).hw.log =
        (afterKeys server before).hw.log ++
          ⟨asserted, .key device key.toNat true⟩ :: later ∧
      ∀ event, event ∈ later →
        event.value = .key device key.toNat false →
        asserted + 100000 ≤ event.time

/-- The last command wins, and pulses last. -/
structure KeyCommandsWin
    (device : Fin n)
    (server : Server n)
    (inputs : List KeyInput) :
    Prop where
  levels :
    (∀ key, ¬ (afterKeys server inputs).hw.ReleasePending key) →
    ∀ key,
      LevelFollows (lastCommand key inputs)
        ((afterKeys server inputs).hw.keyLevel device key.toNat)
  pulses :
    ∀ before key middle after,
      inputs = before ++ .message key .pulse :: (middle ++ after) →
      .message key .release ∉ middle →
      PulseHolds server device key before middle

/-! ## What a command does -/

/-- The state after a call of the `key` operation. -/
def Hw.keyed
    (device : Fin n)
    (key : Nat)
    (asserted : Bool)
    (hw : Hw n) :
    Hw n :=
  { hw with
    clock := hw.clock.tick
    log := hw.log ++ [⟨hw.clock.tick.now, .key device key asserted⟩] }

/-- The timer of a pulse, given the clock when it is armed. -/
def releaseTimer (now : Nat) (key : Nat) : Timer (TimerCallback n) where
  tv := (Timeval.ofMicros now).add ⟨0, 100000⟩
  cb := .msgKeyRelease key

/-- It expires 100 ms later. -/
theorem releaseTimer_due
    (now key : Nat) :
    (releaseTimer (n := n) now key).tv.Normalised ∧
      (releaseTimer (n := n) now key).tv.micros = now + 100000 := by
  have delay : (⟨0, 100000⟩ : Timeval).Normalised := by decide
  have duration : (⟨0, 100000⟩ : Timeval).micros = 100000 := rfl
  simp only [releaseTimer]
  constructor
  · exact Timeval.normalised_add (Timeval.normalised_ofMicros now) delay
  · rw [Timeval.micros_add, Timeval.micros_ofMicros, duration]

/-- The state after a command for a key of the selected board. -/
def Hw.commanded
    (device : Fin n)
    (key : Nat)
    (command : KeyCommand)
    (hw : Hw n) :
    Hw n :=
  match command with
  | .release => hw.keyed device key false
  | .press => hw.keyed device key true
  | .pulse =>
      let pressed := hw.keyed device key true
      { pressed with
        clock := pressed.clock.tick
        timers := hw.timers ++ [releaseTimer pressed.clock.tick.now key] }

theorem deviceKey_eq
    {device : Fin n}
    {hw : Hw n}
    (hasKey : (hw.devices device).hasControl .key = true)
    (key : Nat)
    (asserted : Bool) :
    deviceKey (some device) key asserted hw =
      .ok () (hw.keyed device key asserted) := by
  unfold deviceKey deref
  rw [pure_bind, bind_of_ok (read_apply _ _), hasKey]
  rfl

theorem msgKeyPress_eq
    {device : Fin n}
    {hw : Hw n}
    (hasKey : (hw.devices device).hasControl .key = true)
    (key : UInt8)
    (command : KeyCommand) :
    msgKeyPress (some device) [key, command.state] hw =
      .ok () (hw.commanded device key.toNat command) := by
  cases command with
  | release => exact deviceKey_eq hasKey key.toNat false
  | press => exact deviceKey_eq hasKey key.toNat true
  | pulse =>
      have pressed := deviceKey_eq hasKey key.toNat true
      exact bind_of_ok pressed _

theorem Event.isKey_of_background
    {event : Event n}
    (background : event.Background) :
    event.isKey = false := by
  cases event with
  | key device key asserted => exact background.elim
  | _ => rfl

/-- Events that are no calls of the operation do not count. -/
theorem lastCall_keyCall_of_not_isKey
    {events : List (Stamped (Event n))}
    (noKey : ∀ event, event ∈ events → event.value.isKey = false)
    (device : Fin n)
    (key : Nat) :
    lastCall (Event.keyCall device key) events = none := by
  have none :
      events.filterMap (fun event => event.value.keyCall device key) = [] := by
    rw [List.filterMap_eq_nil_iff]
    intro event member
    have other := noKey event member
    cases value : event.value with
    | key d k asserted =>
        rw [value] at other
        cases other
    | _ => rfl
  rw [lastCall, none]
  rfl

/-- A call sets the level of its key, and of no other. -/
theorem Hw.keyed_level
    (device : Fin n)
    (key : Nat)
    (asserted : Bool)
    (hw : Hw n)
    (other : Fin n)
    (query : Nat) :
    (hw.keyed device key asserted).keyLevel other query =
      if device = other ∧ key = query then
        some asserted
      else
        hw.keyLevel other query := by
  unfold keyLevel keyed
  rw [lastCall_append]
  by_cases same : device = other ∧ key = query
  · simp [lastCall, Event.keyCall, same]
  · simp [lastCall, Event.keyCall, same]

theorem Hw.commanded_level
    (device : Fin n)
    (key : Nat)
    (command : KeyCommand)
    (hw : Hw n)
    (other : Nat) :
    (hw.commanded device key command).keyLevel device other =
      if key = other then
        some (decide (command ≠ .release))
      else
        hw.keyLevel device other := by
  have called :
      ∀ asserted,
        (hw.keyed device key asserted).keyLevel device other =
          if key = other then some asserted else hw.keyLevel device other := by
    intro asserted
    simp only [keyed_level, true_and]
  cases command with
  | release => exact called false
  | press => exact called true
  | pulse => exact called true

/-- Only a pulse arms a timer, and only for its own key. -/
theorem Hw.commanded_pending
    {device : Fin n}
    {key other : Nat}
    {command : KeyCommand}
    {hw : Hw n}
    (pending : (hw.commanded device key command).ReleasePending other) :
    hw.ReleasePending other ∨ command = .pulse ∧ key = other := by
  obtain ⟨timer, member, releases⟩ := pending
  cases command with
  | release => exact .inl ⟨timer, member, releases⟩
  | press => exact .inl ⟨timer, member, releases⟩
  | pulse =>
      rcases List.mem_append.mp member with old | new
      · exact .inl ⟨timer, old, releases⟩
      · rw [List.mem_singleton.mp new] at releases
        exact .inr ⟨rfl, TimerCallback.msgKeyRelease.inj releases⟩

/-! ## Invariants of a board whose keys are operated -/

/-- A board with keys is selected, and no power-on sequence runs. -/
structure KeysOnly (device : Fin n) (server : Server n) : Prop where
  selected : server.selectedDevice = some device
  hasKey : (server.hw.devices device).hasControl .key = true
  own :
    ∀ timer, timer ∈ server.hw.timers →
      timer.cb.Background ∨ ∃ key, timer.cb = .msgKeyRelease key

/-- In between no key was operated, and no timer that releases one changed. -/
structure Hw.KeysRest (first last : Hw n) : Prop where
  logged :
    ∃ events,
      last.log = first.log ++ events ∧
        ∀ event, event ∈ events → event.value.Background
  releases :
    ∀ timer key, timer.cb = .msgKeyRelease key →
      (timer ∈ last.timers ↔ timer ∈ first.timers)
  clock : first.clock.now ≤ last.clock.now

/-- What a timer that releases a key leaves behind when it is visited. -/
def Hw.released
    (device : Fin n)
    (key position : Nat)
    (hw : Hw n) :
    Hw n :=
  { hw.keyed device key false with timers := hw.timers.eraseIdx position }

/-- What holds however keys rest, and when an expired timer releases one. -/
structure KeyInvariant
    (device : Fin n)
    (invariant : Hw n → Prop) :
    Prop where
  rest :
    ∀ {first last}, invariant first → first.KeysRest last → invariant last
  released :
    ∀ {hw : Hw n} {position key now : Nat} {timer : Timer (TimerCallback n)},
      invariant hw →
      hw.timers[position]? = some timer →
      timer.cb = .msgKeyRelease key →
      timer.tv.lt (Timeval.ofMicros now) = true →
      now ≤ hw.clock.now →
      invariant (hw.released device key position)

section KeyInvariant

variable {device : Fin n} {invariant : Hw n → Prop}

/-- The state between visits of a pass that began at some time. -/
abbrev Expiring
    (device : Fin n)
    (invariant : Hw n → Prop)
    (now : Nat)
    (server : Server n) :
    Prop :=
  KeysOnly device server ∧ invariant server.hw ∧ now ≤ server.hw.clock.now

/-- A timer that releases a key is visited. -/
theorem KeyInvariant.visit_release
    (isInvariant : KeyInvariant device invariant)
    {server : Server n}
    {position key now : Nat}
    {timer : Timer (TimerCallback n)}
    (expiring : Expiring device invariant now server)
    (found : server.hw.timers[position]? = some timer)
    (releases : timer.cb = .msgKeyRelease key)
    (expired : timer.tv.lt (Timeval.ofMicros now) = true) :
    fireTimer timer.cb server =
        .ok () { server with hw := server.hw.keyed device key false } ∧
      Expiring device invariant now
        { server with hw := server.hw.released device key position } := by
  obtain ⟨keysOnly, holds, clock⟩ := expiring
  refine ⟨?_, ⟨⟨keysOnly.selected, keysOnly.hasKey, ?_⟩, ?_, ?_⟩⟩
  · rw [releases]
    exact (onSelected_some _ keysOnly.selected).trans
      (onHw_of_ok (deviceKey_eq keysOnly.hasKey key false))
  · intro other member
    exact keysOnly.own other (List.mem_of_mem_eraseIdx member)
  · exact isInvariant.released holds found releases expired clock
  · exact Nat.le_trans clock (Clock.now_le_tick _)

/-- Another timer is visited: it may arm one more for later. -/
theorem KeyInvariant.visit_background
    (isInvariant : KeyInvariant device invariant)
    {server : Server n}
    {position now : Nat}
    {timer : Timer (TimerCallback n)}
    (expiring : Expiring device invariant now server)
    (found : server.hw.timers[position]? = some timer)
    (background : timer.cb.Background) :
    ∃ fired added,
      fireTimer timer.cb server = .ok () { server with hw := fired } ∧
        fired.timers = server.hw.timers ++ added ∧
        added.length ≤ 1 ∧
        (∀ timer, timer ∈ added →
          timer.tv.lt (Timeval.ofMicros now) = false) ∧
        Expiring device invariant now
          { server with
            hw :=
              { fired with timers := fired.timers.eraseIdx position } } := by
  obtain ⟨keysOnly, holds, clock⟩ := expiring
  have inside := (List.getElem?_eq_some_iff.mp found).1
  have other :
      ∀ query key, query.cb = .msgKeyRelease key → query ≠ timer := by
    rintro query key releases rfl
    rw [releases] at background
    exact background
  have ticked := Clock.now_le_tick server.hw.clock
  cases cb : timer.cb with
  | deviceTick d =>
      rw [cb] at background
      exact background.elim
  | msgKeyRelease key =>
      rw [cb] at background
      exact background.elim
  | cdbAssistPrintStatus d =>
      refine ⟨_, [], rfl, (List.append_nil _).symm, by simp, by simp,
        ⟨keysOnly.selected, keysOnly.hasKey, ?_⟩, ?_, ?_⟩
      · intro query member
        exact keysOnly.own query (List.mem_of_mem_eraseIdx member)
      · refine isInvariant.rest holds ⟨⟨_, rfl, ?_⟩, ?_, ticked⟩
        · intro event member
          rw [List.mem_singleton.mp member]
          trivial
        · intro query key releases
          exact mem_eraseIdx_of_ne found (other query key releases)
      · exact Nat.le_trans clock ticked
  | qcomltDbgRequestStatus d =>
      let armed : Timer (TimerCallback n) :=
        ⟨(Timeval.ofMicros server.hw.clock.tick.now).add ⟨0, 200000⟩,
          .qcomltDbgRequestStatus d⟩
      let fired : Hw n :=
        { server.hw with
          clock := server.hw.clock.tick
          timers := server.hw.timers ++ [armed] }
      have fires :
          fireTimer (.qcomltDbgRequestStatus d) server =
            .ok () { server with hw := fired } :=
        rfl
      have delayed :=
        Timeval.not_lt_of_delayed ⟨0, 200000⟩ (Nat.le_trans clock ticked)
          (by decide) (by decide)
      have later : armed.tv.lt (Timeval.ofMicros now) = false := by
        dsimp only [armed]
        exact delayed
      have erased :
          fired.timers.eraseIdx position =
            server.hw.timers.eraseIdx position ++ [armed] :=
        List.eraseIdx_append_of_lt_length inside _
      refine ⟨fired, [armed], fires, rfl, by simp, by simpa using later,
        ⟨keysOnly.selected, keysOnly.hasKey, ?_⟩, ?_,
        Nat.le_trans clock ticked⟩
      · intro query member
        rcases List.mem_append.mp (List.mem_of_mem_eraseIdx member) with
          old | new
        · exact keysOnly.own query old
        · rw [List.mem_singleton.mp new]
          exact .inl trivial
      · refine isInvariant.rest holds
          ⟨⟨[], (List.append_nil _).symm, by simp⟩, ?_, ticked⟩
        intro query key releases
        have fresh : query ≠ armed := by
          rintro rfl
          cases releases
        dsimp only
        rw [erased, List.mem_append, List.mem_singleton,
          or_iff_left fresh]
        exact mem_eraseIdx_of_ne found (other query key releases)

/-- A pass over the timers returns, and keeps every invariant of the keys. -/
theorem KeyInvariant.expire
    (isInvariant : KeyInvariant device invariant)
    {server : Server n}
    (keysOnly : KeysOnly device server)
    (holds : invariant server.hw) :
    ∃ final,
      boardInput KeyInput.expire.boardInput server = .ok () final ∧
        KeysOnly device final ∧
        invariant final.hw := by
  let clocked : Server n :=
    { server with hw := { server.hw with clock := server.hw.clock.tick } }
  have reads :
      onHw gettimeofday server =
        .ok (Timeval.ofMicros clocked.hw.clock.now) clocked :=
    rfl
  have rests : server.hw.KeysRest clocked.hw :=
    { logged := ⟨[], (List.append_nil _).symm, by simp⟩
      releases := fun _ _ _ => Iff.rfl
      clock := Clock.now_le_tick _ }
  have begun :
      Expiring device invariant clocked.hw.clock.now clocked :=
    ⟨⟨keysOnly.selected, keysOnly.hasKey, keysOnly.own⟩,
      isInvariant.rest holds rests, Nat.le_refl _⟩
  have enough :
      visitsLeft (Timeval.ofMicros clocked.hw.clock.now)
          (Server.timersOf.get clocked) 0 <
        8 * (server.hw.timers.length + 1) := by
    have counted :=
      List.countP_le_length
        (l := server.hw.timers)
        (p := fun timer =>
          timer.tv.lt (Timeval.ofMicros clocked.hw.clock.now))
    unfold visitsLeft
    rw [List.drop_zero]
    change server.hw.timers.length + server.hw.timers.countP _ < _
    omega
  have pass :
      ∃ final,
        watchTimerInvokeLoop Server.timersOf fireTimer .diverges
            (Timeval.ofMicros clocked.hw.clock.now)
            (8 * (server.hw.timers.length + 1)) 0 clocked =
          .ok () final ∧
        Expiring device invariant clocked.hw.clock.now final := by
    refine watchTimerInvokeLoop_returns ?_ _ begun enough
    intro state position timer expiring found expired
    rcases expiring.1.own timer (List.mem_of_getElem? found) with
      background | ⟨key, releases⟩
    · obtain ⟨fired, added, fires, grown, atMostOne, later, kept⟩ :=
        isInvariant.visit_background expiring found background
      exact ⟨_, added, fires, grown, atMostOne, later, kept⟩
    · obtain ⟨fires, kept⟩ :=
        isInvariant.visit_release expiring found releases expired
      exact ⟨_, [], fires, (List.append_nil _).symm, by simp, by simp,
        kept⟩
  obtain ⟨final, passes, kept⟩ := pass
  refine ⟨final, ?_, kept.1, kept.2.1⟩
  change invokeTimers server = .ok () final
  unfold invokeTimers watchTimerInvoke
  rw [bind_of_ok reads, bind_of_ok (read_apply _ _)]
  exact passes

/-- A message operates the key that it names. -/
theorem KeysOnly.message
    {server : Server n}
    (keysOnly : KeysOnly device server)
    (key : UInt8)
    (command : KeyCommand) :
    boardInput (KeyInput.boardInput (.message key command)) server =
        .ok () { server with
          hw := server.hw.commanded device key.toNat command } ∧
      KeysOnly device { server with
        hw := server.hw.commanded device key.toNat command } := by
  have handled := msgKeyPress_eq keysOnly.hasKey key command
  constructor
  · exact (onSelected_some _ keysOnly.selected).trans (onHw_of_ok handled)
  · refine ⟨keysOnly.selected, ?_, ?_⟩
    · cases command with
      | release => exact keysOnly.hasKey
      | press => exact keysOnly.hasKey
      | pulse => exact keysOnly.hasKey
    · intro timer member
      cases command with
      | release => exact keysOnly.own timer member
      | press => exact keysOnly.own timer member
      | pulse =>
          rcases List.mem_append.mp member with old | new
          · exact keysOnly.own timer old
          · rw [List.mem_singleton.mp new]
            exact .inr ⟨_, rfl⟩

/-- Every input is handled and leaves a board whose keys are operated. -/
theorem KeysOnly.input
    {server : Server n}
    (keysOnly : KeysOnly device server)
    (input : KeyInput) :
    ∃ final,
      boardInput input.boardInput server = .ok () final ∧
        KeysOnly device final := by
  cases input with
  | message key command => exact ⟨_, keysOnly.message key command⟩
  | expire =>
      have always : KeyInvariant device fun _ : Hw n => True :=
        { rest := fun _ _ => trivial
          released := fun _ _ _ _ _ => trivial }
      obtain ⟨final, passes, kept, _⟩ := always.expire keysOnly trivial
      exact ⟨final, passes, kept⟩

theorem afterKeys_append
    {server : Server n}
    (keysOnly : KeysOnly device server)
    (before after : List KeyInput) :
    KeysOnly device (afterKeys server before) ∧
      afterKeys server (before ++ after) =
        afterKeys (afterKeys server before) after := by
  induction before generalizing server with
  | nil => exact ⟨keysOnly, rfl⟩
  | cons input rest inductionHypothesis =>
      obtain ⟨next, handled, kept⟩ := keysOnly.input input
      have first :
          ∀ later,
            afterKeys server (input :: later) = afterKeys next later := by
        intro later
        unfold afterKeys afterInputs
        rw [List.map_cons, each, bind_of_ok handled]
      rw [List.cons_append, first, first]
      exact inductionHypothesis kept

/-- The last step of a run. -/
theorem afterKeys_concat
    {server final : Server n}
    {inputs : List KeyInput}
    {input : KeyInput}
    (keysOnly : KeysOnly device server)
    (handled :
      boardInput input.boardInput (afterKeys server inputs) =
        .ok () final) :
    afterKeys server (inputs ++ [input]) = final := by
  rw [(afterKeys_append keysOnly inputs [input]).2, afterKeys, afterInputs,
    List.map_cons, List.map_nil, each, bind_of_ok handled]
  rfl

end KeyInvariant

/-! ## Levels -/

/-- The level of a key, and whether a timer will release it. -/
def CommandFollows (pending : Prop) (level : Option Bool) :
    Option KeyCommand → Prop
  | none => True
  | some .release => level = some false
  | some .press => level = some true ∧ ¬ pending
  | some .pulse => pending ∨ level = some false

/-- The levels follow the last commands, once no timer is pending. -/
def LevelsFollow
    (device : Fin n)
    (inputs : List KeyInput)
    (hw : Hw n) :
    Prop :=
  ∀ key,
    CommandFollows (hw.ReleasePending key.toNat)
      (hw.keyLevel device key.toNat) (lastCommand key inputs)

theorem Hw.KeysRest.keyLevel
    {first last : Hw n}
    (rest : first.KeysRest last)
    (device : Fin n)
    (key : Nat) :
    last.keyLevel device key = first.keyLevel device key := by
  obtain ⟨events, log, background⟩ := rest.logged
  unfold Hw.keyLevel
  rw [log, lastCall_append, lastCall_keyCall_of_not_isKey
    (fun event member => Event.isKey_of_background (background event member))]
  rfl

theorem Hw.KeysRest.pending_iff
    {first last : Hw n}
    (rest : first.KeysRest last)
    (key : Nat) :
    last.ReleasePending key ↔ first.ReleasePending key := by
  unfold Hw.ReleasePending
  apply exists_congr
  intro timer
  constructor
  · rintro ⟨member, releases⟩
    exact ⟨(rest.releases timer key releases).mp member, releases⟩
  · rintro ⟨member, releases⟩
    exact ⟨(rest.releases timer key releases).mpr member, releases⟩

/-- A timer that fires releases its key, which no press is holding. -/
theorem levelsFollow_invariant
    (device : Fin n)
    (inputs : List KeyInput) :
    KeyInvariant device (LevelsFollow device inputs) where
  rest := by
    intro first last follows rest key
    have followed := follows key
    unfold CommandFollows at followed ⊢
    rwa [rest.keyLevel, rest.pending_iff]
  released := by
    intro hw position released now timer follows found releases _ _ key
    have followed := follows key
    have level := hw.keyed_level device released false device key.toNat
    simp only [true_and] at level
    by_cases same : released = key.toNat
    · rw [if_pos same] at level
      have pending : hw.ReleasePending key.toNat :=
        ⟨timer, List.mem_of_getElem? found, same ▸ releases⟩
      cases commanded : lastCommand key inputs with
      | none => trivial
      | some last =>
          rw [commanded] at followed
          cases last with
          | release => exact level
          | press => exact absurd pending followed.2
          | pulse => exact .inr level
    · rw [if_neg same] at level
      have stays :
          (hw.released device released position).ReleasePending key.toNat ↔
            hw.ReleasePending key.toNat := by
        apply exists_congr
        intro other
        apply and_congr_left
        intro releasesKey
        apply mem_eraseIdx_of_ne found
        rintro rfl
        rw [releases] at releasesKey
        exact same (TimerCallback.msgKeyRelease.inj releasesKey)
      change CommandFollows _
        ((hw.keyed device released false).keyLevel device key.toNat) _
      unfold CommandFollows at followed ⊢
      rwa [stays, level]

theorem lastCommand_concat
    (key : UInt8)
    (inputs : List KeyInput)
    (input : KeyInput) :
    lastCommand key (inputs ++ [input]) =
      (input.command? key).or (lastCommand key inputs) := by
  unfold lastCommand
  rw [List.filterMap_append, List.getLast?_append]
  congr 1
  cases command : input.command? key with
  | none => simp [command]
  | some found => simp [command]

/-- A message sets the level of its key, unless a timer is in its way. -/
theorem LevelsFollow.message
    {device : Fin n}
    {inputs : List KeyInput}
    {hw : Hw n}
    {key : UInt8}
    {command : KeyCommand}
    (follows : LevelsFollow device inputs hw)
    (spaced : command ≠ .release → ¬ hw.ReleasePending key.toNat) :
    LevelsFollow device (inputs ++ [.message key command])
      (hw.commanded device key.toNat command) := by
  intro other
  have followed := follows other
  have level := hw.commanded_level device key.toNat command other.toNat
  rw [lastCommand_concat]
  by_cases same : key = other
  · subst same
    rw [if_pos rfl] at level
    rw [KeyInput.command?, if_pos rfl, Option.some_or]
    cases command with
    | release => exact level
    | press => exact ⟨level, spaced KeyCommand.noConfusion⟩
    | pulse =>
        exact .inl ⟨_, List.mem_append_right _ List.mem_cons_self, rfl⟩
  · have different : key.toNat ≠ other.toNat := fun numbers =>
      same (UInt8.toNat_inj.mp numbers)
    rw [if_neg different] at level
    rw [KeyInput.command?, if_neg same, Option.none_or]
    have stays :
        (hw.commanded device key.toNat command).ReleasePending
            other.toNat ↔
          hw.ReleasePending other.toNat := by
      constructor
      · intro pending
        rcases Hw.commanded_pending pending with old | ⟨_, isOther⟩
        · exact old
        · exact absurd isOther different
      · rintro ⟨timer, member, releases⟩
        cases command with
        | release => exact ⟨timer, member, releases⟩
        | press => exact ⟨timer, member, releases⟩
        | pulse =>
            exact ⟨timer, List.mem_append_left _ member, releases⟩
    unfold CommandFollows at followed ⊢
    rwa [stays, level]

/-! ## Pulses -/

/-- Nothing has released a key since a pulse, or 100 ms have passed. -/
structure PulseLasts
    (device : Fin n)
    (key : Nat)
    (base : List (Stamped (Event n)))
    (asserted : Nat)
    (hw : Hw n) :
    Prop where
  logged :
    ∃ later,
      hw.log = base ++ ⟨asserted, .key device key true⟩ :: later ∧
        ∀ event, event ∈ later →
          event.value = .key device key false →
          asserted + 100000 ≤ event.time
  begun : asserted ≤ hw.clock.now
  held :
    asserted + 100000 ≤ hw.clock.now ∨
      ∀ timer, timer ∈ hw.timers → timer.cb = .msgKeyRelease key →
        timer.tv.Normalised ∧ (asserted + 100000 : Int) ≤ timer.tv.micros

/-- Another event does no harm, nor does a release once the time has passed. -/
theorem PulseLasts.log
    {device : Fin n}
    {key asserted : Nat}
    {base events : List (Stamped (Event n))}
    {first last : Hw n}
    (lasts : PulseLasts device key base asserted first)
    (log : last.log = first.log ++ events)
    (harmless :
      ∀ event, event ∈ events →
        event.value = .key device key false →
        asserted + 100000 ≤ event.time) :
    ∃ later,
      last.log = base ++ ⟨asserted, .key device key true⟩ :: later ∧
        ∀ event, event ∈ later →
          event.value = .key device key false →
          asserted + 100000 ≤ event.time := by
  obtain ⟨later, shape, late⟩ := lasts.logged
  refine ⟨later ++ events, ?_, ?_⟩
  · rw [log, shape, List.append_assoc, List.cons_append]
  · intro event member
    rcases List.mem_append.mp member with old | new
    · exact late event old
    · exact harmless event new

/-- The timers that could release the key are not due before its time. -/
theorem pulseLasts_invariant
    (device : Fin n)
    (key : Nat)
    (base : List (Stamped (Event n)))
    (asserted : Nat) :
    KeyInvariant device (PulseLasts device key base asserted) where
  rest := by
    intro first last lasts rest
    obtain ⟨events, log, background⟩ := rest.logged
    refine ⟨lasts.log log ?_, Nat.le_trans lasts.begun rest.clock, ?_⟩
    · intro event member isKey
      have isBackground := background event member
      rw [isKey] at isBackground
      exact isBackground.elim
    · rcases lasts.held with passed | ahead
      · exact .inl (Nat.le_trans passed rest.clock)
      · refine .inr fun timer member releases => ahead timer ?_ releases
        exact (rest.releases timer key releases).mp member
  released := by
    intro hw position released now timer lasts found releases expired clock
    have ticked := Clock.now_le_tick hw.clock
    have passed :
        released = key → asserted + 100000 ≤ hw.clock.now := by
      rintro rfl
      rcases lasts.held with passed | ahead
      · exact passed
      · obtain ⟨normalised, due⟩ :=
          ahead timer (List.mem_of_getElem? found) releases
        have before := (Timeval.lt_iff normalised
          (Timeval.normalised_ofMicros now)).mp expired
        rw [Timeval.micros_ofMicros] at before
        omega
    refine ⟨lasts.log rfl ?_, Nat.le_trans lasts.begun ticked, ?_⟩
    · intro event member isKey
      rw [List.mem_singleton.mp member] at isKey ⊢
      exact Nat.le_trans (passed (Event.key.inj isKey).2.1) ticked
    · rcases lasts.held with passed | ahead
      · exact .inl (Nat.le_trans passed ticked)
      · exact .inr fun timer member =>
          ahead timer (List.mem_of_mem_eraseIdx member)

/-- A pulse does not end sooner for a message that does not release its key. -/
theorem PulseLasts.message
    {device : Fin n}
    {key asserted : Nat}
    {base : List (Stamped (Event n))}
    {hw : Hw n}
    {other : Nat}
    {command : KeyCommand}
    (lasts : PulseLasts device key base asserted hw)
    (notReleased : ¬ (other = key ∧ command = .release)) :
    PulseLasts device key base asserted
      (hw.commanded device other command) := by
  have ticked := Clock.now_le_tick hw.clock
  have harmless :
      ∀ level event,
        event ∈ [(⟨hw.clock.tick.now, .key device other level⟩ :
          Stamped (Event n))] →
        event.value = .key device key false →
        level = false ∧ other = key := by
    intro level event member isKey
    rw [List.mem_singleton.mp member] at isKey
    have same := (Event.key.inj isKey).2
    exact ⟨same.2, same.1⟩
  have pressed :
      PulseLasts device key base asserted (hw.keyed device other true) :=
    { logged := lasts.log rfl fun event member isKey =>
        absurd (harmless true event member isKey).1 (by decide)
      begun := Nat.le_trans lasts.begun ticked
      held := lasts.held.imp_left fun passed =>
        Nat.le_trans passed ticked }
  cases command with
  | release =>
      refine ⟨lasts.log rfl ?_, Nat.le_trans lasts.begun ticked,
        lasts.held.imp_left fun passed => Nat.le_trans passed ticked⟩
      intro event member isKey
      exact absurd ⟨(harmless false event member isKey).2, rfl⟩ notReleased
  | press => exact pressed
  | pulse =>
      have later := Clock.now_le_tick (hw.keyed device other true).clock
      refine ⟨pressed.logged, Nat.le_trans pressed.begun later, ?_⟩
      rcases pressed.held with passed | ahead
      · exact .inl (Nat.le_trans passed later)
      · refine .inr fun timer member releases => ?_
        rcases List.mem_append.mp member with old | new
        · exact ahead timer old releases
        · rw [List.mem_singleton.mp new]
          have begun := Nat.le_trans pressed.begun later
          obtain ⟨normalised, due⟩ := releaseTimer_due (n := n)
            (hw.keyed device other true).clock.tick.now other
          refine ⟨normalised, ?_⟩
          rw [due]
          omega

/-- The pulse itself: its timer is the only one for the key. -/
theorem PulseLasts.start
    {device : Fin n}
    {key : Nat}
    {hw : Hw n}
    (unpending : ¬ hw.ReleasePending key) :
    PulseLasts device key hw.log hw.clock.tick.now
      (hw.commanded device key .pulse) where
  logged := ⟨[], rfl, by simp⟩
  begun := Clock.now_le_tick hw.clock.tick
  held := by
    refine .inr fun timer member releases => ?_
    rcases List.mem_append.mp member with old | new
    · exact absurd ⟨timer, old, releases⟩ unpending
    · rw [List.mem_singleton.mp new]
      have begun := Clock.now_le_tick hw.clock.tick
      obtain ⟨normalised, due⟩ :=
        releaseTimer_due (n := n) hw.clock.tick.tick.now key
      refine ⟨normalised, ?_⟩
      have sameClock :
          (hw.keyed device key true).clock.tick.now =
            hw.clock.tick.tick.now :=
        rfl
      rw [sameClock, due]
      omega

/-! ## Runs -/

/-- A key is only pressed or pulsed while no timer is going to release it. -/
def PulsesSpaced (server : Server n) (inputs : List KeyInput) : Prop :=
  ∀ before key command after,
    inputs = before ++ .message key command :: after →
    command ≠ .release →
    ¬ (afterKeys server before).hw.ReleasePending key.toNat

theorem pulsesSpaced_nil
    (server : Server n) :
    PulsesSpaced server [] := by
  intro before key command after shape
  simp at shape

theorem pulsesSpaced_concat
    {server : Server n}
    {inputs : List KeyInput}
    {input : KeyInput} :
    PulsesSpaced server (inputs ++ [input]) ↔
      PulsesSpaced server inputs ∧
        ∀ key command,
          input = .message key command →
          command ≠ .release →
          ¬ (afterKeys server inputs).hw.ReleasePending key.toNat := by
  constructor
  · intro spaced
    constructor
    · intro before key command after shape
      apply spaced before key command (after ++ [input])
      rw [shape, List.append_assoc, List.cons_append]
    · rintro key command rfl
      exact spaced inputs key command [] rfl
  · rintro ⟨spaced, last⟩ before key command after shape
    rcases List.eq_nil_or_concat after with rfl | ⟨front, final, rfl⟩
    · obtain ⟨rfl, same⟩ := List.append_inj' shape rfl
      exact last key command (List.singleton_inj.mp same)
    · rw [List.concat_eq_append, ← List.cons_append, ← List.append_assoc]
        at shape
      obtain ⟨rfl, _⟩ := List.append_inj' shape rfl
      exact spaced before key command front rfl

section Runs

variable {device : Fin n} {server : Server n}

theorem KeysIdle.keysOnly
    (idle : KeysIdle device server) :
    KeysOnly device server where
  selected := idle.selected
  hasKey := idle.hasKey
  own := fun timer member => .inl (idle.idle timer member)

/-- After every run the levels follow, unless timers are pending. -/
theorem KeysOnly.levelsFollow
    (keysOnly : KeysOnly device server)
    (inputs : List KeyInput)
    (spaced : PulsesSpaced server inputs) :
    LevelsFollow device inputs (afterKeys server inputs).hw := by
  induction inputs using List.reverseRecOn with
  | nil => exact fun key => trivial
  | append_singleton inputs input inductionHypothesis =>
      obtain ⟨earlier, last⟩ := pulsesSpaced_concat.mp spaced
      have follows := inductionHypothesis earlier
      have reached := (afterKeys_append keysOnly inputs []).1
      cases input with
      | message key command =>
          have handled := (reached.message key command).1
          rw [afterKeys_concat keysOnly handled]
          exact follows.message (last key command rfl)
      | expire =>
          obtain ⟨final, passes, _, kept⟩ :=
            (levelsFollow_invariant device inputs).expire reached follows
          rw [afterKeys_concat keysOnly passes]
          intro key
          rw [lastCommand_concat]
          exact kept key

/-- A pulse goes on until a message releases its key. -/
theorem KeysOnly.pulseLasts
    {key : UInt8}
    {asserted : Nat}
    {base : List (Stamped (Event n))}
    (keysOnly : KeysOnly device server)
    (lasts : PulseLasts device key.toNat base asserted server.hw)
    (inputs : List KeyInput)
    (notReleased : .message key .release ∉ inputs) :
    PulseLasts device key.toNat base asserted
      (afterKeys server inputs).hw := by
  induction inputs using List.reverseRecOn with
  | nil => exact lasts
  | append_singleton inputs input inductionHypothesis =>
      rw [List.mem_append, not_or, List.mem_singleton] at notReleased
      have before := inductionHypothesis notReleased.1
      have reached := (afterKeys_append keysOnly inputs []).1
      cases input with
      | message other command =>
          have handled := (reached.message other command).1
          rw [afterKeys_concat keysOnly handled]
          apply before.message
          rintro ⟨sameNumber, rfl⟩
          rw [UInt8.toNat_inj.mp sameNumber] at notReleased
          exact notReleased.2 rfl
      | expire =>
          obtain ⟨final, passes, _, kept⟩ :=
            (pulseLasts_invariant device key.toNat base asserted).expire
              reached before
          rw [afterKeys_concat keysOnly passes]
          exact kept

end Runs

/--
When a key is only pressed or pulsed while no timer is going to release it,
the last command for each key wins, and pulses last.
-/
theorem keyCommands_win
    (device : Fin n)
    (server : Server n)
    (inputs : List KeyInput)
    (idle : KeysIdle device server)
    (spaced : PulsesSpaced server inputs) :
    KeyCommandsWin device server inputs where
  levels := by
    intro unpending key
    have followed := idle.keysOnly.levelsFollow inputs spaced key
    cases commanded : lastCommand key inputs with
    | none => trivial
    | some last =>
        rw [commanded] at followed
        cases last with
        | release => exact followed
        | press => exact followed.1
        | pulse => exact followed.resolve_left (unpending key.toNat)
  pulses := by
    intro before key middle after shape notReleased
    have keysOnly := idle.keysOnly
    have reached := (afterKeys_append keysOnly before []).1
    have unpending := spaced before key .pulse (middle ++ after) shape
      KeyCommand.noConfusion
    obtain ⟨handled, pulsed⟩ := reached.message key .pulse
    have starts : PulseLasts device key.toNat
        (afterKeys server before).hw.log
        (afterKeys server before).hw.clock.tick.now
        ((afterKeys server before).hw.commanded device key.toNat .pulse) :=
      .start unpending
    have lasts := pulsed.pulseLasts starts middle notReleased
    obtain ⟨later, log, late⟩ := lasts.logged
    have split : before ++ .message key .pulse :: middle =
        (before ++ [.message key .pulse]) ++ middle := by
      rw [List.append_assoc, List.singleton_append]
    refine ⟨_, later, ?_, late⟩
    rw [split, (afterKeys_append keysOnly _ middle).2,
      afterKeys_concat keysOnly handled]
    exact log

/-- Long enough for a pulse to end passes after a number of actions. -/
def holdAfter (actions : Nat) : List Nat :=
  List.replicate actions 0 ++ [150000]

theorem selectedBench_keysIdle
    {delays : List Nat}
    (selected : (selectedBench delays).selectedDevice = some 0)
    (hasKey : ((selectedBench delays).hw.devices 0).hasControl .key = true)
    (none : (selectedBench delays).hw.timers = []) :
    KeysIdle 0 (selectedBench delays) where
  selected := selected
  hasKey := hasKey
  idle := by simp [none]

/-- A press behind a pulse that is over holds the key. -/
theorem pressAfterPulse_wins :
    (afterKeys (selectedBench (holdAfter 5))
        [.message 1 .pulse, .expire, .message 1 .press]).hw.keyLevel 0 1 =
      some true ∧
      KeyCommandsWin 0 (selectedBench (holdAfter 5))
        [.message 1 .pulse, .expire, .message 1 .press] := by
  have idle : KeysIdle 0 (selectedBench (holdAfter 5)) :=
    selectedBench_keysIdle (by decide +kernel) (by decide +kernel)
      (by decide +kernel)
  have pulsed :
      PulsesSpaced (selectedBench (holdAfter 5))
        ([] ++ [.message 1 .pulse]) := by
    refine pulsesSpaced_concat.mpr ⟨pulsesSpaced_nil _, ?_⟩
    rintro key command ⟨⟩ _
    decide +kernel
  have expired :
      PulsesSpaced (selectedBench (holdAfter 5))
        ([.message 1 .pulse] ++ [.expire]) := by
    refine pulsesSpaced_concat.mpr ⟨pulsed, ?_⟩
    rintro key command ⟨⟩
  have pressed :
      PulsesSpaced (selectedBench (holdAfter 5))
        ([.message 1 .pulse, .expire] ++ [.message 1 .press]) := by
    refine pulsesSpaced_concat.mpr ⟨expired, ?_⟩
    rintro key command ⟨⟩ _
    decide +kernel
  exact ⟨by decide +kernel, keyCommands_win 0 _ _ idle pressed⟩

/--
The timer of a pulse releases the key although a press came behind it, and so
the last command does not win.
-/
theorem pressDuringPulse_released :
    KeysIdle 0 (selectedBench (holdAfter 6)) ∧
      (afterKeys (selectedBench (holdAfter 6))
          [.message 1 .pulse, .message 1 .press, .expire]).hw.keyLevel 0 1 =
        some false ∧
      ¬ KeyCommandsWin 0 (selectedBench (holdAfter 6))
          [.message 1 .pulse, .message 1 .press, .expire] := by
  have released :
      (afterKeys (selectedBench (holdAfter 6))
          [.message 1 .pulse, .message 1 .press, .expire]).hw.keyLevel 0 1 =
        some false := by
    decide +kernel
  have noTimer :
      (afterKeys (selectedBench (holdAfter 6))
        [.message 1 .pulse, .message 1 .press, .expire]).hw.timers = [] := by
    decide +kernel
  refine ⟨selectedBench_keysIdle (by decide +kernel) (by decide +kernel)
    (by decide +kernel), released, ?_⟩
  intro wins
  have unpending :
      ∀ key,
        ¬ (afterKeys (selectedBench (holdAfter 6))
          [.message 1 .pulse, .message 1 .press,
            .expire]).hw.ReleasePending key := by
    simp [Hw.ReleasePending, noTimer]
  have level := wins.levels unpending 1
  have held :
      (afterKeys (selectedBench (holdAfter 6))
          [.message 1 .pulse, .message 1 .press, .expire]).hw.keyLevel 0 1 =
        some true :=
    level
  rw [released] at held
  cases held

end Cdba
