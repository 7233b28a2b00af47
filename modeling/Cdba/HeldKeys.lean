import Cdba.KeyMessages

namespace Cdba

/-!
# Keys that a session leaves held

Keys are pressed by the power-on sequence and by messages, and released by
timers.  When the main loop has ended no timer fires any more, and
`device_close` releases no key, so what is still held then stays held.
-/

open Program

variable {n : Nat}

/-! ## What holds a key -/

/-- The key and the command in a message, as `msg_key_press` reads them. -/
def keyCommandOf? (data : List UInt8) : Option (Nat × KeyCommand) :=
  match data with
  | [key, state] =>
      if state = keyPressPulse then
        some (key.toNat, .pulse)
      else if state ≠ 0 then
        some (key.toNat, .press)
      else
        some (key.toNat, .release)
  | _ => none

/-- The command of a message for a key. -/
def Msg.keyCommand? (key : Nat) (msg : Msg) : Option KeyCommand :=
  if MsgType.ofCode? msg.type = some .keyPress then
    ((keyCommandOf? msg.data).filter fun command => command.1 = key).map
      Prod.snd
  else
    none

/-- The last command for a key among some messages. -/
def lastKeyMessage (key : Nat) (messages : List Msg) : Option KeyCommand :=
  (messages.filterMap (Msg.keyCommand? key)).getLast?

/-- The power-on sequence of a device is in a phase in which it holds a key. -/
def Device.holdsKey (device : Device) (key : Nat) : Prop :=
  key = deviceKeyFastboot ∧ device.fastbootKeyTimeout ≠ 0 ∧
      (device.state = .connect ∨ device.state = .press ∨
        device.state = .releasePwr ∨ device.state = .releaseFastboot) ∨
    key = deviceKeyPower ∧ device.state = .releasePwr

/-- The last command for a key pressed it, or pulsed it for a while yet. -/
def Server.heldByMessages (key : Nat) (server : Server n) : Prop :=
  lastKeyMessage key server.dispatched = some .press ∨
    lastKeyMessage key server.dispatched = some .pulse ∧
      server.hw.ReleasePending key

/-- Boards are only selected while each key that was operated is released. -/
def SelectsBetweenKeys (messages : List Msg) : Prop :=
  ∀ before msg after,
    messages = before ++ msg :: after →
    MsgType.ofCode? msg.type = some .selectBoard →
    ∀ key command,
      lastKeyMessage key before = some command →
      command = .release

/-- Neither the sequence of a device nor the messages hold one of its keys. -/
def KeysLetGo (device : Fin n) (server : Server n) : Prop :=
  ∀ key,
    ¬ (server.hw.devices device).holdsKey key ∧
      ¬ server.heldByMessages key

/-! ## Work that spares the keys -/

/-- Events that are no calls of the `key` operation. -/
abbrev Event.NotKey (event : Event n) : Prop :=
  event.isKey = false

/-- In between no key was operated, and no timer that releases one changed. -/
structure Hw.SparesKeys (first last : Hw n) : Prop where
  logged :
    ∃ events,
      last.log = first.log ++ events ∧
        ∀ event, event ∈ events → event.value.isKey = false
  releases :
    ∀ key, last.ReleasePending key ↔ first.ReleasePending key
  config :
    ∀ device, (first.devices device).SameConfig (last.devices device)
  state :
    ∀ device, (last.devices device).state = (first.devices device).state
  powerKey :
    ∀ device,
      (first.devices device).hasPowerKey = true →
      (last.devices device).hasPowerKey = true

instance Hw.SparesKeys.composes :
    Composes (Hw.SparesKeys (n := n)) where
  refl := fun hw =>
    { logged := ⟨[], by simp, by simp⟩
      releases := fun _ => Iff.rfl
      config := fun _ => .refl _
      state := fun _ => rfl
      powerKey := fun _ => id }
  trans := by
    intro first middle last firstStep laterStep
    obtain ⟨events, log, spares⟩ := firstStep.logged
    obtain ⟨events', log', spares'⟩ := laterStep.logged
    refine
      { logged := ⟨events ++ events', ?_, ?_⟩
        releases := fun key =>
          (laterStep.releases key).trans (firstStep.releases key)
        config := fun device =>
          (firstStep.config device).trans (laterStep.config device)
        state := fun device =>
          (laterStep.state device).trans (firstStep.state device)
        powerKey := fun device =>
          laterStep.powerKey device ∘ firstStep.powerKey device }
    · rw [log', log, List.append_assoc]
    · intro event member
      rcases List.mem_append.mp member with early | late
      · exact spares event early
      · exact spares' event late

theorem Hw.SparesKeys.keyLevel
    {first last : Hw n}
    (spares : first.SparesKeys last)
    (device : Fin n)
    (key : Nat) :
    last.keyLevel device key = first.keyLevel device key := by
  obtain ⟨events, log, noKey⟩ := spares.logged
  unfold Hw.keyLevel
  rw [log, lastCall_append, lastCall_keyCall_of_not_isKey noKey]
  rfl

/-- Background work spares the keys. -/
theorem Hw.Background.sparesKeys
    {first last : Hw n}
    (background : first.Background last) :
    first.SparesKeys last := by
  obtain ⟨events, log, quiet⟩ := background.logged
  obtain ⟨timers, queue, others⟩ := background.armed
  refine
    { logged := ⟨events, log, fun event member =>
        Event.isKey_of_background (quiet event member)⟩
      releases := ?_
      config := fun device => (background.devices device).config
      state := fun device => (background.devices device).state
      powerKey := fun device => (background.devices device).powerKey }
  intro key
  unfold Hw.ReleasePending
  rw [queue]
  constructor
  · rintro ⟨timer, member, releases⟩
    rcases List.mem_append.mp member with old | new
    · exact ⟨timer, old, releases⟩
    · have other := others timer new
      rw [releases] at other
      exact other.elim
  · rintro ⟨timer, member, releases⟩
    exact ⟨timer, List.mem_append_left _ member, releases⟩

theorem sparesKeys_of_background
    {program : HwM n α}
    {mayStop : Stop → Prop}
    (background : Relates Hw.Background mayStop program) :
    Relates Hw.SparesKeys mayStop program :=
  background.mono (fun _ _ step => step.sparesKeys) (fun _ => id)

theorem emit_sparesKeys
    {event : Event n}
    (other : event.isKey = false) :
    Relates Hw.SparesKeys Stop.Any (emit event) :=
  .update fun hw =>
    { logged := ⟨[_], rfl, by simpa using other⟩
      releases := fun _ => Iff.rfl
      config := fun _ => .refl _
      state := fun _ => rfl
      powerKey := fun _ => id }

theorem deviceBoot_sparesKeys
    (device : Option (Fin n))
    (image : List UInt8) :
    Relates Hw.SparesKeys Stop.Any (deviceBoot device image) := by
  have bulk :
      ∀ {β : Type} (device : Fin n) (transfer : BulkScript → BulkRun β),
        Relates Hw.SparesKeys Stop.Any (runBulk device transfer) :=
    fun _ _ => sparesKeys_of_background (runBulk_background _ _)
  exact .bind (sparesKeys_of_background (deref_background device)) fun _ =>
    .bind (.read _) fun _ =>
      .bind (emit_sparesKeys rfl) fun _ =>
        .ite (.stop trivial)
          (.bind (bulk _ _) fun _ =>
            .bind (sparesKeys_of_background (acquire_background _)) fun _ =>
              .bind (bulk _ _) fun _ =>
                .bind (sparesKeys_of_background (bootMethod_background _))
                  fun _ =>
                    .onlyIf (sparesKeys_of_background
                      (deviceUsb_background _ _)))

/-! ## Calls -/

/-- One key of a device was set to a level, or nothing happened. -/
structure Hw.CallsKey
    (device : Fin n)
    (key : Nat)
    (level : Option Bool)
    (first last : Hw n) :
    Prop where
  devices : last.devices = first.devices
  timers : last.timers = first.timers
  level :
    ∀ other query,
      last.keyLevel other query =
        if device = other ∧ key = query then
          level.or (first.keyLevel other query)
        else
          first.keyLevel other query

theorem onlyIf_deviceKey_calls
    (condition : Bool)
    (device : Fin n)
    (key : Nat)
    (asserted : Bool)
    (hw : Hw n) :
    ∃ final,
      onlyIf condition (deviceKey (some device) key asserted) hw =
          .ok () final ∧
        Hw.CallsKey device key
          (if condition && (hw.devices device).hasControl .key then
            some asserted
          else
            none)
          hw final := by
  cases condition with
  | false =>
      exact ⟨hw, rfl, rfl, rfl, fun _ _ => by simp⟩
  | true =>
      cases hasKey : (hw.devices device).hasControl .key with
      | true =>
          refine ⟨_, deviceKey_eq hasKey key asserted, rfl, rfl, ?_⟩
          intro other query
          simp [Hw.keyed_level]
      | false =>
          refine ⟨hw, ?_, rfl, rfl, fun _ _ => by simp⟩
          unfold onlyIf deviceKey deref
          rw [if_pos rfl, pure_bind, bind_of_ok (read_apply _ _), hasKey]
          rfl

theorem deviceKey_calls
    (device : Fin n)
    (key : Nat)
    (asserted : Bool)
    (hw : Hw n) :
    ∃ final,
      deviceKey (some device) key asserted hw = .ok () final ∧
        Hw.CallsKey device key
          (if (hw.devices device).hasControl .key then
            some asserted
          else
            none)
          hw final :=
  onlyIf_deviceKey_calls true device key asserted hw

/-! ## Ticks -/

/-- The level to which a tick sets a key. -/
def tickCall (dev : Device) (key : Nat) : Option Bool :=
  match dev.state with
  | .start =>
      if key = deviceKeyFastboot ∧ dev.fastbootKeyTimeout ≠ 0 then
        some true
      else if key = deviceKeyPower ∧ dev.hasPowerKey = true then
        some false
      else
        none
  | .press => if key = deviceKeyPower then some true else none
  | .releasePwr => if key = deviceKeyPower then some false else none
  | .releaseFastboot => if key = deviceKeyFastboot then some false else none
  | .connect | .running => none

/-- The actions of a tick set the keys of its device, and nothing else. -/
structure Hw.TickActs
    (device : Fin n)
    (first last : Hw n) :
    Prop where
  devices : last.devices = first.devices
  timers : last.timers = first.timers
  level :
    ∀ other query,
      last.keyLevel other query =
        if other = device ∧
            (first.devices device).hasControl .key = true then
          (tickCall (first.devices device) query).or
            (first.keyLevel other query)
        else
          first.keyLevel other query

/-- A tick that operates one key. -/
theorem Hw.CallsKey.tickActs
    {device : Fin n}
    {key : Nat}
    {asserted : Bool}
    {first last : Hw n}
    (calls :
      Hw.CallsKey device key
        (if (first.devices device).hasControl .key then
          some asserted
        else
          none)
        first last)
    (call :
      ∀ query,
        tickCall (first.devices device) query =
          if query = key then some asserted else none) :
    Hw.TickActs device first last where
  devices := calls.devices
  timers := calls.timers
  level := by
    intro other query
    rw [calls.level, call]
    by_cases here : device = other
    · subst here
      by_cases same : key = query
      · subst same
        cases (first.devices device).hasControl .key <;> simp
      · simp [same, Ne.symm same]
    · simp [here, Ne.symm here]

/-- A tick that operates no key. -/
theorem Hw.Acts.tickActs
    {device : Fin n}
    {first last : Hw n}
    (acts : Hw.Acts Event.NotKey first last)
    (call : ∀ query, tickCall (first.devices device) query = none) :
    Hw.TickActs device first last where
  devices := acts.devices
  timers := acts.timers
  level := by
    intro other query
    have same : last.keyLevel other query = first.keyLevel other query := by
      unfold Hw.keyLevel
      rw [acts.extended.log_eq, lastCall_append,
        lastCall_keyCall_of_not_isKey acts.allowed]
      rfl
    rw [same, call]
    simp

/-- In its first phase a tick operates both keys, as far as there are any. -/
theorem tickActs_start
    {device : Fin n}
    {first middle last : Hw n}
    (state : (first.devices device).state = .start)
    (fastboot :
      Hw.CallsKey device deviceKeyFastboot
        (if decide ((first.devices device).fastbootKeyTimeout ≠ 0) &&
            (first.devices device).hasControl .key then
          some true
        else
          none)
        first middle)
    (power :
      Hw.CallsKey device deviceKeyPower
        (if (first.devices device).hasPowerKey &&
            (first.devices device).hasControl .key then
          some false
        else
          none)
        middle last) :
    Hw.TickActs device first last where
  devices := power.devices.trans fastboot.devices
  timers := power.timers.trans fastboot.timers
  level := by
    intro other query
    rw [power.level, fastboot.level]
    simp only [tickCall, state]
    by_cases here : device = other
    · subst here
      by_cases isFastboot : query = deviceKeyFastboot
      · subst isFastboot
        cases (first.devices device).hasControl .key <;>
          by_cases timeout : (first.devices device).fastbootKeyTimeout = 0 <;>
            simp [deviceKeyFastboot, deviceKeyPower, timeout]
      · by_cases isPower : query = deviceKeyPower
        · subst isPower
          cases (first.devices device).hasControl .key <;>
            cases (first.devices device).hasPowerKey <;>
              simp [deviceKeyFastboot, deviceKeyPower]
        · simp [isFastboot, isPower, Ne.symm isFastboot, Ne.symm isPower]
    · simp [here, Ne.symm here]

/-- A phase whose action is one call sets the key of that call. -/
theorem tickActions_key
    {device : Fin n}
    {hw : Hw n}
    (key : Nat)
    (asserted : Bool)
    (actions :
      tickActions device (hw.devices device) =
        deviceKey (some device) key asserted)
    (call :
      ∀ query,
        tickCall (hw.devices device) query =
          if query = key then some asserted else none) :
    ∃ acted,
      tickActions device (hw.devices device) hw = .ok () acted ∧
        Hw.TickActs device hw acted := by
  obtain ⟨acted, calls, level⟩ := deviceKey_calls device key asserted hw
  rw [actions]
  exact ⟨acted, calls, level.tickActs call⟩

/-- The actions of a tick succeed, unless it finds no control operations. -/
theorem tickActions_tickActs
    {device : Fin n}
    {hw : Hw n}
    (control :
      (hw.devices device).state = .connect →
      (hw.devices device).control ≠ none) :
    ∃ acted,
      tickActions device (hw.devices device) hw = .ok () acted ∧
        Hw.TickActs device hw acted := by
  cases state : (hw.devices device).state with
  | start =>
      obtain ⟨middle, presses, fastboot⟩ := onlyIf_deviceKey_calls
        ((hw.devices device).fastbootKeyTimeout ≠ 0) device
        deviceKeyFastboot true hw
      obtain ⟨last, releases, power⟩ := onlyIf_deviceKey_calls
        (hw.devices device).hasPowerKey device deviceKeyPower false middle
      rw [fastboot.devices] at power
      refine ⟨last, ?_, tickActs_start state fastboot power⟩
      simp only [tickActions, state]
      rw [bind_of_ok presses]
      exact releases
  | connect =>
      have power : (Event.power device true).NotKey := rfl
      have usb : (Event.usb device true).NotKey := rfl
      have ppps : (Event.pppsPower device true).NotKey := rfl
      have acts :
          RelatesAt (Hw.Acts Event.NotKey) Stop.Never
            (tickActions device (hw.devices device)) hw := by
        simp only [tickActions, state]
        refine RelatesAt.bind ?_
          (fun _ middle _ => deviceUsb_acts usb ppps middle)
        refine (Relates.read _ hw).bind fun found middle outcome => ?_
        cases outcome
        simp only [if_neg (control state)]
        exact emit_acts _ power hw
      obtain ⟨_, acted, outcome, related⟩ := acts.succeeds
      refine ⟨acted, outcome, related.tickActs fun query => ?_⟩
      simp only [tickCall, state]
  | press =>
      apply tickActions_key deviceKeyPower true
      · simp only [tickActions, state]
      · simp only [tickCall, state, implies_true]
  | releasePwr =>
      apply tickActions_key deviceKeyPower false
      · simp only [tickActions, state]
      · simp only [tickCall, state, implies_true]
  | releaseFastboot =>
      apply tickActions_key deviceKeyFastboot false
      · simp only [tickActions, state]
      · simp only [tickCall, state, implies_true]
  | running =>
      refine ⟨hw, ?_, Hw.Acts.tickActs (Composes.refl hw) fun query => ?_⟩
      · simp only [tickActions, state]
        rfl
      · simp only [tickCall, state]

/-- What a tick does to keys, phases and timers. -/
structure Hw.Ticks
    (device : Fin n)
    (first last : Hw n) :
    Prop where
  level :
    ∀ other query,
      last.keyLevel other query =
        if other = device ∧
            (first.devices device).hasControl .key = true then
          (tickCall (first.devices device) query).or
            (first.keyLevel other query)
        else
          first.keyLevel other query
  devices :
    ∀ query,
      last.devices query =
        if query = device then
          { first.devices query with
            state := (nextPhase (first.devices device)).1 }
        else
          first.devices query
  timers :
    ∃ armed,
      last.timers = first.timers ++ armed ∧
        ∀ timer, timer ∈ armed → timer.cb = .deviceTick device

theorem enterPhase_ticks
    {device : Fin n}
    {first acted : Hw n}
    (acts : Hw.TickActs device first acted) :
    ∃ last,
      enterPhase device (nextPhase (first.devices device)) acted =
          .ok () last ∧
        Hw.Ticks device first last := by
  let entered : Hw n :=
    { acted with
      devices := fun query =>
        if query = device then
          { acted.devices query with
            state := (nextPhase (first.devices device)).1 }
        else
          acted.devices query }
  have sets :
      setState device (nextPhase (first.devices device)).1 acted =
        .ok () entered :=
    rfl
  have devices :
      ∀ query,
        entered.devices query =
          if query = device then
            { first.devices query with
              state := (nextPhase (first.devices device)).1 }
          else
            first.devices query := by
    intro query
    dsimp only [entered]
    rw [acts.devices]
  unfold enterPhase
  rw [bind_of_ok sets]
  cases (nextPhase (first.devices device)).2 with
  | none =>
      refine ⟨entered, rfl, acts.level, devices, [], ?_, by simp⟩
      rw [List.append_nil]
      exact acts.timers
  | some delayMs =>
      refine ⟨_, rfl, acts.level, devices,
        [armedTimer entered.clock.tick.now device delayMs], ?_, ?_⟩
      · rw [← acts.timers]
        rfl
      · intro timer member
        rw [List.mem_singleton.mp member]
        rfl

/-- A tick operates its keys, or stops before it has done anything. -/
theorem deviceTick_ticks
    (device : Fin n)
    (hw : Hw n) :
    (∃ last,
      deviceTick device hw = .ok () last ∧ Hw.Ticks device hw last) ∨
    (hw.devices device).state = .connect ∧
      ∃ reason,
        deviceTick device hw = .error reason (hw.marked device) ∧
          hw.SparesKeys (hw.marked device) := by
  by_cases control :
      (hw.devices device).state = .connect →
        (hw.devices device).control ≠ none
  · left
    have fromMark : hw.SparesKeys (hw.marked device) :=
      (emit_sparesKeys
        (show (Event.tick device (hw.devices device).state).isKey = false
          from rfl) hw).related
    obtain ⟨acted, actions, acts⟩ := tickActions_tickActs
      (show (((hw.marked device).devices device).state = .connect →
        ((hw.marked device).devices device).control ≠ none) from control)
    obtain ⟨last, enters, ticks⟩ := enterPhase_ticks acts
    have ticking : deviceTick device hw = _ :=
      deviceTick_enters
        (show tickActions device (hw.devices device) (hw.marked device) =
          .ok () acted from actions)
        (show acted.devices = hw.devices from acts.devices)
    refine ⟨last, ticking.trans enters, ?_⟩
    exact
      { level := fun other query => by
          rw [ticks.level, fromMark.keyLevel]
          rfl
        devices := ticks.devices
        timers := ticks.timers }
  · right
    have connect : (hw.devices device).state = .connect :=
      Classical.byContradiction fun other =>
        control fun isConnect => absurd isConnect other
    have none : (hw.devices device).control = none :=
      Classical.byContradiction fun some => control fun _ => some
    refine ⟨connect, .nullDeref .controlOps, ?_, (emit_sparesKeys
      (show (Event.tick device (hw.devices device).state).isKey = false
        from rfl) hw).related⟩
    unfold deviceTick
    rw [bind_of_ok (read_apply _ _),
      bind_of_ok (show emit _ hw = .ok () (hw.marked device) from rfl),
      connect]
    dsimp only
    apply bind_of_error
    unfold deviceImplPower
    rw [bind_of_ok (read_apply _ _)]
    exact if_pos none ▸ rfl

/-! ## Every pressed key is accounted for -/

/--
Each key that is pressed is held by the sequence of its device or otherwise;
only devices with a power key reach the phases that operate it.
-/
structure KeysAccounted
    (held : Fin n → Nat → Prop)
    (hw : Hw n) :
    Prop where
  accounted :
    ∀ device key,
      hw.keyLevel device key = some true →
      (hw.devices device).holdsKey key ∨ held device key
  wired :
    ∀ device key,
      hw.keyLevel device key = some true →
      (hw.devices device).hasControl .key = true
  powerKey :
    ∀ device,
      (hw.devices device).state = .press ∨
        (hw.devices device).state = .releasePwr →
      (hw.devices device).hasPowerKey = true

theorem Device.holdsKey_congr
    {first last : Device}
    (config : first.SameConfig last)
    (state : last.state = first.state)
    (key : Nat) :
    last.holdsKey key ↔ first.holdsKey key := by
  have timeout : last.fastbootKeyTimeout = first.fastbootKeyTimeout := by
    rw [config]
  unfold Device.holdsKey
  rw [state, timeout]

section KeysAccounted

variable {held held' : Fin n → Nat → Prop} {first last : Hw n}

theorem KeysAccounted.mono
    (accounted : KeysAccounted held first)
    (stillHeld :
      ∀ device key,
        first.keyLevel device key = some true →
        held device key → held' device key) :
    KeysAccounted held' first where
  accounted := fun device key pressed =>
    (accounted.accounted device key pressed).imp_right
      (stillHeld device key pressed)
  wired := accounted.wired
  powerKey := accounted.powerKey

/-- Timers do not matter for a fixed account. -/
theorem KeysAccounted.congr
    (accounted : KeysAccounted held first)
    (log : last.log = first.log)
    (devices : last.devices = first.devices) :
    KeysAccounted held last := by
  have level :
      ∀ device key, last.keyLevel device key = first.keyLevel device key := by
    intro device key
    unfold Hw.keyLevel
    rw [log]
  refine ⟨?_, ?_, ?_⟩
  · intro device key
    rw [level, devices]
    exact accounted.accounted device key
  · intro device key
    rw [level, devices]
    exact accounted.wired device key
  · rw [devices]
    exact accounted.powerKey

theorem KeysAccounted.of_sparesKeys
    (accounted : KeysAccounted held first)
    (spares : first.SparesKeys last) :
    KeysAccounted held last where
  accounted := by
    intro device key pressed
    rw [spares.keyLevel] at pressed
    rw [Device.holdsKey_congr (spares.config device) (spares.state device)]
    exact accounted.accounted device key pressed
  wired := by
    intro device key pressed
    rw [spares.keyLevel] at pressed
    rw [(spares.config device).hasControl]
    exact accounted.wired device key pressed
  powerKey := by
    intro device phase
    rw [spares.state] at phase
    exact spares.powerKey device (accounted.powerKey device phase)

/-- A key that is released or pressed by a message or a timer. -/
theorem KeysAccounted.of_callsKey
    {device : Fin n}
    {key : Nat}
    {asserted : Bool}
    (accounted : KeysAccounted held first)
    (calls :
      Hw.CallsKey device key
        (if (first.devices device).hasControl .key then
          some asserted
        else
          none)
        first last)
    (isHeld : asserted = true → held' device key)
    (stillHeld :
      ∀ other query,
        ¬ (device = other ∧ key = query) →
        held other query → held' other query) :
    KeysAccounted held' last where
  accounted := by
    intro other query pressed
    rw [calls.level] at pressed
    rw [calls.devices]
    by_cases same : device = other ∧ key = query
    · obtain ⟨rfl, rfl⟩ := same
      rw [if_pos ⟨rfl, rfl⟩] at pressed
      cases hasKey : (first.devices device).hasControl .key with
      | true =>
          rw [hasKey, if_pos rfl, Option.some_or] at pressed
          exact .inr (isHeld (Option.some.inj pressed))
      | false =>
          rw [hasKey, if_neg Bool.false_ne_true, Option.none_or] at pressed
          have wired := accounted.wired device key pressed
          rw [hasKey] at wired
          contradiction
    · rw [if_neg same] at pressed
      exact (accounted.accounted other query pressed).imp_right
        (stillHeld other query same)
  wired := by
    intro other query pressed
    rw [calls.level] at pressed
    rw [calls.devices]
    by_cases same : device = other ∧ key = query
    · obtain ⟨rfl, rfl⟩ := same
      cases hasKey : (first.devices device).hasControl .key with
      | true => rfl
      | false =>
          rw [if_pos ⟨rfl, rfl⟩, hasKey, if_neg Bool.false_ne_true,
            Option.none_or] at pressed
          rw [← hasKey]
          exact accounted.wired device key pressed
    · rw [if_neg same] at pressed
      exact accounted.wired other query pressed
  powerKey := by
    rw [calls.devices]
    exact accounted.powerKey

/-- The keys that the first tick of a sequence operates. -/
def Device.resetsKey (device : Device) (key : Nat) : Prop :=
  key = deviceKeyFastboot ∧ device.fastbootKeyTimeout ≠ 0 ∨
    key = deviceKeyPower ∧ device.hasPowerKey = true

/-- What a phase holds, the tick that ends it releases or the next one holds. -/
theorem holdsKey_nextPhase
    {dev : Device}
    {key : Nat}
    (holds :
      dev.holdsKey key ∨ dev.state = .start ∧ dev.resetsKey key)
    (call : tickCall dev key = none) :
    { dev with state := (nextPhase dev).1 }.holdsKey key := by
  have keys : deviceKeyPower ≠ deviceKeyFastboot := by decide
  rcases holds with (⟨rfl, timeout, phase⟩ | ⟨rfl, phase⟩) |
    ⟨phase, ⟨rfl, timeout⟩ | ⟨rfl, powerKey⟩⟩
  · refine .inl ⟨rfl, timeout, ?_⟩
    rcases phase with phase | phase | phase | phase
    · cases powerKey : dev.hasPowerKey with
      | true => simp [nextPhase, phase, powerKey]
      | false => simp [nextPhase, afterKey, phase, powerKey, timeout]
    · simp [nextPhase, phase]
    · simp [nextPhase, afterKey, phase, timeout]
    · simp [tickCall, phase] at call
  · simp [tickCall, phase] at call
  · simp [tickCall, phase, timeout] at call
  · simp [tickCall, phase, keys, powerKey] at call

/-- A key that a tick presses is held in the next phase. -/
theorem holdsKey_of_tickCall
    {dev : Device}
    {key : Nat}
    (call : tickCall dev key = some true) :
    { dev with state := (nextPhase dev).1 }.holdsKey key := by
  unfold tickCall at call
  cases phase : dev.state with
  | start =>
      rw [phase] at call
      dsimp only at call
      split at call
      · rename_i isFastboot
        exact .inl ⟨isFastboot.1, isFastboot.2, by simp [nextPhase, phase]⟩
      · simp at call
  | press =>
      rw [phase] at call
      dsimp only at call
      split at call
      · rename_i isPower
        exact .inr ⟨isPower, by simp [nextPhase, phase]⟩
      · simp at call
  | connect => simp [phase] at call
  | releasePwr => simp [phase] at call
  | releaseFastboot => simp [phase] at call
  | running => simp [phase] at call

/-- The phases that operate the power key are only entered if there is one. -/
theorem hasPowerKey_nextPhase
    {dev : Device}
    (powerKey :
      dev.state = .press ∨ dev.state = .releasePwr →
      dev.hasPowerKey = true)
    (phase :
      (nextPhase dev).1 = .press ∨ (nextPhase dev).1 = .releasePwr) :
    dev.hasPowerKey = true := by
  have after :
      ¬ ((afterKey dev).1 = .press ∨ (afterKey dev).1 = .releasePwr) := by
    unfold afterKey
    split <;> simp
  unfold nextPhase at phase
  cases state : dev.state with
  | start => simp [state] at phase
  | connect =>
      rw [state] at phase
      dsimp only at phase
      split at phase
      · assumption
      · exact absurd phase after
  | press => exact powerKey (.inl state)
  | releasePwr => exact powerKey (.inr state)
  | releaseFastboot => simp [state] at phase
  | running => simp [state] at phase

/-- A tick accounts for the keys that it leaves pressed. -/
theorem KeysAccounted.of_ticks
    {device : Fin n}
    (accounted : KeysAccounted held first)
    (excused :
      ∀ other key,
        held other key →
        held' other key ∨
          other = device ∧
            (first.devices device).state = .start ∧
            (first.devices device).resetsKey key)
    (ticks : Hw.Ticks device first last) :
    KeysAccounted held' last where
  accounted := by
    intro other key pressed
    rw [ticks.level] at pressed
    rw [ticks.devices]
    by_cases here : other = device
    · subst here
      rw [if_pos rfl]
      cases hasKey : (first.devices other).hasControl .key with
      | true =>
          rw [if_pos ⟨rfl, hasKey⟩] at pressed
          cases call : tickCall (first.devices other) key with
          | some level =>
              rw [call, Option.some_or] at pressed
              rw [pressed] at call
              exact .inl (holdsKey_of_tickCall call)
          | none =>
              rw [call, Option.none_or] at pressed
              rcases accounted.accounted other key pressed with
                holds | isHeld
              · exact .inl (holdsKey_nextPhase (.inl holds) call)
              · rcases excused other key isHeld with
                  stillHeld | ⟨_, restarted⟩
                · exact .inr stillHeld
                · exact .inl (holdsKey_nextPhase (.inr restarted) call)
      | false =>
          rw [hasKey, if_neg (by simp)] at pressed
          have wired := accounted.wired other key pressed
          rw [hasKey] at wired
          contradiction
    · rw [if_neg (fun same => here same.1)] at pressed
      rw [if_neg here]
      rcases accounted.accounted other key pressed with holds | isHeld
      · exact .inl holds
      · exact .inr ((excused other key isHeld).resolve_right
          fun same => here same.1)
  wired := by
    intro other key pressed
    rw [ticks.level] at pressed
    rw [ticks.devices]
    by_cases wired :
        other = device ∧ (first.devices device).hasControl .key = true
    · obtain ⟨rfl, hasKey⟩ := wired
      rw [if_pos rfl]
      exact hasKey
    · rw [if_neg wired] at pressed
      have hasKey := accounted.wired other key pressed
      split
      · exact hasKey
      · exact hasKey
  powerKey := by
    intro other phase
    rw [ticks.devices] at phase ⊢
    by_cases here : other = device
    · subst here
      rw [if_pos rfl] at phase ⊢
      have kept := hasPowerKey_nextPhase (accounted.powerKey other) phase
      exact kept
    · rw [if_neg here] at phase ⊢
      exact accounted.powerKey other phase

end KeysAccounted

/-! ## The server -/

/-- A message or its timer holds a key, and acts on this device. -/
def Server.holds
    (server : Server n)
    (device : Fin n)
    (key : Nat) :
    Prop :=
  server.selectedDevice = some device ∧ server.heldByMessages key

/-- Pressed keys are accounted for, if boards were selected between keys. -/
def Server.AccountsKeys (server : Server n) : Prop :=
  SelectsBetweenKeys server.dispatched →
    KeysAccounted server.holds server.hw

/-- Work of the server that spares the keys; the selection stays as it is. -/
structure Server.SparesKeys (first last : Server n) : Prop where
  hw : first.hw.SparesKeys last.hw
  selected : last.selectedDevice = first.selectedDevice
  dispatched : last.dispatched = first.dispatched

instance Server.SparesKeys.composes :
    Composes (Server.SparesKeys (n := n)) where
  refl := fun server => ⟨Composes.refl server.hw, rfl, rfl⟩
  trans := fun firstStep laterStep =>
    { hw := Composes.trans firstStep.hw laterStep.hw
      selected := laterStep.selected.trans firstStep.selected
      dispatched := laterStep.dispatched.trans firstStep.dispatched }

theorem onHw_sparesKeys
    {program : HwM n α}
    (spares : Relates Hw.SparesKeys Stop.Any program) :
    Relates Server.SparesKeys Stop.Any (onHw program) :=
  .within (fun _ _ step => ⟨step, rfl, rfl⟩) spares

theorem server_sparesKeys_of_background
    {program : ServerM n α}
    (background : Relates Server.Background Stop.Any program) :
    Relates Server.SparesKeys Stop.Any program :=
  background.mono
    (fun _ _ step =>
      ⟨step.hw.sparesKeys, step.selected, step.dispatched⟩)
    (fun _ => id)

theorem Server.SparesKeys.holds_iff
    {first last : Server n}
    (spares : first.SparesKeys last)
    (device : Fin n)
    (key : Nat) :
    last.holds device key ↔ first.holds device key := by
  unfold Server.holds Server.heldByMessages
  rw [spares.selected, spares.dispatched, spares.hw.releases]

/-- What spares the keys leaves them accounted for. -/
theorem Server.AccountsKeys.of_sparesKeys
    {first last : Server n}
    (accounts : first.AccountsKeys)
    (spares : first.SparesKeys last) :
    last.AccountsKeys := by
  intro selects
  rw [spares.dispatched] at selects
  exact ((accounts selects).of_sparesKeys spares.hw).mono
    fun device key _ => (spares.holds_iff device key).mpr

theorem accountsKeys_of_sparesKeys
    {program : ServerM n α}
    (spares : Relates Server.SparesKeys Stop.Any program) :
    Keeps Server.AccountsKeys (fun _ => Server.AccountsKeys) program :=
  .of_relates spares fun _ _ accounts => accounts.of_sparesKeys

/-! ### Messages -/

theorem lastKeyMessage_concat
    (key : Nat)
    (messages : List Msg)
    (msg : Msg) :
    lastKeyMessage key (messages ++ [msg]) =
      (msg.keyCommand? key).or (lastKeyMessage key messages) := by
  unfold lastKeyMessage
  rw [List.filterMap_append, List.getLast?_append]
  congr 1
  cases command : msg.keyCommand? key with
  | none => simp [command]
  | some found => simp [command]

theorem SelectsBetweenKeys.of_concat
    {messages : List Msg}
    {msg : Msg}
    (selects : SelectsBetweenKeys (messages ++ [msg])) :
    SelectsBetweenKeys messages := by
  intro before found after shape
  apply selects before found (after ++ [msg])
  rw [shape, List.append_assoc, List.cons_append]

/-- Recording a message that is about no key changes nothing. -/
theorem Server.AccountsKeys.record
    {server : Server n}
    {msg : Msg}
    (accounts : server.AccountsKeys)
    (noKey : ∀ key, msg.keyCommand? key = none) :
    Server.AccountsKeys
      { server with dispatched := server.dispatched ++ [msg] } := by
  intro selects
  apply (accounts selects.of_concat).mono
  rintro device key _ ⟨selected, held⟩
  refine ⟨selected, ?_⟩
  unfold Server.heldByMessages at held ⊢
  rwa [lastKeyMessage_concat, noKey, Option.none_or]

theorem keyCommand?_of_other
    {msg : Msg}
    {type : MsgType}
    (decoded : MsgType.ofCode? msg.type = some type)
    (other : type ≠ .keyPress)
    (key : Nat) :
    msg.keyCommand? key = none := by
  unfold Msg.keyCommand?
  rw [if_neg]
  rw [decoded]
  exact fun same => other (Option.some.inj same)

/-- When a board is selected no message holds a key. -/
theorem SelectsBetweenKeys.notHeld
    {messages : List Msg}
    {msg : Msg}
    (selects : SelectsBetweenKeys (messages ++ [msg]))
    (decoded : MsgType.ofCode? msg.type = some .selectBoard)
    (key : Nat)
    {command : KeyCommand}
    (last : lastKeyMessage key (messages ++ [msg]) = some command) :
    command = .release := by
  rw [lastKeyMessage_concat, keyCommand?_of_other decoded (by decide),
    Option.none_or] at last
  exact selects messages msg [] rfl decoded key command last

/-- Work that spares the keys, whatever becomes of the selection. -/
structure Server.Reselects (first last : Server n) : Prop where
  hw : first.hw.SparesKeys last.hw
  dispatched : last.dispatched = first.dispatched

instance Server.Reselects.composes :
    Composes (Server.Reselects (n := n)) where
  refl := fun server => ⟨Composes.refl server.hw, rfl⟩
  trans := fun firstStep laterStep =>
    { hw := Composes.trans firstStep.hw laterStep.hw
      dispatched := laterStep.dispatched.trans firstStep.dispatched }

theorem msgSelectBoard_reselects
    (data : List UInt8) :
    Relates Server.Reselects Stop.Any (msgSelectBoard (n := n) data) := by
  have spares :
      ∀ {α : Type} {program : ServerM n α},
        Relates Server.Background Stop.Any program →
        Relates Server.Reselects Stop.Any program := by
    intro α program background
    exact background.mono
      (fun _ _ step => ⟨step.hw.sparesKeys, step.dispatched⟩) (fun _ => id)
  have answers : InBackground (cdbaSend (n := n) .selectBoard) :=
    emit_background MsgType.noConfusion
  refine .bind (.read _) fun _ =>
    .bind (spares (deviceOpen_background _)) fun opened =>
      .bind (.update fun server => ⟨Composes.refl server.hw, rfl⟩)
        fun _ => ?_
  cases opened with
  | none =>
      exact .bind
        (spares (updateGlobals_background fun _ => ⟨_, _, _, _, _, rfl⟩))
        fun _ => spares (onHw_background answers)
  | some device =>
      exact .bind
        (spares (onHw_background (deviceFastbootOpen_background device)))
        fun _ => spares (onHw_background answers)

/-- When a board is selected, only the sequences hold keys. -/
theorem Server.AccountsKeys.select
    {server : Server n}
    {msg : Msg}
    (accounts : server.AccountsKeys)
    (decoded : MsgType.ofCode? msg.type = some .selectBoard) :
    KeepsAt Server.AccountsKeys (fun _ => Server.AccountsKeys)
      (msgSelectBoard msg.data)
      { server with dispatched := server.dispatched ++ [msg] } := by
  let recorded : Server n :=
    { server with dispatched := server.dispatched ++ [msg] }
  have kept :
      ∀ final : Server n, recorded.Reselects final → final.AccountsKeys := by
    intro final reselects selects
    rw [reselects.dispatched] at selects
    have before := (accounts.record
      (keyCommand?_of_other decoded (by decide))) selects
    have unheld := before.mono fun device key _ held =>
      show False by
        rcases held.2 with press | pulse
        · cases selects.notHeld decoded key press
        · cases selects.notHeld decoded key pulse.1
    exact (unheld.of_sparesKeys reselects.hw).mono
      fun device key _ impossible => impossible.elim
  have related := (msgSelectBoard_reselects msg.data recorded).related
  unfold KeepsAt
  cases outcome : msgSelectBoard msg.data recorded with
  | ok value final =>
      rw [outcome] at related
      exact kept final related
  | error reason final =>
      rw [outcome] at related
      exact kept final related

/-- The first tick of a sequence accounts for what earlier phases have held. -/
theorem KeysAccounted.restarted
    {held : Fin n → Nat → Prop}
    {hw : Hw n}
    (accounted : KeysAccounted held hw)
    (device : Fin n) :
    KeysAccounted
      (fun other key =>
        held other key ∨
          other = device ∧
            ((hw.restarted device).devices device).resetsKey key)
      (hw.restarted device) := by
  have config :
      ∀ other,
        ((hw.restarted device).devices other).SameConfig
          (hw.devices other) := by
    intro other
    unfold Hw.restarted
    dsimp only
    split
    · rfl
    · exact .refl _
  refine ⟨?_, ?_, ?_⟩
  · intro other key pressed
    rcases accounted.accounted other key pressed with holds | isHeld
    · by_cases here : other = device
      · subst here
        right
        right
        refine ⟨rfl, ?_⟩
        rcases holds with ⟨isFastboot, timeout, _⟩ | ⟨isPower, phase⟩
        · refine .inl ⟨isFastboot, ?_⟩
          simpa [Hw.restarted] using timeout
        · have powerKey := accounted.powerKey other (.inr phase)
          refine .inr ⟨isPower, ?_⟩
          simpa [Hw.restarted] using powerKey
      · left
        simpa [Hw.restarted, here] using holds
    · exact .inr (.inl isHeld)
  · intro other key pressed
    rw [← (config other).hasControl]
    exact accounted.wired other key pressed
  · intro other phase
    by_cases here : other = device
    · subst here
      simp [Hw.restarted] at phase
    · have same : (hw.restarted device).devices other = hw.devices other := by
        simp [Hw.restarted, here]
      rw [same] at phase ⊢
      exact accounted.powerKey other phase

/-- The account, and timers that will still release keys. -/
structure KeysCarried
    (held : Fin n → Nat → Prop)
    (awaited : Nat → Prop)
    (hw : Hw n) :
    Prop where
  accounted : KeysAccounted held hw
  pending : ∀ key, awaited key → hw.ReleasePending key

section KeysCarried

variable {held : Fin n → Nat → Prop} {awaited : Nat → Prop}

theorem Hw.Ticks.pending
    {device : Fin n}
    {first last : Hw n}
    {key : Nat}
    (ticks : Hw.Ticks device first last)
    (before : first.ReleasePending key) :
    last.ReleasePending key := by
  obtain ⟨armed, timers, _⟩ := ticks.timers
  obtain ⟨timer, member, releases⟩ := before
  refine ⟨timer, ?_, releases⟩
  rw [timers]
  exact List.mem_append_left _ member

theorem KeysCarried.of_sparesKeys
    {first last : Hw n}
    (carried : KeysCarried held awaited first)
    (spares : first.SparesKeys last) :
    KeysCarried held awaited last where
  accounted := carried.accounted.of_sparesKeys spares
  pending := fun key before =>
    (spares.releases key).mpr (carried.pending key before)

theorem deviceTick_carried
    (device : Fin n) :
    Keeps (KeysCarried held awaited) (fun _ => KeysCarried held awaited)
      (deviceTick device) := by
  intro hw carried
  unfold KeepsAt
  rcases deviceTick_ticks device hw with
    ⟨last, result, ticks⟩ | ⟨_, reason, result, spares⟩
  · rw [result]
    exact
      { accounted := carried.accounted.of_ticks
          (fun _ _ isHeld => .inl isHeld) ticks
        pending := fun key before =>
          ticks.pending (carried.pending key before) }
  · rw [result]
    exact carried.of_sparesKeys spares

/-- A power-on request accounts for the keys that it leaves pressed. -/
theorem devicePowerOn_carried
    (device : Option (Fin n)) :
    Keeps (KeysCarried held awaited) (fun _ => KeysCarried held awaited)
      (devicePowerOn device) := by
  intro hw carried
  unfold devicePowerOn
  apply KeepsAt.read
  cases poweredDevice? device hw with
  | none => exact carried
  | some device =>
      have sets :
          setState device .start hw = .ok () (hw.restarted device) :=
        rfl
      have begins : ((hw.restarted device).devices device).state = .start := by
        simp [Hw.restarted]
      unfold KeepsAt
      dsimp only
      rw [bind_of_ok sets]
      rcases deviceTick_ticks device (hw.restarted device) with
        ⟨last, result, ticks⟩ | ⟨connect, _⟩
      · rw [result]
        refine ⟨(carried.accounted.restarted device).of_ticks ?_ ticks, ?_⟩
        · intro other key isHeld
          exact isHeld.imp_right fun reset => ⟨reset.1, begins, reset.2⟩
        · intro key before
          have still : (hw.restarted device).ReleasePending key :=
            carried.pending key before
          exact ticks.pending still
      · rw [begins] at connect
        cases connect

/-- Work on the hardware that carries every account. -/
theorem accountsKeys_of_carried
    {program : HwM n Unit}
    (carries :
      ∀ held awaited,
        Keeps (KeysCarried held awaited) (fun _ => KeysCarried held awaited)
          program) :
    Keeps Server.AccountsKeys (fun _ => Server.AccountsKeys)
      (onHw program) := by
  intro server accounts
  have kept :
      ∀ final : Hw n,
        (SelectsBetweenKeys server.dispatched →
          KeysCarried server.holds server.hw.ReleasePending final) →
        Server.AccountsKeys { server with hw := final } := by
    intro final carried selects
    apply (carried selects).accounted.mono
    rintro device key _ ⟨selected, held⟩
    exact ⟨selected, held.imp_right fun pulse =>
      ⟨pulse.1, (carried selects).pending key pulse.2⟩⟩
  have carried := fun selects =>
    carries server.holds server.hw.ReleasePending server.hw
      ⟨accounts selects, fun _ => id⟩
  unfold KeepsAt at carried ⊢
  unfold onHw within
  dsimp only [Server.hwOf]
  cases outcome : program server.hw with
  | ok value final =>
      rw [outcome] at carried
      exact kept final carried
  | error reason final =>
      rw [outcome] at carried
      exact kept final carried

end KeysCarried

theorem onHw_of_error
    {program : HwM n α}
    {server : Server n}
    {reason : Stop}
    {hw : Hw n}
    (result : program server.hw = .error reason hw) :
    onHw program server = .error reason { server with hw := hw } := by
  simp only [onHw, within, Server.hwOf, result]

/-- A key command takes two bytes. -/
theorem eq_pair_of_keyCommandOf?
    {data : List UInt8}
    {command : Nat × KeyCommand}
    (commands : keyCommandOf? data = some command) :
    ∃ key state, data = [key, state] := by
  unfold keyCommandOf? at commands
  split at commands
  · exact ⟨_, _, rfl⟩
  · cases commands

/-- Without a selected board a key command follows a NULL pointer. -/
theorem msgKeyPress_unselected
    {data : List UInt8}
    {command : Nat × KeyCommand}
    (commands : keyCommandOf? data = some command)
    (hw : Hw n) :
    msgKeyPress none data hw = .error (.nullDeref .device) hw := by
  obtain ⟨key, state, rfl⟩ := eq_pair_of_keyCommandOf? commands
  unfold msgKeyPress
  dsimp only
  split
  · rfl
  · rfl

/-- What a key command for the selected board does. -/
theorem msgKeyPress_calls
    {device : Fin n}
    {data : List UInt8}
    {key : Nat}
    {command : KeyCommand}
    (commands : keyCommandOf? data = some (key, command))
    (hw : Hw n) :
    ∃ called final armed,
      Hw.CallsKey device key
          (if (hw.devices device).hasControl .key then
            some (decide (command ≠ .release))
          else
            none)
          hw called ∧
        msgKeyPress (some device) data hw = .ok () final ∧
        final.log = called.log ∧
        final.devices = called.devices ∧
        final.timers = hw.timers ++ armed ∧
        (command = .pulse → final.ReleasePending key) := by
  obtain ⟨number, state, rfl⟩ := eq_pair_of_keyCommandOf? commands
  unfold keyCommandOf? at commands
  unfold msgKeyPress
  dsimp only at commands ⊢
  by_cases pulse : state = keyPressPulse
  · rw [if_pos pulse] at commands ⊢
    cases commands
    obtain ⟨called, result, calls⟩ :=
      deviceKey_calls device number.toNat true hw
    let final : Hw n :=
      { called with
        clock := called.clock.tick
        timers := called.timers ++
          [releaseTimer called.clock.tick.now number.toNat] }
    have returns :
        (do
          deviceKey (some device) number.toNat true
          watchTimerAdd 100 (.msgKeyRelease number.toNat)) hw =
            .ok () final :=
      bind_of_ok result _
    refine ⟨called, final,
      [releaseTimer called.clock.tick.now number.toNat],
      calls, returns, rfl, rfl, ?_, ?_⟩
    · rw [← calls.timers]
    · intro _
      exact ⟨_, List.mem_append_right _ List.mem_cons_self, rfl⟩
  · rw [if_neg pulse] at commands ⊢
    obtain ⟨called, result, calls⟩ :=
      deviceKey_calls device number.toNat (decide (state ≠ 0)) hw
    by_cases press : state = 0
    · rw [if_neg (not_not_intro press)] at commands
      cases commands
      refine ⟨called, called, [], ?_, result, rfl, rfl, ?_, by simp⟩
      · simpa [press] using calls
      · rw [List.append_nil, calls.timers]
    · rw [if_pos press] at commands
      cases commands
      refine ⟨called, called, [], ?_, result, rfl, rfl, ?_, by simp⟩
      · simpa [press] using calls
      · rw [List.append_nil, calls.timers]

theorem keyCommand?_of_keyPress
    {msg : Msg}
    (decoded : MsgType.ofCode? msg.type = some .keyPress)
    (query : Nat) :
    msg.keyCommand? query =
      ((keyCommandOf? msg.data).filter
        fun command => command.1 = query).map Prod.snd := by
  unfold Msg.keyCommand?
  rw [if_pos decoded]

/-- A message of any other length is ignored. -/
theorem msgKeyPress_ignored
    {data : List UInt8}
    (ignored : keyCommandOf? data = none)
    (selected : Option (Fin n)) :
    msgKeyPress selected data = pure () := by
  rcases data with _ | ⟨key, _ | ⟨state, _ | ⟨other, rest⟩⟩⟩
  · rfl
  · rfl
  · simp only [keyCommandOf?] at ignored
    split at ignored
    · cases ignored
    · split at ignored
      · cases ignored
      · cases ignored
  · rfl

/-- A key message accounts for the key that it names. -/
theorem Server.AccountsKeys.keyMessage
    {server : Server n}
    {msg : Msg}
    (accounts : server.AccountsKeys)
    (decoded : MsgType.ofCode? msg.type = some .keyPress) :
    KeepsAt Server.AccountsKeys (fun _ => Server.AccountsKeys)
      (onSelected fun selected => msgKeyPress selected msg.data)
      { server with dispatched := server.dispatched ++ [msg] } := by
  let recorded : Server n :=
    { server with dispatched := server.dispatched ++ [msg] }
  have named := keyCommand?_of_keyPress decoded
  cases commands : keyCommandOf? msg.data with
  | none =>
      have noKey : ∀ key, msg.keyCommand? key = none := by
        intro key
        rw [named, commands]
        rfl
      have ignores :
          onSelected (fun selected => msgKeyPress selected msg.data)
              recorded =
            .ok () recorded := by
        refine (onSelected_apply _ _).trans ?_
        rw [msgKeyPress_ignored commands]
        rfl
      exact .of_ok ignores (accounts.record noKey)
  | some command =>
      obtain ⟨key, command⟩ := command
      rw [commands] at named
      rcases Option.eq_none_or_eq_some server.selectedDevice with
        selected | ⟨device, selected⟩
      · have stops :
            onSelected (fun selected => msgKeyPress selected msg.data)
                recorded =
              .error (.nullDeref .device) recorded := by
          refine (onSelected_apply _ _).trans ?_
          have unselected : recorded.selectedDevice = none := selected
          rw [unselected]
          exact onHw_of_error (msgKeyPress_unselected commands server.hw)
        refine .of_error stops fun selects => ?_
        apply (accounts selects.of_concat).mono
        intro device query _ held
        have unselected := held.1
        rw [selected] at unselected
        cases unselected
      · obtain ⟨called, final, armed, calls, result, log, devices, timers,
          pulses⟩ := msgKeyPress_calls commands server.hw
        have handles :
            onSelected (fun selected => msgKeyPress selected msg.data)
                recorded =
              .ok () { recorded with hw := final } :=
          (onSelected_some _ (show recorded.selectedDevice = some device
            from selected)).trans (onHw_of_ok result)
        refine .of_ok handles fun selects => ?_
        have before := accounts selects.of_concat
        refine KeysAccounted.congr (before.of_callsKey calls ?_ ?_)
          log devices
        · intro pressed
          refine ⟨selected, ?_⟩
          have last :
              lastKeyMessage key (server.dispatched ++ [msg]) =
                some command := by
            rw [lastKeyMessage_concat, named]
            simp
          cases command with
          | release => simp at pressed
          | press => exact .inl last
          | pulse => exact .inr ⟨last, pulses rfl⟩
        · rintro other query differs ⟨isSelected, held⟩
          refine ⟨isSelected, ?_⟩
          rw [selected] at isSelected
          have otherKey : key ≠ query := fun same =>
            differs ⟨Option.some.inj isSelected, same⟩
          have last :
              lastKeyMessage query (server.dispatched ++ [msg]) =
                lastKeyMessage query server.dispatched := by
            rw [lastKeyMessage_concat, named, Option.filter_some,
              if_neg (by simpa using otherKey)]
            rfl
          refine held.imp (fun press => last.trans press) ?_
          rintro ⟨pulse, timer, member, releases⟩
          refine ⟨last.trans pulse, timer, ?_, releases⟩
          change timer ∈ final.timers
          rw [timers]
          exact List.mem_append_left _ member

theorem carried_of_sparesKeys
    {held : Fin n → Nat → Prop}
    {awaited : Nat → Prop}
    {program : HwM n α}
    (spares : Relates Hw.SparesKeys Stop.Any program) :
    Keeps (KeysCarried held awaited) (fun _ => KeysCarried held awaited)
      program :=
  .of_relates spares fun _ _ carried => carried.of_sparesKeys

theorem msgFastbootDownload_sparesKeys
    (data : List UInt8) :
    Relates Server.SparesKeys Stop.Any
      (msgFastbootDownload (n := n) data) := by
  have payload :
      ∀ change : Server n → List UInt8,
        Relates Server.SparesKeys Stop.Any
          (update fun server =>
            { server with fastbootPayload := change server }) :=
    fun change => .update fun server => ⟨Composes.refl server.hw, rfl, rfl⟩
  refine .bind
    (.onlyIf (onHw_sparesKeys (sparesKeys_of_background (acquire_background _))))
    fun _ => .bind (payload _) fun _ => ?_
  exact .ite
      (.bind (.read _) fun _ =>
        .bind (.read _) fun _ =>
          .bind (onHw_sparesKeys (deviceBoot_sparesKeys _ _)) fun _ =>
            .bind (onHw_sparesKeys (emit_sparesKeys rfl)) fun _ =>
              payload _)
      (.pure ())

/-- Every message accounts for the keys that it leaves pressed. -/
theorem dispatch_accountsKeys
    (msg : Msg) :
    Keeps (Server.AccountsKeys (n := n)) (fun _ => Server.AccountsKeys)
      (dispatch msg) := by
  intro server accounts
  cases decoded : MsgType.ofCode? msg.type with
  | none =>
      refine .of_error (dispatch_unknown decoded server) ?_
      apply accounts.record
      intro key
      unfold Msg.keyCommand?
      rw [if_neg]
      simp [decoded]
  | some type =>
      unfold KeepsAt
      rw [dispatch_known decoded]
      by_cases keyPress : type = .keyPress
      · subst keyPress
        exact accounts.keyMessage decoded
      have recorded :=
        accounts.record (keyCommand?_of_other decoded keyPress)
      by_cases select : type = .selectBoard
      · subst select
        exact accounts.select decoded
      by_cases powerOn : type = .powerOn
      · subst powerOn
        have answers :
            Relates Hw.SparesKeys Stop.Any (cdbaSend (n := n) .powerOn) :=
          emit_sparesKeys rfl
        have carries :
            ∀ selected held awaited,
              Keeps (KeysCarried (n := n) held awaited)
                (fun _ => KeysCarried held awaited)
                (do
                  devicePower selected true
                  cdbaSend .powerOn) :=
          fun selected held awaited =>
            (devicePowerOn_carried selected).bind fun _ =>
              carried_of_sparesKeys answers
        exact accountsKeys_of_carried (carries server.selectedDevice) _
          recorded
      by_cases download : type = .fastbootDownload
      · subst download
        exact accountsKeys_of_sparesKeys
          (msgFastbootDownload_sparesKeys msg.data) _ recorded
      have background : type.isBackground = true := by
        cases type <;> first | rfl | contradiction
      exact accountsKeys_of_sparesKeys
        (server_sparesKeys_of_background
          (handleType_background background msg.data)) _ recorded

/-! ### Timers -/

/-- Removing a timer that releases no key. -/
theorem Server.AccountsKeys.erase
    {server : Server n}
    {position : Nat}
    {timer : Timer (TimerCallback n)}
    (accounts : server.AccountsKeys)
    (found : server.hw.timers[position]? = some timer)
    (other : ∀ key, timer.cb ≠ .msgKeyRelease key) :
    Server.AccountsKeys
      { server with
        hw :=
          { server.hw with
            timers := server.hw.timers.eraseIdx position } } := by
  refine accounts.of_sparesKeys
    { hw :=
        { logged := ⟨[], (List.append_nil _).symm, by simp⟩
          releases := ?_
          config := fun _ => .refl _
          state := fun _ => rfl
          powerKey := fun _ => id }
      selected := rfl
      dispatched := rfl }
  intro key
  apply exists_congr
  intro query
  apply and_congr_left
  intro releases
  apply mem_eraseIdx_of_ne found
  rintro rfl
  exact other key releases

/-- Visiting a timer that releases no key. -/
theorem Server.AccountsKeys.visit_other
    {server : Server n}
    {position : Nat}
    {timer : Timer (TimerCallback n)}
    {program : HwM n Unit}
    (accounts : server.AccountsKeys)
    (found : server.hw.timers[position]? = some timer)
    (other : ∀ key, timer.cb ≠ .msgKeyRelease key)
    (carries :
      ∀ held awaited,
        Keeps (KeysCarried held awaited) (fun _ => KeysCarried held awaited)
          program)
    (grows :
      ∀ final,
        program server.hw = .ok () final →
        ∃ added, final.timers = server.hw.timers ++ added) :
    KeepsAt Server.AccountsKeys (fun _ => Server.AccountsKeys)
      (do
        Cdba.onHw program
        update fun server =>
          Server.timersOf.set server
            ((Server.timersOf.get server).eraseIdx position))
      server := by
  apply (accountsKeys_of_carried carries server accounts).bind
  intro _ fired outcome kept
  obtain ⟨ran, same⟩ := within_eq_ok outcome
  obtain ⟨added, timers⟩ := grows fired.hw ran
  refine .of_ok (update_apply _ _) (kept.erase ?_ other)
  rw [timers, List.getElem?_append_left
    (List.getElem?_eq_some_iff.mp found).1]
  exact found

/-- Visiting a timer that releases a key of the selected board. -/
theorem Server.AccountsKeys.visit_release
    {server : Server n}
    {position key : Nat}
    {timer : Timer (TimerCallback n)}
    (accounts : server.AccountsKeys)
    (found : server.hw.timers[position]? = some timer)
    (releases : timer.cb = .msgKeyRelease key) :
    KeepsAt Server.AccountsKeys (fun _ => Server.AccountsKeys)
      (do
        fireTimer timer.cb
        update fun server =>
          Server.timersOf.set server
            ((Server.timersOf.get server).eraseIdx position))
      server := by
  rw [releases]
  rcases Option.eq_none_or_eq_some server.selectedDevice with
    selected | ⟨device, selected⟩
  · have stops :
        fireTimer (.msgKeyRelease key) server =
          .error (.nullDeref .device) server := by
      refine (onSelected_apply _ _).trans ?_
      rw [selected]
      rfl
    exact .of_error (bind_of_error stops _) accounts
  · obtain ⟨called, result, calls⟩ :=
      deviceKey_calls device key false server.hw
    have fires :
        fireTimer (.msgKeyRelease key) server =
          .ok () { server with hw := called } :=
      (onSelected_some _ selected).trans (onHw_of_ok result)
    refine .of_ok (bind_of_ok fires _) fun selects => ?_
    refine KeysAccounted.congr
      ((accounts selects).of_callsKey calls ?_ ?_) rfl rfl
    · simp
    · rintro other query differs ⟨isSelected, held⟩
      refine ⟨isSelected, held.imp_right ?_⟩
      rintro ⟨pulse, pending, member, releasesQuery⟩
      refine ⟨pulse, pending, ?_, releasesQuery⟩
      change pending ∈ called.timers.eraseIdx position
      rw [calls.timers]
      refine (mem_eraseIdx_of_ne found ?_).mpr member
      rintro rfl
      rw [selected] at isSelected
      rw [releases] at releasesQuery
      exact differs ⟨Option.some.inj isSelected,
        TimerCallback.msgKeyRelease.inj releasesQuery⟩

/-- Every timer accounts for the keys that it leaves pressed. -/
theorem Server.AccountsKeys.visit
    {server : Server n}
    {position : Nat}
    {timer : Timer (TimerCallback n)}
    (accounts : server.AccountsKeys)
    (found : server.hw.timers[position]? = some timer) :
    KeepsAt Server.AccountsKeys (fun _ => Server.AccountsKeys)
      (do
        fireTimer timer.cb
        update fun server =>
          Server.timersOf.set server
            ((Server.timersOf.get server).eraseIdx position))
      server := by
  cases cb : timer.cb with
  | msgKeyRelease key =>
      have visited := accounts.visit_release found cb
      rwa [cb] at visited
  | deviceTick device =>
      refine accounts.visit_other found (fun key => ?_)
        (fun held awaited => deviceTick_carried device) ?_
      · simp [cb]
      · intro final ran
        rcases deviceTick_ticks device server.hw with
          ⟨last, result, ticks⟩ | ⟨_, reason, result, _⟩
        · rw [result] at ran
          cases ran
          obtain ⟨armed, timers, _⟩ := ticks.timers
          exact ⟨armed, timers⟩
        · rw [result] at ran
          cases ran
  | cdbAssistPrintStatus device =>
      refine accounts.visit_other found (fun key => ?_)
        (fun held awaited => carried_of_sparesKeys (emit_sparesKeys rfl)) ?_
      · simp [cb]
      · rintro final ⟨⟩
        exact ⟨[], (List.append_nil _).symm⟩
  | qcomltDbgRequestStatus device =>
      have background :
          InBackground (watchTimerAdd (n := n) 200
            (.qcomltDbgRequestStatus device)) :=
        watchTimerAdd_background trivial
      refine accounts.visit_other found (fun key => ?_)
        (fun held awaited =>
          carried_of_sparesKeys (sparesKeys_of_background background)) ?_
      · simp [cb]
      · rintro final ⟨⟩
        exact ⟨_, rfl⟩

theorem invokeTimers_accountsKeys :
    Keeps (Server.AccountsKeys (n := n)) (fun _ => Server.AccountsKeys)
      invokeTimers := by
  refine Keeps.bind
    (accountsKeys_of_sparesKeys
      (onHw_sparesKeys
        (sparesKeys_of_background gettimeofday_background)))
    fun now => Keeps.bind (.read _) fun queue => ?_
  refine watchTimerInvokeLoop_keeps ?_ ?_ _ _
  · intro server position timer accounts found _
    exact accounts.visit found
  · intro server accounts
    exact accounts

/-! ### Runs -/

/-- The same of the server with its receive buffer. -/
abbrev AccountsThroughout
    (program : EStateM Stop (ServerLoop n) Unit) :
    Prop :=
  Keeps (fun loop : ServerLoop n => loop.state.AccountsKeys)
    (fun _ loop => loop.state.AccountsKeys) program

theorem runCallback_accountsKeys
    (callback : Callback) :
    AccountsThroughout (runCallback (n := n) callback) := by
  by_cases stdin : callback = .stdin
  · subst stdin
    exact receive_keeps (fun _ _ accounts => accounts)
      (fun _ accounts => accounts) dispatch_accountsKeys
  · obtain ⟨program, runs, background⟩ := runCallback_background stdin
    rw [runs]
    intro loop accounts
    exact KeepsAt.within Receiver.stateOf
      (accountsKeys_of_sparesKeys
        (server_sparesKeys_of_background background) loop.state accounts)

theorem watchMainLoop_accountsKeys
    (iterations : List (List Callback)) :
    AccountsThroughout (watchMainLoop (n := n) iterations) := by
  induction iterations with
  | nil =>
      exact .pure ()
  | cons ready rest inductionHypothesis =>
      have timers :
          AccountsThroughout
            (within Receiver.stateOf (invokeTimers (n := n))) :=
        fun loop accounts => KeepsAt.within Receiver.stateOf
          (invokeTimers_accountsKeys loop.state accounts)
      refine Keeps.bind (.read _) fun quitting => .ite (.pure ()) ?_
      exact Keeps.bind
        (Keeps.bind timers fun _ =>
          Keeps.each runCallback_accountsKeys ready)
        fun _ => inductionHypothesis

/-- On a fresh server no key is pressed. -/
theorem start_accountsKeys
    {devices : Fin n → Device}
    (fresh : ∀ device, (devices device).Fresh)
    (username : CString)
    (stdin : Input)
    (hw : Hw n)
    (lockOpens flocks : List Bool) :
    (Server.start devices username stdin hw lockOpens
      flocks).state.AccountsKeys := by
  intro _
  refine ⟨fun device key pressed => ?_, fun device key pressed => ?_,
    fun device phase => ?_⟩
  · cases pressed
  · cases pressed
  · have start : (devices device).state = .start := (fresh device).2.1
    change (devices device).state = .press ∨
      (devices device).state = .releasePwr at phase
    rw [start] at phase
    simp at phase

/-- Closing a device operates no key. -/
theorem closeSelected_keyLevel
    {server : Server n}
    {device : Fin n}
    (selected : server.selectedDevice = some device)
    (key : Nat) :
    (finalState (closeSelected server)).hw.keyLevel device key =
      server.hw.keyLevel device key := by
  have closes :
      (finalState (closeSelected server)).hw =
        finalState (deviceClose device server.hw) := by
    unfold closeSelected
    rw [bind_of_ok (read_apply _ _), selected]
    exact onHw_finalState _ _
  rw [closes]
  exact ((sparesKeys_of_background (deviceClose_background device)
    server.hw).related).keyLevel device key

/--
In every session that ends with `device_close`, with boards selected only while
the operated keys are released: if neither the power-on sequence nor the messages hold a
key of the selected board at the end of the main loop, no key stays pressed.
-/
theorem session_releasesKeys
    (devices : Fin n → Device)
    (username : CString)
    (stdin : Input)
    (hw : Hw n)
    (lockOpens flocks : List Bool)
    (iterations : List (List Callback))
    (device : Fin n)
    (ended : Server n)
    (fresh : ∀ device, (devices device).Fresh)
    (ends :
      endOfProcess?
          (watchMainLoop iterations
            (Server.start devices username stdin hw lockOpens flocks)) =
        some ended)
    (closes :
      ∀ status,
        stopped?
            (watchMainLoop iterations
              (Server.start devices username stdin hw lockOpens flocks)) ≠
          some (.exit status))
    (selected :
      (finalState
        (watchMainLoop iterations
          (Server.start devices username stdin hw lockOpens
            flocks))).state.selectedDevice =
        some device)
    (selects :
      SelectsBetweenKeys
        (finalState
          (watchMainLoop iterations
            (Server.start devices username stdin hw lockOpens
              flocks))).state.dispatched)
    (letGo :
      KeysLetGo device
        (finalState
          (watchMainLoop iterations
            (Server.start devices username stdin hw lockOpens
              flocks))).state)
    (key : Nat) :
    ended.hw.keyLevel device key ≠ some true := by
  have run := watchMainLoop_accountsKeys iterations _
    (start_accountsKeys fresh username stdin hw lockOpens flocks)
  have accounts := KeepsAt.final
    (fun loop : ServerLoop n => loop.state.AccountsKeys) run
  have closed :
      ended =
        finalState
          (closeSelected
            (finalState
              (watchMainLoop iterations
                (Server.start devices username stdin hw lockOpens
                  flocks))).state) := by
    cases outcome :
        watchMainLoop iterations
          (Server.start devices username stdin hw lockOpens flocks) with
    | ok value loop =>
        rw [outcome] at ends
        simp only [endOfProcess?, Option.ite_none_right_eq_some,
          Option.some.injEq] at ends
        exact ends.2.symm
    | error reason loop =>
        rw [outcome] at ends closes
        cases reason with
        | leaveLoop =>
            cases ends
            rfl
        | exit status => exact absurd rfl (closes status)
        | assertFailed => cases ends
        | nullDeref pointer => cases ends
        | diverges => cases ends
  intro pressed
  rw [closed, closeSelected_keyLevel selected] at pressed
  rcases (accounts selects).accounted device key pressed with
    holds | held
  · exact (letGo key).1 holds
  · exact (letGo key).2 held.2

/-- A message for the power key of the selected board. -/
def powerKeyMessage (command : KeyCommand) : Msg :=
  Msg.ofData MsgType.keyPress.code [1, command.state] (by simp)

theorem powerKeyMessage_keyCommand?
    (key : Nat)
    (command : KeyCommand) :
    (powerKeyMessage command).keyCommand? key =
      if key = deviceKeyPower then some command else none := by
  have decoded :
      MsgType.ofCode? (powerKeyMessage command).type = some .keyPress :=
    MsgType.ofCode?_code .keyPress
  have commands :
      keyCommandOf? (powerKeyMessage command).data =
        some (deviceKeyPower, command) := by
    cases command <;> rfl
  rw [keyCommand?_of_keyPress decoded, commands]
  by_cases power : key = deviceKeyPower
  · subst power
    simp
  · simp [power, Ne.symm power]

/-- Only the first message selects a board. -/
theorem selectsBetweenKeys_of_tail
    {first : Msg}
    {rest : List Msg}
    (others :
      ∀ msg, msg ∈ rest →
        MsgType.ofCode? msg.type ≠ some .selectBoard) :
    SelectsBetweenKeys (first :: rest) := by
  intro before msg after shape selects key command last
  cases before with
  | nil => cases last
  | cons head before =>
      cases shape
      exact absurd selects (others msg (by simp))

/-- A session that presses the power key and releases it again. -/
def releasedKeySession : EStateM.Result Stop (ServerLoop 1) Unit :=
  sessionWith [powerKeyMessage .press, powerKeyMessage .release]

theorem releasedKeySession_dispatched :
    (finalState releasedKeySession).state.dispatched =
      [selectFtdiBoard,
        Msg.ofData MsgType.powerOn.code [] Msg.nil_fits,
        powerKeyMessage .press, powerKeyMessage .release] := by
  decide +kernel

theorem releasedKeySession_letsGo :
    KeysLetGo 0 (finalState releasedKeySession).state := by
  have state :
      ((finalState releasedKeySession).state.hw.devices 0).state =
        .press := by
    decide +kernel
  have timeout :
      ((finalState releasedKeySession).state.hw.devices
        0).fastbootKeyTimeout = 0 := by
    decide +kernel
  intro key
  constructor
  · rintro (⟨_, holds, _⟩ | ⟨_, holds⟩)
    · exact holds timeout
    · rw [state] at holds
      cases holds
  · have select : selectFtdiBoard.keyCommand? key = none :=
      keyCommand?_of_other (MsgType.ofCode?_code .selectBoard) (by decide) key
    have powerOn :
        (Msg.ofData MsgType.powerOn.code [] Msg.nil_fits).keyCommand? key =
          none :=
      keyCommand?_of_other (MsgType.ofCode?_code .powerOn) (by decide) key
    have last :
        lastKeyMessage key (finalState releasedKeySession).state.dispatched =
          if key = deviceKeyPower then some .release else none := by
      rw [releasedKeySession_dispatched]
      simp only [lastKeyMessage, List.filterMap_cons, List.filterMap_nil,
        select, powerOn, powerKeyMessage_keyCommand?]
      by_cases power : key = deviceKeyPower
      · simp [power]
      · simp [power]
    rintro (press | ⟨pulse, _⟩)
    · rw [last] at press
      split at press <;> cases press
    · rw [last] at pulse
      split at pulse <;> cases pulse

/-- A power key that is pressed and released again is not left pressed. -/
theorem releasedKey_letGo :
    (finalState
        (closeSelected (finalState releasedKeySession).state)).hw.keyLevel 0
        deviceKeyPower ≠
      some true := by
  have left : stopped? releasedKeySession = some .leaveLoop := by
    decide +kernel
  have notExited :
      ∀ status, stopped? releasedKeySession ≠ some (.exit status) := by
    intro status
    rw [left]
    simp
  have selected :
      (finalState releasedKeySession).state.selectedDevice = some 0 := by
    decide +kernel
  have selects :
      SelectsBetweenKeys (finalState releasedKeySession).state.dispatched := by
    rw [releasedKeySession_dispatched]
    apply selectsBetweenKeys_of_tail
    decide
  exact session_releasesKeys (fun _ => ftdiBoard) (ascii "user")
    (poweredSession (fun _ : Fin 1 => ftdiBoard)
      [powerKeyMessage .press, powerKeyMessage .release]).state.stdin
    { Hw.initial fun _ => ftdiBoard with clock := ⟨0, pauseAfter 9⟩ }
    [] [] [[.stdin], [], [.stdin], [.stdin]] 0 _
    (fun _ => ⟨rfl, rfl, rfl, rfl⟩) (endOfProcess?_leaveLoop left) notExited
    selected selects releasedKeySession_letsGo deviceKeyPower

/--
A key that a message has pressed is still pressed after `device_close`, and so
is the fastboot key when the session ends in the middle of the sequence.
-/
theorem pressedKey_leftHeld :
    (∃ ended,
      endOfProcess? (sessionWith [powerKeyMessage .press]) = some ended ∧
        ended.selectedDevice = some 0 ∧
        ended.hw.keyLevel 0 deviceKeyPower = some true) ∧
      ∃ ended,
        endOfProcess?
            (sessionOn
              (fun _ : Fin 1 => { ftdiBoard with fastbootKeyTimeout := 2 })
              [consoleByte]) =
          some ended ∧
          ended.selectedDevice = some 0 ∧
          ended.hw.keyLevel 0 deviceKeyFastboot = some true := by
  have left :
      stopped? (sessionWith [powerKeyMessage .press]) =
        some .leaveLoop := by
    decide +kernel
  have left' :
      stopped?
          (sessionOn
            (fun _ : Fin 1 => { ftdiBoard with fastbootKeyTimeout := 2 })
            [consoleByte]) =
        some .leaveLoop := by
    decide +kernel
  exact ⟨⟨_, endOfProcess?_leaveLoop left, by decide +kernel,
      by decide +kernel⟩,
    ⟨_, endOfProcess?_leaveLoop left', by decide +kernel,
      by decide +kernel⟩⟩

end Cdba
