import Cdba.SessionMachine

namespace Cdba

/-!
# What the server says of its own accord

Answers aside, the server tells what descriptors deliver: what the board prints
and what its status commands and control drivers report.  Views of the log that
hide the answers show nothing of the messages that are dispatched, and in a run
of the main loop they show what the callbacks forward, in order.
-/

open Program

variable {n : Nat}

/-! ## Views without answers -/

/-- A view that shows neither work nor what a message is answered. -/
structure HidesAnswers (view : Event n → Option β) : Prop where
  work : HidesWork view
  written : ∀ device bytes, view (.consoleWrite device bytes) = none
  booted : ∀ device image, view (.deviceBoot device image) = none
  replies :
    ∀ type payload, type.isNews = false → view (.send type payload) = none

/-- A view shows nothing new, and nothing was dispatched. -/
structure Server.Unseen
    (view : Event n → Option β)
    (first last : Server n) :
    Prop where
  hw : Hw.Unseen view first.hw last.hw
  dispatched : last.dispatched = first.dispatched

instance Server.Unseen.composes
    (view : Event n → Option β) :
    Composes (Server.Unseen view) where
  refl := fun _ => ⟨rfl, rfl⟩
  trans := fun step later =>
    ⟨later.hw.trans step.hw, later.dispatched.trans step.dispatched⟩

/-- Programs of the server of which a view shows nothing. -/
abbrev Unheard (view : Event n → Option β) (program : ServerM n α) : Prop :=
  Relates (Server.Unseen view) Stop.Any program

section Unheard

variable {view : Event n → Option β}

theorem Undisturbing.unheard
    {program : ServerM n α}
    (undisturbing : Undisturbing view program) :
    Unheard view program :=
  undisturbing.mono (fun _ _ step => ⟨step.hw, step.dispatched⟩)
    fun _ => id

theorem onSelected_unheard
    {handler : Option (Fin n) → HwM n Unit}
    (overlooks : ∀ selected, Overlooks view (handler selected)) :
    Unheard view (onSelected handler) :=
  Undisturbing.unheard (onSelected_undisturbed overlooks)

theorem onHw_unheard
    {program : HwM n α}
    (overlooks : Overlooks view program) :
    Unheard view (onHw program) :=
  Undisturbing.unheard (onHw_undisturbed overlooks)

theorem deviceBoot_unseen
    (hides : HidesAnswers view)
    (selected : Option (Fin n))
    (image : List UInt8) :
    Overlooks view (deviceBoot selected image) :=
  .bind (deref_unseen selected) fun _ =>
    .bind (.read _) fun _ =>
      .bind (emit_unseen (hides.booted _ _)) fun _ =>
        .ite (.stop trivial)
          (.bind (runBulk_unseen hides.work _ _) fun _ =>
            .bind (acquire_unseen _) fun _ =>
              .bind (runBulk_unseen hides.work _ _) fun _ =>
                .bind (bootMethod_unseen hides.work _) fun _ =>
                  .onlyIf (deviceUsb_unseen hides.work _ _))

theorem msgSelectBoard_unheard
    (hides : HidesAnswers view)
    (presence : HidesPresence view)
    (data : List UInt8) :
    Unheard view (msgSelectBoard (n := n) data) := by
  have acknowledges :
      Unheard view (onHw (cdbaSend (n := n) .selectBoard)) :=
    onHw_unheard (emit_unseen (hides.replies _ _ rfl))
  refine .bind (.read _) fun beyond =>
    .bind (Undisturbing.unheard (deviceOpen_undisturbed hides.work _))
      fun device => .bind (.update fun _ => ⟨rfl, rfl⟩) fun _ => ?_
  cases device with
  | none =>
      exact .bind (.update fun _ => ⟨rfl, rfl⟩) fun _ => acknowledges
  | some device =>
      exact .bind (onHw_unheard (deviceFastbootOpen_unseen presence device))
        fun _ => acknowledges

/--
A message is only answered.  Selecting a board also looks for its fastboot
device.
-/
theorem handleType_unheard
    (hides : HidesAnswers view)
    {type : MsgType}
    (selects : type = .selectBoard → HidesPresence view)
    (data : List UInt8) :
    Unheard view (handleType (n := n) type data) := by
  have acknowledges :
      ∀ (work : HwM n Unit) (type : MsgType),
        type.isNews = false →
        Overlooks view work →
        Overlooks view (do
          work
          cdbaSend type) :=
    fun _ _ solicited overlooks => .bind overlooks fun _ =>
      emit_unseen (hides.replies _ _ solicited)
  have globals :
      ∀ payload : Server n → List UInt8,
        Unheard view
          (update fun server : Server n =>
            { server with fastbootPayload := payload server }) :=
    fun _ => .update fun _ => ⟨rfl, rfl⟩
  cases type with
  | selectBoard => exact msgSelectBoard_unheard hides (selects rfl) data
  | console =>
      refine onSelected_unheard fun selected => ?_
      cases selected with
      | none => exact .pure _
      | some device =>
          exact .bind (.read _) fun _ =>
            .ite (.stop trivial) (emit_unseen (hides.written _ _))
  | hardreset => exact .pure _
  | powerOn =>
      exact onSelected_unheard fun _ =>
        acknowledges _ _ rfl (devicePower_unseen hides.work _ _)
  | powerOff =>
      exact onSelected_unheard fun _ =>
        acknowledges _ _ rfl (devicePower_unseen hides.work _ _)
  | fastbootPresent => exact .pure _
  | fastbootDownload =>
      refine .bind (.onlyIf (onHw_unheard (acquire_unseen _))) fun _ =>
        .bind (globals _) fun _ => .ite ?_ (.pure _)
      exact .bind (.read _) fun _ =>
        .bind (.read _) fun _ =>
          .bind (onHw_unheard (deviceBoot_unseen hides _ _)) fun _ =>
            .bind (onHw_unheard (emit_unseen (hides.replies _ _ rfl)))
              fun _ => globals _
  | fastbootBoot => exact .pure _
  | statusUpdate =>
      exact onSelected_unheard (deviceStatusEnable_unseen hides.work)
  | vbusOn =>
      exact onSelected_unheard fun _ => deviceUsb_unseen hides.work _ _
  | vbusOff =>
      exact onSelected_unheard fun _ => deviceUsb_unseen hides.work _ _
  | fastbootReboot => exact .stop trivial
  | sendBreak =>
      exact onSelected_unheard (deviceSendBreak_unseen hides.work)
  | listDevices =>
      exact .bind (.read _) fun _ =>
        onHw_unheard
          (.bind
            (.each fun _ _ =>
              .bind (.read _) fun _ =>
                .bind (.read _) fun _ =>
                  .onlyIf (emit_unseen (hides.replies _ _ rfl)))
            fun _ => emit_unseen (hides.replies _ _ rfl))
  | boardInfo =>
      exact .bind (.read _) fun _ =>
        .bind (.read _) fun _ =>
          onHw_unheard
            (.bind (.read _) fun _ =>
              .bind (.read _) fun _ =>
                emit_unseen (hides.replies _ _ rfl))
  | fastbootContinue =>
      exact onSelected_unheard fun _ =>
        acknowledges _ _ rfl
          (.bind (deref_unseen _) fun _ =>
            .bind (.read _) fun _ =>
              .onlyIf (runBulk_unseen hides.work _ _))
  | keyPress =>
      exact onSelected_unheard fun _ => msgKeyPress_unseen hides.work _ _

end Unheard

/-! ## What is forwarded -/

/-- The messages with which the server passes on what it has read. -/
def MsgType.isForwarded : MsgType → Bool
  | .console | .statusUpdate => true
  | _ => false

/-- The message of an event that passes on what was read. -/
def Event.forwarded? : Event n → Option (MsgType × List UInt8)
  | .send type payload =>
      if type.isForwarded then some (type, payload) else none
  | _ => none

/-- What a log passes on. -/
def forwarded (log : List (Stamped (Event n))) :
    List (MsgType × List UInt8) :=
  log.filterMap fun event => event.value.forwarded?

theorem forwarded_hideAnswers :
    HidesAnswers (Event.forwarded? (n := n)) where
  work := by
    intro event plain
    cases event with
    | send type payload => cases plain
    | _ => rfl
  written := fun _ _ => rfl
  booted := fun _ _ => rfl
  replies := by
    intro type payload solicited
    cases type with
    | console => cases solicited
    | statusUpdate => cases solicited
    | _ => rfl

theorem forwarded_hidePresence :
    HidesPresence (Event.forwarded? (n := n)) :=
  fun _ => rfl

/-- Since some state of the hardware, this was passed on. -/
def Hw.PassedOn
    (first : Hw n)
    (messages : List (MsgType × List UInt8))
    (last : Hw n) :
    Prop :=
  forwarded last.log = forwarded first.log ++ messages

theorem Hw.PassedOn.nothing
    {first last : Hw n}
    (unseen : Hw.Unseen Event.forwarded? first last) :
    first.PassedOn [] last :=
  Eq.trans unseen (List.append_nil _).symm

theorem Hw.PassedOn.append
    {first middle last : Hw n}
    {messages more : List (MsgType × List UInt8)}
    (before : first.PassedOn messages middle)
    (after : middle.PassedOn more last) :
    first.PassedOn (messages ++ more) last := by
  rw [PassedOn, after, before, List.append_assoc]

/-- A message that is passed on. -/
theorem cdbaSendBuf_passesOn
    (type : MsgType)
    (isForwarded : type.isForwarded = true)
    (buf : List UInt8)
    (hw : Hw n) :
    ∃ last,
      cdbaSendBuf type buf hw = .ok () last ∧
        hw.PassedOn [(type, buf)] last := by
  refine ⟨_, rfl, ?_⟩
  simp [Hw.PassedOn, forwarded, Event.forwarded?, isForwarded]

/-- Status lines are passed on one by one. -/
theorem statusLines_passOn
    (lines : List (List UInt8))
    (hw : Hw n) :
    ∃ last,
      each (cdbaSendBuf .statusUpdate) lines hw = .ok () last ∧
        hw.PassedOn (lines.map fun line => (.statusUpdate, line)) last := by
  induction lines generalizing hw with
  | nil =>
      exact ⟨hw, rfl, (List.append_nil _).symm⟩
  | cons line rest inductionHypothesis =>
      obtain ⟨middle, sent, passed⟩ :=
        cdbaSendBuf_passesOn .statusUpdate rfl line hw
      obtain ⟨last, later, passedLater⟩ := inductionHypothesis middle
      refine ⟨last, ?_, passed.append passedLater⟩
      rw [each, bind_of_ok sent]
      exact later

/-- Since some state of the server, this was passed on. -/
def Server.PassedOn
    (first : Server n)
    (messages : List (MsgType × List UInt8))
    (last : Server n) :
    Prop :=
  first.hw.PassedOn messages last.hw

/-- Only the first messages were passed on. -/
def Server.PassedOnFirst
    (first : Server n)
    (messages : List (MsgType × List UInt8))
    (last : Server n) :
    Prop :=
  ∃ given, given <+: messages ∧ first.PassedOn given last

/-- Programs of the loop that pass these messages on, unless they stop. -/
abbrev PassesOnAt
    (loop : ServerLoop n)
    (messages : List (MsgType × List UInt8))
    (program : EStateM Stop (ServerLoop n) Unit) :
    Prop :=
  KeepsAt (fun last => loop.state.PassedOn messages last.state)
    (fun _ last => loop.state.PassedOnFirst messages last.state)
    program loop

/-- A program of the server works beside the receive buffer. -/
theorem PassesOnAt.of_server
    {program : ServerM n Unit}
    {messages : List (MsgType × List UInt8)}
    {loop : ServerLoop n}
    (keeps :
      KeepsAt (loop.state.PassedOn messages)
        (fun _ => loop.state.PassedOnFirst messages) program loop.state) :
    PassesOnAt loop messages (within Receiver.stateOf program) :=
  KeepsAt.within Receiver.stateOf keeps

theorem PassesOnAt.of_unheard
    {program : ServerM n Unit}
    (unheard : Unheard Event.forwarded? program)
    (loop : ServerLoop n) :
    PassesOnAt loop [] (within Receiver.stateOf program) :=
  .of_server ((unheard loop.state).keepsAt
    (fun _ step => Hw.PassedOn.nothing step.hw)
    fun _ _ _ step => ⟨[], List.prefix_rfl, Hw.PassedOn.nothing step.hw⟩)

/-- What a descriptor delivered is passed on. -/
theorem PassesOnAt.of_forwardData
    {forward : α → HwM n Unit}
    {value : α}
    {messages : List (MsgType × List UInt8)}
    (passesOn :
      ∀ hw, ∃ last,
        forward value hw = .ok () last ∧ hw.PassedOn messages last)
    (loop : ServerLoop n) :
    PassesOnAt loop messages
      (within Receiver.stateOf (forwardData forward (some value))) := by
  obtain ⟨last, returned, passed⟩ := passesOn loop.state.hw
  exact .of_server (.of_ok (onHw_of_ok returned) passed)

/-- A message is dispatched, and nothing is passed on because of it. -/
theorem dispatch_passesOn
    {first : Server n}
    {messages : List (MsgType × List UInt8)}
    (msg : Msg) :
    Keeps (first.PassedOn messages) (fun _ => first.PassedOn messages)
      (dispatch msg) := by
  have step :
      ∀ {program : ServerM n Unit},
        Unheard Event.forwarded? program →
        Keeps (first.PassedOn messages)
          (fun _ => first.PassedOn messages) program :=
    fun unheard => Keeps.of_relates unheard fun _ _ passed unseen => by
      rw [← List.append_nil messages]
      exact Hw.PassedOn.append passed (Hw.PassedOn.nothing unseen.hw)
  refine Keeps.bind (fun _ passed => .of_ok (update_apply _ _) passed)
    fun _ => ?_
  cases MsgType.ofCode? msg.type with
  | none => exact step (.stop trivial)
  | some type =>
      exact step (handleType_unheard forwarded_hideAnswers
        (fun _ => forwarded_hidePresence) _)

/-- A callback passes on what its descriptor delivers. -/
theorem runCallback_passesOn
    (callback : Callback)
    (loop : ServerLoop n) :
    PassesOnAt loop callback.forwards (runCallback callback) := by
  cases callback with
  | stdin =>
      have receives :
          Keeps
            (fun last : ServerLoop n =>
              loop.state.PassedOn [] last.state)
            (fun _ last => loop.state.PassedOn [] last.state)
            handleStdin :=
        receive_keeps (fun _ _ passed => passed) (fun _ => id)
          dispatch_passesOn
      exact (receives loop (Hw.PassedOn.nothing rfl)).mono (fun _ => id)
        fun _ _ passed => ⟨[], List.prefix_rfl, passed⟩
  | udev index event =>
      exact .of_unheard (onHw_unheard
        (handleUdevEvent_unseen forwarded_hidePresence _ _)) loop
  | consoleData bytes =>
      cases bytes with
      | none => exact .of_unheard (.stop trivial) loop
      | some bytes =>
          exact .of_forwardData
            (cdbaSendBuf_passesOn .console rfl bytes) loop
  | statusData bytes =>
      cases bytes with
      | none => exact .of_unheard (.stop trivial) loop
      | some bytes =>
          refine .of_forwardData (fun hw => ?_) loop
          by_cases empty : bytes = []
          · subst empty
            exact ⟨hw, rfl, (List.append_nil _).symm⟩
          · simp only [Callback.forwards, ne_eq, empty, not_false_eq_true,
              if_true, decide_true, onlyIf]
            exact cdbaSendBuf_passesOn .statusUpdate rfl bytes hw
  | controlData lines =>
      cases lines with
      | none => exact .of_unheard (.stop trivial) loop
      | some lines =>
          exact .of_forwardData (statusLines_passOn lines) loop
  | sigpipe =>
      exact .of_unheard (.update fun _ => ⟨rfl, rfl⟩) loop

/-- One program behind another. -/
theorem PassesOnAt.seq
    {loop : ServerLoop n}
    {messages more : List (MsgType × List UInt8)}
    {program later : EStateM Stop (ServerLoop n) Unit}
    (passesOn : PassesOnAt loop messages program)
    (passesOnLater : ∀ middle, PassesOnAt middle more later) :
    PassesOnAt loop (messages ++ more) (program >>= fun _ => later) := by
  refine KeepsAt.seq (passesOn.mono (fun _ => id) fun _ last first => ?_) ?_
  · obtain ⟨given, begins, passed⟩ := first
    exact ⟨given, begins.trans (List.prefix_append _ _), passed⟩
  · intro _ middle _ passed
    refine (passesOnLater middle).mono (fun last later => ?_)
      fun _ last first => ?_
    · exact Hw.PassedOn.append passed later
    · obtain ⟨given, begins, later⟩ := first
      exact ⟨messages ++ given, (List.prefix_append_right_inj _).mpr begins,
        Hw.PassedOn.append passed later⟩

/-- The callbacks of an iteration pass on what descriptors deliver, in order. -/
theorem callbacks_passOn
    (ready : List Callback)
    (loop : ServerLoop n) :
    PassesOnAt loop (ready.flatMap Callback.forwards)
      (each runCallback ready) := by
  induction ready generalizing loop with
  | nil =>
      exact Hw.PassedOn.nothing rfl
  | cons callback rest inductionHypothesis =>
      exact (runCallback_passesOn callback loop).seq inductionHypothesis

/-- As long as nobody asks to quit, so does an iteration of the main loop. -/
theorem watchMainLoop_passesOn
    (ready : List Callback)
    {loop : ServerLoop n}
    (running : loop.state.quitInvoked = false) :
    PassesOnAt loop (ready.flatMap Callback.forwards)
      (watchMainLoop [ready]) := by
  have timers :
      PassesOnAt loop [] (within Receiver.stateOf invokeTimers) :=
    .of_unheard (Undisturbing.unheard
      (invokeTimers_undisturbed forwarded_hideAnswers.work)) loop
  have iterates :
      PassesOnAt loop (ready.flatMap Callback.forwards) (iteration ready) :=
    timers.seq (callbacks_passOn ready)
  refine KeepsAt.read ?_
  rw [running]
  rw [← List.append_nil (ready.flatMap Callback.forwards)]
  exact iterates.seq fun middle => Hw.PassedOn.nothing rfl

end Cdba
