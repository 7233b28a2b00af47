import Cdba.Session

namespace Cdba

/-!
# Handlers and the selected device

Which message handlers follow the pointer to the selected device, and in which
sequences of messages that pointer can be NULL at such a moment.
-/

open Program

variable {n : Nat}

/-- The handlers that follow the pointer to the selected device unchecked. -/
def MsgType.needsDevice (type : MsgType) (data : List UInt8) : Bool :=
  match type with
  | .statusUpdate | .vbusOn | .vbusOff | .sendBreak | .fastbootContinue =>
      true
  | .keyPress => data.length = 2
  | .fastbootDownload => data = []
  | _ => false

/-- A message whose handler follows the pointer. -/
def Msg.needsDevice (msg : Msg) : Bool :=
  (MsgType.ofCode? msg.type).any fun type => type.needsDevice msg.data

/-- The selection a message leaves behind. -/
def selectionStep
    (hw : Hw n)
    (username : CString)
    (selected : Option (Fin n))
    (msg : Msg) :
    Option (Fin n) :=
  if MsgType.ofCode? msg.type = some .selectBoard then
    accessibleBoard? hw username (memoryAt msg.data hw.beyond)
  else
    selected

/-- The board that is selected after a sequence of messages. -/
def selectionAfter
    (hw : Hw n)
    (username : CString)
    (messages : List Msg) :
    Option (Fin n) :=
  messages.foldl (selectionStep hw username) none

/-- Every message that needs a device comes while a board is selected. -/
def Guarded
    (hw : Hw n)
    (username : CString)
    (messages : List Msg) :
    Prop :=
  ∀ before msg after,
    messages = before ++ msg :: after →
    msg.needsDevice = true →
    selectionAfter hw username before ≠ none

theorem guarded_nil
    (hw : Hw n)
    (username : CString) :
    Guarded hw username [] := by
  intro before msg after shape
  simp at shape

theorem guarded_concat
    (hw : Hw n)
    (username : CString)
    (messages : List Msg)
    (msg : Msg) :
    Guarded hw username (messages ++ [msg]) ↔
      Guarded hw username messages ∧
        (msg.needsDevice = true →
          selectionAfter hw username messages ≠ none) := by
  constructor
  · intro guarded
    refine ⟨?_, guarded messages msg [] rfl⟩
    intro before earlier after shape
    apply guarded before earlier (after ++ [msg])
    rw [shape, List.append_assoc, List.cons_append]
  · rintro ⟨guarded, last⟩ before earlier after shape
    rcases List.eq_nil_or_concat after with rfl | ⟨between, final, rfl⟩
    · obtain ⟨rfl, same⟩ := List.append_inj' shape rfl
      cases same
      exact last
    · rw [List.concat_eq_append, ← List.cons_append,
        ← List.append_assoc] at shape
      obtain ⟨rfl, _⟩ := List.append_inj' shape rfl
      exact guarded before earlier between rfl

theorem selectionAfter_concat
    (hw : Hw n)
    (username : CString)
    (messages : List Msg)
    (msg : Msg) :
    selectionAfter hw username (messages ++ [msg]) =
      selectionStep hw username (selectionAfter hw username messages) msg := by
  simp [selectionAfter]

/-- The configuration decides which board a name selects. -/
theorem accessibleBoard?_extends
    {first last : Hw n}
    (extended : first.Extends last)
    (username : CString)
    (board : Nat → UInt8) :
    accessibleBoard? last username board =
      accessibleBoard? first username board := by
  have boards :
      (fun device : Fin n =>
        strcmpEq (last.devices device).board board) =
        fun device => strcmpEq (first.devices device).board board := by
    funext device
    rw [(extended.config device).board]
  have access :
      (fun device : Fin n =>
        deviceCheckAccess (last.devices device) (some username)) =
        fun device =>
          deviceCheckAccess (first.devices device) (some username) := by
    funext device
    simp only [deviceCheckAccess, (extended.config device).users]
  simp only [accessibleBoard?, findBoard, boards, access]

/-! ## Handlers with and without a device -/

/-- Without a selection, a handler that needs a device stops right there. -/
theorem handleType_null
    {type : MsgType}
    {data : List UInt8}
    (server : Server n)
    (needs : type.needsDevice data = true)
    (unselected : server.selectedDevice = none) :
    stopped? (handleType type data server) =
      some (.nullDeref .device) := by
  cases type <;> simp only [MsgType.needsDevice, Bool.false_eq_true] at needs
  case statusUpdate =>
    simp [handleType, onSelected_apply, unselected, onHw, within,
      deviceStatusEnable, deref, bind_apply, stopped?]
  case vbusOn =>
    simp [handleType, onSelected_apply, unselected, onHw, within,
      deviceUsb, deref, bind_apply, stopped?]
  case vbusOff =>
    simp [handleType, onSelected_apply, unselected, onHw, within,
      deviceUsb, deref, bind_apply, stopped?]
  case sendBreak =>
    simp [handleType, onSelected_apply, unselected, onHw, within,
      deviceSendBreak, deref, bind_apply, stopped?]
  case fastbootContinue =>
    simp [handleType, onSelected_apply, unselected, onHw, within,
      deviceFastbootContinue, deref, bind_apply, stopped?]
  case keyPress =>
    obtain ⟨key, state, rfl⟩ :
        ∃ key state, data = [key, state] := by
      have two := of_decide_eq_true needs
      rcases data with _ | ⟨key, _ | ⟨state, _ | ⟨other, rest⟩⟩⟩
      · simp at two
      · simp at two
      · exact ⟨key, state, rfl⟩
      · simp at two
    rw [handleType, onSelected_apply, unselected]
    simp only [msgKeyPress]
    split <;> simp [onHw, within, deviceKey, deref, bind_apply, stopped?]
  case fastbootDownload =>
    cases (of_decide_eq_true needs : data = [])
    simp [handleType, msgFastbootDownload_nil, unselected, onHw, within,
      deviceBoot, deref, bind_apply, stopped?]

/-- With a selection where one is needed, a handler only extends the state. -/
theorem handleType_extends
    {type : MsgType}
    {data : List UInt8}
    (server : Server n)
    (ready :
      type.needsDevice data = true → server.selectedDevice ≠ none) :
    RelatesAt Server.Extends Stop.NotNullDevice
      (handleType type data) server := by
  have selected :
      ∀ {handler : Option (Fin n) → HwM n Unit},
        (∀ device, Extending (handler (some device))) →
        server.selectedDevice ≠ none →
        RelatesAt Server.Extends Stop.NotNullDevice
          (onSelected handler) server := by
    intro handler extending some
    obtain ⟨device, chosen⟩ := Option.ne_none_iff_exists'.mp some
    apply (onHw_extends (extending device) server).congr
    rw [onSelected_apply, chosen]
  have anyway :
      ∀ {handler : Option (Fin n) → HwM n Unit},
        (∀ device, Extending (handler device)) →
        RelatesAt Server.Extends Stop.NotNullDevice
          (onSelected handler) server :=
    fun extending =>
      (onHw_extends (extending _) server).congr (onSelected_apply _ _)
  have payload :
      ∀ payload : Server n → List UInt8,
        Relates Server.Extends Stop.NotNullDevice
          (update fun server : Server n =>
            { server with fastbootPayload := payload server }) :=
    fun _ => .update fun _ => ⟨Composes.refl _, rfl⟩
  cases type with
  | selectBoard => exact msgSelectBoard_extends data server
  | console => exact anyway fun _ => deviceWrite_extends _ _
  | hardreset => exact Relates.pure () server
  | powerOn =>
      exact anyway fun _ =>
        .bind (devicePower_extends _ _) fun _ => emit_extends _
  | powerOff =>
      exact anyway fun _ =>
        .bind (devicePower_extends _ _) fun _ => emit_extends _
  | fastbootPresent => exact Relates.pure () server
  | fastbootDownload =>
      by_cases empty : data = []
      · obtain ⟨device, chosen⟩ := Option.ne_none_iff_exists'.mp
          (ready (by simp [MsgType.needsDevice, empty]))
        rw [handleType, empty, msgFastbootDownload_nil]
        refine (payload _ server).bind ?_
        intro _ middle outcome
        cases outcome
        refine (Relates.read _ _).bind fun _ _ outcome => ?_
        cases outcome
        simp only [chosen]
        exact
          Relates.bind (.read _)
            (fun _ => .bind (onHw_extends (deviceBoot_extends _ _))
              fun _ => .bind (onHw_extends (emit_extends _))
                fun _ => payload _)
            _
      · rw [handleType, msgFastbootDownload_chunk empty]
        exact Relates.bind (onHw_extends (acquire_extends _))
          (fun _ => payload _) server
  | fastbootBoot => exact Relates.pure () server
  | statusUpdate =>
      exact selected deviceStatusEnable_extends (ready rfl)
  | vbusOn => exact selected (fun _ => deviceUsb_extends _ _) (ready rfl)
  | vbusOff => exact selected (fun _ => deviceUsb_extends _ _) (ready rfl)
  | fastbootReboot => exact Relates.stop (by decide) server
  | sendBreak => exact selected deviceSendBreak_extends (ready rfl)
  | listDevices =>
      exact Relates.bind (.read _)
        (fun _ => onHw_extends (deviceListDevices_extends _)) server
  | boardInfo =>
      exact Relates.bind (.read _)
        (fun _ => .bind (.read _)
          fun _ => onHw_extends (deviceInfo_extends _ _ _)) server
  | fastbootContinue =>
      exact selected
        (fun _ => .bind (deviceFastbootContinue_extends _)
          fun _ => emit_extends _)
        (ready rfl)
  | keyPress =>
      by_cases two : data.length = 2
      · exact selected (fun _ => msgKeyPress_extends _ _)
          (ready (by simp [MsgType.needsDevice, two]))
      · refine anyway fun device => ?_
        unfold msgKeyPress
        split
        · simp at two
        · exact .pure ()

/-! ## What selecting a board selects -/

theorem msgSelectBoard_selects
    {data : List UInt8}
    {server final : Server n}
    (result : msgSelectBoard data server = .ok () final) :
    final.selectedDevice =
        accessibleBoard? server.hw server.username
          (memoryAt data server.hw.beyond) ∧
      (final.selectedDevice = none → final.quitInvoked = true) := by
  obtain ⟨beyond, _, readResult, result⟩ := bind_eq_ok result
  cases readResult
  obtain ⟨device, opened, openResult, result⟩ := bind_eq_ok result
  have chosen := deviceOpen_returns openResult
  obtain ⟨_, updated, updateResult, result⟩ := bind_eq_ok result
  cases updateResult
  cases device with
  | none =>
      obtain ⟨_, quitting, quitResult, result⟩ := bind_eq_ok result
      cases quitResult
      obtain ⟨_, same⟩ := within_eq_ok result
      rw [same]
      exact ⟨chosen, fun _ => rfl⟩
  | some device =>
      obtain ⟨_, ready, openedResult, result⟩ := bind_eq_ok result
      obtain ⟨_, same⟩ := within_eq_ok openedResult
      obtain ⟨_, same'⟩ := within_eq_ok result
      rw [same', same]
      exact ⟨chosen, nofun⟩

/-- The queue of timers is unchanged. -/
def Server.SameTimers (first last : Server n) : Prop :=
  last.hw.timers = first.hw.timers

instance Server.SameTimers.composes :
    Composes (Server.SameTimers (n := n)) where
  refl := fun _ => rfl
  trans := fun firstStep laterStep => laterStep.trans firstStep

/-- Programs on the hardware that leave the timers alone. -/
abbrev KeepsTimers (program : HwM n α) : Prop :=
  Relates (fun first last => last.timers = first.timers) Stop.Any program

instance :
    Composes fun first last : Hw n => last.timers = first.timers where
  refl := fun _ => rfl
  trans := fun firstStep laterStep => laterStep.trans firstStep

theorem onHw_timers
    {program : HwM n α}
    (keeps : KeepsTimers program) :
    Relates Server.SameTimers Stop.Any (onHw program) :=
  .within (fun _ _ step => step) keeps

theorem emit_timers
    (event : Event n) :
    KeepsTimers (emit event) :=
  .update fun _ => rfl

theorem acquire_timers
    (resource : Resource) :
    KeepsTimers (acquire (n := n) resource) :=
  acquire_relates (fun _ => rfl) trivial

/-- Without a selection no message arms a timer. -/
theorem handleType_timers
    {type : MsgType}
    {data : List UInt8}
    (server : Server n)
    (other : type ≠ .selectBoard)
    (spared : type.needsDevice data = false)
    (unselected : server.selectedDevice = none) :
    server.SameTimers (finalState (handleType type data server)) := by
  have handler :
      ∀ {handler : Option (Fin n) → HwM n Unit},
        KeepsTimers (handler none) →
        server.SameTimers
          (finalState (onSelected handler server)) := by
    intro handler keeps
    rw [onSelected_apply, unselected]
    exact (onHw_timers keeps server).related
  have power :
      ∀ on, KeepsTimers (devicePower (n := n) none on) := by
    intro on hw
    cases on <;> exact ⟨rfl, fun _ _ => trivial⟩
  cases type with
  | selectBoard => exact absurd rfl other
  | console => exact handler (.pure ())
  | hardreset => rfl
  | powerOn =>
      exact handler (.bind (power true) fun _ => emit_timers _)
  | powerOff =>
      exact handler (.bind (power false) fun _ => emit_timers _)
  | fastbootPresent => rfl
  | fastbootDownload =>
      rw [handleType,
        msgFastbootDownload_chunk (of_decide_eq_false spared)]
      have grows :
          ∀ payload : Server n → List UInt8,
            Relates Server.SameTimers Stop.Any
              (update fun server : Server n =>
                { server with fastbootPayload := payload server }) :=
        fun _ => .update fun _ => rfl
      exact (Relates.bind (onHw_timers (acquire_timers _))
        (fun _ => grows _) server).related
  | fastbootBoot => rfl
  | fastbootReboot => rfl
  | listDevices =>
      exact (Relates.bind (.read _)
        (fun _ => onHw_timers
          (.bind
            (.each fun _ _ =>
              .bind (.read _) fun _ =>
                .bind (.read _) fun _ => .onlyIf (emit_timers _))
            fun _ => emit_timers _)) server).related
  | boardInfo =>
      exact (Relates.bind (.read _)
        (fun _ => .bind (.read _) fun _ => onHw_timers
          (.bind (.read _) fun _ =>
            .bind (.read _) fun _ => emit_timers _)) server).related
  | keyPress =>
      have short : ¬ data.length = 2 := of_decide_eq_false spared
      refine handler ?_
      unfold msgKeyPress
      split
      · simp at short
      · exact .pure ()
  | statusUpdate => cases spared
  | vbusOn => cases spared
  | vbusOff => cases spared
  | sendBreak => cases spared
  | fastbootContinue => cases spared

/-! ## Runs -/

/--
What holds between messages: the selection is the one the dispatched messages
lead to, none of them came without a device it needed, and once a selection
has failed the loop will not fire another timer.
-/
structure Tracks (start server : Server n) : Prop where
  extended : start.Extends server
  selected :
    server.selectedDevice =
      selectionAfter start.hw start.username server.dispatched
  guarded : Guarded start.hw start.username server.dispatched
  idle :
    server.selectedDevice = none →
      server.quitInvoked = true ∨ server.hw.timers = []

/-- A run stops at a missing device exactly if its last message had none. -/
def StopsGuarded (start : Server n) (reason : Stop) (server : Server n) : Prop :=
  reason = .nullDeref .device ↔
    ¬ Guarded start.hw start.username server.dispatched

theorem StopsGuarded.of_other
    {start server : Server n}
    {reason : Stop}
    (other : reason.NotNullDevice)
    (guarded : Guarded start.hw start.username server.dispatched) :
    StopsGuarded start reason server :=
  ⟨fun missing => absurd missing other,
    fun unguarded => absurd guarded unguarded⟩

theorem dispatch_dispatched
    (msg : Msg)
    (server : Server n) :
    (finalState (dispatch msg server)).dispatched =
      server.dispatched ++ [msg] := by
  obtain ⟨_, handled, _⟩ := (dispatch_handles msg server).related
  exact handled

/-- A handler that returns keeps track of the selection. -/
theorem handleType_tracks
    {start server final : Server n}
    {msg : Msg}
    {type : MsgType}
    (decoded : MsgType.ofCode? msg.type = some type)
    (tracks : Tracks start server)
    (ready : msg.needsDevice = true → server.selectedDevice ≠ none)
    (dispatched : final.dispatched = server.dispatched ++ [msg])
    (extended : server.Extends final)
    (result :
      handleType type msg.data
          { server with dispatched := server.dispatched ++ [msg] } =
        .ok () final) :
    Tracks start final := by
  have guarded :
      Guarded start.hw start.username (server.dispatched ++ [msg]) :=
    (guarded_concat _ _ _ _).mpr
      ⟨tracks.guarded, fun needs => tracks.selected ▸ ready needs⟩
  have chosen := selectionAfter_concat start.hw start.username
    server.dispatched msg
  by_cases select : type = .selectBoard
  · subst select
    obtain ⟨selected, quits⟩ := msgSelectBoard_selects result
    refine
      { extended := Composes.trans tracks.extended extended
        selected := ?_
        guarded := dispatched ▸ guarded
        idle := fun unselected => .inl (quits unselected) }
    rw [dispatched, chosen, selectionStep, if_pos decoded, selected,
      accessibleBoard?_extends tracks.extended.hw,
      tracks.extended.username, tracks.extended.hw.beyond]
  · have continues := (handleType_continues select msg.data
      { server with dispatched := server.dispatched ++ [msg] }).related
    rw [result] at continues
    refine
      { extended := Composes.trans tracks.extended extended
        selected := ?_
        guarded := dispatched ▸ guarded
        idle := ?_ }
    · rw [dispatched, chosen, selectionStep, if_neg, ← tracks.selected]
      · exact continues.selected
      · rw [decoded]
        exact fun same => select (Option.some.inj same)
    · intro unselected
      have before : server.selectedDevice = none :=
        continues.selected.symm.trans unselected
      rcases tracks.idle before with quitting | noTimers
      · exact .inl (continues.quit.trans quitting)
      · right
        have spared : type.needsDevice msg.data = false := by
          cases needs : type.needsDevice msg.data with
          | false => rfl
          | true =>
              refine absurd before (ready ?_)
              simp [Msg.needsDevice, decoded, needs]
        have timers := handleType_timers
          { server with dispatched := server.dispatched ++ [msg] }
          select spared before
        rw [result] at timers
        exact timers.trans noTimers

/-- Dispatching keeps track of the selection, or stops for want of a device. -/
theorem dispatch_tracks
    (start : Server n)
    (msg : Msg) :
    Keeps (Tracks start) (StopsGuarded start) (dispatch msg) := by
  intro server tracks
  have dispatched := dispatch_dispatched msg server
  have guarded := guarded_concat start.hw start.username
    server.dispatched msg
  rw [← tracks.selected] at guarded
  cases decoded : MsgType.ofCode? msg.type with
  | none =>
      refine .of_error (dispatch_unknown decoded server)
        (.of_other (by decide) (guarded.mpr ?_))
      exact ⟨tracks.guarded, by simp [Msg.needsDevice, decoded]⟩
  | some type =>
      have handler := dispatch_known decoded server
      have needsDevice :
          msg.needsDevice = type.needsDevice msg.data := by
        simp [Msg.needsDevice, decoded]
      by_cases missing :
          msg.needsDevice = true ∧ server.selectedDevice = none
      · -- The handler follows the pointer, and there is no device.
        obtain ⟨needs, unselected⟩ := missing
        have stops := handleType_null
          { server with dispatched := server.dispatched ++ [msg] }
          (needsDevice ▸ needs) unselected
        cases outcome : dispatch msg server with
        | ok value final =>
            simp [← handler, outcome, stopped?] at stops
        | error reason final =>
            rw [outcome] at dispatched
            simp only [← handler, outcome, stopped?, Option.some.injEq]
              at stops
            refine .of_error outcome ?_
            refine ⟨fun _ unguarded => ?_, fun _ => stops⟩
            rw [show final.dispatched = server.dispatched ++ [msg]
              from dispatched, guarded] at unguarded
            exact unguarded.2 needs unselected
      · have ready :
            msg.needsDevice = true → server.selectedDevice ≠ none :=
          fun needs unselected => missing ⟨needs, unselected⟩
        obtain ⟨extended, stops⟩ := handleType_extends
          { server with dispatched := server.dispatched ++ [msg] }
          (needsDevice ▸ ready)
        rw [← handler] at extended stops
        cases outcome : dispatch msg server with
        | ok value final =>
            rw [outcome] at dispatched extended
            refine .of_ok outcome
              (handleType_tracks decoded tracks ready dispatched
                ⟨extended.hw, extended.username⟩ ?_)
            rw [← handler, outcome]
        | error reason final =>
            rw [outcome] at dispatched stops
            refine .of_error outcome (.of_other (stops reason rfl) ?_)
            rw [show final.dispatched = server.dispatched ++ [msg]
              from dispatched]
            exact guarded.mpr ⟨tracks.guarded, ready⟩

/-- Programs that continue the session and extend the hardware keep track of it. -/
theorem Tracks.of_waits
    {start server : Server n}
    (tracks : Tracks start server)
    {program : ServerM n α}
    (waits : RelatesAt Server.Waits Stop.NotNullDevice program server)
    (idles :
      ∀ value final,
        program server = .ok value final →
        server.selectedDevice = none →
        server.quitInvoked = true ∨ final.hw.timers = []) :
    KeepsAt
      (fun final =>
        Tracks start final ∧ final.quitInvoked = server.quitInvoked)
      (StopsGuarded start) program server := by
  obtain ⟨⟨extended, continues⟩, stops⟩ := waits
  obtain ⟨_, handled, _⟩ := continues.handles
  have dispatched :
      (finalState (program server)).dispatched = server.dispatched := by
    simpa [stdinJournal] using handled
  have guarded := tracks.guarded
  cases outcome : program server with
  | ok value final =>
      rw [outcome] at extended continues dispatched
      simp only [finalState] at extended continues dispatched
      refine .of_ok outcome ⟨
        { extended := Composes.trans tracks.extended extended
          selected := ?_
          guarded := by rwa [dispatched]
          idle := ?_ },
        continues.quit⟩
      · rw [continues.selected, dispatched]
        exact tracks.selected
      · intro unselected
        rw [continues.selected] at unselected
        rw [continues.quit]
        exact idles value final outcome unselected
  | error reason final =>
      rw [outcome] at dispatched stops
      simp only [finalState] at dispatched
      exact .of_error outcome
        (.of_other (stops reason rfl) (by rwa [dispatched]))

/-- The callback of a timer, while some device is selected. -/
theorem fireTimer_waits
    {server : Server n}
    (selected : server.selectedDevice ≠ none)
    (cb : TimerCallback n) :
    RelatesAt Server.Waits Stop.NotNullDevice (fireTimer cb) server := by
  cases cb with
  | deviceTick device =>
      exact onHw_waits (deviceTick_extends device) server
  | msgKeyRelease key =>
      obtain ⟨device, chosen⟩ := Option.ne_none_iff_exists'.mp selected
      apply (onHw_waits (deviceKey_extends device key false) server).congr
      rw [fireTimer, onSelected_apply, chosen]
  | cdbAssistPrintStatus device =>
      exact onHw_waits (emit_extends _) server
  | qcomltDbgRequestStatus device =>
      exact onHw_waits (watchTimerAdd_extends _ _) server

/-- Timers only fire while a device is selected, so their callbacks find one. -/
theorem invokeTimers_tracks
    {start server : Server n}
    (tracks : Tracks start server)
    (running : server.quitInvoked = false) :
    KeepsAt (Tracks start) (StopsGuarded start) invokeTimers server := by
  have armed :
      ∀ {server : Server n},
        Tracks start server →
        server.quitInvoked = false →
        server.hw.timers ≠ [] →
        server.selectedDevice ≠ none := by
    intro server tracks running timers unselected
    rcases tracks.idle unselected with quitting | noTimers
    · rw [running] at quitting
      contradiction
    · exact timers noTimers
  have reads :
      KeepsAt
        (fun server => Tracks start server ∧ server.quitInvoked = false)
        (StopsGuarded start) (onHw gettimeofday) server := by
    have keepsTimers : KeepsTimers (gettimeofday (n := n)) :=
      .bind (.update fun _ => rfl) fun _ => .read _
    have timers := (onHw_timers keepsTimers server).related
    refine (tracks.of_waits (onHw_waits gettimeofday_extends server)
      fun value final outcome unselected => ?_).mono
        (fun final holds => ⟨holds.1, holds.2.trans running⟩)
        (fun _ _ => id)
    rw [outcome] at timers
    rcases tracks.idle unselected with quitting | noTimers
    · exact .inl quitting
    · exact .inr (timers.trans noTimers)
  refine KeepsAt.mono
    (reads.bind fun now clocked _ holds =>
      KeepsAt.bind (.of_ok (read_apply _ _) holds)
        fun queue middle _ holds =>
          watchTimerInvokeLoop_keeps (fun server position timer holds found _ => ?_)
            (fun server holds => .of_other (by decide) holds.1.guarded)
            _ _ middle holds)
    (fun _ holds => holds.1) (fun _ _ => id)
  obtain ⟨tracks, running⟩ := holds
  have selected : server.selectedDevice ≠ none := by
    refine armed tracks running ?_
    intro noTimers
    simp [Server.timersOf, noTimers] at found
  refine KeepsAt.bind
    ((tracks.of_waits (fireTimer_waits selected timer.cb)
      fun _ _ _ unselected => absurd unselected selected).mono
        (fun final holds => ⟨holds.1, holds.2.trans running⟩)
        (fun _ _ => id)) ?_
  intro _ fired _ holds
  refine .of_ok (update_apply _ _) ⟨
    { extended :=
        Composes.trans holds.1.extended
          ⟨Hw.Extends.of_scripts rfl rfl rfl rfl rfl, rfl⟩
      selected := holds.1.selected
      guarded := holds.1.guarded
      idle := ?_ },
    holds.2⟩
  intro unselected
  rcases holds.1.idle unselected with quitting | noTimers
  · exact .inl quitting
  · right
    simp [Server.timersOf, noTimers]

/-- A callback that leaves session and timers alone keeps track of the selection. -/
theorem Tracks.of_quiet
    {start : Server n}
    {program : HwM n Unit}
    (extending : Extending program)
    (keeps : KeepsTimers program) :
    Keeps (Tracks start) (StopsGuarded start) (onHw program) := by
  intro server tracks
  have timers := (onHw_timers keeps server).related
  refine (tracks.of_waits (onHw_waits extending server) ?_).mono
    (fun final holds => holds.1) (fun _ _ => id)
  intro value final outcome unselected
  rw [outcome] at timers
  rcases tracks.idle unselected with quitting | noTimers
  · exact .inl quitting
  · exact .inr (timers.trans noTimers)

theorem updateFastboot_timers
    (index : Nat)
    (change : Fastboot → Fastboot) :
    KeepsTimers (updateFastboot (n := n) index change) :=
  .update fun _ => rfl

theorem handleUdevEvent_timers
    (index : Nat)
    (event : UdevEvent) :
    KeepsTimers (handleUdevEvent (n := n) index event) := by
  refine .bind (.read _) fun fb => ?_
  cases event with
  | add serial node =>
      refine .onlyIf ?_
      unfold handleFastbootAdd
      cases node.probe with
      | none => exact .pure ()
      | some endpoints =>
          exact .bind (updateFastboot_timers _ _) fun _ => emit_timers _
  | remove path =>
      exact .onlyIf
        (.bind (updateFastboot_timers _ _) fun _ =>
          .bind (emit_timers _) fun _ => updateFastboot_timers _ _)
  | other =>
      exact .pure ()

/-- What a program on the server keeps is kept beside the receive buffer. -/
theorem onState_tracks
    {start : Server n}
    {program : ServerM n Unit}
    (keeps : Keeps (Tracks start) (StopsGuarded start) program) :
    Keeps
      (fun loop : ServerLoop n => Tracks start loop.state)
      (fun reason loop => StopsGuarded start reason loop.state)
      (within Receiver.stateOf program) :=
  fun loop tracks => KeepsAt.within Receiver.stateOf
    (keeps loop.state tracks)

/-- Every callback keeps track of the selection. -/
theorem runCallback_tracks
    (start : Server n)
    (callback : Callback) :
    Keeps
      (fun loop : ServerLoop n => Tracks start loop.state)
      (fun reason loop => StopsGuarded start reason loop.state)
      (runCallback callback) := by
  have leaves :
      ∀ server : Server n,
        Tracks start server → StopsGuarded start .leaveLoop server :=
    fun server tracks => .of_other (by decide) tracks.guarded
  have forwards :
      ∀ {α : Type} {forward : α → HwM n Unit} (result : Option α),
        (∀ value, Extending (forward value)) →
        (∀ value, KeepsTimers (forward value)) →
        Keeps (Tracks start) (StopsGuarded start)
          (forwardData forward result) := by
    intro α forward result extending keeps
    cases result with
    | none => exact fun server tracks => .of_error rfl (leaves server tracks)
    | some value => exact Tracks.of_quiet (extending value) (keeps value)
  cases callback with
  | stdin =>
      refine receive_keeps (fun server input tracks => ?_) leaves
        (dispatch_tracks start)
      exact
        { extended := Composes.trans tracks.extended ⟨Composes.refl _, rfl⟩
          selected := tracks.selected
          guarded := tracks.guarded
          idle := tracks.idle }
  | udev index event =>
      exact onState_tracks (Tracks.of_quiet (handleUdevEvent_extends _ _)
        (handleUdevEvent_timers _ _))
  | consoleData bytes =>
      exact onState_tracks (forwards bytes (fun _ => emit_extends _)
        fun _ => emit_timers _)
  | statusData bytes =>
      exact onState_tracks
        (forwards bytes (fun _ => .onlyIf (emit_extends _))
          fun _ => .onlyIf (emit_timers _))
  | controlData lines =>
      exact onState_tracks
        (forwards lines (fun _ => .each fun _ _ => emit_extends _)
          fun _ => .each fun _ _ => emit_timers _)
  | sigpipe =>
      have quits : Keeps (Tracks start) (StopsGuarded start) watchQuit :=
        fun server tracks =>
          { extended :=
              Composes.trans tracks.extended ⟨Composes.refl _, rfl⟩
            selected := tracks.selected
            guarded := tracks.guarded
            idle := fun _ => .inl rfl }
      exact onState_tracks quits

/-- A whole run keeps track of the selection. -/
theorem watchMainLoop_tracks
    (start : Server n)
    (iterations : List (List Callback)) :
    Keeps
      (fun loop : ServerLoop n => Tracks start loop.state)
      (fun reason loop => StopsGuarded start reason loop.state)
      (watchMainLoop iterations) := by
  induction iterations with
  | nil =>
      exact fun _ tracks => tracks
  | cons ready rest inductionHypothesis =>
      intro loop tracks
      refine KeepsAt.bind (.of_ok (read_apply _ _) tracks) ?_
      intro quitting middle outcome tracks
      cases outcome
      dsimp only
      split
      · exact tracks
      · rename_i quitting
        have running : loop.state.quitInvoked = false := by
          simpa using quitting
        refine KeepsAt.bind (KeepsAt.bind ?_ ?_)
          fun _ middle _ => inductionHypothesis middle
        · exact KeepsAt.within Receiver.stateOf
            (invokeTimers_tracks tracks running)
        · intro _ middle _
          exact Keeps.each (runCallback_tracks start) ready middle

/--
In every run from a fresh server, no handler and no timer follows the pointer
while it is NULL exactly if each dispatched message that needs a device came
while the last selection before it had succeeded.
-/
theorem watchMainLoop_noNullDevice_iff
    (devices : Fin n → Device)
    (username : CString)
    (stdin : Input)
    (hw : Hw n)
    (lockOpens flocks : List Bool)
    (iterations : List (List Callback)) :
    let start := Server.start devices username stdin hw lockOpens flocks
    let result := watchMainLoop iterations start
    stopped? result ≠ some (.nullDeref .device) ↔
      Guarded start.state.hw start.state.username
        (finalState result).state.dispatched := by
  intro start result
  have fresh : Tracks start.state start.state :=
    { extended := Composes.refl _
      selected := rfl
      guarded := guarded_nil _ _
      idle := fun _ => .inr rfl }
  have tracks := watchMainLoop_tracks start.state iterations start fresh
  unfold KeepsAt at tracks
  cases outcome : watchMainLoop iterations start with
  | ok value final =>
      rw [outcome] at tracks
      simp only [result, outcome, stopped?, finalState]
      refine ⟨fun _ => tracks.guarded, fun _ isNull => ?_⟩
      cases isNull
  | error reason final =>
      rw [outcome] at tracks
      simp only [result, outcome, stopped?, finalState, ne_eq,
        Option.some.injEq]
      exact (not_congr tracks).trans Classical.not_not

/-- `MSG_VBUS_ON`, sent right behind the selection of a board that is not there. -/
def vbusBehindMissingBoard : ServerLoop 1 :=
  benchServer
    { fd :=
        { unread :=
            wire.encodeAll
              [Msg.ofData MsgType.selectBoard.code (ascii "nosuch" ++ [0])
                (by decide),
                Msg.ofData MsgType.vbusOn.code [] Msg.nil_fits]
          closed := false }
      script := [.deliver 100, .wouldBlock] }
    []

/-- Both frames are handled in one wakeup, and the second follows NULL. -/
theorem vbusBehindMissingBoard_null :
    stopped? (watchMainLoop [[.stdin]] vbusBehindMissingBoard) =
      some (.nullDeref .device) := by
  decide +kernel

end Cdba
