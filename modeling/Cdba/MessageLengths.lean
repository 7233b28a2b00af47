import Cdba.Framing
import Cdba.Status
import Cdba.Supervision
import Cdba.WorkQueue

namespace Cdba

/-!
# Message lengths

A message reaches the dispatcher of the other side only if its length fits into
the 16-bit field of the header, and header and payload together into the
receiver's ring.  No sender checks either; this bounds what each of them sends.
-/

open Program

/-- The receiver of a message with this payload can dispatch it. -/
structure Decodable (payload : List UInt8) : Prop where
  len : (UInt16.ofNat payload.length).toNat = payload.length
  fits : sizeofMsg + payload.length < circBufSize

theorem decodable_of_le
    {payload : List UInt8}
    (short : payload.length ≤ maxPayload) :
    Decodable payload := by
  simp only [maxPayload] at short
  constructor
  · rw [UInt16.toNat_ofNat']
    omega
  · simp only [sizeofMsg, circBufSize]
    omega

/-- Nothing longer than the maximal payload can be dispatched. -/
theorem decodable_iff
    {payload : List UInt8} :
    Decodable payload ↔ payload.length ≤ maxPayload := by
  refine ⟨fun decodable => ?_, decodable_of_le⟩
  have fits := decodable.fits
  simp only [sizeofMsg, circBufSize] at fits
  simp only [maxPayload]
  omega

/-- The bytes of a decodable message are taken off a stream as that message. -/
theorem Decodable.next
    {payload : List UInt8}
    (decodable : Decodable payload)
    (type : MsgType)
    (rest : List UInt8) :
    ∃ msg,
      wire.next? (sendBufBytes type payload ++ rest) = some (msg, rest) ∧
        msg.type = type.code ∧
        msg.data = payload := by
  have short := decodable_iff.mp decodable
  simp only [maxPayload] at short
  have fits : payload.length < 2 ^ 16 := by omega
  refine ⟨Msg.ofData type.code payload fits, ?_, rfl, rfl⟩
  rw [sendBufBytes_eq_encodeMsg type fits]
  exact wire.next?_encode_append _ _

/-! ## The server -/

variable {n : Nat}

/-- Work on any device, and messages that can be decoded. -/
def decodableSends : Permission n where
  device := fun _ => True
  send := fun _ payload => Decodable payload

/--
What the buffers of the callbacks hold: `read()` fills at most 128 bytes, and
control drivers report through `status_send_values`.
-/
def Callback.FromBuffers : Callback → Prop
  | .consoleData (some bytes) => bytes.length ≤ 128
  | .statusData (some bytes) => bytes.length ≤ 128
  | .controlData (some lines) =>
      ∀ line, line ∈ lines →
        ∃ ts id values, statusSendValues ts id values = some line
  | _ => True

theorem Callback.FromBuffers.forwards
    {callback : Callback}
    (fromBuffers : callback.FromBuffers) :
    (decodableSends (n := n)).Forwards callback := by
  have short :
      ∀ {bytes : List UInt8}, bytes.length ≤ 128 → Decodable bytes :=
    fun bounded => decodable_of_le (Nat.le_trans bounded (by decide))
  unfold Permission.Forwards
  split
  · exact short fromBuffers
  · exact short fromBuffers
  · intro line member
    obtain ⟨ts, id, values, sent⟩ := fromBuffers line member
    have bound := length_statusSendValues sent
    simp only [statusBufSize] at bound
    refine decodable_of_le ?_
    simp only [maxPayload]
    omega
  · trivial

/-- What the user can be told about a device fits into one message. -/
structure Device.Tellable (dev : Device) : Prop where
  listing : (listingText dev).length ≤ maxPayload
  description :
    ∀ description, dev.description = some description →
      description.length ≤ maxPayload

theorem decodableSends_publishes
    {start : Hw n}
    {username : CString}
    (tellable :
      ∀ device,
        deviceCheckAccess (start.devices device) (some username) = true →
        (start.devices device).Tellable) :
    (decodableSends (n := n)).Publishes start username where
  empties := fun _ => decodable_of_le (Nat.zero_le _)
  present := fun _ => decodable_of_le (Nat.le_add_left 1 _)
  lists := by
    intro device access
    refine decodable_of_le ?_
    rw [listingFrame, length_readMemory]
    exact (tellable device access).listing
  describes := by
    intro device description access described
    exact decodable_of_le
      ((tellable device access).description description described)

/-! ## The client -/

/--
What a client has written: messages that can be decoded, each completely; only
a `write()` that is refused can leave a header without its payload.
-/
inductive Written (refused : Prop) : List UInt8 → Prop where
  | nothing : Written refused []
  | message
      {stream : List UInt8}
      (written : Written refused stream)
      (type : MsgType)
      {payload : List UInt8}
      (decodable : Decodable payload) :
      Written refused (stream ++ sendBufBytes type payload)
  | header
      {stream : List UInt8}
      (written : Written refused stream)
      (type : MsgType)
      {payload : List UInt8}
      (decodable : Decodable payload)
      (isRefused : refused) :
      Written refused
        (stream ++ headerBytes type.code (UInt16.ofNat payload.length))

/-- Without a refusal the stream consists of decodable messages. -/
theorem Written.encodes
    {refused : Prop}
    {stream : List UInt8}
    (written : Written refused stream)
    (accepted : ¬ refused) :
    ∃ messages,
      stream = wire.encodeAll messages ∧
        ∀ msg, msg ∈ messages → Decodable msg.data := by
  induction written with
  | nothing => exact ⟨[], rfl, nofun⟩
  | @message stream _ type payload decodable inductionHypothesis =>
      obtain ⟨messages, encodes, decodables⟩ := inductionHypothesis
      have short := decodable_iff.mp decodable
      simp only [maxPayload] at short
      have fits : payload.length < 2 ^ 16 := by omega
      refine ⟨messages ++ [Msg.ofData type.code payload fits], ?_, ?_⟩
      · rw [FrameFormat.encodeAll_append, encodes,
          sendBufBytes_eq_encodeMsg type fits]
        simp
      · intro msg member
        rcases List.mem_append.mp member with old | new
        · exact decodables msg old
        · rw [List.mem_singleton.mp new]
          exact decodable
  | header _ _ _ isRefused => exact absurd isRefused accepted

namespace Client

/-- A board name that a request sends fits into one message, with its NUL. -/
def BoardFits (board : CString) : Prop :=
  board.length + 1 ≤ maxPayload

/-- The board name of a work item, if it has one, fits. -/
def WorkFits : Work → Prop
  | .boardInfo board => BoardFits board
  | .selectBoard board => BoardFits board
  | _ => True

/-- What the client has written can be decoded, and what it will write too. -/
structure SendsDecodable (refused : Prop) (client : Client) : Prop where
  written : Written refused client.sshStdin
  works : ∀ work, some work ∈ client.works → WorkFits work
  refusals :
    (∃ outcome, outcome ∈ client.writes ∧ outcome ≠ .done) → refused

section Sending

variable {refused : Prop}

/-- Programs that only write what can be decoded. -/
abbrev Sending (refused : Prop) (program : ClientM α) : Prop :=
  Keeps (SendsDecodable refused) (fun _ => SendsDecodable refused) program

/-- Changes to anything but what is or will be written. -/
theorem update_sending
    {change : Client → Client}
    (sshStdin : ∀ client, (change client).sshStdin = client.sshStdin)
    (works : ∀ client, (change client).works = client.works)
    (writes : ∀ client, (change client).writes = client.writes) :
    Sending refused (update change) := by
  intro client sends
  refine .of_ok (update_apply _ _) ⟨?_, ?_, ?_⟩
  · rw [sshStdin]
    exact sends.written
  · rw [works]
    exact sends.works
  · rw [writes]
    exact sends.refusals

theorem stop_sending
    (reason : ClientStop) :
    Sending refused (stop reason : ClientM α) :=
  Keeps.stop fun _ => id

/-- What reaches the pipe of a message, whatever becomes of its writes. -/
theorem written_sendResult
    {stream : List UInt8}
    (written : Written refused stream)
    (type : MsgType)
    {payload : List UInt8}
    (decodable : Decodable payload)
    {writes : List WriteOutcome}
    (refusals :
      (∃ outcome, outcome ∈ writes ∧ outcome ≠ .done) → refused) :
    Written refused
      (stream ++ (Client.sendResult type payload writes).2.1) := by
  have failed := sendResult_refused type payload writes
  unfold Client.sendResult at failed ⊢
  dsimp only at failed ⊢
  split
  · split
    · rename_i empty
      have message := written.message type decodable
      rw [empty] at message ⊢
      simpa [sendBufBytes] using message
    · rename_i first nonempty
      rw [first] at failed
      simp only [nonempty, ↓reduceIte] at failed
      split
      · exact written.message type decodable
      · rename_i second
        rw [second] at failed
        exact written.header type decodable
          (refusals (failed (by simp)).1)
      · rename_i second
        rw [second] at failed
        exact written.header type decodable
          (refusals (failed (by simp)).1)
  · rw [List.append_nil]
    exact written
  · rw [List.append_nil]
    exact written

theorem cdbaSendBuf_sending
    (type : MsgType)
    {payload : List UInt8}
    (decodable : Decodable payload) :
    Sending refused (cdbaSendBuf type payload) := by
  intro client sends
  refine .of_ok (cdbaSendBuf_eq type payload client) ⟨?_, ?_, ?_⟩
  · exact written_sendResult sends.written type decodable sends.refusals
  · exact sends.works
  · rintro ⟨outcome, member, notDone⟩
    exact sends.refusals
      ⟨outcome, (sendResult_suffix _ _ _).subset member, notDone⟩

theorem sendOrErr_sending
    (type : MsgType)
    {payload : List UInt8}
    (decodable : Decodable payload)
    (message : String) :
    Sending refused (sendOrErr type payload message) :=
  Keeps.bind (cdbaSendBuf_sending type decodable) fun _ =>
    .ite (stop_sending _)
      (update_sending (fun _ => rfl) (fun _ => rfl) fun _ => rfl)

/-- An empty payload, as `cdba_send` sends it. -/
theorem decodable_nil :
    Decodable [] :=
  decodable_of_le (Nat.zero_le _)

/-- A single byte. -/
theorem decodable_byte
    (byte : UInt8) :
    Decodable [byte] :=
  decodable_of_le (Nat.le_add_left 1 _)

/-- A `struct key_press` -/
theorem decodable_key
    (key state : UInt8) :
    Decodable [key, state] :=
  decodable_of_le (Nat.le_add_left 2 _)

/-- A board name that fits. -/
theorem BoardFits.decodable
    {board : CString}
    (fits : BoardFits board) :
    Decodable (board ++ [0]) :=
  decodable_of_le (by simpa [BoardFits] using fits)

/-! ### The work queue -/

/-- Changes to the work items that add none but fitting ones. -/
theorem updateWorks_sending
    {change : Client → List (Option Work)}
    (fits :
      ∀ client, SendsDecodable refused client →
        ∀ work, some work ∈ change client → WorkFits work) :
    Sending refused
      (update fun client => { client with works := change client }) :=
  fun client sends =>
    .of_ok (update_apply _ _)
      ⟨sends.written, fits client sends, sends.refusals⟩

theorem enqueue_sending
    (node : WorkNode) :
    Sending refused (enqueue node) :=
  update_sending (fun _ => rfl) (fun _ => rfl) fun _ => rfl

theorem record_sending
    (event : ClientEvent) :
    Sending refused (record event) :=
  update_sending (fun _ => rfl) (fun _ => rfl) fun _ => rfl

theorem request_sending
    (node : WorkNode) :
    Sending refused (request node) :=
  Keeps.bind (record_sending _) fun _ => enqueue_sending node

theorem requestWork_sending
    {work : Work}
    (fits : WorkFits work) :
    Sending refused (requestWork work) := by
  have allocates : Sending refused (allocate work) := by
    refine Keeps.bind (.read _) fun index =>
      Keeps.bind (updateWorks_sending fun client sends other member => ?_)
        fun _ => .pure _
    rcases List.mem_append.mp member with old | new
    · exact sends.works other old
    · cases List.mem_singleton.mp new
      exact fits
  exact Keeps.bind allocates fun node => request_sending node

/-- Freeing or replacing one work item. -/
theorem setWork_sending
    (index : Nat)
    {work : Option Work}
    (fits : ∀ other, work = some other → WorkFits other) :
    Sending refused
      (update fun client =>
        { client with works := client.works.set index work }) := by
  refine updateWorks_sending fun client sends other member => ?_
  rcases List.mem_or_eq_of_mem_set member with old | new
  · exact sends.works other old
  · exact fits other new.symm

theorem free_sending
    (index : Nat) :
    Sending refused (free index) :=
  setWork_sending index nofun

theorem fastbootWorkFn_sending
    (index : Nat)
    (data : List UInt8)
    (offset size : Nat) :
    Sending refused (fastbootWorkFn index data offset size) := by
  have piece :
      Decodable ((data.drop offset).take (min 2048 (size - offset))) := by
    refine decodable_of_le ?_
    simp only [List.length_take, maxPayload]
    omega
  refine Keeps.bind (cdbaSendBuf_sending _ piece) fun failed => ?_
  split
  · exact enqueue_sending _
  · exact stop_sending _
  · exact Keeps.bind
      (setWork_sending index (by rintro _ ⟨rfl⟩; trivial)) fun _ =>
        .ite (free_sending _) (enqueue_sending _)

theorem runWork_sending
    (index : Nat)
    {work : Work}
    (fits : WorkFits work) :
    Sending refused (runWork index work) := by
  cases work with
  | listBoards =>
      exact Keeps.bind (sendOrErr_sending _ decodable_nil _)
        fun _ => free_sending _
  | boardInfo board =>
      exact Keeps.bind (sendOrErr_sending _ (BoardFits.decodable fits) _)
        fun _ => free_sending _
  | selectBoard board =>
      exact Keeps.bind (sendOrErr_sending _ (BoardFits.decodable fits) _)
        fun _ => free_sending _
  | statusEnable =>
      exact Keeps.bind (cdbaSendBuf_sending _ decodable_nil)
        fun _ => free_sending _
  | fastbootDownload data offset size =>
      exact fastbootWorkFn_sending _ _ _ _

theorem runNode_sending
    (node : WorkNode) :
    Sending refused (runNode node) := by
  refine Keeps.bind
    (update_sending (fun _ => rfl) (fun _ => rfl) fun _ => rfl)
    fun _ => ?_
  cases node with
  | head => exact stop_sending _
  | powerOn => exact sendOrErr_sending _ decodable_nil _
  | powerOff => exact sendOrErr_sending _ decodable_nil _
  | fastbootContinue => exact sendOrErr_sending _ decodable_nil _
  | heap index =>
      intro client sends
      refine KeepsAt.read ?_
      cases found : (client.works[index]?).join with
      | none => exact sends
      | some work =>
          have queued := Option.join_eq_some_iff.mp found
          exact runWork_sending index
            (sends.works work (List.mem_of_getElem? queued)) client sends

theorem workPass_sending :
    Sending refused workPass :=
  Keeps.bind (.read _) fun _ => Keeps.bind (.read _) fun _ =>
    Keeps.bind (.read _) fun _ =>
      Links.forEachEntrySafe_invariant runNode_sending (fun _ => id) _ _ _

/-! ### The terminal and the messages of the server -/

theorem ttyChar_sending
    (char : UInt8) :
    Sending refused (ttyChar char) := by
  have sends :
      ∀ (type : MsgType) {payload : List UInt8}, Decodable payload →
        Sending refused (discard (cdbaSendBuf type payload)) :=
    fun type _ decodable =>
      Keeps.bind (cdbaSendBuf_sending type decodable) fun _ => .pure _
  have empty := fun type => sends type decodable_nil
  have pulse := fun key => sends .keyPress (decodable_key key 2)
  have changes :
      ∀ special quit : Client → Bool,
        Sending refused
          (update fun client =>
            { client with
              special := special client
              quit := quit client }) :=
    fun _ _ => update_sending (fun _ => rfl) (fun _ => rfl) fun _ => rfl
  have toggles : ∀ key, Sending refused (cdbaToggleKey key) := fun key =>
    Keeps.bind
      (update_sending (fun _ => rfl) (fun _ => rfl) fun _ => rfl)
      fun _ => Keeps.bind (.read _) fun _ =>
        Keeps.bind (cdbaSendBuf_sending _ (decodable_key _ _))
          fun _ => .pure _
  have command : Sending refused (ttyCommand char) :=
    .ite (changes _ _)
      (.ite (empty _) (.ite (empty _) (.ite (empty _)
        (.ite (empty _) (.ite (empty _)
          (.ite (sends _ (decodable_byte _)) (.ite (empty _)
            (.ite (pulse _) (.ite (toggles _) (.ite (pulse _)
              (.ite (toggles _) (.pure _))))))))))))
  exact Keeps.bind (.read _) fun _ =>
    .ite (changes _ _)
      (.ite (Keeps.bind command fun _ => changes _ _)
        (sends _ (decodable_byte _)))

theorem handleConsole_sending
    (data : List UInt8) :
    Sending refused (handleConsole data) := by
  refine Keeps.bind
    (update_sending (fun client => ?_) (fun client => ?_)
      fun client => ?_)
    fun _ => record_sending _
  all_goals
    obtain ⟨_, _, counted⟩ := handleConsole_counts data client
    rw [counted]

theorem fastbootPresent_sending :
    Sending refused fastbootPresent := by
  refine Keeps.bind (.read _) fun client => ?_
  refine .ite
    (Keeps.bind (request_sending _) fun _ =>
      update_sending (fun _ => rfl) (fun _ => rfl) fun _ => rfl)
    (.ite (Keeps.bind (.read _) fun file => ?_)
      (update_sending (fun _ => rfl) (fun _ => rfl) fun _ => rfl))
  cases file with
  | none => exact stop_sending _
  | some data => exact requestWork_sending trivial

theorem dispatch_sending
    (msg : Msg) :
    Sending refused (dispatch msg) := by
  have changes :
      ∀ change : Client → Client,
        (∀ client, (change client).sshStdin = client.sshStdin) →
        (∀ client, (change client).works = client.works) →
        (∀ client, (change client).writes = client.writes) →
        Sending refused (update change) :=
    fun _ => update_sending
  refine Keeps.bind (changes _ (fun _ => rfl) (fun _ => rfl) fun _ => rfl)
    fun _ => ?_
  unfold handleType
  split
  · exact request_sending _
  · exact handleConsole_sending _
  · exact .pure _
  · exact .pure _
  · exact Keeps.bind (.read _) fun _ =>
      .onlyIf
        (Keeps.bind
          (changes _ (fun _ => rfl) (fun _ => rfl) fun _ => rfl)
          fun _ => request_sending _)
  · exact Keeps.bind (.read _) fun _ => .onlyIf fastbootPresent_sending
  · exact changes _ (fun _ => rfl) (fun _ => rfl) fun _ => rfl
  · exact .pure _
  · exact Keeps.bind (.read _) fun _ => Keeps.bind (.read _) fun _ =>
      .onlyIf (record_sending _)
  · exact .ite (changes _ (fun _ => rfl) (fun _ => rfl) fun _ => rfl)
      (record_sending _)
  · exact Keeps.bind
      (Keeps.bind (record_sending _) fun _ =>
        changes _ (fun _ => rfl) (fun _ => rfl) fun _ => rfl)
      fun _ => stop_sending _
  · exact changes _ (fun _ => rfl) (fun _ => rfl) fun _ => rfl
  · exact stop_sending _

/-! ### Runs -/

theorem gettimeofday_sending :
    Sending refused gettimeofday :=
  Keeps.bind (update_sending (fun _ => rfl) (fun _ => rfl) fun _ => rfl)
    fun _ => .read _

theorem armInactivity_sending :
    Sending refused armInactivity :=
  Keeps.bind (.read _) fun _ =>
    Keeps.bind (Keeps.bind gettimeofday_sending fun _ => .pure _) fun _ =>
      update_sending (fun _ => rfl) (fun _ => rfl) fun _ => rfl

theorem waitReady_sending
    (ready : Ready) :
    Sending refused (waitReady ready) := by
  have cycles : Sending refused powerCycle :=
    Keeps.bind (.read _) fun _ =>
      .ite
        (.ite (stop_sending _)
          (.ite (stop_sending _)
            (Keeps.bind (record_sending _) fun _ =>
              Keeps.bind
                (update_sending (fun _ => rfl) (fun _ => rfl) fun _ => rfl)
                fun _ => Keeps.bind (request_sending _)
                  fun _ => armInactivity_sending)))
        (.pure _)
  have times : Sending refused selectTimeout :=
    Keeps.bind (.read _) fun _ =>
      .ite (Keeps.bind gettimeofday_sending fun _ => .pure _) (.pure _)
  refine Keeps.bind cycles fun _ => Keeps.bind times fun timeout =>
    Keeps.bind (record_sending _) fun _ => Keeps.bind (.read _) fun _ => ?_
  cases timeout with
  | none => exact .ite (stop_sending _) (.pure _)
  | some tv =>
      exact .ite (stop_sending _)
        (.ite
          (Keeps.bind
            (update_sending (fun _ => rfl) (fun _ => rfl) fun _ => rfl)
            fun _ => .pure _)
          (.pure _))

/-- The board name on the command line, if there is one, fits. -/
def VerbFits : Verb → Prop
  | .boot board => BoardFits board
  | .list => True
  | .info board => BoardFits board

theorem setUp_sending
    {verb : Verb}
    (fits : VerbFits verb)
    (statusPipe : Bool) :
    Sending refused (setUp verb statusPipe) := by
  have changes :
      ∀ change : Client → Client,
        (∀ client, (change client).sshStdin = client.sshStdin) →
        (∀ client, (change client).works = client.works) →
        (∀ client, (change client).writes = client.writes) →
        Sending refused (update change) :=
    fun _ => update_sending
  have works :
      ∀ {work : Work}, WorkFits work →
        Sending refused (requestWork work) :=
    requestWork_sending
  have rest : Sending refused (afterRequest statusPipe) :=
    Keeps.bind
      (.onlyIf
        (Keeps.bind
          (changes _ (fun _ => rfl) (fun _ => rfl) fun _ => rfl)
          fun _ => works trivial))
      fun _ => Keeps.bind (.read _) fun _ =>
        Keeps.bind (Keeps.bind gettimeofday_sending fun _ => .pure _)
          fun _ => Keeps.bind
            (changes _ (fun _ => rfl) (fun _ => rfl) fun _ => rfl)
            fun _ => armInactivity_sending
  cases verb with
  | boot board =>
      exact Keeps.bind
        (changes _ (fun _ => rfl) (fun _ => rfl) fun _ => rfl)
        fun _ => Keeps.bind (works fits) fun _ => rest
  | list => exact Keeps.bind (works trivial) fun _ => rest
  | info board => exact Keeps.bind (works fits) fun _ => rest

/-- In every run the client only writes what can be decoded. -/
theorem run_sending
    {verb : Verb}
    (fits : VerbFits verb)
    (statusPipe : Bool)
    (iterations : List Ready) :
    Keeps
      (fun loop => SendsDecodable refused loop.state)
      (fun _ loop => SendsDecodable refused loop.state)
      (run verb statusPipe iterations) := by
  have within :
      ∀ {α : Type} {program : ClientM α},
        Sending refused program →
        Keeps (fun loop => SendsDecodable refused loop.state)
          (fun _ loop => SendsDecodable refused loop.state)
          (Program.within Receiver.stateOf program) :=
    fun sending loop sends => KeepsAt.within Receiver.stateOf
      (sending loop.state sends)
  refine Keeps.bind (within (setUp_sending fits statusPipe)) fun _ =>
    mainLoop_keeps (fun _ => within (waitReady_sending _))
      (fun _ => within (Keeps.each ttyChar_sending _)) (fun _ => id)
      (receive_keeps ?_ (fun _ => id) dispatch_sending)
      (within armInactivity_sending) (within workPass_sending) iterations
  exact fun _ _ sends => ⟨sends.written, sends.works, sends.refusals⟩

end Sending

end Client

/-! ## Both programs -/

/--
In every run of the server and in every run of the client: if what the user can
be told about each of his devices fits into one message, and so does the board
name on the command line, then every message that is sent can be decoded.
-/
theorem messages_decodable
    (devices : Fin n → Device)
    (username : CString)
    (tellable :
      ∀ device,
        deviceCheckAccess (devices device) (some username) = true →
        (devices device).Tellable)
    (verb : Client.Verb)
    (fits : Client.VerbFits verb) :
    (∀ stdin hw lockOpens flocks iterations,
        (∀ ready, ready ∈ iterations →
          ∀ callback, callback ∈ ready → Callback.FromBuffers callback) →
        ∀ event,
          event ∈
            (finalState (watchMainLoop iterations
              (Server.start devices username stdin hw lockOpens
                flocks))).state.hw.log →
          ∀ type payload,
            event.value = .send type payload → Decodable payload) ∧
      (∀ ts id values line,
        statusSendValues ts id values = some line → Decodable line) ∧
      ∀ options powerCycles writes sshStdout clock beyond statusPipe
          iterations,
        Written (∃ outcome, outcome ∈ writes ∧ outcome ≠ .done)
          (finalState (Client.run verb statusPipe iterations
            (Client.start options powerCycles writes sshStdout clock
              beyond))).state.sshStdin := by
  refine ⟨?_, ?_, ?_⟩
  · intro stdin hw lockOpens flocks iterations fromBuffers event member
    let start := Server.start devices username stdin hw lockOpens flocks
    have publishes :
        decodableSends.Publishes start.state.hw start.state.username :=
      decodableSends_publishes tellable
    have guards := watchMainLoop_guards publishes
      (fun _ _ _ => trivial)
      (fun ready inRun callback inReady =>
        (fromBuffers ready inRun callback inReady).forwards)
      (Permission.guards_start _ devices username stdin hw lockOpens flocks)
    exact (guards.hw.logged event member).2
  · intro ts id values line sent
    have bound := length_statusSendValues sent
    simp only [statusBufSize] at bound
    refine decodable_of_le ?_
    simp only [maxPayload]
    omega
  · intro options powerCycles writes sshStdout clock beyond statusPipe
      iterations
    have sends := KeepsAt.final
      (fun loop : ClientLoop =>
        Client.SendsDecodable
          (∃ outcome, outcome ∈ writes ∧ outcome ≠ .done) loop.state)
      (Client.run_sending fits statusPipe iterations
        (Client.start options powerCycles writes sshStdout clock beyond)
        ⟨.nothing, by simp [Client.start, Client.initial], id⟩)
    exact sends.written

/-- A board whose description is as long as it likes. -/
def describedBoard (description : CString) : Device :=
  { ftdiBoard with description := some description }

/-- A server that is asked for the description of its board. -/
def infoServer (description : CString) : ServerLoop 1 :=
  Server.start (fun _ => describedBoard description) (ascii "user")
    { fd :=
        { unread :=
            encodeMsg
              (Msg.ofData MsgType.boardInfo.code (ascii "db410c" ++ [0])
                ftdiName_fits)
          closed := false }
      script := [.deliver 100, .wouldBlock] }
    (Hw.initial fun _ => describedBoard description) [] []

/-- The longest description that fits is answered in a message that fits. -/
theorem longestDescription_decodable :
    (describedBoard (List.replicate maxPayload 0x61)).Tellable ∧
      ∀ event,
        event ∈
          (finalState (watchMainLoop [[.stdin]]
            (infoServer (List.replicate maxPayload 0x61)))).state.hw.log →
        ∀ type payload,
          event.value = .send type payload → Decodable payload := by
  have tellable :
      (describedBoard (List.replicate maxPayload 0x61)).Tellable :=
    { listing := by decide
      description := by
        rintro _ ⟨rfl⟩
        exact Nat.le_of_eq List.length_replicate }
  refine ⟨tellable, (messages_decodable
    (fun _ : Fin 1 => describedBoard (List.replicate maxPayload 0x61))
    (ascii "user") (fun _ _ => tellable) .list trivial).1 _ _ _ _ _
      (by
        intro ready inRun callback inReady
        rw [List.mem_singleton.mp inRun] at inReady
        rw [List.mem_singleton.mp inReady]
        trivial)⟩

/-- The answer to `MSG_BOARD_INFO` that an event sends. -/
def Event.boardInfo? : Event n → Option (List UInt8)
  | .send .boardInfo payload => some payload
  | _ => none

theorem send_of_boardInfo?
    {event : Event n}
    {payload : List UInt8}
    (sends : event.boardInfo? = some payload) :
    event = .send .boardInfo payload := by
  unfold Event.boardInfo? at sends
  split at sends
  · cases sends
    rfl
  · cases sends

/--
A description of 16381 bytes, which the parser's tokens can hold, is answered
in a message that fills more than the receiver's ring.
-/
theorem longDescription_undecodable :
    ∃ event payload,
      event ∈
          (finalState (watchMainLoop [[.stdin]]
            (infoServer (List.replicate 16381 0x61)))).state.hw.log ∧
        event.value = .send .boardInfo payload ∧
        ¬ Decodable payload := by
  have answered :
      ((finalState (watchMainLoop [[.stdin]]
          (infoServer
            (List.replicate 16381 0x61)))).state.hw.log.filterMap
        fun event => event.value.boardInfo?).any
          fun payload => maxPayload < payload.length := by
    decide +kernel
  obtain ⟨payload, member, long⟩ := List.any_eq_true.mp answered
  obtain ⟨event, logged, sent⟩ := List.mem_filterMap.mp member
  refine ⟨event, payload, logged, send_of_boardInfo? sent,
    fun decodable => ?_⟩
  have short := decodable_iff.mp decodable
  have long := of_decide_eq_true long
  omega

end Cdba
