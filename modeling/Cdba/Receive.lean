import Cdba.CircBuf
import Cdba.Message
import Cdba.Program

namespace Cdba

/-!
# Receiving messages

`handle_stdin` in the server and `circ_fill` followed by `handle_message` in
the client share one shape: fill the receive buffer, then dispatch complete
messages until the buffer holds none.  This module models that shape once,
over an arbitrary dispatcher, and shows what it does to the byte stream.
-/

open Program

/-- A program's state together with its receive buffer. -/
structure Receiver (σ : Type) where
  state : σ
  recvBuf : CircBuf

namespace Receiver

/-- The part of a receiver that message handlers work on. -/
def stateOf : Component (Receiver σ) σ where
  get := Receiver.state
  set := fun receiver state => { receiver with state := state }
  get_set := fun _ _ => rfl
  set_get := fun _ => rfl
  set_set := fun _ _ _ => rfl

end Receiver

/-- The message that `circ_read` copies into freshly allocated memory. -/
def Msg.ofBytes (bytes : List UInt8) : Msg where
  type := bytes.getD 0 0
  len := headerLen bytes
  data :=
    (List.range (headerLen bytes).toNat).map fun offset =>
      bytes.getD (sizeofMsg + offset) 0
  data_length := by simp

/--
One round of the receive loop: peek at the header, wait for the payload, then
take header and payload off the buffer.
-/
def nextMessage? (circ : CircBuf) : Option (Msg × CircBuf) :=
  let (n, header) := circPeak circ sizeofMsg
  if n ≠ sizeofMsg then
    none
  else if circAvail circ < sizeofMsg + (headerLen header).toNat then
    none
  else
    let taken := circRead circ (sizeofMsg + (headerLen header).toNat)
    some (Msg.ofBytes taken.1.2, taken.2)

/-- Bytes that hold exactly one message are read back as that message. -/
theorem Msg.ofBytes_encodeMsg
    (msg : Msg) :
    Msg.ofBytes (encodeMsg msg) = msg := by
  have sameLen : headerLen (encodeMsg msg) = msg.len := by
    have appended := headerLen_headerBytes_append msg.type msg.len msg.data
    exact appended
  apply Msg.ext_data
  · rfl
  · apply List.ext_getElem
    · simp [Msg.ofBytes, sameLen, msg.data_length]
    · intro offset _ inData
      simp [Msg.ofBytes, encodeMsg, headerBytes, sizeofMsg,
        Nat.add_comm 3 offset, inData]

/-- The header of a longer prefix is the header of the stream. -/
theorem headerLen_take
    {stream : List UInt8}
    {count : Nat}
    (header : sizeofMsg ≤ count) :
    headerLen (stream.take count) = headerLen stream := by
  simp only [sizeofMsg] at header
  have second : 1 < count := by omega
  have third : 2 < count := by omega
  simp [headerLen, List.getD_eq_getElem?_getD, second, third]

/-- The receive loop stops exactly when no complete message is queued. -/
theorem nextMessage?_eq_none_iff
    (circ : CircBuf) :
    nextMessage? circ = none ↔ wire.next? circ.contents = none := by
  rw [wire_next?, splitMsg?_eq_none_iff, length_contents]
  rcases Nat.lt_or_ge (circAvail circ) sizeofMsg with short | header
  · have none : (circPeak circ sizeofMsg).1 ≠ sizeofMsg := by
      rw [circPeak_short short]
      decide
    simp only [nextMessage?, none, ne_eq, not_false_eq_true,
      ↓reduceIte, true_iff]
    exact Nat.lt_of_lt_of_le short (Nat.le_add_right _ _)
  · simp only [nextMessage?, circPeak_available header, ne_eq,
      not_true_eq_false, ↓reduceIte, headerLen_take (Nat.le_refl _)]
    split <;> simp_all

/-- The receive loop takes exactly the first complete message off the queue. -/
theorem nextMessage?_eq_some
    {circ circ' : CircBuf}
    {msg : Msg}
    (found : nextMessage? circ = some (msg, circ')) :
    wire.next? circ.contents = some (msg, circ'.contents) := by
  rcases Nat.lt_or_ge (circAvail circ) sizeofMsg with short | header
  · have none : (circPeak circ sizeofMsg).1 ≠ sizeofMsg := by
      rw [circPeak_short short]
      decide
    simp [nextMessage?, none] at found
  · simp only [nextMessage?, circPeak_available header, ne_eq,
      not_true_eq_false, ↓reduceIte, headerLen_take (Nat.le_refl _)] at found
    split at found
    · contradiction
    · rename_i complete
      have available :
          sizeofMsg + (headerLen circ.contents).toNat ≤ circAvail circ :=
        Nat.le_of_not_lt complete
      obtain ⟨copied, left⟩ := circRead_available available
      simp only [Option.some.injEq, Prod.mk.injEq] at found
      obtain ⟨rfl, rfl⟩ := found
      cases split : wire.next? circ.contents with
      | none =>
          rw [wire_next?, splitMsg?_eq_none_iff,
            length_contents] at split
          exact (complete split).elim
      | some pair =>
          obtain ⟨first, rest⟩ := pair
          -- The bytes copied out are the encoding of the first message.
          have shape := wire.eq_encode_append split
          rw [wire_encode] at shape
          have sameLen :
              sizeofMsg + (headerLen circ.contents).toNat =
                (encodeMsg first).length := by
            rw [shape, encodeMsg, List.append_assoc,
              headerLen_headerBytes_append, List.length_append,
              length_headerBytes, first.data_length]
          rw [copied, left, sameLen, shape, List.take_left,
            List.drop_left, Msg.ofBytes_encodeMsg]

/-- A message is at least as long as its header, so the queue shrinks. -/
theorem circAvail_nextMessage?
    {circ circ' : CircBuf}
    {msg : Msg}
    (found : nextMessage? circ = some (msg, circ')) :
    circAvail circ' < circAvail circ := by
  have shape := wire.eq_encode_append (nextMessage?_eq_some found)
  have lengths := congrArg List.length shape
  rw [List.length_append, length_contents, length_contents,
    wire_encode, length_encodeMsg] at lengths
  simp only [sizeofMsg] at lengths
  rw [lengths]
  omega

/-! ## The receive loop -/

/-- The `for (;;)` loop of `handle_stdin` and `handle_message`. -/
def receiveLoop
    (dispatch : Msg → EStateM ε σ Unit) :
    Nat → EStateM ε (Receiver σ) Unit
  | 0 => pure ()
  | fuel + 1 => do
      let circ ← read Receiver.recvBuf
      match nextMessage? circ with
      | none => pure ()
      | some (msg, circ) =>
          update fun receiver => { receiver with recvBuf := circ }
          within Receiver.stateOf (dispatch msg)
          receiveLoop dispatch fuel

/-- Dispatch every complete message; each round takes at least one byte. -/
def receiveMessages
    (dispatch : Msg → EStateM ε σ Unit) :
    EStateM ε (Receiver σ) Unit := do
  let circ ← read Receiver.recvBuf
  receiveLoop dispatch (circAvail circ + 1)

/--
A wakeup of the receiver: `circ_fill`, then the receive loop unless the
descriptor failed or reached its end, in which case the receiver leaves.
-/
def receive
    (input : Component σ Input)
    (leave : ε)
    (dispatch : Msg → EStateM ε σ Unit) :
    EStateM ε (Receiver σ) Unit := do
  let receiver ← read id
  let filled := circFill (input.get receiver.state) receiver.recvBuf
  update fun receiver =>
    { state := input.set receiver.state filled.2.2
      recvBuf := filled.2.1 }
  match filled.1 with
  | .done => receiveMessages dispatch
  | .failed .eagain => receiveMessages dispatch
  | .failed _ => stop leave

/-! ## Accounting for the stream -/

/--
What a receiver keeps track of: the messages it has dispatched, and the bytes
its handlers read from the descriptor behind the back of the receive buffer.
-/
structure Journal (σ : Type) where
  input : Component σ Input
  handled : σ → List Msg
  probed : σ → List UInt8
  handled_set :
    ∀ state value, handled (input.set state value) = handled state
  probed_set :
    ∀ state value, probed (input.set state value) = probed state

namespace Journal

variable (journal : Journal σ)

/-- The bytes that are still to be read from the descriptor. -/
def unread (state : σ) : List UInt8 :=
  (journal.input.get state).fd.unread

/-- The bytes that have arrived in the buffer or are still to be read. -/
def ahead (receiver : Receiver σ) : List UInt8 :=
  receiver.recvBuf.contents ++ journal.unread receiver.state

/-- A handler dispatches `messages` and may read bytes off the descriptor. -/
def Handles
    (messages : List Msg)
    (first last : σ) :
    Prop :=
  ∃ lost,
    journal.handled last = journal.handled first ++ messages ∧
      journal.probed last = journal.probed first ++ lost ∧
      journal.unread first = lost ++ journal.unread last

/--
Every byte ahead of the receiver is still ahead, belongs to a message that was
dispatched in between, or was read by a handler.  If no handler read any, the
stream is the dispatched messages followed by what is still ahead.
-/
def Accounts (first last : Receiver σ) : Prop :=
  ∃ messages lost,
    journal.handled last.state =
        journal.handled first.state ++ messages ∧
      journal.probed last.state = journal.probed first.state ++ lost ∧
      (journal.ahead first).length =
        (wire.encodeAll messages).length + lost.length +
          (journal.ahead last).length ∧
      (lost = [] →
        journal.ahead first =
          wire.encodeAll messages ++ journal.ahead last)

variable {journal}

theorem Handles.trans
    {first middle last : σ}
    {messages messages' : List Msg}
    (firstStep : journal.Handles messages first middle)
    (laterStep : journal.Handles messages' middle last) :
    journal.Handles (messages ++ messages') first last := by
  obtain ⟨lost, handled, probed, unread⟩ := firstStep
  obtain ⟨lost', handled', probed', unread'⟩ := laterStep
  refine ⟨lost ++ lost', ?_, ?_, ?_⟩
  · rw [handled', handled, List.append_assoc]
  · rw [probed', probed, List.append_assoc]
  · rw [unread, unread', List.append_assoc]

instance Handles.composes :
    Composes (journal.Handles []) where
  refl := fun state => ⟨[], by simp, by simp, rfl⟩
  trans := fun firstStep laterStep => firstStep.trans laterStep

instance Accounts.composes :
    Composes journal.Accounts where
  refl := fun receiver => ⟨[], [], by simp, by simp, by simp, by simp⟩
  trans := by
    rintro first middle last
      ⟨messages, lost, handled, probed, lengths, stream⟩
      ⟨messages', lost', handled', probed', lengths', stream'⟩
    refine ⟨messages ++ messages', lost ++ lost', ?_, ?_, ?_, ?_⟩
    · rw [handled', handled, List.append_assoc]
    · rw [probed', probed, List.append_assoc]
    · rw [lengths, lengths', FrameFormat.encodeAll_append]
      simp only [List.length_append]
      omega
    · intro noneLost
      obtain ⟨noneFirst, noneLater⟩ :=
        List.append_eq_nil_iff.mp noneLost
      rw [stream noneFirst, stream' noneLater,
        FrameFormat.encodeAll_append, List.append_assoc]

/-- Callbacks that leave buffer, descriptor and journal alone account for it. -/
theorem Accounts.of_handles
    {first last : Receiver σ}
    (sameBuf : last.recvBuf = first.recvBuf)
    (handles : journal.Handles [] first.state last.state) :
    journal.Accounts first last := by
  obtain ⟨lost, handled, probed, unread⟩ := handles
  refine ⟨[], lost, handled, probed, ?_, ?_⟩
  · simp only [ahead, sameBuf, unread, List.length_append,
      FrameFormat.encodeAll_nil, List.length_nil]
    omega
  · intro noneLost
    simp [ahead, sameBuf, unread, noneLost]

/-- Taking a message off the buffer and dispatching it accounts for its bytes. -/
theorem Accounts.of_dispatch
    {first last : Receiver σ}
    {msg : Msg}
    {circ : CircBuf}
    (found : nextMessage? first.recvBuf = some (msg, circ))
    (sameBuf : last.recvBuf = circ)
    (handles : journal.Handles [msg] first.state last.state) :
    journal.Accounts first last := by
  obtain ⟨lost, handled, probed, unread⟩ := handles
  have shape := wire.eq_encode_append (nextMessage?_eq_some found)
  refine ⟨[msg], lost, handled, probed, ?_, ?_⟩
  · simp only [ahead, sameBuf, unread, shape, List.length_append,
      FrameFormat.encodeAll_cons, FrameFormat.encodeAll_nil,
      List.length_nil]
    omega
  · intro noneLost
    simp [ahead, sameBuf, unread, noneLost, shape]

/-- The receive loop accounts for the stream when its dispatcher does. -/
theorem receiveLoop_accounts
    {mayStop : ε → Prop}
    {dispatch : Msg → EStateM ε σ Unit}
    (dispatches :
      ∀ msg, Relates (journal.Handles [msg]) mayStop (dispatch msg))
    (fuel : Nat) :
    Relates journal.Accounts mayStop (receiveLoop dispatch fuel) := by
  induction fuel with
  | zero =>
      exact Relates.pure ()
  | succ fuel inductionHypothesis =>
      intro receiver
      refine (Relates.read _ receiver).bind ?_
      intro value middle outcome
      cases outcome
      cases found : nextMessage? receiver.recvBuf with
      | none =>
          exact Relates.pure () receiver
      | some pair =>
          obtain ⟨msg, circ⟩ := pair
          simp only
          rw [← bind_assoc]
          refine RelatesAt.bind ?_
            (fun _ middle _ => inductionHypothesis middle)
          obtain ⟨handles, stops⟩ := dispatches msg receiver.state
          cases outcome : dispatch msg receiver.state with
          | ok value state =>
              rw [outcome] at handles
              refine ⟨?_, ?_⟩
              · simp only [bind_apply, update_apply, within,
                  Receiver.stateOf, outcome]
                exact Accounts.of_dispatch found rfl handles
              · simp [bind_apply, within, Receiver.stateOf, outcome,
                  stopped?]
          | error reason state =>
              rw [outcome] at handles stops
              refine ⟨?_, ?_⟩
              · simp only [bind_apply, update_apply, within,
                  Receiver.stateOf, outcome]
                exact Accounts.of_dispatch found rfl handles
              · simpa [bind_apply, within, Receiver.stateOf, outcome,
                  stopped?] using stops

/-- `circ_fill` moves bytes from the descriptor to the buffer. -/
theorem Accounts.of_circFill
    (receiver : Receiver σ) :
    journal.Accounts receiver
      { state :=
          journal.input.set receiver.state
            (circFill (journal.input.get receiver.state)
              receiver.recvBuf).2.2
        recvBuf :=
          (circFill (journal.input.get receiver.state)
            receiver.recvBuf).2.1 } := by
  have moved := circFill_contents
    (journal.input.get receiver.state) receiver.recvBuf
  refine ⟨[], [], ?_, ?_, ?_, ?_⟩
  · simp [journal.handled_set]
  · simp [journal.probed_set]
  · simp [ahead, unread, journal.input.get_set, ← moved]
  · intro _
    simp [ahead, unread, journal.input.get_set, moved]

/-- A wakeup of the receiver accounts for the stream. -/
theorem receive_accounts
    {mayStop : ε → Prop}
    {leave : ε}
    {dispatch : Msg → EStateM ε σ Unit}
    (leaves : mayStop leave)
    (dispatches :
      ∀ msg, Relates (journal.Handles [msg]) mayStop (dispatch msg)) :
    Relates journal.Accounts mayStop
      (receive journal.input leave dispatch) := by
  have loop :
      Relates journal.Accounts mayStop (receiveMessages dispatch) :=
    .bind (.read _) fun circ => receiveLoop_accounts dispatches _
  unfold receive
  intro receiver
  refine (Relates.read _ receiver).bind ?_
  intro value middle outcome
  cases outcome
  refine RelatesAt.bind
    ⟨Accounts.of_circFill receiver, by simp [stopped?]⟩ ?_
  intro _ filled _
  simp only [id]
  generalize (circFill (journal.input.get receiver.state)
    receiver.recvBuf).1 = status
  cases status with
  | done =>
      exact loop filled
  | failed errno =>
      cases errno with
      | eagain => exact loop filled
      | epipe => exact Relates.stop leaves filled
      | other => exact Relates.stop leaves filled

/--
What a receiver that was started on an empty buffer has accounted for: the
lengths of everything it took off the stream, and, unless handlers read from
the descriptor, the stream itself.
-/
theorem Accounts.from_start
    {start final : Receiver σ}
    (accounts : journal.Accounts start final)
    (emptyBuf : start.recvBuf.contents = [])
    (noneHandled : journal.handled start.state = [])
    (noneProbed : journal.probed start.state = []) :
    (journal.unread start.state).length =
        (wire.encodeAll (journal.handled final.state)).length +
          (journal.probed final.state).length +
          (journal.ahead final).length ∧
      (journal.probed final.state = [] →
        journal.unread start.state =
          wire.encodeAll (journal.handled final.state) ++
            journal.ahead final) := by
  obtain ⟨messages, lost, handled, probed, lengths, stream⟩ := accounts
  have startAhead : journal.ahead start = journal.unread start.state := by
    simp [ahead, emptyBuf]
  rw [noneHandled, List.nil_append] at handled
  rw [noneProbed, List.nil_append] at probed
  rw [handled, probed, ← startAhead]
  exact ⟨lengths, stream⟩

end Journal

/-! ## Invariants of the receiver -/

/-- The receive loop keeps what every dispatched message keeps. -/
theorem receiveLoop_keeps
    {invariant : σ → Prop}
    {stopped : ε → σ → Prop}
    {dispatch : Msg → EStateM ε σ Unit}
    (dispatches : ∀ msg, Keeps invariant stopped (dispatch msg))
    (fuel : Nat) :
    Keeps
      (fun receiver => invariant receiver.state)
      (fun reason receiver => stopped reason receiver.state)
      (receiveLoop dispatch fuel) := by
  induction fuel with
  | zero =>
      exact fun _ holds => holds
  | succ fuel inductionHypothesis =>
      intro receiver holds
      refine KeepsAt.bind holds ?_
      intro value middle outcome _
      cases outcome
      split
      · exact holds
      · rename_i msg circ _
        refine KeepsAt.bind (.of_ok (update_apply _ _) holds) ?_
        intro _ middle _ holds
        exact (KeepsAt.within Receiver.stateOf
          (dispatches msg middle.state holds)).bind
            (fun _ later _ => inductionHypothesis later)

/-- A wakeup keeps what arriving bytes and dispatched messages keep. -/
theorem receive_keeps
    {invariant : σ → Prop}
    {stopped : ε → σ → Prop}
    {input : Component σ Input}
    {leave : ε}
    {dispatch : Msg → EStateM ε σ Unit}
    (arrives :
      ∀ state value, invariant state → invariant (input.set state value))
    (leaves : ∀ state, invariant state → stopped leave state)
    (dispatches : ∀ msg, Keeps invariant stopped (dispatch msg)) :
    Keeps
      (fun receiver => invariant receiver.state)
      (fun reason receiver => stopped reason receiver.state)
      (receive input leave dispatch) := by
  intro receiver holds
  refine KeepsAt.bind holds ?_
  intro value middle outcome _
  cases outcome
  refine KeepsAt.bind
    (.of_ok (update_apply _ _) (arrives receiver.state _ holds)) ?_
  intro _ filled _ holds
  have loop := receiveLoop_keeps dispatches
    (circAvail filled.recvBuf + 1) filled holds
  split
  · exact loop
  · exact loop
  · exact leaves filled.state holds

/-! ## Draining the buffer -/

/-- Fuel for every queued byte is enough: a loop that returns has drained the buffer. -/
theorem receiveLoop_drains
    {dispatch : Msg → EStateM ε σ Unit}
    {fuel : Nat}
    {receiver final : Receiver σ}
    (enough : circAvail receiver.recvBuf < fuel)
    (result : receiveLoop dispatch fuel receiver = .ok () final) :
    wire.next? final.recvBuf.contents = none := by
  induction fuel generalizing receiver with
  | zero =>
      exact absurd enough (Nat.not_lt_zero _)
  | succ fuel inductionHypothesis =>
      obtain ⟨circ, middle, readResult, result⟩ := bind_eq_ok result
      cases readResult
      cases found : nextMessage? receiver.recvBuf with
      | none =>
          rw [found] at result
          cases result
          exact (nextMessage?_eq_none_iff _).mp found
      | some pair =>
          obtain ⟨msg, rest⟩ := pair
          rw [found] at result
          obtain ⟨_, updated, updateResult, result⟩ := bind_eq_ok result
          cases updateResult
          obtain ⟨_, dispatched, dispatchResult, result⟩ :=
            bind_eq_ok result
          obtain ⟨_, sameBuf⟩ := within_eq_ok dispatchResult
          apply inductionHypothesis _ result
          rw [sameBuf]
          exact Nat.lt_of_lt_of_le
            (circAvail_nextMessage? found) (Nat.le_of_lt_succ enough)

theorem receiveMessages_drains
    {dispatch : Msg → EStateM ε σ Unit}
    {receiver final : Receiver σ}
    (result : receiveMessages dispatch receiver = .ok () final) :
    wire.next? final.recvBuf.contents = none := by
  obtain ⟨circ, middle, readResult, result⟩ := bind_eq_ok result
  cases readResult
  exact receiveLoop_drains (Nat.lt_succ_self _) result

/-- A wakeup after which the receiver goes on has drained the buffer. -/
theorem receive_drains
    {input : Component σ Input}
    {leave : ε}
    {dispatch : Msg → EStateM ε σ Unit}
    {receiver final : Receiver σ}
    (result : receive input leave dispatch receiver = .ok () final) :
    wire.next? final.recvBuf.contents = none := by
  obtain ⟨_, _, readResult, result⟩ := bind_eq_ok result
  cases readResult
  obtain ⟨_, _, updateResult, result⟩ := bind_eq_ok result
  cases updateResult
  simp only [id] at result
  generalize (circFill (input.get receiver.state)
    receiver.recvBuf).1 = status at result
  cases status with
  | done =>
      exact receiveMessages_drains result
  | failed errno =>
      cases errno with
      | eagain => exact receiveMessages_drains result
      | epipe => cases result
      | other => cases result

/-- Between wakeups no complete message is queued. -/
def Drained (receiver : Receiver σ) : Prop :=
  wire.next? receiver.recvBuf.contents = none

/-- What does not touch the receive buffer leaves it drained. -/
theorem within_drained
    (program : EStateM ε σ α) :
    Keeps Drained (fun _ _ => True) (within Receiver.stateOf program) := by
  intro receiver drained
  unfold KeepsAt
  cases outcome : within Receiver.stateOf program receiver with
  | ok value final =>
      obtain ⟨_, sameBuf⟩ := within_eq_ok outcome
      rw [sameBuf]
      exact drained
  | error reason final =>
      trivial

theorem receive_drained
    {input : Component σ Input}
    {leave : ε}
    {dispatch : Msg → EStateM ε σ Unit} :
    Keeps Drained (fun _ _ => True) (receive input leave dispatch) := by
  intro receiver _
  unfold KeepsAt
  cases outcome : receive input leave dispatch receiver with
  | ok value final => exact receive_drains outcome
  | error reason final => trivial

end Cdba
