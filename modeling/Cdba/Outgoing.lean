import Cdba.Frame
import Cdba.Message

namespace Cdba

/-!
# What goes out

The events of a run, the bytes they write to the client, and the messages into
which the client splits these bytes.
-/

open Program

variable {n : Nat}

/-- What a run has done to the outside since a state. -/
def Hw.did (first last : Hw n) : List (Event n) :=
  (first.since last).map Stamped.value

theorem Hw.did_of_log
    {first last : Hw n}
    {events : List (Stamped (Event n))}
    (log : last.log = first.log ++ events) :
    first.did last = events.map Stamped.value := by
  simp [Hw.did, Hw.since, log]

/-- A program that returns, and what it has done by then. -/
structure Does
    (program : HwM n Unit)
    (first last : Hw n)
    (events : List (Event n)) :
    Prop where
  ran : program first = .ok () last
  logged :
    ∃ stamped,
      last.log = first.log ++ stamped ∧ stamped.map Stamped.value = events

namespace Does

theorem pure
    (hw : Hw n) :
    Does (Pure.pure ()) hw hw [] :=
  ⟨rfl, [], (List.append_nil _).symm, rfl⟩

theorem emit
    (event : Event n)
    (hw : Hw n) :
    Does (Cdba.emit event) hw (finalState (Cdba.emit event hw)) [event] :=
  ⟨rfl, [_], rfl, rfl⟩

theorem did
    {program : HwM n Unit}
    {first last : Hw n}
    {events : List (Event n)}
    (does : Does program first last events) :
    first.did (finalState (program first)) = events := by
  obtain ⟨stamped, log, values⟩ := does.logged
  rw [does.ran, finalState, Hw.did_of_log log, values]

/-- One program after the other: what both have done. -/
theorem seq
    {program later : HwM n Unit}
    {first middle last : Hw n}
    {events events' : List (Event n)}
    (does : Does program first middle events)
    (doesLater : Does later middle last events') :
    Does (program >>= fun _ => later) first last (events ++ events') := by
  obtain ⟨stamped, log, values⟩ := does.logged
  obtain ⟨stamped', log', values'⟩ := doesLater.logged
  refine ⟨?_, stamped ++ stamped', ?_, ?_⟩
  · rw [bind_of_ok does.ran]
    exact doesLater.ran
  · rw [log', log, List.append_assoc]
  · rw [List.map_append, values, values']

/-- The first turn of a loop, and the others. -/
theorem cons
    {body : ι → HwM n Unit}
    {item : ι}
    {rest : List ι}
    {first middle last : Hw n}
    {events events' : List (Event n)}
    (does : Does (body item) first middle events)
    (doesRest : Does (each body rest) middle last events') :
    Does (each body (item :: rest)) first last (events ++ events') :=
  does.seq doesRest

end Does

/-- The bytes an event writes to the client. -/
def Event.written : Event n → List UInt8
  | .send type payload => sendBufBytes type payload
  | _ => []

/-- The messages behind a list of payloads, as the client splits them off. -/
theorem written_messages
    (type : MsgType)
    (payloads : List (List UInt8))
    (fit : ∀ payload, payload ∈ payloads → payload.length < 2 ^ 16) :
    ∃ messages,
      (payloads.map (Event.send (n := n) type)).flatMap Event.written =
          wire.encodeAll messages ∧
        messages.map Msg.data = payloads ∧
        ∀ msg, msg ∈ messages → msg.type = type.code := by
  induction payloads with
  | nil =>
      exact ⟨[], rfl, rfl, nofun⟩
  | cons payload rest inductionHypothesis =>
      obtain ⟨messages, bytes, datas, types⟩ :=
        inductionHypothesis fun later member =>
          fit later (List.mem_cons_of_mem _ member)
      have fits := fit payload List.mem_cons_self
      refine ⟨.ofData type.code payload fits :: messages,
        ?_, ?_, ?_⟩
      · rw [List.map_cons, List.flatMap_cons, bytes, FrameFormat.encodeAll_cons]
        rfl
      · rw [List.map_cons, datas]
        rfl
      · intro msg member
        rcases List.mem_cons.mp member with same | later
        · rw [same]
          rfl
        · exact types msg later

end Cdba
