import Cdba.FrameStream
import Mathlib.Logic.Relation

/-!
# Two parties and the streams between them

Two parties are joined by two streams.  Each party writes symbols to one of
them and takes frames off the front of the other.  Whatever a party writes is
on its way to the other one from then on; when it arrives, and in which pieces,
is left open.  The parties take turns in any order.

A party may lose symbols it was sent.  As long as it is *intact*, what it has
taken off its stream and what is still ahead of it is what the other one wrote.
-/

/-- What the state of a party says about its two streams. -/
structure Party (Symbol Frame State : Type) where
  sent : State → List Symbol
  handled : State → List Frame
  ahead : State → List Symbol
  intact : State → Prop

namespace Party

variable {Symbol Frame State Peer : Type}

/-- A step of a party: it writes, and takes frames off its stream. -/
structure Steps
    (format : FrameFormat Symbol Frame)
    (party : Party Symbol Frame State)
    (first last : State) :
    Prop where
  sends : party.sent first <+: party.sent last
  intact : party.intact last → party.intact first
  takes :
    party.intact last →
      ∃ frames,
        party.handled last = party.handled first ++ frames ∧
          party.ahead first = format.encodeAll frames ++ party.ahead last

/-- More symbols are on their way to a party. -/
structure Hears
    (party : Party Symbol Frame State)
    (symbols : List Symbol)
    (first last : State) :
    Prop where
  sent : party.sent last = party.sent first
  handled : party.handled last = party.handled first
  ahead : party.ahead last = party.ahead first ++ symbols
  intact : party.intact last → party.intact first

/-- Nothing was written or taken. -/
theorem Steps.refl
    (format : FrameFormat Symbol Frame)
    (party : Party Symbol Frame State)
    (state : State) :
    party.Steps format state state where
  sends := List.prefix_rfl
  intact := id
  takes := fun _ => ⟨[], by simp, by simp⟩

/-- One step after the other. -/
theorem Steps.trans
    {format : FrameFormat Symbol Frame}
    {party : Party Symbol Frame State}
    {first middle last : State}
    (step : party.Steps format first middle)
    (later : party.Steps format middle last) :
    party.Steps format first last where
  sends := step.sends.trans later.sends
  intact := step.intact ∘ later.intact
  takes := by
    intro intact
    obtain ⟨frames, handled, ahead⟩ := step.takes (later.intact intact)
    obtain ⟨frames', handled', ahead'⟩ := later.takes intact
    refine ⟨frames ++ frames', ?_, ?_⟩
    · rw [handled', handled, List.append_assoc]
    · rw [ahead, ahead', FrameFormat.encodeAll_append, List.append_assoc]

/--
What one party has written is what the other has taken off its stream, and what
is still ahead of it.
-/
def Delivers
    (format : FrameFormat Symbol Frame)
    (sender : Party Symbol Frame State)
    (receiver : Party Symbol Frame Peer)
    (state : State)
    (peer : Peer) :
    Prop :=
  receiver.intact peer →
    sender.sent state =
      format.encodeAll (receiver.handled peer) ++ receiver.ahead peer

section Delivers

variable {format : FrameFormat Symbol Frame}
variable {sender : Party Symbol Frame State}
variable {receiver : Party Symbol Frame Peer}

/-- What is written is heard. -/
theorem Delivers.send
    {state state' : State}
    {peer peer' : Peer}
    {symbols : List Symbol}
    (delivers : Delivers format sender receiver state peer)
    (written : sender.sent state' = sender.sent state ++ symbols)
    (hears : receiver.Hears symbols peer peer') :
    Delivers format sender receiver state' peer' := by
  intro intact
  rw [written, delivers (hears.intact intact), hears.handled, hears.ahead,
    List.append_assoc]

/-- What is taken off the stream has been handled. -/
theorem Delivers.take
    {state : State}
    {peer peer' : Peer}
    (delivers : Delivers format sender receiver state peer)
    (steps : receiver.Steps format peer peer') :
    Delivers format sender receiver state peer' := by
  intro intact
  obtain ⟨frames, handled, ahead⟩ := steps.takes intact
  rw [delivers (steps.intact intact), handled, ahead,
    FrameFormat.encodeAll_append, List.append_assoc]

/-- The receiver has handled the first frames of what was written. -/
theorem Delivers.handled_prefix
    {state : State}
    {peer : Peer}
    (delivers : Delivers format sender receiver state peer)
    (intact : receiver.intact peer)
    {frames : List Frame}
    (written : sender.sent state = format.encodeAll frames) :
    receiver.handled peer <+: frames := by
  obtain ⟨remaining, shape, _⟩ := FrameFormat.encodeAll_eq_append
    (written.symm.trans (delivers intact))
  exact ⟨remaining, shape.symm⟩

end Delivers

/-! ## Turns in any order -/

variable (format : FrameFormat Symbol Frame)
variable (left : Party Symbol Frame State)
variable (right : Party Symbol Frame Peer)

/-- One of the parties makes a step, and the other one hears what it writes. -/
inductive Turn : State × Peer → State × Peer → Prop where
  | left
      {state state' : State}
      {peer peer' : Peer}
      {symbols : List Symbol}
      (steps : left.Steps format state state')
      (written : left.sent state' = left.sent state ++ symbols)
      (hears : right.Hears symbols peer peer') :
      Turn (state, peer) (state', peer')
  | right
      {state state' : State}
      {peer peer' : Peer}
      {symbols : List Symbol}
      (steps : right.Steps format peer peer')
      (written : right.sent peer' = right.sent peer ++ symbols)
      (hears : left.Hears symbols state state') :
      Turn (state, peer) (state', peer')

/-- Both streams deliver what was written to them. -/
structure Joined (both : State × Peer) : Prop where
  toRight : Delivers format left right both.1 both.2
  toLeft : Delivers format right left both.2 both.1

/-- Parties that have neither written nor heard anything. -/
theorem Joined.start
    {state : State}
    {peer : Peer}
    (leftSilent : left.sent state = [])
    (rightSilent : right.sent peer = [])
    (leftFresh : left.handled state = [] ∧ left.ahead state = [])
    (rightFresh : right.handled peer = [] ∧ right.ahead peer = []) :
    Joined format left right (state, peer) where
  toRight := by
    intro _
    rw [leftSilent, rightFresh.1, rightFresh.2]
    rfl
  toLeft := by
    intro _
    rw [rightSilent, leftFresh.1, leftFresh.2]
    rfl

variable {format left right}

/-- No turn comes between the parties and what was written. -/
theorem Joined.turn
    {both both' : State × Peer}
    (joined : Joined format left right both)
    (turn : Turn format left right both both') :
    Joined format left right both' := by
  cases turn with
  | left steps written hears =>
      refine ⟨joined.toRight.send written hears, fun intact => ?_⟩
      rw [hears.sent]
      exact joined.toLeft.take steps intact
  | right steps written hears =>
      refine ⟨fun intact => ?_, joined.toLeft.send written hears⟩
      rw [hears.sent]
      exact joined.toRight.take steps intact

/-- Nor do any number of turns, in whatever order they are taken. -/
theorem Joined.turns
    {both both' : State × Peer}
    (joined : Joined format left right both)
    (turns : Relation.ReflTransGen (Turn format left right) both both') :
    Joined format left right both' := by
  induction turns with
  | refl =>
      exact joined
  | tail _ turn inductionHypothesis =>
      exact inductionHypothesis.turn turn

end Party
