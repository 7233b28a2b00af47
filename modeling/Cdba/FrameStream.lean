/-!
# Self-delimiting frames in a byte stream

A *format* encodes frames as lists of symbols such that the first complete
frame of any stream can be split off without looking at what follows.  This
module develops what a receiver relies on: a stream parses in at most one way
into complete frames and an incomplete tail, and what has been parsed off the
front of a stream of encoded frames is a prefix of the frames that were sent.
-/

/-- A format whose complete frames can be split off the front of a stream. -/
structure FrameFormat (Symbol Frame : Type) where
  encode : Frame → List Symbol
  next? : List Symbol → Option (Frame × List Symbol)
  encode_ne_nil : ∀ frame, encode frame ≠ []
  next?_encode_append :
    ∀ frame rest, next? (encode frame ++ rest) = some (frame, rest)
  eq_encode_append :
    ∀ {stream frame rest},
      next? stream = some (frame, rest) →
      stream = encode frame ++ rest

namespace FrameFormat

variable {Symbol Frame : Type}

/-- The concatenated encodings of a list of frames. -/
def encodeAll
    (format : FrameFormat Symbol Frame)
    (frames : List Frame) :
    List Symbol :=
  frames.flatMap format.encode

variable {format : FrameFormat Symbol Frame}

@[simp] theorem encodeAll_nil :
    format.encodeAll [] = [] :=
  rfl

@[simp] theorem encodeAll_cons
    (frame : Frame)
    (rest : List Frame) :
    format.encodeAll (frame :: rest) =
      format.encode frame ++ format.encodeAll rest := by
  simp [encodeAll]

@[simp] theorem encodeAll_append
    (first second : List Frame) :
    format.encodeAll (first ++ second) =
      format.encodeAll first ++ format.encodeAll second := by
  simp [encodeAll]

/-- A stream without a single symbol holds no complete frame. -/
theorem next?_nil :
    format.next? [] = none := by
  cases found : format.next? [] with
  | none =>
      rfl
  | some split =>
      have shape := format.eq_encode_append found
      have empty : format.encode split.1 = [] :=
        (List.append_eq_nil_iff.mp shape.symm).1
      exact (format.encode_ne_nil split.1 empty).elim

/-- Encoded frames without a complete frame at the front are no frames. -/
theorem eq_nil_of_next?_encodeAll
    {frames : List Frame}
    {rest : List Symbol}
    (incomplete :
      format.next? (format.encodeAll frames ++ rest) = none) :
    frames = [] := by
  cases frames with
  | nil =>
      rfl
  | cons frame later =>
      rw [encodeAll_cons, List.append_assoc,
        format.next?_encode_append] at incomplete
      contradiction

/--
Two parses of one stream agree on their common part: frames split off the
front of a stream of encoded frames are the first frames that were encoded,
and what is left over encodes the remaining ones.
-/
theorem encodeAll_eq_append
    {frames parsed : List Frame}
    {rest : List Symbol}
    (sameStream :
      format.encodeAll frames = format.encodeAll parsed ++ rest) :
    ∃ remaining,
      frames = parsed ++ remaining ∧
        rest = format.encodeAll remaining := by
  induction parsed generalizing frames with
  | nil =>
      exact ⟨frames, rfl, by simpa using sameStream.symm⟩
  | cons frame later inductionHypothesis =>
      cases frames with
      | nil =>
          have empty : format.encode frame = [] := by
            have whole := sameStream.symm
            simp only [encodeAll_cons, List.append_assoc,
              encodeAll_nil, List.append_eq_nil_iff] at whole
            exact whole.1
          exact (format.encode_ne_nil frame empty).elim
      | cons first others =>
          -- Both sides start with a complete frame, so it is the same frame.
          have sameSplit :
              format.next? (format.encodeAll (first :: others)) =
                format.next?
                  (format.encodeAll (frame :: later) ++ rest) :=
            congrArg format.next? sameStream
          simp only [encodeAll_cons, List.append_assoc,
            format.next?_encode_append, Option.some.injEq,
            Prod.mk.injEq] at sameSplit
          obtain ⟨sameFrame, sameRest⟩ := sameSplit
          subst sameFrame
          obtain ⟨remaining, framesShape, restShape⟩ :=
            inductionHypothesis sameRest
          exact ⟨remaining, by rw [framesShape]; rfl, restShape⟩

/-- A stream of encoded frames that was consumed completely was parsed exactly. -/
theorem eq_of_encodeAll_eq
    {frames parsed : List Frame}
    {rest : List Symbol}
    (sameStream :
      format.encodeAll frames = format.encodeAll parsed ++ rest)
    (incomplete : format.next? rest = none) :
    frames = parsed ∧ rest = [] := by
  obtain ⟨remaining, framesShape, restShape⟩ :=
    encodeAll_eq_append sameStream
  have noneLeft : remaining = [] := by
    have unfinished :
        format.next? (format.encodeAll remaining ++ []) = none := by
      rw [List.append_nil, ← restShape]
      exact incomplete
    exact eq_nil_of_next?_encodeAll unfinished
  subst noneLeft
  exact ⟨by simpa using framesShape, by simpa using restShape⟩

/-- The frames at the front of a stream, as far as they are complete. -/
def parseLoop
    (format : FrameFormat Symbol Frame) :
    Nat → List Symbol → List Frame
  | 0, _ => []
  | fuel + 1, stream =>
      match format.next? stream with
      | none => []
      | some (frame, rest) => frame :: format.parseLoop fuel rest

/-- Every frame has a symbol, so there are at most as many as symbols. -/
def parse
    (format : FrameFormat Symbol Frame)
    (stream : List Symbol) :
    List Frame :=
  format.parseLoop stream.length stream

theorem parseLoop_encodeAll
    (frames : List Frame)
    (fuel : Nat)
    (enough : frames.length ≤ fuel) :
    format.parseLoop fuel (format.encodeAll frames) = frames := by
  induction frames generalizing fuel with
  | nil =>
      cases fuel with
      | zero => rfl
      | succ fuel => rw [parseLoop, encodeAll_nil, next?_nil]
  | cons frame rest inductionHypothesis =>
      cases fuel with
      | zero => simp at enough
      | succ fuel =>
          rw [parseLoop, encodeAll_cons, format.next?_encode_append]
          simp only [List.cons.injEq, true_and]
          exact inductionHypothesis fuel (Nat.le_of_succ_le_succ enough)

theorem length_le_encodeAll
    (frames : List Frame) :
    frames.length ≤ (format.encodeAll frames).length := by
  induction frames with
  | nil =>
      exact Nat.zero_le _
  | cons frame rest inductionHypothesis =>
      have nonempty := List.length_pos_iff.mpr (format.encode_ne_nil frame)
      rw [encodeAll_cons, List.length_append, List.length_cons]
      omega

/-- What was encoded is parsed back. -/
@[simp] theorem parse_encodeAll
    (frames : List Frame) :
    format.parse (format.encodeAll frames) = frames :=
  parseLoop_encodeAll frames _ (length_le_encodeAll frames)

/-- An incomplete tail is shorter than the frame it is the beginning of. -/
theorem length_lt_encode
    {frame : Frame}
    {tail missing later : List Symbol}
    (sameStream : format.encode frame ++ later = tail ++ missing)
    (incomplete : format.next? tail = none) :
    tail.length < (format.encode frame).length := by
  rcases Nat.lt_or_ge tail.length (format.encode frame).length with
      shorter | atLeast
  · exact shorter
  · obtain ⟨beyond, tailShape⟩ : format.encode frame <+: tail :=
      List.prefix_of_prefix_length_le
        ⟨later, sameStream⟩ ⟨missing, rfl⟩ atLeast
    rw [← tailShape, format.next?_encode_append] at incomplete
    contradiction

/--
The complete frames of a partly received stream: if the received part parses
into `parsed` and an incomplete tail, then exactly the frames in `parsed` have
arrived completely.
-/
theorem received_exactly
    {frames parsed : List Frame}
    {tail missing : List Symbol}
    (sameStream :
      format.encodeAll frames =
        format.encodeAll parsed ++ tail ++ missing)
    (incomplete : format.next? tail = none) :
    ∃ remaining,
      frames = parsed ++ remaining ∧
        ∀ frame later,
          remaining = frame :: later →
          tail.length < (format.encode frame).length := by
  rw [List.append_assoc] at sameStream
  obtain ⟨remaining, framesShape, restShape⟩ :=
    encodeAll_eq_append sameStream
  refine ⟨remaining, framesShape, ?_⟩
  intro frame later remainingShape
  subst remainingShape
  exact length_lt_encode
    (by simpa using restShape.symm) incomplete

end FrameFormat
