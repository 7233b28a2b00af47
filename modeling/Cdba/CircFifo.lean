import Cdba.CircBuf

namespace Cdba

/-!
# The receive buffer as a bounded queue

In every state that calls of `circ_fill`, `circ_peak` and `circ_read` lead to,
a `struct circ_buf` stands for a queue of at most 16383 bytes, and each of the
three does to this queue what its name tells.  The calls of `read()` are
looked at one by one.
-/

/-! ## A first-in, first-out queue -/

/-- What is done to a queue. -/
inductive FifoEvent (α : Type) where
  /-- Items are put in at the end. -/
  | put (items : List α)
  /-- Items are looked at. -/
  | look (count : Nat)
  /-- Items are taken out at the front. -/
  | take (count : Nat)

/-- The queue after an event. -/
def FifoEvent.apply (queue : List α) : FifoEvent α → List α
  | .put items => queue ++ items
  | .look _ => queue
  | .take count => queue.drop count

/-- The queue after some events, from an empty one. -/
def fifoAfter (events : List (FifoEvent α)) : List α :=
  events.foldl FifoEvent.apply []

@[simp] theorem fifoAfter_append
    (events : List (FifoEvent α))
    (event : FifoEvent α) :
    fifoAfter (events ++ [event]) = event.apply (fifoAfter events) := by
  rw [fifoAfter, List.foldl_append]
  rfl

/-! ## The reads of `circ_fill` -/

/-- A call `read(fd, circ->buf + offset, count)` and its result. -/
structure ReadCall where
  offset : Nat
  count : Nat
  result : ReadResult

/-- The bytes that a call of `read()` has returned. -/
def ReadCall.bytes (call : ReadCall) : List UInt8 :=
  match call.result with
  | .data bytes => bytes
  | _ => []

/-- The calls that the loop of `circ_fill` makes. -/
def circFillReads :
    List ReadChoice →
    Descriptor →
    CircBuf →
    List ReadCall
  | [], _, circ =>
      if circSpaceToEnd circ = 0 then
        []
      else
        [⟨circ.head, circSpaceToEnd circ, .error .eagain⟩]
  | choice :: script, fd, circ =>
      let space := circSpaceToEnd circ
      if space = 0 then
        []
      else
        let (result, fd) := fd.read choice space
        ⟨circ.head, space, result⟩ ::
          match result with
          | .data bytes =>
              if bytes.length = space then
                []
              else
                circFillReads script fd (circ.push bytes)
          | _ => []

/-- The calls of `read()` in `circ_fill`. -/
def Input.reads (input : Input) (circ : CircBuf) : List ReadCall :=
  circFillReads input.script input.fd circ

/-- A `read()` can return any bytes, up to the number requested. -/
theorem Descriptor.read_deliver
    {bytes : List UInt8}
    (some_bytes : bytes ≠ [])
    {count : Nat}
    (requested : bytes.length ≤ count)
    (rest : List UInt8)
    (closed : Bool) :
    Descriptor.read ⟨bytes ++ rest, closed⟩
        (.deliver (bytes.length - 1)) count =
      (.data bytes, ⟨rest, closed⟩) := by
  have positive := List.length_pos_iff.mpr some_bytes
  have all : min (bytes.length - 1 + 1) count = bytes.length := by
    omega
  have front : (bytes ++ rest).take bytes.length = bytes :=
    List.take_left
  have back : (bytes ++ rest).drop bytes.length = rest :=
    List.drop_left
  simp only [Descriptor.read]
  rw [all, front, if_neg some_bytes, back]

/-! ## What a fill does -/

/-- There is space up to the end of the array whenever there is any. -/
theorem circSpaceToEnd_le
    (circ : CircBuf) :
    circSpaceToEnd circ ≤ circSpace circ ∧
      circ.head + circSpaceToEnd circ ≤ circBufSize := by
  have headLt := circ.head_lt
  unfold circSpaceToEnd
  omega

theorem circSpace_push
    {circ : CircBuf}
    {bytes : List UInt8}
    (fits : bytes.length ≤ circSpaceToEnd circ) :
    circSpace (circ.push bytes) + bytes.length = circSpace circ := by
  have before := circAvail_add_circSpace circ
  have after := circAvail_add_circSpace (circ.push bytes)
  have grown := congrArg List.length (contents_push fits)
  rw [List.length_append, length_contents, length_contents] at grown
  omega

/-- A queued byte and the cell it lies in. -/
theorem getElem?_contents
    (circ : CircBuf)
    {offset : Nat}
    (queued : offset < circAvail circ) :
    circ.contents[offset]? =
      some (circ.buf ((circ.tail + offset) % circBufSize)) := by
  rw [CircBuf.contents, RingWindow.window, List.getElem?_map,
    List.getElem?_range queued]
  rfl

/-- The range that the head asks for holds no queued byte. -/
theorem range_free
    (circ : CircBuf)
    {offset : Nat}
    (queued : offset < circAvail circ) :
    (circ.tail + offset) % circBufSize < circ.head ∨
      circ.head + circSpaceToEnd circ ≤
        (circ.tail + offset) % circBufSize := by
  have headLt := circ.head_lt
  have tailLt := circ.tail_lt
  have total := circAvail_add_circSpace circ
  have headShape := head_eq circ
  have space := (circSpaceToEnd_le circ).1
  simp only [circBufSize] at headLt tailLt total headShape ⊢
  omega

/-- What is true of every call of `read()` in a fill. -/
structure ReadCall.Safe (circ : CircBuf) (call : ReadCall) : Prop where
  /-- Something is asked for. -/
  asks : 0 < call.count
  /-- The range lies in the array. -/
  inside : call.offset + call.count ≤ circBufSize
  /-- No byte that was queued before the fill lies in the range. -/
  free :
    ∀ offset, offset < circAvail circ →
      (circ.tail + offset) % circBufSize < call.offset ∨
        call.offset + call.count ≤ (circ.tail + offset) % circBufSize

theorem ReadCall.safe_first
    {circ : CircBuf}
    (space : circSpaceToEnd circ ≠ 0)
    (result : ReadResult) :
    ReadCall.Safe circ ⟨circ.head, circSpaceToEnd circ, result⟩ where
  asks := Nat.pos_of_ne_zero space
  inside := (circSpaceToEnd_le circ).2
  free := fun _ queued => range_free circ queued

/-- A fill that makes one call only. -/
theorem ReadCall.safe_only
    {circ : CircBuf}
    (space : circSpaceToEnd circ ≠ 0)
    (result : ReadResult) :
    let reads := [(⟨circ.head, circSpaceToEnd circ, result⟩ : ReadCall)]
    reads.length ≤ circSpace circ ∧
      ∀ call ∈ reads, ReadCall.Safe circ call := by
  have enough := (circSpaceToEnd_le circ).1
  constructor
  · rw [List.length_singleton]
    omega
  · intro call isOnly
    rw [List.mem_singleton.mp isOnly]
    exact ReadCall.safe_first space result

/-- What was queued is still queued after a `read()`. -/
theorem ReadCall.Safe.of_push
    {circ : CircBuf}
    {bytes : List UInt8}
    (fits : bytes.length ≤ circSpaceToEnd circ)
    {call : ReadCall}
    (safe : ReadCall.Safe (circ.push bytes) call) :
    ReadCall.Safe circ call where
  asks := safe.asks
  inside := safe.inside
  free := by
    intro offset queued
    have grown := circSpace_push fits
    have before := circAvail_add_circSpace circ
    have after := circAvail_add_circSpace (circ.push bytes)
    exact safe.free offset (by omega)

/-- The loop of `circ_fill`, with the reads it makes. -/
theorem circFillLoop_reads
    (script : List ReadChoice)
    (fd : Descriptor)
    (circ : CircBuf) :
    let reads := circFillReads script fd circ
    let filled := (circFillLoop script fd circ).2.1
    filled.contents = circ.contents ++ reads.flatMap ReadCall.bytes ∧
      filled.tail = circ.tail ∧
      reads.length ≤ circSpace circ ∧
      ∀ call ∈ reads, ReadCall.Safe circ call := by
  induction script generalizing fd circ with
  | nil =>
      rw [circFillReads, circFillLoop]
      by_cases full : circSpaceToEnd circ = 0
      · rw [if_pos full]
        exact ⟨(List.append_nil _).symm, rfl, Nat.zero_le _, by simp⟩
      · rw [if_neg full]
        exact ⟨(List.append_nil _).symm, rfl, ReadCall.safe_only full _⟩
  | cons choice script inductionHypothesis =>
      rw [circFillReads, circFillLoop]
      dsimp only
      by_cases full : circSpaceToEnd circ = 0
      · rw [if_pos full, if_pos full]
        exact ⟨(List.append_nil _).symm, rfl, Nat.zero_le _, by simp⟩
      · rw [if_neg full, if_neg full]
        cases answer : fd.read choice (circSpaceToEnd circ) with
        | mk result fd =>
          have only := ReadCall.safe_only full result
          cases result with
          | eof =>
              exact ⟨(List.append_nil _).symm, rfl, only⟩
          | error errno =>
              exact ⟨(List.append_nil _).symm, rfl, only⟩
          | data bytes =>
              obtain ⟨some_bytes, fits, _, _⟩ := Descriptor.read_data answer
              have positive := List.length_pos_iff.mpr some_bytes
              have left := circSpace_push fits
              dsimp only
              by_cases whole : bytes.length = circSpaceToEnd circ
              · rw [if_pos whole, if_pos whole]
                refine ⟨?_, rfl, only⟩
                rw [contents_push fits]
                simp [ReadCall.bytes]
              · rw [if_neg whole, if_neg whole]
                obtain ⟨stored, sameTail, few, safe⟩ :=
                  inductionHypothesis fd (circ.push bytes)
                refine ⟨?_, sameTail, ?_, ?_⟩
                · rw [stored, contents_push fits, List.flatMap_cons,
                    List.append_assoc]
                  rfl
                · rw [List.length_cons]
                  omega
                · intro call isCall
                  rcases List.mem_cons.mp isCall with rfl | later
                  · exact ReadCall.safe_first full _
                  · exact (safe call later).of_push fits

/-- What the kernel may answer to the reads of a fill. -/
inductive FillAnswers : CircBuf → List ReadResult → Prop where
  | noSpace
      {circ : CircBuf}
      (full : circSpaceToEnd circ = 0) :
      FillAnswers circ []
  | stop
      {circ : CircBuf}
      (space : circSpaceToEnd circ ≠ 0)
      {result : ReadResult}
      (noData : result ∈ [.eof, .error .eagain, .error .other]) :
      FillAnswers circ [result]
  | all
      {circ : CircBuf}
      {bytes : List UInt8}
      (some_bytes : bytes ≠ [])
      (whole : bytes.length = circSpaceToEnd circ) :
      FillAnswers circ [.data bytes]
  | short
      {circ : CircBuf}
      {bytes : List UInt8}
      {results : List ReadResult}
      (some_bytes : bytes ≠ [])
      (less : bytes.length < circSpaceToEnd circ)
      (later : FillAnswers (circ.push bytes) results) :
      FillAnswers circ (.data bytes :: results)

/-- Each of them is the answer of some stream, read in some way. -/
theorem FillAnswers.exists_input
    {circ : CircBuf}
    {results : List ReadResult}
    (answers : FillAnswers circ results) :
    ∃ input : Input, (input.reads circ).map ReadCall.result = results := by
  suffices withEnd : ∃ script unread,
      (circFillReads script ⟨unread, true⟩ circ).map ReadCall.result =
        results by
    obtain ⟨script, unread, same⟩ := withEnd
    exact ⟨⟨⟨unread, true⟩, script⟩, same⟩
  induction answers with
  | noSpace full =>
      refine ⟨[], [], ?_⟩
      rw [circFillReads, if_pos full]
      rfl
  | stop space noData =>
      simp only [List.mem_cons, List.not_mem_nil, or_false] at noData
      rcases noData with rfl | rfl | rfl
      · refine ⟨[.hangUp], [], ?_⟩
        rw [circFillReads]
        dsimp only
        rw [if_neg space]
        rfl
      · refine ⟨[.wouldBlock], [], ?_⟩
        rw [circFillReads]
        dsimp only
        rw [if_neg space]
        rfl
      · refine ⟨[.fail], [], ?_⟩
        rw [circFillReads]
        dsimp only
        rw [if_neg space]
        rfl
  | @all circ bytes some_bytes whole =>
      have positive := List.length_pos_iff.mpr some_bytes
      refine ⟨[.deliver (bytes.length - 1)], bytes ++ [], ?_⟩
      rw [circFillReads]
      dsimp only
      rw [if_neg (by omega),
        Descriptor.read_deliver some_bytes (Nat.le_of_eq whole)]
      dsimp only
      rw [if_pos whole]
      rfl
  | @short circ bytes results some_bytes less later inductionHypothesis =>
      obtain ⟨script, unread, same⟩ := inductionHypothesis
      refine ⟨.deliver (bytes.length - 1) :: script, bytes ++ unread, ?_⟩
      rw [circFillReads]
      dsimp only
      rw [if_neg (Nat.ne_of_gt (Nat.zero_lt_of_lt less)),
        Descriptor.read_deliver some_bytes (Nat.le_of_lt less)]
      dsimp only
      rw [if_neg (Nat.ne_of_lt less), List.map_cons, same]

/-! ## Runs -/

/--
The buffer after calls of the three functions, starting zeroed, with what they
mean for the queue.  `circ_peak` does not write to the buffer.
-/
inductive CircReaches : List (FifoEvent UInt8) → CircBuf → Prop where
  | zeroed : CircReaches [] .empty
  | fill
      {events : List (FifoEvent UInt8)}
      {circ : CircBuf}
      (reached : CircReaches events circ)
      (input : Input) :
      CircReaches
        (events ++ [.put ((input.reads circ).flatMap ReadCall.bytes)])
        (circFill input circ).2.1
  | peak
      {events : List (FifoEvent UInt8)}
      {circ : CircBuf}
      (reached : CircReaches events circ)
      (len : Nat) :
      CircReaches (events ++ [.look len]) circ
  | read
      {events : List (FifoEvent UInt8)}
      {circ : CircBuf}
      (reached : CircReaches events circ)
      {len : Nat}
      (available : len ≤ circAvail circ) :
      CircReaches (events ++ [.take len]) (circRead circ len).2

/-- What a call of `circ_fill` does to the buffer and to its queue. -/
structure FillsFifo
    (circ : CircBuf)
    (queue : List UInt8)
    (input : Input) :
    Prop where
  stores :
    (circFill input circ).2.1.contents =
      queue ++ (input.reads circ).flatMap ReadCall.bytes
  keeps :
    (circFill input circ).2.1.tail = circ.tail ∧
      ∀ offset, offset < queue.length →
        (circFill input circ).2.1.buf
            ((circ.tail + offset) % circBufSize) =
          circ.buf ((circ.tail + offset) % circBufSize)
  inside :
    ∀ call ∈ input.reads circ,
      0 < call.count ∧ call.offset + call.count ≤ circBufSize
  free :
    ∀ call ∈ input.reads circ, ∀ offset, offset < queue.length →
      (circ.tail + offset) % circBufSize < call.offset ∨
        call.offset + call.count ≤ (circ.tail + offset) % circBufSize
  bounded : (input.reads circ).length ≤ 16383

/-- A buffer stands for a queue, and the three functions do what they should. -/
structure RefinesFifo
    (circ : CircBuf)
    (queue : List UInt8) :
    Prop where
  head : circ.head < 16384
  tail : circ.tail < 16384
  contents : circ.contents = queue
  avail : circAvail circ = queue.length
  total : circAvail circ + circSpace circ = 16383
  fill : ∀ input, FillsFifo circ queue input
  peak :
    ∀ len,
      (len ≤ queue.length → circPeak circ len = (len, queue.take len)) ∧
        (queue.length < len → (circPeak circ len).1 = 0)
  read :
    ∀ len, len ≤ queue.length →
      (circRead circ len).1 = circPeak circ len ∧
        (circRead circ len).2.contents = queue.drop len

/-- What stays in a buffer lies in the same cells. -/
theorem buf_eq_of_contents
    {circ filled : CircBuf}
    {more : List UInt8}
    (appended : filled.contents = circ.contents ++ more)
    (sameTail : filled.tail = circ.tail)
    {offset : Nat}
    (queued : offset < circAvail circ) :
    filled.buf ((circ.tail + offset) % circBufSize) =
      circ.buf ((circ.tail + offset) % circBufSize) := by
  have grown := congrArg List.length appended
  rw [List.length_append, length_contents, length_contents] at grown
  have stillQueued : offset < circAvail filled := by
    omega
  have before := getElem?_contents circ queued
  have after := getElem?_contents filled stillQueued
  rw [appended, List.getElem?_append_left
    (by rwa [length_contents]), before, sameTail] at after
  exact (Option.some.inj after).symm

theorem circBuf_fills
    (circ : CircBuf)
    (input : Input) :
    FillsFifo circ circ.contents input := by
  obtain ⟨stored, sameTail, few, safe⟩ :=
    circFillLoop_reads input.script input.fd circ
  have total := circAvail_add_circSpace circ
  refine ⟨stored, ⟨sameTail, ?_⟩, ?_, ?_, ?_⟩
  · intro offset queued
    rw [length_contents] at queued
    exact buf_eq_of_contents stored sameTail queued
  · intro call isCall
    exact ⟨(safe call isCall).asks, (safe call isCall).inside⟩
  · intro call isCall offset queued
    rw [length_contents] at queued
    exact (safe call isCall).free offset queued
  · rw [circBufSize] at total
    exact Nat.le_trans few (by omega)

/-- Every buffer is a queue. -/
theorem circBuf_refines
    (circ : CircBuf) :
    RefinesFifo circ circ.contents where
  head := circ.head_lt
  tail := circ.tail_lt
  contents := rfl
  avail := (length_contents circ).symm
  total := circAvail_add_circSpace circ
  fill := circBuf_fills circ
  peak := by
    intro len
    rw [length_contents]
    exact ⟨circPeak_available, circPeak_short⟩
  read := by
    intro len available
    rw [length_contents] at available
    obtain ⟨copied, left⟩ := circRead_available available
    exact ⟨copied.trans (circPeak_available available).symm, left⟩

/--
Whatever is called on a zeroed buffer, it stands for the queue that the same
calls leave behind.
-/
theorem circReaches_refines
    {events : List (FifoEvent UInt8)}
    {circ : CircBuf}
    (reached : CircReaches events circ) :
    RefinesFifo circ (fifoAfter events) := by
  have contents : circ.contents = fifoAfter events := by
    induction reached with
    | zeroed => exact contents_empty
    | fill reached input inductionHypothesis =>
        rw [fifoAfter_append, ← inductionHypothesis]
        exact (circBuf_fills _ input).stores
    | peak reached len inductionHypothesis =>
        rw [fifoAfter_append, ← inductionHypothesis]
        rfl
    | read reached available inductionHypothesis =>
        rw [fifoAfter_append, ← inductionHypothesis]
        exact (circRead_available available).2
  rw [← contents]
  exact circBuf_refines circ

/-- Three bytes arrive, two are looked at, and then read. -/
def threeBytes : Input where
  fd := ⟨[10, 20, 30], false⟩
  script := [.deliver 2]

theorem threeBytes_refines :
    ∃ circ,
      CircReaches
          [.put ((threeBytes.reads .empty).flatMap ReadCall.bytes),
            .look 2, .take 2] circ ∧
        RefinesFifo circ [30] := by
  have filled := CircReaches.zeroed.fill threeBytes
  have contents : (circFill threeBytes .empty).2.1.contents =
      [10, 20, 30] := by
    rw [(circBuf_fills .empty threeBytes).stores, contents_empty]
    decide
  have available : 2 ≤ circAvail (circFill threeBytes .empty).2.1 := by
    rw [← length_contents, contents]
    decide
  have reached := (filled.peak 2).read available
  exact ⟨_, reached, circReaches_refines reached⟩

end Cdba
