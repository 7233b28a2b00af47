import Cdba.RingWindow
import Mathlib.Algebra.GroupWithZero.Nat

namespace Cdba

/-!
# The receive buffer

`circ_buf.c` over a non-blocking descriptor.  The descriptor is modelled by
the bytes its peer has written and not yet had read, and by a script of
choices that decides how the kernel cuts them into `read()` results; theorems
quantify over every script.  The abstract value of a buffer is the queue of
bytes between its tail and its head.
-/

/-! ## Non-blocking descriptors -/

/-- How the kernel answers one `read()`. -/
inductive ReadChoice where
  /-- Deliver `extra + 1` bytes, or as many as requested and available. -/
  | deliver (extra : Nat)
  /-- Nothing has arrived yet. -/
  | wouldBlock
  /-- Report the end of the stream once it has been read to its end. -/
  | hangUp
  /-- Fail for a reason other than having to wait. -/
  | fail
  deriving DecidableEq, Repr

/-- The values of `errno` the program distinguishes. -/
inductive Errno where
  | eagain
  | epipe
  | other
  deriving DecidableEq, Repr

/-- The reading end of a stream: the bytes on their way and the writer's state. -/
structure Descriptor where
  unread : List UInt8
  closed : Bool
  deriving DecidableEq

/-- A descriptor together with the kernel's choices for its next reads. -/
structure Input where
  fd : Descriptor
  script : List ReadChoice
  deriving DecidableEq

/-- What `read()` returns: bytes, 0 at the end of the stream, or -1. -/
inductive ReadResult where
  | data (bytes : List UInt8)
  | eof
  | error (errno : Errno)
  deriving DecidableEq

/-- `read(fd, buf, count)` under one choice of the kernel. -/
def Descriptor.read
    (fd : Descriptor)
    (choice : ReadChoice)
    (count : Nat) :
    ReadResult × Descriptor :=
  match choice with
  | .deliver extra =>
      let bytes := fd.unread.take (min (extra + 1) count)
      if bytes = [] then
        (.error .eagain, fd)
      else
        (.data bytes, { fd with unread := fd.unread.drop bytes.length })
  | .wouldBlock => (.error .eagain, fd)
  | .hangUp =>
      if fd.unread = [] ∧ fd.closed = true then
        (.eof, fd)
      else
        (.error .eagain, fd)
  | .fail => (.error .other, fd)

/-- Bytes come off the front of the stream, in order. -/
theorem Descriptor.read_data
    {fd fd' : Descriptor}
    {choice : ReadChoice}
    {count : Nat}
    {bytes : List UInt8}
    (result : fd.read choice count = (.data bytes, fd')) :
    bytes ≠ [] ∧
      bytes.length ≤ count ∧
      fd.unread = bytes ++ fd'.unread ∧
      fd'.closed = fd.closed := by
  cases choice with
  | deliver extra =>
      simp only [Descriptor.read] at result
      split at result
      · simp at result
      · rename_i nonempty
        simp only [Prod.mk.injEq, ReadResult.data.injEq] at result
        obtain ⟨rfl, rfl⟩ := result
        refine ⟨nonempty, ?_, ?_, rfl⟩
        · simp only [List.length_take]
          omega
        · conv => lhs; rw [← List.take_append_drop
            (min (extra + 1) count) fd.unread]
          congr 1
          simp only [List.length_take]
          rcases Nat.le_total (min (extra + 1) count)
              fd.unread.length with within | beyond
          · rw [Nat.min_eq_left within]
          · rw [Nat.min_eq_right beyond, List.drop_length,
              List.drop_eq_nil_of_le beyond]
  | wouldBlock =>
      simp [Descriptor.read] at result
  | hangUp =>
      simp only [Descriptor.read] at result
      split at result <;> simp at result
  | fail =>
      simp [Descriptor.read] at result

/-- A `read()` that returns no bytes leaves the stream as it was. -/
theorem Descriptor.read_unchanged
    (fd : Descriptor)
    (choice : ReadChoice)
    (count : Nat)
    (noData : ∀ bytes, (fd.read choice count).1 ≠ .data bytes) :
    (fd.read choice count).2 = fd := by
  cases choice with
  | deliver extra =>
      simp only [Descriptor.read] at noData ⊢
      split
      · rfl
      · rename_i nonempty
        simp [nonempty] at noData
  | wouldBlock =>
      rfl
  | hangUp =>
      simp only [Descriptor.read]
      split <;> rfl
  | fail =>
      rfl

/-! ## `circ_buf.h` -/

/-- `CIRC_BUF_SIZE` -/
def circBufSize : Nat :=
  16384

/-- Subtraction of two `size_t` values, modulo `2 ^ 64`. -/
def sizeSub (left right : Nat) : Nat :=
  if right ≤ left then left - right else left + 2 ^ 64 - right

/-- `struct circ_buf`; both indices stay inside the array. -/
structure CircBuf where
  buf : Nat → UInt8
  head : Nat
  tail : Nat
  head_lt : head < circBufSize
  tail_lt : tail < circBufSize

/-- A zero-initialised `struct circ_buf`. -/
def CircBuf.empty : CircBuf where
  buf := fun _ => 0
  head := 0
  tail := 0
  head_lt := by decide
  tail_lt := by decide

/-- `CIRC_AVAIL(circ)` -/
def circAvail (circ : CircBuf) : Nat :=
  sizeSub circ.head circ.tail &&& (circBufSize - 1)

/-- `CIRC_SPACE(circ)` -/
def circSpace (circ : CircBuf) : Nat :=
  sizeSub (sizeSub circ.tail circ.head) 1 &&& (circBufSize - 1)

/-- `CIRC_SPACE_TO_END(circ)` -/
def circSpaceToEnd (circ : CircBuf) : Nat :=
  min (circSpace circ) (circBufSize - circ.head)

/-- Masking with `CIRC_BUF_SIZE - 1` reduces modulo the size of the array. -/
theorem mask_eq_mod
    (index : Nat) :
    index &&& (circBufSize - 1) = index % circBufSize :=
  Nat.and_two_pow_sub_one_eq_mod index 14

theorem circAvail_eq
    (circ : CircBuf) :
    circAvail circ =
      (circ.head + circBufSize - circ.tail) % circBufSize := by
  have headLt := circ.head_lt
  have tailLt := circ.tail_lt
  rw [circAvail, mask_eq_mod]
  simp only [sizeSub, circBufSize] at headLt tailLt ⊢
  split <;> omega

/-- One slot of the array is never used. -/
theorem circAvail_add_circSpace
    (circ : CircBuf) :
    circAvail circ + circSpace circ = circBufSize - 1 := by
  have headLt := circ.head_lt
  have tailLt := circ.tail_lt
  rw [circAvail_eq, circSpace, mask_eq_mod]
  simp only [sizeSub, circBufSize] at headLt tailLt ⊢
  split <;> split <;> omega

/-- The head is where the window of queued bytes ends. -/
theorem head_eq
    (circ : CircBuf) :
    circ.head = (circ.tail + circAvail circ) % circBufSize := by
  have headLt := circ.head_lt
  have tailLt := circ.tail_lt
  rw [circAvail_eq]
  simp only [circBufSize] at headLt tailLt ⊢
  omega

theorem circAvail_eq_zero_iff
    (circ : CircBuf) :
    circAvail circ = 0 ↔ circ.tail = circ.head := by
  have headLt := circ.head_lt
  have tailLt := circ.tail_lt
  rw [circAvail_eq]
  simp only [circBufSize] at headLt tailLt ⊢
  omega

/-- `(index + count) & (CIRC_BUF_SIZE - 1)` -/
def advance (index count : Nat) : Nat :=
  (index + count) &&& (circBufSize - 1)

theorem advance_eq
    (index count : Nat) :
    advance index count = (index + count) % circBufSize :=
  mask_eq_mod _

theorem advance_lt
    (index count : Nat) :
    advance index count < circBufSize := by
  rw [advance_eq]
  exact Nat.mod_lt _ (by decide)

/-! ## The abstract queue -/

/-- The queued bytes: the cells from the tail up to the head. -/
def CircBuf.contents (circ : CircBuf) : List UInt8 :=
  RingWindow.window circ.buf circBufSize circ.tail (circAvail circ)

@[simp] theorem length_contents
    (circ : CircBuf) :
    circ.contents.length = circAvail circ :=
  RingWindow.length_window _ _ _ _

@[simp] theorem contents_empty :
    CircBuf.empty.contents = [] := by
  have noneAvailable : circAvail CircBuf.empty = 0 := by decide
  rw [CircBuf.contents, noneAvailable]
  rfl

/-! ## `circ_fill` -/

/-- Store the bytes of one `read()` at the head and move the head behind them. -/
def CircBuf.push (circ : CircBuf) (bytes : List UInt8) : CircBuf :=
  { circ with
    buf := RingWindow.store circ.buf circ.head bytes
    head := advance circ.head bytes.length
    head_lt := advance_lt _ _ }

/-- Bytes that fit before the end of the free space are appended to the queue. -/
theorem contents_push
    {circ : CircBuf}
    {bytes : List UInt8}
    (fits : bytes.length ≤ circSpaceToEnd circ) :
    (circ.push bytes).contents = circ.contents ++ bytes := by
  have capacity := circAvail_add_circSpace circ
  have headLt := circ.head_lt
  have tailLt := circ.tail_lt
  have headShape := head_eq circ
  simp only [circSpaceToEnd, Nat.le_min] at fits
  have grown :
      circAvail (circ.push bytes) = circAvail circ + bytes.length := by
    have pushedHead :
        (circ.push bytes).head =
          (circ.head + bytes.length) % circBufSize :=
      advance_eq _ _
    have sameTail : (circ.push bytes).tail = circ.tail := rfl
    rw [circAvail_eq (circ.push bytes), pushedHead, sameTail]
    simp only [circBufSize] at headLt tailLt headShape capacity ⊢
    omega
  have stored :
      (circ.push bytes).buf =
        RingWindow.store circ.buf
          ((circ.tail + circAvail circ) % circBufSize) bytes := by
    rw [← headShape]
    rfl
  unfold CircBuf.contents
  rw [grown, stored]
  apply RingWindow.window_store circ.buf tailLt
  · simp only [circBufSize] at capacity ⊢
    omega
  · rw [← headShape]
    omega

/-- The result of `circ_fill`: 0, or -1 with `errno` set. -/
inductive FillStatus where
  | done
  | failed (errno : Errno)
  deriving DecidableEq

/-- The `do ... while (n != space)` loop of `circ_fill`. -/
def circFillLoop :
    List ReadChoice →
    Descriptor →
    CircBuf →
    FillStatus × CircBuf × Input
  | [], fd, circ =>
      -- Nothing further arrives, so `read()` would block.
      (.failed .eagain, circ, ⟨fd, []⟩)
  | choice :: script, fd, circ =>
      let space := circSpaceToEnd circ
      if space = 0 then
        (.failed .eagain, circ, ⟨fd, choice :: script⟩)
      else
        match fd.read choice space with
        | (.eof, fd) => (.failed .epipe, circ, ⟨fd, script⟩)
        | (.error errno, fd) => (.failed errno, circ, ⟨fd, script⟩)
        | (.data bytes, fd) =>
            if bytes.length = space then
              (.done, circ.push bytes, ⟨fd, script⟩)
            else
              circFillLoop script fd (circ.push bytes)

/-- `circ_fill`: read until the request is met or the descriptor is depleted. -/
def circFill
    (input : Input)
    (circ : CircBuf) :
    FillStatus × CircBuf × Input :=
  circFillLoop input.script input.fd circ

/-- Every byte that leaves the descriptor is queued, in order. -/
theorem circFillLoop_contents
    (script : List ReadChoice)
    (fd : Descriptor)
    (circ : CircBuf) :
    (circFillLoop script fd circ).2.1.contents ++
        (circFillLoop script fd circ).2.2.fd.unread =
      circ.contents ++ fd.unread := by
  induction script generalizing fd circ with
  | nil =>
      rfl
  | cons choice script inductionHypothesis =>
      unfold circFillLoop
      by_cases full : circSpaceToEnd circ = 0
      · simp [full]
      · simp only [full, ↓reduceIte]
        split
        · rename_i fd' result
          have same := Descriptor.read_unchanged fd choice
            (circSpaceToEnd circ) (by simp [result])
          rw [result] at same
          simp only at same
          rw [same]
        · rename_i errno fd' result
          have same := Descriptor.read_unchanged fd choice
            (circSpaceToEnd circ) (by simp [result])
          rw [result] at same
          simp only at same
          rw [same]
        · rename_i bytes fd' result
          obtain ⟨_, fits, shape, _⟩ := Descriptor.read_data result
          have pushed :
              (circ.push bytes).contents ++ fd'.unread =
                circ.contents ++ fd.unread := by
            rw [contents_push fits, shape, List.append_assoc]
          split
          · exact pushed
          · rw [inductionHypothesis, pushed]

/-- `circ_fill` moves bytes from the descriptor to the queue and loses none. -/
theorem circFill_contents
    (input : Input)
    (circ : CircBuf) :
    (circFill input circ).2.1.contents ++
        (circFill input circ).2.2.fd.unread =
      circ.contents ++ input.fd.unread :=
  circFillLoop_contents input.script input.fd circ

/-- The writer keeps its end open, and no `read()` fails. -/
def Input.Connected (input : Input) : Prop :=
  input.fd.closed = false ∧ .fail ∉ input.script

/-- Over a connection that stays, a `read()` delivers data or has to wait. -/
theorem Descriptor.read_connected
    {fd : Descriptor}
    {choice : ReadChoice}
    {script : List ReadChoice}
    (connected : Input.Connected ⟨fd, choice :: script⟩)
    (count : Nat) :
    Input.Connected ⟨(fd.read choice count).2, script⟩ ∧
      ((fd.read choice count).1 = .error .eagain ∨
        ∃ bytes, (fd.read choice count).1 = .data bytes) := by
  obtain ⟨isOpen, noFailure⟩ := connected
  simp only [List.mem_cons, not_or] at noFailure
  cases choice with
  | deliver extra =>
      simp only [Descriptor.read]
      split
      · exact ⟨⟨isOpen, noFailure.2⟩, .inl rfl⟩
      · exact ⟨⟨isOpen, noFailure.2⟩, .inr ⟨_, rfl⟩⟩
  | wouldBlock =>
      exact ⟨⟨isOpen, noFailure.2⟩, .inl rfl⟩
  | hangUp =>
      simp only at isOpen
      have waits : fd.read .hangUp count = (.error .eagain, fd) := by
        simp [Descriptor.read, isOpen]
      rw [waits]
      exact ⟨⟨isOpen, noFailure.2⟩, .inl rfl⟩
  | fail =>
      exact absurd rfl noFailure.1

/-- Then `circ_fill` is never a reason to leave. -/
theorem circFillLoop_connected
    {script : List ReadChoice}
    {fd : Descriptor}
    (connected : Input.Connected ⟨fd, script⟩)
    (circ : CircBuf) :
    Input.Connected (circFillLoop script fd circ).2.2 ∧
      ((circFillLoop script fd circ).1 = .done ∨
        (circFillLoop script fd circ).1 = .failed .eagain) := by
  induction script generalizing fd circ with
  | nil =>
      exact ⟨connected, .inr rfl⟩
  | cons choice script inductionHypothesis =>
      obtain ⟨stays, result⟩ :=
        Descriptor.read_connected connected (circSpaceToEnd circ)
      unfold circFillLoop
      by_cases full : circSpaceToEnd circ = 0
      · simp only [full, ↓reduceIte]
        exact ⟨connected, .inr trivial⟩
      · simp only [full, ↓reduceIte]
        generalize fd.read choice (circSpaceToEnd circ) = answer
          at stays result ⊢
        obtain ⟨outcome, fd'⟩ := answer
        rcases result with rfl | ⟨bytes, rfl⟩
        · exact ⟨stays, .inr rfl⟩
        · dsimp only
          split
          · exact ⟨stays, .inl rfl⟩
          · exact inductionHypothesis stays _

/-! ## `circ_peak` and `circ_read` -/

/-- The `while (len--)` loop of `circ_peak`; `out` holds what was copied. -/
def circPeakLoop
    (circ : CircBuf) :
    Nat → Nat → List UInt8 → Nat × List UInt8
  | 0, _, out => (out.length, out)
  | len + 1, tail, out =>
      if tail = circ.head then
        (0, out)
      else
        circPeakLoop circ len (advance tail 1) (out ++ [circ.buf tail])

/-- `circ_peak`: copy `len` bytes without consuming them, or return 0. -/
def circPeak (circ : CircBuf) (len : Nat) : Nat × List UInt8 :=
  circPeakLoop circ len circ.tail []

/-- Move the tail over one byte. -/
def CircBuf.pop (circ : CircBuf) : CircBuf :=
  { circ with
    tail := advance circ.tail 1
    tail_lt := advance_lt _ _ }

/-- The `while (len--)` loop of `circ_read`. -/
def circReadLoop :
    Nat → CircBuf → List UInt8 → (Nat × List UInt8) × CircBuf
  | 0, circ, out => ((out.length, out), circ)
  | len + 1, circ, out =>
      if circ.tail = circ.head then
        ((0, out), circ)
      else
        circReadLoop len circ.pop (out ++ [circ.buf circ.tail])

/-- `circ_read`: copy and consume `len` bytes. -/
def circRead (circ : CircBuf) (len : Nat) : (Nat × List UInt8) × CircBuf :=
  circReadLoop len circ []

theorem circAvail_pop
    {circ : CircBuf}
    (nonempty : circ.tail ≠ circ.head) :
    circAvail circ.pop = circAvail circ - 1 := by
  have headLt := circ.head_lt
  have tailLt := circ.tail_lt
  have poppedTail : circ.pop.tail = (circ.tail + 1) % circBufSize :=
    advance_eq _ _
  have sameHead : circ.pop.head = circ.head := rfl
  rw [circAvail_eq, circAvail_eq, poppedTail, sameHead]
  simp only [circBufSize] at headLt tailLt ⊢
  omega

theorem circAvail_pos
    {circ : CircBuf}
    (nonempty : circ.tail ≠ circ.head) :
    0 < circAvail circ :=
  Nat.pos_of_ne_zero
    (mt (circAvail_eq_zero_iff circ).mp nonempty)

/-- Consuming one byte removes the first byte of the queue. -/
theorem contents_eq_cons
    {circ : CircBuf}
    (nonempty : circ.tail ≠ circ.head) :
    circ.contents = circ.buf circ.tail :: circ.pop.contents := by
  have shape : circAvail circ = circAvail circ - 1 + 1 :=
    (Nat.sub_add_cancel (circAvail_pos nonempty)).symm
  unfold CircBuf.contents
  rw [circAvail_pop nonempty, shape,
    RingWindow.window_succ circ.buf circ.tail_lt,
    Nat.add_sub_cancel]
  simp only [CircBuf.pop, advance_eq, RingWindow.next]

/-- `circ_read` returns and removes the front of the queue. -/
theorem circReadLoop_eq
    {len : Nat}
    {circ : CircBuf}
    (out : List UInt8)
    (available : len ≤ circAvail circ) :
    (circReadLoop len circ out).1 =
        (out.length + len, out ++ circ.contents.take len) ∧
      (circReadLoop len circ out).2.contents =
        circ.contents.drop len := by
  induction len generalizing circ out with
  | zero =>
      simp [circReadLoop]
  | succ len inductionHypothesis =>
      have nonempty : circ.tail ≠ circ.head := by
        intro same
        rw [(circAvail_eq_zero_iff circ).mpr same] at available
        exact Nat.not_succ_le_zero _ available
      have remaining : len ≤ circAvail circ.pop := by
        rw [circAvail_pop nonempty]
        exact Nat.le_sub_one_of_lt available
      obtain ⟨copied, left⟩ :=
        inductionHypothesis (out ++ [circ.buf circ.tail]) remaining
      simp only [circReadLoop, if_neg nonempty]
      refine ⟨?_, ?_⟩
      · rw [copied, contents_eq_cons nonempty, List.take_succ_cons,
          List.length_append, List.length_singleton, Nat.add_assoc,
          Nat.add_comm 1 len, List.append_assoc,
          List.singleton_append]
      · rw [left, contents_eq_cons nonempty, List.drop_succ_cons]

/-- `circ_read` of more bytes than are queued returns 0. -/
theorem circReadLoop_short
    {len : Nat}
    {circ : CircBuf}
    (out : List UInt8)
    (short : circAvail circ < len) :
    (circReadLoop len circ out).1.1 = 0 := by
  induction len generalizing circ out with
  | zero =>
      exact absurd short (Nat.not_lt_zero _)
  | succ len inductionHypothesis =>
      rw [circReadLoop]
      split
      · rfl
      · rename_i nonempty
        apply inductionHypothesis
        rw [circAvail_pop nonempty]
        exact Nat.sub_lt_right_of_lt_add
          (circAvail_pos nonempty) short

/-- The peek loop only looks at the array and at the head. -/
private theorem circPeakLoop_pop
    (circ : CircBuf)
    (len tail : Nat)
    (out : List UInt8) :
    circPeakLoop circ.pop len tail out =
      circPeakLoop circ len tail out := by
  induction len generalizing tail out with
  | zero =>
      rfl
  | succ len inductionHypothesis =>
      have sameHead : circ.pop.head = circ.head := rfl
      have sameCells : circ.pop.buf = circ.buf := rfl
      simp only [circPeakLoop, sameHead, sameCells]
      rw [inductionHypothesis]

/-- `circ_peak` copies what `circ_read` would return, without consuming it. -/
theorem circPeakLoop_eq
    (len : Nat)
    (circ : CircBuf)
    (out : List UInt8) :
    circPeakLoop circ len circ.tail out =
      (circReadLoop len circ out).1 := by
  induction len generalizing circ out with
  | zero =>
      rfl
  | succ len inductionHypothesis =>
      have poppedTail : circ.pop.tail = advance circ.tail 1 := rfl
      simp only [circPeakLoop, circReadLoop]
      split
      · rfl
      · rw [← inductionHypothesis, circPeakLoop_pop, poppedTail]

/-- `circ_read` with enough bytes queued returns and removes the front. -/
theorem circRead_available
    {len : Nat}
    {circ : CircBuf}
    (available : len ≤ circAvail circ) :
    (circRead circ len).1 = (len, circ.contents.take len) ∧
      (circRead circ len).2.contents = circ.contents.drop len := by
  obtain ⟨copied, left⟩ := circReadLoop_eq [] available
  refine ⟨?_, left⟩
  rw [circRead, copied]
  simp

/-- `circ_peak` with enough bytes queued returns the front. -/
theorem circPeak_available
    {len : Nat}
    {circ : CircBuf}
    (available : len ≤ circAvail circ) :
    circPeak circ len = (len, circ.contents.take len) := by
  rw [circPeak, circPeakLoop_eq]
  exact (circRead_available available).1

/-- `circ_peak` returns 0 when fewer bytes are queued. -/
theorem circPeak_short
    {len : Nat}
    {circ : CircBuf}
    (short : circAvail circ < len) :
    (circPeak circ len).1 = 0 := by
  rw [circPeak, circPeakLoop_eq]
  exact circReadLoop_short [] short

/-
From here on the queue is only used through the lemmas above.  Unfolding it
would make unification compute with 64-bit differences of variables.
-/
attribute [irreducible] circAvail CircBuf.contents

end Cdba
