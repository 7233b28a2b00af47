import Mathlib.Data.Nat.Digits.Defs
import Cdba.Status

namespace Cdba

/-!
# The buffer of a status message

`status_send_values` builds its line in an array of 256 bytes and keeps count
of what it has written in a `size_t`.  A store outside of the array is an
error here.  The line carries the time since the first call, and is sent whole
or not at all, as long as `snprintf` can tell its length.
-/

/-! ## Time stamps -/

/-- `struct timespec`, as the kernel fills it in. -/
structure Timespec where
  sec : Int
  nsec : Nat
  normalised : nsec < 1000000000

namespace Timespec

/-- A `struct timespec` that nothing has been stored in. -/
def zero : Timespec :=
  ⟨0, 0, by decide⟩

/-- The time in nanoseconds. -/
def nanos (ts : Timespec) : Int :=
  ts.sec * 1000000000 + ts.nsec

/-- The difference that `status_get_ts` computes, with its borrow. -/
def since (t t0 : Timespec) : Timespec :=
  if borrow : t.nsec < t0.nsec then
    { sec := t.sec - t0.sec - 1
      nsec := 1000000000 + t.nsec - t0.nsec
      normalised := by
        have inRange := t0.normalised
        omega }
  else
    { sec := t.sec - t0.sec
      nsec := t.nsec - t0.nsec
      normalised := Nat.lt_of_le_of_lt (Nat.sub_le _ _) t.normalised }

theorem nanos_since
    (t t0 : Timespec) :
    (t.since t0).nanos = t.nanos - t0.nanos := by
  have inRange := t0.normalised
  unfold since nanos
  split
  · dsimp only
    omega
  · dsimp only
    omega

end Timespec

/-- The static `t0` of `status_get_ts`, and how often the clock was read. -/
structure StatusClock where
  t0 : Timespec
  reads : Nat

/-- The clock before the first status message. -/
def StatusClock.start : StatusClock where
  t0 := .zero
  reads := 0

/-- `status_get_ts`, with the readings of the clock one after the other. -/
def statusGetTs
    (readings : Nat → Timespec)
    (clock : StatusClock) :
    Timespec × StatusClock :=
  let clock :=
    if clock.t0.sec = 0 && clock.t0.nsec = 0 then
      { t0 := readings clock.reads
        reads := clock.reads + 1 }
    else
      clock
  ((readings clock.reads).since clock.t0,
    { clock with reads := clock.reads + 1 })

/-! ## The buffer -/

/-- A store that does not lie in the buffer. -/
inductive StatusFault where
  | store (offset : Nat)
  deriving DecidableEq, Repr

/-- Memory with some bytes stored at an offset. -/
def storeBytes
    (memory : Nat → UInt8)
    (offset : Nat)
    (bytes : List UInt8) :
    Nat → UInt8 :=
  fun query =>
    if query < offset then
      memory query
    else
      bytes[query - offset]?.getD (memory query)

/-- `strcpy(buf + len, text)` -/
def strcpyTo
    (buf : Nat → UInt8)
    (len : UInt64)
    (text : CString) :
    Except StatusFault (Nat → UInt8) :=
  if len.toNat + text.length < statusBufSize then
    .ok (storeBytes buf len.toNat (text ++ [0]))
  else
    .error (.store len.toNat)

/--
What `snprintf` returns for a text of some length: it fails when the length is
not an `int`.
-/
def snprintfResult (length : Nat) : Int :=
  if length < 2 ^ 31 then length else -1

/-- Conversion of an `int` to `size_t`. -/
def toSizeT (value : Int) : UInt64 :=
  UInt64.ofInt value

/-- `snprintf` to an array: what fits in it with its NUL, and the length. -/
def snprintfTo
    (memory : Nat → UInt8)
    (size : Nat)
    (text : CString) :
    (Nat → UInt8) × UInt64 :=
  (storeBytes memory 0 (text.take (size - 1) ++ [0]),
    toSizeT (snprintfResult text.length))

/-- `sizeof(chunk)` in `status_send_values` -/
def statusChunkSize : Nat :=
  32

/-- `%lld` -/
def signedDecimal (number : Int) : CString :=
  if number < 0 then
    ascii "-" ++ decimal number.natAbs
  else
    decimal number.natAbs

/-- `"{\"ts\":%lld.%03ld, \"%s\":{ "` -/
def statusStart (ts : Timespec) (id : CString) : CString :=
  ascii "\x7b\"ts\":" ++ signedDecimal ts.sec ++ ascii "." ++
    decimal3 (ts.nsec / 1000000) ++ ascii ", \"" ++ id ++ ascii "\":\x7b "

/-- The separator in front of every value but the first; `none` overflows. -/
def storeSeparator
    (first : Bool)
    (buf : Nat → UInt8)
    (len : UInt64) :
    Except StatusFault (Option ((Nat → UInt8) × UInt64)) :=
  if first then
    .ok (some (buf, len))
  else if len + 3 ≥ UInt64.ofNat statusBufSize then
    .ok none
  else do
    let buf ← strcpyTo buf len (ascii ", ")
    .ok (some (buf, len + 2))

/-- The `for` loop of `status_send_values`; `none` is an overflow. -/
def storeValues
    (first : Bool)
    (buf : Nat → UInt8)
    (len : UInt64) :
    List StatusValue →
      Except StatusFault (Option ((Nat → UInt8) × UInt64))
  | [] => .ok (some (buf, len))
  | value :: rest => do
      let separated ← storeSeparator first buf len
      match separated with
      | none => .ok none
      | some (buf, len) =>
          let chunk := (statusChunk value).take (statusChunkSize - 1)
          let n := toSizeT (snprintfResult (statusChunk value).length)
          if len + n + 1 ≥ UInt64.ofNat statusBufSize then
            .ok none
          else do
            let buf ← strcpyTo buf len chunk
            storeValues false buf (len + n) rest

/--
`status_send_values` behind `status_get_ts`: the payload that it sends, if any.
`stack` is what the buffer holds before anything is written to it.
-/
def statusSendValuesStoring
    (stack : Nat → UInt8)
    (ts : Timespec)
    (id : CString)
    (values : List StatusValue) :
    Except StatusFault (Option CString) := do
  let (buf, len) := snprintfTo stack statusBufSize (statusStart ts id)
  let stored ← storeValues true buf len values
  match stored with
  | none => .ok none
  | some (buf, len) =>
      if len + 4 ≥ UInt64.ofNat statusBufSize then
        .ok none
      else do
        let buf ← strcpyTo buf len (ascii "\x7d\x7d\n")
        let len := len + 3
        .ok (some (readMemory buf len.toNat))

/-- One call of `status_send_values`. -/
structure StatusCall where
  id : CString
  values : List StatusValue
  /-- What is on the stack where its buffer lies. -/
  stack : Nat → UInt8

/-- Calls of `status_send_values` one after the other, and what each sends. -/
def statusCalls
    (readings : Nat → Timespec) :
    StatusClock → List StatusCall →
      Except StatusFault (List (Option CString))
  | _, [] => .ok []
  | clock, call :: rest => do
      let (ts, clock) := statusGetTs readings clock
      let sent ←
        statusSendValuesStoring call.stack ts call.id call.values
      let later ← statusCalls readings clock rest
      .ok (sent :: later)

/-! ## What the buffer holds -/

theorem getElem?_readMemory
    (memory : Nat → UInt8)
    {offset len : Nat}
    (inside : offset < len) :
    (readMemory memory len)[offset]? = some (memory offset) := by
  simp [readMemory, inside]

/-- Bytes stored behind a text go on with it. -/
theorem readMemory_storeBytes
    {memory : Nat → UInt8}
    {text : List UInt8}
    (holds : readMemory memory text.length = text)
    (more behind : List UInt8) :
    readMemory (storeBytes memory text.length (more ++ behind))
        (text ++ more).length = text ++ more := by
  apply List.ext_getElem?
  intro offset
  by_cases inside : offset < (text ++ more).length
  · rw [getElem?_readMemory _ inside, storeBytes]
    by_cases within : offset < text.length
    · rw [if_pos within, List.getElem?_append_left within, ← holds,
        getElem?_readMemory _ within]
    · have behindText := Nat.not_lt.mp within
      have fits : offset - text.length < more.length := by
        rw [List.length_append] at inside
        omega
      rw [if_neg within, List.getElem?_append_left fits,
        List.getElem?_append_right behindText,
        List.getElem?_eq_getElem fits, Option.getD_some]
  · have outside := Nat.not_lt.mp inside
    rw [List.getElem?_eq_none (by rwa [length_readMemory]),
      List.getElem?_eq_none outside]

/-- The buffer holds a text, unless this is too long for it anyway. -/
structure TextWritten
    (buf : Nat → UInt8)
    (len : UInt64)
    (text : CString) :
    Prop where
  count : len.toNat = text.length
  small : text.length < 2 ^ 31
  holds : text.length < statusBufSize → readMemory buf text.length = text

/-- A length check of the code, which does not wrap. -/
theorem TextWritten.checks
    {buf : Nat → UInt8}
    {len : UInt64}
    {text : CString}
    (written : TextWritten buf len text)
    {more : Nat}
    (few : more < 2 ^ 31) :
    len + UInt64.ofNat more ≥ UInt64.ofNat statusBufSize ↔
      text.length + more ≥ statusBufSize := by
  have count := written.count
  have small := written.small
  rw [ge_iff_le, UInt64.le_iff_toNat_le, UInt64.toNat_add, count,
    UInt64.toNat_ofNat_of_lt' (show more < 2 ^ 64 by omega),
    Nat.mod_eq_of_lt (by omega)]
  rfl

/-- `strcpy` behind the text, when there is room for it and its NUL. -/
theorem TextWritten.strcpy
    {buf : Nat → UInt8}
    {len : UInt64}
    {text more : CString}
    (written : TextWritten buf len text)
    (room : text.length + more.length < statusBufSize) :
    ∃ later,
      strcpyTo buf len more = .ok later ∧
        TextWritten later (len + UInt64.ofNat more.length) (text ++ more) := by
  have count := written.count
  have small : statusBufSize < 2 ^ 31 := by decide
  have whole : (text ++ more).length < statusBufSize := by
    rwa [List.length_append]
  refine ⟨storeBytes buf len.toNat (more ++ [0]), ?_, ?_, ?_, ?_⟩
  · rw [strcpyTo, if_pos (by rwa [count])]
  · rw [UInt64.toNat_add, count,
      UInt64.toNat_ofNat_of_lt' (show more.length < 2 ^ 64 by omega),
      Nat.mod_eq_of_lt (by omega), List.length_append]
  · omega
  · intro _
    rw [count]
    exact readMemory_storeBytes (written.holds (by omega)) more [0]

theorem toSizeT_snprintfResult
    {length : Nat}
    (small : length < 2 ^ 31) :
    toSizeT (snprintfResult length) = UInt64.ofNat length := by
  have same : ((length : Int) % 2 ^ 64).toNat = length := by
    omega
  rw [toSizeT, snprintfResult, if_pos small, UInt64.ofInt, same]

/-- A text that `snprintf` can tell the length of. -/
theorem snprintfTo_written
    (stack : Nat → UInt8)
    {text : CString}
    (small : text.length < 2 ^ 31) :
    TextWritten (snprintfTo stack statusBufSize text).1
      (snprintfTo stack statusBufSize text).2 text := by
  have length :
      (snprintfTo stack statusBufSize text).2.toNat = text.length := by
    rw [snprintfTo, toSizeT_snprintfResult small]
    exact UInt64.toNat_ofNat_of_lt' (show text.length < 2 ^ 64 by omega)
  refine ⟨length, small, ?_⟩
  intro fits
  have whole : text.take (statusBufSize - 1) = text :=
    List.take_of_length_le (by omega)
  rw [snprintfTo, whole]
  have stored := @readMemory_storeBytes stack [] rfl text [0]
  rwa [List.nil_append] at stored

/-! ## Storing the values -/

theorem length_statusChunk_le
    (value : StatusValue) :
    (statusChunk value).length ≤ 18 := by
  have digits : (decimal value.value.toNat).length ≤ 10 := by
    rw [decimal, List.length_map,
      Nat.length_toDigits_le_iff (by decide) (by decide)]
    exact Nat.lt_trans value.value.toNat_lt (by decide)
  have unit : value.unit.sz.length ≤ 4 := by
    cases value.unit <;> decide
  have quote : (ascii "\"").length = 1 := rfl
  have colon : (ascii "\": ").length = 3 := rfl
  simp only [statusChunk, List.length_append]
  omega

theorem length_statusChunk_pos
    (value : StatusValue) :
    0 < (statusChunk value).length := by
  simp only [statusChunk, List.length_append]
  have quote : (ascii "\"").length = 1 := rfl
  omega

/-- What the buffer holds, for what has been formatted so far. -/
inductive Stored :
    Option ((Nat → UInt8) × UInt64) → Option CString → Prop where
  | overflow : Stored none none
  | text
      {buf : Nat → UInt8}
      {len : UInt64}
      {text : CString}
      (written : TextWritten buf len text) :
      Stored (some (buf, len)) (some text)

/-- The step of the loop behind the separator. -/
theorem storeChunk
    {buf : Nat → UInt8}
    {len : UInt64}
    {text : CString}
    (written : TextWritten buf len text)
    (value : StatusValue) :
    let n := toSizeT (snprintfResult (statusChunk value).length)
    (text.length + (statusChunk value).length + 1 ≥ statusBufSize ∧
      len + n + 1 ≥ UInt64.ofNat statusBufSize) ∨
    ¬ text.length + (statusChunk value).length + 1 ≥ statusBufSize ∧
      ¬ len + n + 1 ≥ UInt64.ofNat statusBufSize ∧
      ∃ later,
        strcpyTo buf len
            ((statusChunk value).take (statusChunkSize - 1)) = .ok later ∧
          TextWritten later (len + n) (text ++ statusChunk value) := by
  intro n
  have short := length_statusChunk_le value
  have tells : n = UInt64.ofNat (statusChunk value).length :=
    toSizeT_snprintfResult (by omega)
  have sum : len + n + 1 =
      len + UInt64.ofNat ((statusChunk value).length + 1) := by
    rw [tells, UInt64.add_assoc, UInt64.ofNat_add]
    rfl
  have checks :=
    written.checks (show (statusChunk value).length + 1 < 2 ^ 31 by omega)
  rw [← sum, ← Nat.add_assoc] at checks
  by_cases long :
      text.length + (statusChunk value).length + 1 ≥ statusBufSize
  · exact .inl ⟨long, checks.mpr long⟩
  · right
    have whole : (statusChunk value).take (statusChunkSize - 1) =
        statusChunk value :=
      List.take_of_length_le (by rw [statusChunkSize]; omega)
    refine ⟨long, mt checks.mp long, ?_⟩
    rw [whole, tells]
    exact written.strcpy (by omega)

/-- The loop behind the first value. -/
theorem storeValues_stores
    {buf : Nat → UInt8}
    {len : UInt64}
    {text : CString}
    (written : TextWritten buf len text)
    (values : List StatusValue) :
    ∃ stored,
      storeValues false buf len values = .ok stored ∧
        Stored stored (appendValues text values) := by
  induction values generalizing buf len text with
  | nil => exact ⟨_, rfl, .text written⟩
  | cons value rest inductionHypothesis =>
      rw [storeValues, appendValues, storeSeparator,
        if_neg Bool.false_ne_true]
      by_cases long : text.length + 3 ≥ statusBufSize
      · have stops :=
          (written.checks (show 3 < 2 ^ 31 by decide)).mpr long
        refine ⟨none, ?_, ?_⟩
        · rw [if_pos (by exact stops)]
          rfl
        · rw [if_pos long]
          exact .overflow
      · have passes :=
          mt (written.checks (show 3 < 2 ^ 31 by decide)).mp long
        have comma : (ascii ", ").length = 2 := rfl
        obtain ⟨separated, copied, separatedText⟩ :=
          written.strcpy
            (show text.length + (ascii ", ").length < statusBufSize by omega)
        have separatedText :
            TextWritten separated (len + 2) (text ++ ascii ", ") :=
          separatedText
        rw [if_neg (by exact passes), if_neg long, copied]
        dsimp only [bind, Except.bind]
        rcases storeChunk separatedText value with
          ⟨tooLong, stops⟩ | ⟨fits, passes, later, copied, laterText⟩
        · rw [if_pos stops, if_pos tooLong]
          exact ⟨none, rfl, .overflow⟩
        · rw [if_neg passes, if_neg fits, copied]
          exact inductionHypothesis laterText

/-- The loop, in a buffer that starts out with the head of the line. -/
theorem storeValues_first
    {buf : Nat → UInt8}
    {len : UInt64}
    {text : CString}
    (written : TextWritten buf len text)
    (values : List StatusValue) :
    ∃ stored,
      storeValues true buf len values = .ok stored ∧
        Stored stored (formatValues text values) := by
  cases values with
  | nil => exact ⟨_, rfl, .text written⟩
  | cons value rest =>
      rw [storeValues, formatValues, storeSeparator, if_pos rfl]
      dsimp only [bind, Except.bind]
      rcases storeChunk written value with
        ⟨tooLong, stops⟩ | ⟨fits, passes, later, copied, laterText⟩
      · rw [if_pos stops, if_pos tooLong]
        exact ⟨none, rfl, .overflow⟩
      · rw [if_neg passes, if_neg fits, copied]
        exact storeValues_stores laterText rest

/-! ## One call -/

theorem statusStart_eq_statusHead
    {ts : Timespec}
    (later : 0 ≤ ts.sec)
    (id : CString) :
    statusStart ts id = statusHead ⟨ts.sec.toNat, ts.nsec⟩ id := by
  have digits : signedDecimal ts.sec = decimal ts.sec.toNat := by
    rw [signedDecimal, if_neg (by omega)]
    congr 1
    omega
  rw [statusStart, digits]
  rfl

/--
As long as `snprintf` can tell the length of the head, the buffer is good for
the line that it is meant to hold.
-/
theorem statusSendValuesStoring_eq
    (stack : Nat → UInt8)
    {ts : Timespec}
    (later : 0 ≤ ts.sec)
    {id : CString}
    (small : (statusStart ts id).length < 2 ^ 31)
    (values : List StatusValue) :
    statusSendValuesStoring stack ts id values =
      .ok (statusSendValues ⟨ts.sec.toNat, ts.nsec⟩ id values) := by
  have head := snprintfTo_written stack small
  rw [statusSendValuesStoring, statusSendValues,
    ← statusStart_eq_statusHead later]
  obtain ⟨stored, runs, holds⟩ := storeValues_first head values
  dsimp only
  rw [runs]
  dsimp only [bind, Except.bind]
  generalize formatValues (statusStart ts id) values = formatted at holds
  cases holds with
  | overflow => rfl
  | text written =>
      rename_i buf len text
      have checks := written.checks (show 4 < 2 ^ 31 by decide)
      dsimp only
      by_cases long : text.length + 4 ≥ statusBufSize
      · rw [if_pos (by exact checks.mpr long), if_pos long]
      · have braces : (ascii "\x7d\x7d\n").length = 3 := rfl
        obtain ⟨final, copied, finalText⟩ :=
          written.strcpy
            (show text.length + (ascii "\x7d\x7d\n").length < statusBufSize
              by omega)
        have finalText : TextWritten final (len + 3)
            (text ++ ascii "\x7d\x7d\n") :=
          finalText
        rw [if_neg (by exact mt checks.mp long), if_neg long, copied]
        dsimp only
        rw [finalText.count, finalText.holds (by
          rw [List.length_append]
          omega)]

/-- The length of a chunk behind the highest `size_t` wraps around to it. -/
theorem statusSendValuesStoring_fails
    (stack : Nat → UInt8)
    (ts : Timespec)
    {id : CString}
    (huge : 2 ^ 31 ≤ (statusStart ts id).length)
    {values : List StatusValue}
    (some_value : values ≠ []) :
    statusSendValuesStoring stack ts id values =
      .error (.store (2 ^ 64 - 1)) := by
  cases values with
  | nil => exact absurd rfl some_value
  | cons value rest =>
      have length : (snprintfTo stack statusBufSize
          (statusStart ts id)).2 = -1 := by
        rw [snprintfTo, snprintfResult, if_neg (by omega)]
        rfl
      have short := length_statusChunk_le value
      have tells : toSizeT (snprintfResult (statusChunk value).length) =
          UInt64.ofNat (statusChunk value).length :=
        toSizeT_snprintfResult (by omega)
      have wraps : (-1 : UInt64) + UInt64.ofNat (statusChunk value).length +
          1 = UInt64.ofNat (statusChunk value).length := by
        rw [UInt64.add_assoc, UInt64.add_comm, UInt64.add_assoc,
          show (1 : UInt64) + -1 = 0 from rfl, UInt64.add_zero]
      have passes : ¬ UInt64.ofNat (statusChunk value).length ≥
          UInt64.ofNat statusBufSize := by
        rw [ge_iff_le, UInt64.le_iff_toNat_le,
          UInt64.toNat_ofNat_of_lt'
            (show (statusChunk value).length < 2 ^ 64 by omega)]
        show ¬ 256 ≤ (statusChunk value).length
        omega
      rw [statusSendValuesStoring]
      dsimp only
      rw [storeValues, storeSeparator, if_pos rfl, length]
      dsimp only [bind, Except.bind]
      rw [tells, wraps, if_neg passes, strcpyTo,
        if_neg (by
          show ¬ 2 ^ 64 - 1 + _ < 256
          omega)]
      rfl

/-! ## The line -/

/-- The documented line up to the values, for a time in milliseconds. -/
def documentedHead (ms : Nat) (id : CString) : CString :=
  ascii "\x7b\"ts\":" ++ decimal (ms / 1000) ++ ascii "." ++
    decimal3 (ms % 1000) ++ ascii ", \"" ++ id ++ ascii "\":\x7b "

/-- The line of a status message, as the documentation shows it. -/
def documentedLine
    (ms : Nat)
    (id : CString)
    (values : List StatusValue) :
    CString :=
  documentedHead ms id ++
    (ascii ", ").intercalate (values.map statusChunk) ++ ascii "\x7d\x7d\n"

theorem length_decimal3
    {number : Nat}
    (small : number < 1000) :
    (decimal3 number).length = 3 := by
  have digits : (decimal number).length ≤ 3 := by
    rw [decimal, List.length_map,
      Nat.length_toDigits_le_iff (by decide) (by decide)]
    exact small
  rw [decimal3, List.length_append, List.length_replicate]
  omega

theorem intercalate_statusChunks
    (value : StatusValue)
    (rest : List StatusValue) :
    (ascii ", ").intercalate ((value :: rest).map statusChunk) =
      statusChunk value ++
        rest.flatMap fun value => ascii ", " ++ statusChunk value := by
  induction rest generalizing value with
  | nil => simp
  | cons next rest inductionHypothesis =>
      rw [List.map_cons, List.map_cons, List.intercalate_cons_cons,
        ← List.map_cons, inductionHypothesis, List.flatMap_cons,
        List.append_assoc, List.append_assoc]

/-- The checks of the loop together are one on what it has formatted. -/
theorem appendValues_eq
    {text : CString}
    (fits : text.length ≤ 254)
    (values : List StatusValue) :
    let whole :=
      text ++ values.flatMap fun value => ascii ", " ++ statusChunk value
    appendValues text values =
      if whole.length ≤ 254 then some whole else none := by
  induction values generalizing text with
  | nil =>
      intro whole
      have same : whole = text := List.append_nil text
      rw [same, if_pos fits]
      rfl
  | cons value rest inductionHypothesis =>
      intro whole
      have chunk := length_statusChunk_pos value
      have same : whole = text ++ ascii ", " ++ statusChunk value ++
          rest.flatMap fun value => ascii ", " ++ statusChunk value := by
        simp [whole]
      have length : whole.length = text.length + 2 +
          (statusChunk value).length +
            (rest.flatMap fun value =>
              ascii ", " ++ statusChunk value).length := by
        rw [same]
        simp only [List.length_append]
        rfl
      have comma : (text ++ ascii ", ").length = text.length + 2 :=
        List.length_append
      rw [appendValues]
      dsimp only
      rw [comma]
      by_cases first : text.length + 3 ≥ statusBufSize
      · rw [if_pos first, if_neg (by rw [statusBufSize] at first; omega)]
      · rw [if_neg first]
        by_cases second :
            text.length + 2 + (statusChunk value).length + 1 ≥ statusBufSize
        · rw [if_pos second,
            if_neg (by rw [statusBufSize] at second; omega)]
        · rw [if_neg second, same]
          rw [statusBufSize] at second
          refine inductionHypothesis ?_
          rw [List.length_append, comma]
          omega

/-- A line is sent when it leaves two bytes of the buffer unused. -/
theorem statusSendValues_eq
    (ms : Nat)
    {ts : StatusTime}
    (sec : ts.sec = ms / 1000)
    (msec : ts.nsec / 1000000 = ms % 1000)
    (id : CString)
    {values : List StatusValue}
    (some_value : values ≠ []) :
    statusSendValues ts id values =
      if (documentedLine ms id values).length ≤ 254 then
        some (documentedLine ms id values)
      else
        none := by
  have head : statusHead ts id = documentedHead ms id := by
    rw [statusHead, documentedHead, sec, msec]
  have braces : (ascii "\x7d\x7d\n").length = 3 := rfl
  cases values with
  | nil => exact absurd rfl some_value
  | cons value rest =>
      have line : documentedLine ms id (value :: rest) =
          documentedHead ms id ++ statusChunk value ++
            (rest.flatMap fun value => ascii ", " ++ statusChunk value) ++
              ascii "\x7d\x7d\n" := by
        rw [documentedLine, intercalate_statusChunks, ← List.append_assoc]
      rw [statusSendValues, head, formatValues, line]
      by_cases long : (documentedHead ms id).length +
          (statusChunk value).length + 1 ≥ statusBufSize
      · rw [if_pos long, if_neg (by
          rw [statusBufSize] at long
          simp only [List.length_append]
          omega)]
      · rw [if_neg long, appendValues_eq (by
          rw [statusBufSize] at long
          rw [List.length_append]
          omega)]
        generalize documentedHead ms id ++ statusChunk value ++
          (rest.flatMap fun value => ascii ", " ++ statusChunk value) = whole
        rw [List.length_append, braces]
        by_cases short : whole.length ≤ 254
        · rw [if_pos short]
          dsimp only
          by_cases shorter : whole.length + 3 ≤ 254
          · rw [if_pos shorter, if_neg (by rw [statusBufSize]; omega)]
          · rw [if_neg shorter, if_pos (by rw [statusBufSize]; omega)]
        · rw [if_neg short, if_neg (by omega)]

/-! ## Calls one after the other -/

/--
The milliseconds between the first reading of the clock and the one for a call,
rounded down.  The first call reads the clock twice.
-/
def elapsedMs
    (readings : Nat → Timespec)
    (call : Nat) :
    Nat :=
  ((readings (call + 1)).nanos - (readings 0).nanos).toNat / 1000000

/--
What a call should send: the line, if it is no longer than 254 bytes, and
nothing otherwise.
-/
def documentedUpdate
    (readings : Nat → Timespec)
    (index : Nat)
    (call : StatusCall) :
    Option CString :=
  let line := documentedLine (elapsedMs readings index) call.id call.values
  if line.length ≤ 254 then some line else none

/--
Every call sends its line or nothing, and no store leaves the buffer.  The time
stamps have three digits behind the point and never go back.
-/
structure SentWhole
    (readings : Nat → Timespec)
    (calls : List StatusCall) :
    Prop where
  updates :
    statusCalls readings .start calls =
      .ok (calls.mapIdx (documentedUpdate readings))
  digits : ∀ index, (decimal3 (elapsedMs readings index % 1000)).length = 3
  ordered :
    ∀ earlier later, earlier ≤ later →
      elapsedMs readings earlier ≤ elapsedMs readings later

theorem nanos_monotone
    {readings : Nat → Timespec}
    (forward : ∀ i, (readings i).nanos ≤ (readings (i + 1)).nanos)
    {earlier later : Nat}
    (order : earlier ≤ later) :
    (readings earlier).nanos ≤ (readings later).nanos :=
  monotone_nat_of_le_succ forward order

/-- The time stamp of a call, in seconds and milliseconds. -/
theorem since_elapsedMs
    {readings : Nat → Timespec}
    (forward : ∀ i, (readings i).nanos ≤ (readings (i + 1)).nanos)
    (index : Nat) :
    let ts := (readings (index + 1)).since (readings 0)
    0 ≤ ts.sec ∧
      ts.sec.toNat = elapsedMs readings index / 1000 ∧
      ts.nsec / 1000000 = elapsedMs readings index % 1000 := by
  intro ts
  have inRange := ts.normalised
  have total := Timespec.nanos_since (readings (index + 1)) (readings 0)
  have order := nanos_monotone forward (Nat.zero_le (index + 1))
  have sum : ts.sec * 1000000000 + ts.nsec =
      (readings (index + 1)).nanos - (readings 0).nanos :=
    total
  have later : 0 ≤ ts.sec := by
    omega
  unfold elapsedMs
  rw [← sum]
  refine ⟨later, ?_, ?_⟩
  · omega
  · omega

/-- The clock once its static `t0` has been set. -/
theorem statusGetTs_started
    {readings : Nat → Timespec}
    (started : (readings 0).sec ≠ 0 ∨ (readings 0).nsec ≠ 0)
    (reads : Nat) :
    statusGetTs readings ⟨readings 0, reads⟩ =
      ((readings reads).since (readings 0),
        ⟨readings 0, reads + 1⟩) := by
  have set :
      ¬ ((readings 0).sec = 0 && (readings 0).nsec = 0) = true := by
    simp only [Bool.and_eq_true, decide_eq_true_eq, not_and_or]
    exact started
  rw [statusGetTs]
  dsimp only
  rw [if_neg set]

/-- The first call sets `t0`, and goes on as every other. -/
theorem statusCalls_start
    {readings : Nat → Timespec}
    (started : (readings 0).sec ≠ 0 ∨ (readings 0).nsec ≠ 0)
    (calls : List StatusCall) :
    statusCalls readings .start calls =
      statusCalls readings ⟨readings 0, 1⟩ calls := by
  cases calls with
  | nil => rfl
  | cons call rest =>
      rw [statusCalls, statusCalls, statusGetTs_started started]
      rfl

/-- The calls from one on, and what decides whether they all go well. -/
theorem statusCalls_from
    {readings : Nat → Timespec}
    (started : (readings 0).sec ≠ 0 ∨ (readings 0).nsec ≠ 0)
    (forward : ∀ i, (readings i).nanos ≤ (readings (i + 1)).nanos)
    (index : Nat)
    {calls : List StatusCall}
    (some_values : ∀ call ∈ calls, call.values ≠ []) :
    statusCalls readings ⟨readings 0, index + 1⟩ calls =
        .ok (calls.mapIdx fun i =>
          documentedUpdate readings (i + index)) ↔
      ∀ i call, calls[i]? = some call →
        (documentedHead (elapsedMs readings (i + index)) call.id).length <
          2 ^ 31 := by
  induction calls generalizing index with
  | nil => exact iff_of_true rfl (fun _ _ found => nomatch found)
  | cons call rest inductionHypothesis =>
      obtain ⟨later, sec, msec⟩ := since_elapsedMs forward index
      have head :
          statusStart ((readings (index + 1)).since (readings 0)) call.id =
            documentedHead (elapsedMs readings index) call.id := by
        rw [statusStart_eq_statusHead later, statusHead, documentedHead, sec,
          msec]
      have some_value := some_values call List.mem_cons_self
      have others := inductionHypothesis (index + 1)
        fun call member => some_values call (List.mem_cons_of_mem _ member)
      rw [statusCalls, statusGetTs_started started]
      dsimp only [bind, Except.bind]
      by_cases small :
          (documentedHead (elapsedMs readings index) call.id).length < 2 ^ 31
      · rw [statusSendValuesStoring_eq _ later (by rwa [head]),
          statusSendValues_eq _ sec msec _ some_value, List.mapIdx_cons,
          Nat.zero_add]
        dsimp only
        have shifted : (fun i => documentedUpdate readings (i + 1 + index)) =
            fun i => documentedUpdate readings (i + (index + 1)) := by
          funext i
          rw [Nat.add_assoc, Nat.add_comm 1]
        rw [shifted]
        have shift : ∀ i, i + 1 + index = i + (index + 1) := by omega
        constructor
        · intro runs i found isCall
          cases i with
          | zero =>
              cases isCall
              rwa [Nat.zero_add]
          | succ i =>
              rw [shift]
              refine others.mp ?_ i found isCall
              split at runs
              · contradiction
              · rename_i later ends
                rw [ends]
                injection runs with same
                exact congrArg _ (List.cons.inj same).2
        · intro all
          rw [others.mpr fun i found isCall => by
            rw [← shift]
            exact all (i + 1) found isCall]
          rfl
      · rw [statusSendValuesStoring_fails _ _ (by rw [head]; omega)
          some_value]
        exact iff_of_false (fun same => nomatch same)
          fun all => small (by
            have first := all 0 call rfl
            rwa [Nat.zero_add] at first)

/--
Calls with any ids and values, on a clock that does not go back, send their
lines whole or not at all and keep to the buffer, exactly if the head of every
line has a length that an `int` can hold.
-/
theorem statusCalls_sentWhole_iff
    {readings : Nat → Timespec}
    (started : (readings 0).sec ≠ 0 ∨ (readings 0).nsec ≠ 0)
    (forward : ∀ i, (readings i).nanos ≤ (readings (i + 1)).nanos)
    {calls : List StatusCall}
    (some_values : ∀ call ∈ calls, call.values ≠ []) :
    SentWhole readings calls ↔
      ∀ i call, calls[i]? = some call →
        (documentedHead (elapsedMs readings i) call.id).length < 2 ^ 31 := by
  have runs := statusCalls_from started forward 0 some_values
  simp only [Nat.add_zero, Nat.zero_add] at runs
  rw [← statusCalls_start started] at runs
  constructor
  · intro whole
    exact runs.mp whole.updates
  · intro small
    refine ⟨runs.mpr small, ?_, ?_⟩
    · intro index
      exact length_decimal3 (Nat.mod_lt _ (by decide))
    · intro earlier later order
      have times := nanos_monotone forward (Nat.add_le_add_right order 1)
      unfold elapsedMs
      omega

/-- A clock that is read once a second. -/
def everySecond (reading : Nat) : Timespec :=
  ⟨5 + reading, 900000000, by decide⟩

/-- Two values of a debug board. -/
def dcCall : StatusCall where
  id := ascii "dc"
  values := [⟨.mv, 12050⟩, ⟨.ma, 310⟩]
  stack := fun _ => 0xaa

theorem dcCall_sentWhole_iff :
    ((everySecond 0).sec ≠ 0 ∨ (everySecond 0).nsec ≠ 0) ∧
      (∀ i, (everySecond i).nanos ≤ (everySecond (i + 1)).nanos) ∧
      (∀ call ∈ [dcCall, dcCall], call.values ≠ []) ∧
      (SentWhole everySecond [dcCall, dcCall] ↔
        ∀ i call, [dcCall, dcCall][i]? = some call →
          (documentedHead (elapsedMs everySecond i) call.id).length <
            2 ^ 31) := by
  have started : (everySecond 0).sec ≠ 0 ∨ (everySecond 0).nsec ≠ 0 := by
    decide
  have forward :
      ∀ i, (everySecond i).nanos ≤ (everySecond (i + 1)).nanos := by
    intro i
    simp only [everySecond, Timespec.nanos]
    omega
  have some_values : ∀ call ∈ [dcCall, dcCall], call.values ≠ [] := by
    simp [dcCall]
  exact ⟨started, forward, some_values,
    statusCalls_sentWhole_iff started forward some_values⟩

/-- A first call whose head is too long for an `int`. -/
theorem not_sentWhole_of_huge
    {readings : Nat → Timespec}
    (started : (readings 0).sec ≠ 0 ∨ (readings 0).nsec ≠ 0)
    {call : StatusCall}
    (huge : 2 ^ 31 ≤
      (statusStart ((readings 1).since (readings 0)) call.id).length)
    (some_value : call.values ≠ []) :
    ¬ SentWhole readings [call] := by
  intro whole
  have runs := whole.updates
  rw [statusCalls_start started, statusCalls,
    statusGetTs_started started] at runs
  dsimp only [bind, Except.bind] at runs
  rw [statusSendValuesStoring_fails _ _ huge some_value] at runs
  contradiction

/-- An id of 2^31 letters, whose head `snprintf` cannot tell the length of. -/
def longIdCall : StatusCall where
  id := List.replicate (2 ^ 31) 0x61
  values := [⟨.mv, 12050⟩]
  stack := fun _ => 0xaa

/-- Its value is stored in front of the buffer. -/
theorem longIdCall_stores :
    ¬ SentWhole everySecond [longIdCall] := by
  have huge : 2 ^ 31 ≤
      (statusStart ((everySecond 1).since (everySecond 0))
        longIdCall.id).length := by
    simp only [statusStart, longIdCall, List.length_append,
      List.length_replicate]
    omega
  exact not_sentWhole_of_huge (.inl (by decide)) huge
    (List.cons_ne_nil _ _)

end Cdba
