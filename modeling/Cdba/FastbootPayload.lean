import Mathlib.Data.List.TakeWhile
import Cdba.FastbootTransfer

namespace Cdba

/-!
# The payload of a fastboot download

`fastboot_download` slices the payload, and `fastboot_write` sends a slice in
as many transfers as the device makes of it.  Both count down what is left in
a `size_t`.  With these counters they send what they do as functions on lists,
which is the payload from its start on, up to the first transfer that fails.
-/

/-! ## The loops with their counters -/

/-- `bulk.data` and `bulk.len`: what the next ioctl asks the device to accept. -/
def bulkRequest
    (memory : Nat → UInt8)
    (buf : Nat)
    (len : UInt64) :
    List UInt8 :=
  readMemory (fun offset => memory (buf + offset))
    (min len.toNat maxUsbfsBulkSize)

/-- The `do ... while (len > 0)` loop of `fastboot_write`. -/
def fastbootWriteCounting
    (memory : Nat → UInt8) :
    Nat → UInt64 → UInt64 → BulkScript → BulkRun Int
  | buf, len, _, [] => ⟨-1, [], [.out (bulkRequest memory buf len) none]⟩
  | buf, len, _, none :: script =>
      ⟨-1, script, [.out (bulkRequest memory buf len) none]⟩
  | buf, len, count, some transfer :: script =>
      let request := bulkRequest memory buf len
      let n := min transfer.count request.length
      let len := len - UInt64.ofNat n
      let count := count + UInt64.ofNat n
      if len > 0 then
        (fastbootWriteCounting memory (buf + n) len count script).after
          [.out request (some n)]
      else
        ⟨toInt32 count.toNat, script, [.out request (some n)]⟩

/-- The `while (len > 0)` loop of `fastboot_download`. -/
def sendPayloadCounting
    (memory : Nat → UInt8) :
    Nat → UInt64 → UInt64 → BulkScript → BulkRun Int
  | 0, _, _, script => ⟨0, script, []⟩
  | fuel + 1, offset, len, script =>
      if len > 0 then
        let xfer := UInt64.ofNat (min len.toNat maxUsbfsBulkSize)
        let written :=
          fastbootWriteCounting memory offset.toNat xfer 0 script
        if written.value < 0 then
          written
        else
          (sendPayloadCounting memory fuel (offset + xfer) (len - xfer)
            written.script).after written.trace
      else
        ⟨0, script, []⟩

/--
`fastboot_download` with its counters; the payload and the command lie in
front of other memory.
-/
def fastbootDownloadCounting
    (data : List UInt8)
    (beyond : Nat → UInt8)
    (script : BulkScript) :
    BulkRun Int :=
  let cmd := downloadCommand data.length
  let command :=
    fastbootWriteCounting (memoryAt cmd beyond) 0
      (UInt64.ofNat cmd.length) 0 script
  let answer := fastbootRead (some maxUsbfsBulkSize) command.script
  if answer.value.1 < 0 then
    ⟨-1, answer.script, command.trace ++ answer.trace⟩
  else
    let payload :=
      sendPayloadCounting (memoryAt data beyond) data.length 0
        (UInt64.ofNat data.length) answer.script
    if payload.value < 0 then
      payload.after (command.trace ++ answer.trace)
    else
      let final := fastbootRead none payload.script
      ⟨final.value.1, final.script,
        command.trace ++ answer.trace ++ payload.trace ++ final.trace⟩

/-! ## The counters count what is left -/

/-- Memory holds some bytes from an address on. -/
def Holds (memory : Nat → UInt8) (buf : Nat) (bytes : List UInt8) : Prop :=
  ∀ offset, offset < bytes.length →
    bytes[offset]? = some (memory (buf + offset))

theorem holds_memoryAt
    (object : List UInt8)
    (beyond : Nat → UInt8) :
    Holds (memoryAt object beyond) 0 object := by
  intro offset inside
  simp [memoryAt, inside]

namespace Holds

variable {memory : Nat → UInt8} {buf : Nat} {bytes : List UInt8}

theorem drop
    (holds : Holds memory buf bytes)
    (len : Nat) :
    Holds memory (buf + len) (bytes.drop len) := by
  intro offset inside
  rw [List.length_drop] at inside
  rw [List.getElem?_drop, holds (len + offset) (by omega), Nat.add_assoc]

theorem take
    (holds : Holds memory buf bytes)
    (len : Nat) :
    Holds memory buf (bytes.take len) := by
  intro offset inside
  rw [List.length_take, Nat.lt_min] at inside
  rw [List.getElem?_take_of_lt inside.1, holds offset inside.2]

theorem read
    (holds : Holds memory buf bytes) :
    readMemory (fun offset => memory (buf + offset)) bytes.length = bytes := by
  apply List.ext_getElem?
  intro offset
  by_cases inside : offset < bytes.length
  · rw [holds offset inside]
    simp [readMemory, inside]
  · rw [List.getElem?_eq_none (Nat.le_of_not_lt inside),
      List.getElem?_eq_none (by rw [length_readMemory]; omega)]

/-- A request is what is left, up to the size of one. -/
theorem request
    (holds : Holds memory buf bytes)
    {len : UInt64}
    (left : len.toNat = bytes.length) :
    bulkRequest memory buf len = bytes.take maxUsbfsBulkSize := by
  rw [bulkRequest, left, Nat.min_comm, ← List.length_take]
  exact (holds.take maxUsbfsBulkSize).read

end Holds

/-- Counting down what was accepted. -/
theorem toNat_sub_count
    {len : UInt64}
    {n : Nat}
    (within : n ≤ len.toNat) :
    (len - UInt64.ofNat n).toNat = len.toNat - n := by
  have small : n < 2 ^ 64 := Nat.lt_of_le_of_lt within len.toNat_lt
  have same : (UInt64.ofNat n).toNat = n := UInt64.toNat_ofNat_of_lt' small
  rw [UInt64.toNat_sub_of_le, same]
  rw [UInt64.le_iff_toNat_le, same]
  exact within

/-- Counting up what was accepted. -/
theorem toNat_add_count
    {count : UInt64}
    {n : Nat}
    (within : count.toNat + n < 2 ^ 64) :
    (count + UInt64.ofNat n).toNat = count.toNat + n := by
  have same : (UInt64.ofNat n).toNat = n :=
    UInt64.toNat_ofNat_of_lt' (by change n < 2 ^ 64; omega)
  rw [UInt64.toNat_add, same, Nat.mod_eq_of_lt within]

/-- A count that fits is returned as it is. -/
theorem toInt32_of_lt
    {count : Nat}
    (small : count < 2 ^ 31) :
    toInt32 (count : Int) = count := by
  unfold toInt32
  omega

/-- With its counters `fastboot_write` sends what is left of its data. -/
theorem fastbootWriteCounting_eq
    {memory : Nat → UInt8}
    {buf : Nat}
    {data : List UInt8}
    {len : UInt64}
    (count : UInt64)
    (holds : Holds memory buf data)
    (left : len.toNat = data.length)
    (small : count.toNat + data.length < 2 ^ 31)
    (script : BulkScript) :
    fastbootWriteCounting memory buf len count script =
      fastbootWriteLoop data count.toNat script := by
  induction script generalizing buf data len count with
  | nil =>
      rw [fastbootWriteCounting, fastbootWriteLoop, holds.request left]
  | cons outcome script inductionHypothesis =>
      cases outcome with
      | none =>
          rw [fastbootWriteCounting, fastbootWriteLoop, holds.request left]
      | some transfer =>
          rw [fastbootWriteCounting, fastbootWriteLoop, holds.request left]
          have within :
              min transfer.count (data.take maxUsbfsBulkSize).length ≤
                data.length := by
            rw [List.length_take]
            omega
          generalize
            min transfer.count (data.take maxUsbfsBulkSize).length = n
            at within
          have lenLeft : (len - UInt64.ofNat n).toNat = (data.drop n).length := by
            rw [toNat_sub_count (left ▸ within), left, List.length_drop]
          have counted : (count + UInt64.ofNat n).toNat = count.toNat + n :=
            toNat_add_count (by omega)
          have more : 0 < len - UInt64.ofNat n ↔ data.drop n ≠ [] := by
            rw [UInt64.lt_iff_toNat_lt, lenLeft]
            exact List.length_pos_iff
          by_cases isMore : data.drop n = []
          · rw [if_neg (fun ahead => more.mp ahead isMore), if_pos isMore,
              counted, toInt32_of_lt (by omega)]
          · rw [if_pos (more.mpr isMore), if_neg isMore, ← counted]
            rw [inductionHypothesis _ (holds.drop n) lenLeft]
            rw [counted, List.length_drop]
            omega

/-- With its counters the loop of `fastboot_download` sends the payload. -/
theorem sendPayloadCounting_eq
    {memory : Nat → UInt8}
    {data : List UInt8}
    {offset len : UInt64}
    (holds : Holds memory offset.toNat data)
    (left : len.toNat = data.length)
    (small : offset.toNat + data.length < 2 ^ 64)
    (fuel : Nat)
    (script : BulkScript) :
    sendPayloadCounting memory fuel offset len script =
      sendPayload fuel data script := by
  induction fuel generalizing data offset len script with
  | zero =>
      rfl
  | succ fuel inductionHypothesis =>
      have more : 0 < len ↔ data ≠ [] := by
        rw [UInt64.lt_iff_toNat_lt, left]
        exact List.length_pos_iff
      rw [sendPayloadCounting, sendPayload]
      by_cases empty : data = []
      · rw [if_neg (fun ahead => more.mp ahead empty), if_pos empty]
      · rw [if_pos (more.mpr empty), if_neg empty]
        have slice :
            (UInt64.ofNat (min len.toNat maxUsbfsBulkSize)).toNat =
              (data.take maxUsbfsBulkSize).length := by
          rw [left, List.length_take, Nat.min_comm]
          exact UInt64.toNat_ofNat_of_lt' (by
            change min maxUsbfsBulkSize data.length < 2 ^ 64
            omega)
        have written :
            fastbootWriteCounting memory offset.toNat
                (UInt64.ofNat (min len.toNat maxUsbfsBulkSize)) 0 script =
              fastbootWrite (data.take maxUsbfsBulkSize) script :=
          fastbootWriteCounting_eq 0 (holds.take maxUsbfsBulkSize) slice (by
            rw [List.length_take, UInt64.toNat_zero, maxUsbfsBulkSize]
            omega) script
        dsimp only
        rw [written]
        split
        · rfl
        · have rest :
              data.drop (min len.toNat maxUsbfsBulkSize) =
                data.drop maxUsbfsBulkSize := by
            rw [left]
            by_cases short : data.length ≤ maxUsbfsBulkSize
            · rw [Nat.min_eq_left short, List.drop_length,
                List.drop_eq_nil_of_le short]
            · rw [Nat.min_eq_right (Nat.le_of_not_le short)]
          have within : min len.toNat maxUsbfsBulkSize ≤ len.toNat :=
            Nat.min_le_left _ _
          have offsetNext :
              (offset +
                  UInt64.ofNat (min len.toNat maxUsbfsBulkSize)).toNat =
                offset.toNat + min len.toNat maxUsbfsBulkSize :=
            toNat_add_count (by omega)
          have lenNext := toNat_sub_count within
          have holdsRest := holds.drop (min len.toNat maxUsbfsBulkSize)
          rw [rest, ← offsetNext] at holdsRest
          have later := inductionHypothesis holdsRest
            (by
              rw [lenNext, ← rest, List.length_drop, left])
            (by
              rw [offsetNext, ← rest, List.length_drop]
              omega)
            (fastbootWrite (data.take maxUsbfsBulkSize) script).script
          rw [later]

/-- With its counters `fastboot_download` makes the same transfers. -/
theorem fastbootDownloadCounting_eq
    {data : List UInt8}
    (small : data.length < 2 ^ 32)
    (beyond : Nat → UInt8)
    (script : BulkScript) :
    fastbootDownloadCounting data beyond script =
      fastbootDownload data script := by
  have cmd : (downloadCommand data.length).length = 17 := by
    simp [downloadCommand, format08x, ascii]
  have cmdLen :
      (UInt64.ofNat (downloadCommand data.length).length).toNat =
        (downloadCommand data.length).length := by
    rw [cmd]
    rfl
  have command :
      fastbootWriteCounting
          (memoryAt (downloadCommand data.length) beyond) 0
          (UInt64.ofNat (downloadCommand data.length).length) 0 script =
        fastbootWrite (downloadCommand data.length) script :=
    fastbootWriteCounting_eq 0 (holds_memoryAt _ beyond) cmdLen
      (by rw [cmd]; decide) script
  have payload :
      ∀ script,
        sendPayloadCounting (memoryAt data beyond) data.length 0
            (UInt64.ofNat data.length) script =
          sendPayload data.length data script :=
    sendPayloadCounting_eq (holds_memoryAt data beyond)
      (UInt64.toNat_ofNat_of_lt' (show data.length < 2 ^ 64 by omega))
      (by rw [UInt64.toNat_zero]; omega) data.length
  simp only [fastbootDownloadCounting, command, payload]
  rfl

/-! ## What the device accepts -/

namespace BulkEvent

/-- Whether a transfer goes to `ep_out`. -/
def isOut : BulkEvent → Bool
  | .out _ _ => true
  | .incoming _ => false

/-- The bytes the device accepted in a transfer. -/
def accepted : BulkEvent → List UInt8
  | .out request (some n) => request.take n
  | .out _ none => []
  | .incoming _ => []

/-- A transfer to `ep_out` of which the device accepted nothing at all. -/
def Failed : BulkEvent → Prop
  | .out _ none => True
  | _ => False

end BulkEvent

/-- The bytes the device accepted in some transfers, in order. -/
def acceptedBytes (trace : List BulkEvent) : List UInt8 :=
  trace.flatMap BulkEvent.accepted

/-- Transfers that send some data from its start on, until one fails. -/
structure Sends (data : List UInt8) (run : BulkRun Int) : Prop where
  out : ∀ event, event ∈ run.trace → event.isOut = true
  sized :
    ∀ request accepted,
      .out request accepted ∈ run.trace →
      request.length ≤ maxUsbfsBulkSize
  ordered : acceptedBytes run.trace <+: data
  whole : 0 ≤ run.value → acceptedBytes run.trace = data
  succeeds :
    0 ≤ run.value → ∀ event, event ∈ run.trace → ¬ event.Failed
  failsLast :
    ∀ before event behind,
      run.trace = before ++ event :: behind → event.Failed → behind = []

/-- Transfers of the rest of some data behind those of its beginning. -/
theorem Sends.after
    {data rest : List UInt8}
    {first later : BulkRun Int}
    (sendsFirst : Sends data first)
    (returned : 0 ≤ first.value)
    (sendsLater : Sends rest later) :
    Sends (data ++ rest) (later.after first.trace) where
  out := by
    intro event member
    rcases List.mem_append.mp member with early | late
    · exact sendsFirst.out event early
    · exact sendsLater.out event late
  sized := by
    intro request accepted member
    rcases List.mem_append.mp member with early | late
    · exact sendsFirst.sized request accepted early
    · exact sendsLater.sized request accepted late
  ordered := by
    change acceptedBytes (first.trace ++ later.trace) <+: _
    rw [acceptedBytes, List.flatMap_append,
      show first.trace.flatMap BulkEvent.accepted = data from
        sendsFirst.whole returned]
    exact (List.prefix_append_right_inj data).mpr sendsLater.ordered
  whole := by
    intro laterReturned
    change acceptedBytes (first.trace ++ later.trace) = _
    rw [acceptedBytes, List.flatMap_append,
      show first.trace.flatMap BulkEvent.accepted = data from
        sendsFirst.whole returned,
      show later.trace.flatMap BulkEvent.accepted = rest from
        sendsLater.whole laterReturned]
  succeeds := by
    intro laterReturned event member
    rcases List.mem_append.mp member with early | late
    · exact sendsFirst.succeeds returned event early
    · exact sendsLater.succeeds laterReturned event late
  failsLast := by
    intro before event behind shape failed
    rcases List.append_eq_append_iff.mp
        (show first.trace ++ later.trace = before ++ event :: behind
          from shape) with ⟨between, isBefore, isLater⟩ | ⟨between, isFirst, isBehind⟩
    · exact sendsLater.failsLast between event behind isLater failed
    · cases between with
      | nil =>
          exact sendsLater.failsLast [] event behind isBehind.symm failed
      | cons head between =>
          rw [List.cons_append, List.cons.injEq] at isBehind
          have member : event ∈ first.trace := by
            rw [isFirst, isBehind.1]
            exact List.mem_append_right _ List.mem_cons_self
          exact absurd failed (sendsFirst.succeeds returned event member)

/-- A request of which the device accepts a part. -/
theorem sends_accepted
    {data : List UInt8}
    {n : Nat}
    (within : n ≤ (data.take maxUsbfsBulkSize).length)
    (value : Int)
    (script : BulkScript) :
    Sends (data.take n)
      ⟨value, script, [.out (data.take maxUsbfsBulkSize) (some n)]⟩ := by
  have accepted :
      acceptedBytes [.out (data.take maxUsbfsBulkSize) (some n)] =
        data.take n := by
    rw [List.length_take] at within
    simp only [acceptedBytes, List.flatMap_singleton, BulkEvent.accepted,
      List.take_take]
    congr 1
    omega
  refine
    { out := ?_
      sized := ?_
      ordered := accepted ▸ List.prefix_refl _
      whole := fun _ => accepted
      succeeds := ?_
      failsLast := ?_ }
  · simp [BulkEvent.isOut]
  · intro request accepted inTrace
    cases List.mem_singleton.mp inTrace
    exact List.length_take_le _ data
  · simp [BulkEvent.Failed]
  · intro before event behind shape _
    cases before with
    | nil => exact (List.cons.inj shape).2.symm
    | cons head before => cases before <;> cases (List.cons.inj shape).2

/-- A request that fails. -/
theorem sends_failed
    (data : List UInt8)
    (script : BulkScript) :
    Sends data ⟨-1, script, [.out (data.take maxUsbfsBulkSize) none]⟩ where
  out := by simp [BulkEvent.isOut]
  sized := by
    intro request accepted inTrace
    cases List.mem_singleton.mp inTrace
    exact List.length_take_le _ data
  ordered := List.nil_prefix
  whole := nofun
  succeeds := nofun
  failsLast := by
    intro before event behind shape _
    cases before with
    | nil => exact (List.cons.inj shape).2.symm
    | cons head before => cases before <;> cases (List.cons.inj shape).2

theorem fastbootWriteLoop_sends
    (data : List UInt8)
    (count : Nat)
    (script : BulkScript) :
    Sends data (fastbootWriteLoop data count script) := by
  induction script generalizing data count with
  | nil =>
      exact sends_failed data []
  | cons outcome script inductionHypothesis =>
      cases outcome with
      | none =>
          exact sends_failed data script
      | some transfer =>
          rw [fastbootWriteLoop]
          have within :=
            Nat.min_le_right transfer.count
              (data.take maxUsbfsBulkSize).length
          generalize
            min transfer.count (data.take maxUsbfsBulkSize).length = n
            at within
          split
          · rename_i last
            have sends := sends_accepted within ((count + n : Nat) : Int) script
            rw [List.take_of_length_le (List.drop_eq_nil_iff.mp last)]
              at sends
            exact sends
          · have later := inductionHypothesis (data.drop n) (count + n)
            have both :=
              (sends_accepted within 0 script).after (Int.le_refl 0) later
            rw [List.take_append_drop] at both
            exact both

theorem sendPayload_sends
    {fuel : Nat}
    {data : List UInt8}
    (enough : data.length ≤ fuel)
    (script : BulkScript) :
    Sends data (sendPayload fuel data script) := by
  have nothing :
      ∀ script, Sends [] ⟨0, script, []⟩ := fun script =>
    { out := nofun
      sized := nofun
      ordered := List.prefix_refl _
      whole := fun _ => rfl
      succeeds := fun _ => nofun
      failsLast := by
        intro before event behind shape
        simp at shape }
  induction fuel generalizing data script with
  | zero =>
      rw [List.eq_nil_of_length_eq_zero (Nat.le_zero.mp enough)]
      exact nothing script
  | succ fuel inductionHypothesis =>
      rw [sendPayload]
      split
      · rename_i empty
        rw [empty]
        exact nothing script
      · have slice :
            Sends (data.take maxUsbfsBulkSize)
              (fastbootWrite (data.take maxUsbfsBulkSize) script) :=
          fastbootWriteLoop_sends _ 0 script
        dsimp only
        split
        · rename_i failed
          exact
            { slice with
              ordered := slice.ordered.trans (List.take_prefix _ _)
              whole := fun returned => absurd returned (Int.not_le.mpr failed) }
        · rename_i returned
          have fewer : (data.drop maxUsbfsBulkSize).length ≤ fuel := by
            rw [List.length_drop, maxUsbfsBulkSize]
            omega
          have later := inductionHypothesis fewer
            (fastbootWrite (data.take maxUsbfsBulkSize) script).script
          have both := slice.after (Int.not_lt.mp returned) later
          rw [List.take_append_drop] at both
          exact both

/-! ## The download on the wire -/

/-- The length a download command announces. -/
def announcedLength : BulkEvent → Option Nat
  | .out request _ =>
      if ascii "download:" <+: request then
        some (hexValue (request.drop 9) 0)
      else
        none
  | .incoming _ => none

/-- The trace behind the device's answer to the download command. -/
def behindAnswer (trace : List BulkEvent) : List BulkEvent :=
  (trace.dropWhile BulkEvent.isOut).dropWhile (!BulkEvent.isOut ·)

/-- The transfers on `ep_out` between the answer and the final status read. -/
def dataTransfers (trace : List BulkEvent) : List BulkEvent :=
  (behindAnswer trace).takeWhile BulkEvent.isOut

/-- The digit that `hexChar` writes. -/
theorem hexDigit_hexChar :
    ∀ digit : Fin 16, hexDigit? (hexChar digit.val) = some digit.val := by
  decide +kernel

theorem hexValue_hexChar
    (digit : Nat)
    (rest : List UInt8)
    (value : Nat) :
    hexValue (hexChar (digit % 16) :: rest) value =
      hexValue rest (value * 16 + digit % 16) := by
  have read := hexDigit_hexChar ⟨digit % 16, Nat.mod_lt _ (by decide)⟩
  rw [hexValue, read]

/-- Reading the last `count` digits of a value goes on to the value. -/
theorem hexValue_digits
    (value count : Nat) :
    hexValue
        ((List.range count).map fun position =>
          hexChar (value / 16 ^ (count - 1 - position) % 16))
        (value / 16 ^ count) = value := by
  induction count with
  | zero => simp [hexValue]
  | succ count inductionHypothesis =>
      have joined :
          value / 16 ^ (count + 1) * 16 + value / 16 ^ count % 16 =
            value / 16 ^ count := by
        rw [Nat.pow_succ, ← Nat.div_div_eq_div_mul]
        exact Nat.div_add_mod' _ 16
      rw [List.range_succ_eq_map, List.map_cons, hexValue_hexChar,
        Nat.add_sub_cancel, Nat.sub_zero, joined, List.map_map]
      simpa only [Function.comp_def, Nat.sub_sub, Nat.add_comm 1] using
        inductionHypothesis

/-- What `%08x` writes reads back. -/
theorem hexValue_format08x
    {len : Nat}
    (small : len < 2 ^ 32) :
    hexValue (format08x len) 0 = len := by
  have read := hexValue_digits len 8
  rw [Nat.div_eq_of_lt (show len < 16 ^ 8 from small)] at read
  rw [format08x, Nat.mod_eq_of_lt small]
  exact read

/-- The first transfer of `fastboot_write` asks for all of a short command. -/
theorem fastbootWrite_head
    {data : List UInt8}
    (short : data.length ≤ maxUsbfsBulkSize)
    (script : BulkScript) :
    ∃ accepted later,
      (fastbootWrite data script).trace = .out data accepted :: later := by
  rw [fastbootWrite]
  cases script with
  | nil =>
      rw [fastbootWriteLoop, List.take_of_length_le short]
      exact ⟨none, [], rfl⟩
  | cons outcome script =>
      cases outcome with
      | none =>
          rw [fastbootWriteLoop, List.take_of_length_le short]
          exact ⟨none, [], rfl⟩
      | some transfer =>
          rw [fastbootWriteLoop, List.take_of_length_le short]
          split
          · exact ⟨_, [], rfl⟩
          · exact ⟨_, _, rfl⟩

/-- `fastboot_read` only reads, and reads at least once. -/
theorem fastbootRead_trace
    (len : Option Nat)
    (script : BulkScript) :
    (fastbootRead len script).trace ≠ [] ∧
      ∀ event, event ∈ (fastbootRead len script).trace →
        event.isOut = false := by
  induction script with
  | nil => simp [fastbootRead, BulkEvent.isOut]
  | cons outcome script inductionHypothesis =>
      cases outcome with
      | none => simp [fastbootRead, BulkEvent.isOut]
      | some transfer =>
          have more :
              ∀ status,
                ((fastbootRead len script).after
                    [.incoming (some status)]).trace ≠ [] ∧
                  ∀ event,
                    event ∈ ((fastbootRead len script).after
                      [.incoming (some status)]).trace →
                    event.isOut = false := by
            intro status
            refine ⟨by simp [BulkRun.after], ?_⟩
            intro event member
            rcases List.mem_cons.mp member with rfl | later
            · rfl
            · exact inductionHypothesis.2 event later
          have last :
              ∀ status : Option (List UInt8),
                [BulkEvent.incoming status] ≠ [] ∧
                  ∀ event, event ∈ [BulkEvent.incoming status] →
                    event.isOut = false := by
            simp [BulkEvent.isOut]
          rw [fastbootRead]
          repeat' split
          all_goals first | exact more _ | exact last _

/-- Between the command and the answer nothing else is sent. -/
theorem behindAnswer_append
    {command answer : List BulkEvent}
    (commandOut : ∀ event, event ∈ command → event.isOut = true)
    (answered : answer ≠ [])
    (answerIn : ∀ event, event ∈ answer → event.isOut = false)
    (later : List BulkEvent) :
    behindAnswer (command ++ answer ++ later) =
      later.dropWhile (!BulkEvent.isOut ·) := by
  rw [behindAnswer, List.append_assoc,
    List.dropWhile_append_of_pos commandOut]
  cases answer with
  | nil => exact absurd rfl answered
  | cons first answer =>
      have firstIn := answerIn first List.mem_cons_self
      rw [List.cons_append, List.dropWhile_cons_of_neg (by simp [firstIn]),
        ← List.cons_append, List.dropWhile_append_of_pos]
      intro event member
      rw [answerIn event member]
      rfl

/-- What is sent behind the answer starts with the payload. -/
theorem dropWhile_incoming
    {sent : List BulkEvent}
    (sentOut : ∀ event, event ∈ sent → event.isOut = true)
    {status : List BulkEvent}
    (statusIn : ∀ event, event ∈ status → event.isOut = false) :
    ((sent ++ status).dropWhile (!BulkEvent.isOut ·)).takeWhile
        BulkEvent.isOut = sent ∧
      (sent ++ status).dropWhile (!BulkEvent.isOut ·) =
        if sent = [] then [] else sent ++ status := by
  cases sent with
  | nil =>
      have skipped : status.dropWhile (!BulkEvent.isOut ·) = [] := by
        rw [List.dropWhile_eq_nil_iff]
        intro event member
        rw [statusIn event member]
        rfl
      rw [List.nil_append, skipped]
      exact ⟨rfl, rfl⟩
  | cons first sent =>
      have firstOut := sentOut first List.mem_cons_self
      rw [List.cons_append, List.dropWhile_cons_of_neg (by simp [firstOut]),
        ← List.cons_append, List.takeWhile_append_of_pos sentOut]
      refine ⟨?_, rfl⟩
      suffices status.takeWhile BulkEvent.isOut = [] by simp [this]
      cases status with
      | nil => rfl
      | cons head status =>
          exact List.takeWhile_cons_of_neg
            (by simp [statusIn head List.mem_cons_self])

/-- What the data transfers of a download are of. -/
structure ExactDownload (data : List UInt8) (run : BulkRun Int) : Prop where
  announced : run.trace.head?.bind announcedLength = some data.length
  ordered : acceptedBytes (dataTransfers run.trace) <+: data
  sized :
    ∀ request accepted,
      .out request accepted ∈ dataTransfers run.trace →
      request.length ≤ 16384
  whole : 0 ≤ run.value → acceptedBytes (dataTransfers run.trace) = data
  failsLast :
    ∀ before event behind,
      behindAnswer run.trace = before ++ event :: behind →
      event.Failed →
      behind = []

/-- A download of which only the payload and the status follow the answer. -/
theorem Sends.exactDownload
    {data : List UInt8}
    {run payload : BulkRun Int}
    (sends : Sends data payload)
    (status : List BulkEvent)
    (statusIn : ∀ event, event ∈ status → event.isOut = false)
    (behind :
      behindAnswer run.trace =
        (payload.trace ++ status).dropWhile (!BulkEvent.isOut ·))
    (returned : 0 ≤ run.value → 0 ≤ payload.value)
    (stopped : payload.value < 0 → status = [])
    (announced : run.trace.head?.bind announcedLength = some data.length) :
    ExactDownload data run := by
  obtain ⟨transfers, rest⟩ := dropWhile_incoming sends.out statusIn
  have sent : dataTransfers run.trace = payload.trace := by
    rw [dataTransfers, behind, transfers]
  refine
    { announced := announced
      ordered := sent.symm ▸ sends.ordered
      sized := sent.symm ▸ sends.sized
      whole := fun ok => sent.symm ▸ sends.whole (returned ok)
      failsLast := ?_ }
  intro before event later shape failed
  rw [behind, rest] at shape
  split at shape
  · simp at shape
  · by_cases ok : 0 ≤ payload.value
    · have member : event ∈ payload.trace ++ status := by
        rw [shape]
        exact List.mem_append_right _ List.mem_cons_self
      rcases List.mem_append.mp member with early | late
      · exact absurd failed (sends.succeeds ok event early)
      · have incoming := statusIn event late
        cases event with
        | out request accepted => cases incoming
        | incoming answer => cases failed
    · rw [stopped (Int.not_le.mp ok), List.append_nil] at shape
      exact sends.failsLast before event later shape failed

/-- The download of a payload, whatever the transfers do. -/
theorem fastbootDownload_exact
    {data : List UInt8}
    (small : data.length < 2 ^ 32)
    (script : BulkScript) :
    ExactDownload data (fastbootDownload data script) := by
  have command :
      Sends (downloadCommand data.length)
        (fastbootWrite (downloadCommand data.length) script) :=
    fastbootWriteLoop_sends _ 0 script
  have length : (downloadCommand data.length).length = 17 := by
    simp [downloadCommand, format08x, ascii]
  obtain ⟨accepted, later, head⟩ :=
    fastbootWrite_head (by rw [length, maxUsbfsBulkSize]; omega) script
  have announced :
      announcedLength (.out (downloadCommand data.length) accepted) =
        some data.length := by
    rw [announcedLength, if_pos (by
      rw [downloadCommand]
      exact List.prefix_append _ _)]
    rw [downloadCommand, List.drop_left' (by decide),
      hexValue_format08x small]
  have first :
      ∀ behind,
        ((fastbootWrite (downloadCommand data.length) script).trace ++
            behind).head?.bind announcedLength = some data.length := by
    intro behind
    rw [head, List.cons_append, List.head?_cons, Option.bind_some, announced]
  rw [fastbootDownload]
  generalize
    fastbootWrite (downloadCommand data.length) script = written
    at command first
  obtain ⟨answered, answerIn⟩ :=
    fastbootRead_trace (some maxUsbfsBulkSize) written.script
  dsimp only
  generalize
    fastbootRead (some maxUsbfsBulkSize) written.script = answer
    at answered answerIn
  have behind := behindAnswer_append command.out answered answerIn
  split
  · -- The device rejects the download: nothing is sent.
    have nothing : Sends data ⟨-1, answer.script, []⟩ :=
      { out := nofun
        sized := nofun
        ordered := List.nil_prefix
        whole := nofun
        succeeds := nofun
        failsLast := by
          intro before event later shape
          simp at shape }
    refine nothing.exactDownload [] nofun ?_ id (fun _ => rfl)
      (first answer.trace)
    have only := behind []
    rwa [List.append_nil] at only
  · have payload := sendPayload_sends (Nat.le_refl data.length) answer.script
    split
    · refine payload.exactDownload [] nofun ?_ id (fun _ => rfl) ?_
      · rw [List.append_nil]
        exact behind _
      · rw [BulkRun.after, List.append_assoc]
        exact first _
    · rename_i returned
      have final :=
        (fastbootRead_trace none
          (sendPayload data.length data answer.script).script).2
      refine payload.exactDownload _ final ?_
        (fun _ => Int.not_lt.mp returned)
        (fun failed => absurd failed returned) ?_
      · rw [← behind, List.append_assoc]
      · simp only [List.append_assoc]
        exact first _

/--
`fastboot_download` of a payload below 4 GiB: the command announces its
length, what the device accepts between the answer and the final status is a
prefix of it in requests of at most 16384 bytes, all of it when the function
succeeds, and nothing follows a data transfer that fails.
-/
theorem fastbootDownloadCounting_exact
    {data : List UInt8}
    (small : data.length < 2 ^ 32)
    (beyond : Nat → UInt8)
    (script : BulkScript) :
    ExactDownload data (fastbootDownloadCounting data beyond script) := by
  rw [fastbootDownloadCounting_eq small]
  exact fastbootDownload_exact small script

/-- A payload of three bytes that the device takes in two transfers. -/
def exampleDownload : BulkRun Int :=
  fastbootDownloadCounting [1, 2, 3] (fun _ => 0)
    [some ⟨17, []⟩, some ⟨12, ascii "DATA00000003"⟩, some ⟨1, []⟩,
      some ⟨2, []⟩, some ⟨4, ascii "OKAY"⟩]

theorem exampleDownload_exact :
    ExactDownload [1, 2, 3] exampleDownload :=
  fastbootDownloadCounting_exact (by decide) _ _

end Cdba
