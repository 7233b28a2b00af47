import Cdba.FastbootPayload

namespace Cdba

/-!
# The answer to a download command

A device answers a download command with `DATA` and the size that it expects,
or it refuses.  `fastboot_read` folds every answer into one `int`, and
`fastboot_download` only looks at its sign.
-/

/-- What a device answers to a command. -/
inductive DeviceAnswer where
  | okay
  | data (size : Int)
  /-- `FAIL`, a short packet, or a failing transfer. -/
  | refused
  deriving DecidableEq, Repr

/-- The answer that the next packets give; others are only information. -/
def deviceAnswer : BulkScript → DeviceAnswer
  | [] => .refused
  | none :: _ => .refused
  | some transfer :: script =>
      let packet := transfer.data.take 64
      if packet.length < 4 then
        .refused
      else if packet.take 4 = ascii "OKAY" then
        .okay
      else if packet.take 4 = ascii "FAIL" then
        .refused
      else if packet.take 4 = ascii "DATA" then
        .data (strtol16 (cstr (packet.drop 4)))
      else
        deviceAnswer script

/-- The answer to the command of a download. -/
def downloadAnswer (data : List UInt8) (script : BulkScript) : DeviceAnswer :=
  deviceAnswer (fastbootWrite (downloadCommand data.length) script).script

/-- What `fastboot_read` makes of an answer. -/
def DeviceAnswer.ReadAs (value : Int) : DeviceAnswer → Prop
  | .okay => 0 ≤ value
  | .data size => value = toInt32 size
  | .refused => value < 0

theorem fastbootRead_readAs
    (len : Option Nat)
    (script : BulkScript) :
    (deviceAnswer script).ReadAs (fastbootRead len script).value.1 := by
  have failure : (-enxio : Int) < 0 := by decide
  induction script with
  | nil => exact failure
  | cons outcome script inductionHypothesis =>
      cases outcome with
      | none => exact failure
      | some transfer =>
          rw [fastbootRead, deviceAnswer]
          generalize transfer.data.take 64 = packet
          by_cases short : packet.length < 4
          · rw [if_pos short, if_pos short]
            exact (by decide : (-1 : Int) < 0)
          · rw [if_neg short, if_neg short]
            by_cases info : packet.take 4 = ascii "INFO"
            · -- Information is passed on, and the next packet is read.
              have others :
                  ascii "INFO" ≠ ascii "OKAY" ∧ ascii "INFO" ≠ ascii "FAIL" ∧
                    ascii "INFO" ≠ ascii "DATA" := by
                decide
              rw [info, if_pos rfl, if_neg others.1, if_neg others.2.1,
                if_neg others.2.2]
              exact inductionHypothesis
            · rw [if_neg info]
              split
              · exact Int.sub_nonneg_of_le (Int.ofNat_le.mpr
                  (Nat.not_lt.mp short))
              · split
                · exact failure
                · split
                  · rfl
                  · exact inductionHypothesis

/-! ## What is sent -/

/-- A payload is sent in at least one transfer. -/
theorem sendPayload_sendsSome
    {data : List UInt8}
    (some_ : data ≠ [])
    (script : BulkScript) :
    (sendPayload data.length data script).trace ≠ [] := by
  have short : (data.take maxUsbfsBulkSize).length ≤ maxUsbfsBulkSize :=
    List.length_take_le _ data
  obtain ⟨accepted, later, first⟩ := fastbootWrite_head short script
  obtain ⟨length, isLength⟩ :=
    Nat.exists_eq_succ_of_ne_zero (mt List.length_eq_zero_iff.mp some_)
  rw [isLength, sendPayload, if_neg some_]
  dsimp only
  split
  · rw [first]
    exact List.cons_ne_nil _ _
  · rw [BulkRun.after, first]
    exact List.cons_ne_nil _ _

/-- Whether the payload is sent depends on the value of the answer only. -/
theorem fastbootDownload_cases
    (data : List UInt8)
    (script : BulkScript) :
    ∃ value,
      (downloadAnswer data script).ReadAs value ∧
        if value < 0 then
          (fastbootDownload data script).value < 0 ∧
            dataTransfers (fastbootDownload data script).trace = []
        else
          ∃ later,
            dataTransfers (fastbootDownload data script).trace =
              (sendPayload data.length data later).trace := by
  have commandOut :
      ∀ event,
        event ∈ (fastbootWrite (downloadCommand data.length) script).trace →
        event.isOut = true :=
    (fastbootWriteLoop_sends _ 0 script).out
  rw [fastbootDownload, downloadAnswer]
  generalize fastbootWrite (downloadCommand data.length) script = command
    at commandOut
  refine ⟨_, fastbootRead_readAs (some maxUsbfsBulkSize) command.script, ?_⟩
  obtain ⟨answered, answerIn⟩ :=
    fastbootRead_trace (some maxUsbfsBulkSize) command.script
  dsimp only
  generalize fastbootRead (some maxUsbfsBulkSize) command.script = answer
    at answered answerIn
  have behind := behindAnswer_append commandOut answered answerIn
  have payloadOut := (sendPayload_sends (Nat.le_refl data.length)
    answer.script).out
  split
  · refine ⟨(by decide : (-1 : Int) < 0), ?_⟩
    have nothing := behind []
    rw [List.append_nil] at nothing
    rw [dataTransfers, nothing]
    rfl
  · refine ⟨answer.script, ?_⟩
    split
    · have sent := (@dropWhile_incoming _ payloadOut [] fun _ member =>
        absurd member List.not_mem_nil).1
      rw [List.append_nil] at sent
      rw [BulkRun.after, dataTransfers, behind, sent]
    · have final := (fastbootRead_trace none
        (sendPayload data.length data answer.script).script).2
      rw [dataTransfers, List.append_assoc, behind]
      exact (dropWhile_incoming payloadOut final).1

/-! ## What the device asked for -/

/-- The payload is sent exactly to a device that asked for all of it. -/
structure SendsOnlyAsked
    (data : List UInt8)
    (beyond : Nat → UInt8)
    (script : BulkScript) : Prop where
  sends :
    dataTransfers (fastbootDownloadCounting data beyond script).trace ≠ [] ↔
      downloadAnswer data script = .data data.length
  refuses :
    downloadAnswer data script ≠ .data data.length →
    (fastbootDownloadCounting data beyond script).value < 0 ∧
      dataTransfers (fastbootDownloadCounting data beyond script).trace = []

/--
An answer whose sign as an `int` tells whether it asks for a payload: it is not
`OKAY`, the size of the payload is below `2^31`, and another size is not.
-/
def DeviceAnswer.SignTells (len : Nat) : DeviceAnswer → Prop
  | .okay => False
  | .data size =>
      if size = len then size < 2 ^ 31 else toInt32 size < 0
  | .refused => True

/--
For every payload below 4 GiB and whatever the device answers,
`fastboot_download` sends the payload exactly when it was asked for all of it,
if and only if the sign of the answer tells so.
-/
theorem fastbootDownload_sendsOnlyAsked_iff
    {data : List UInt8}
    (some_ : data ≠ [])
    (small : data.length < 2 ^ 32)
    (beyond : Nat → UInt8)
    (script : BulkScript) :
    SendsOnlyAsked data beyond script ↔
      (downloadAnswer data script).SignTells data.length := by
  obtain ⟨value, readAs, sends⟩ := fastbootDownload_cases data script
  rw [← fastbootDownloadCounting_eq small beyond] at sends
  have sendsSome := fun later => sendPayload_sendsSome some_ later
  have refusal :
      ∀ answer,
        downloadAnswer data script = answer →
        value < 0 →
        (SendsOnlyAsked data beyond script ↔ answer ≠ .data data.length) := by
    rintro _ rfl refused
    rw [if_pos refused] at sends
    refine ⟨fun only asked => only.sends.mpr asked sends.2, fun other => ?_⟩
    exact ⟨iff_of_false (fun some_ => some_ sends.2) other, fun _ => sends⟩
  have acceptance :
      ∀ answer,
        downloadAnswer data script = answer →
        0 ≤ value →
        (SendsOnlyAsked data beyond script ↔ answer = .data data.length) := by
    rintro _ rfl accepted
    rw [if_neg (Int.not_lt.mpr accepted)] at sends
    obtain ⟨later, sent⟩ := sends
    have some_ := sent ▸ sendsSome later
    exact ⟨fun only => only.sends.mp some_, fun asked =>
      ⟨iff_of_true some_ asked, fun other => absurd asked other⟩⟩
  cases answer : downloadAnswer data script with
  | okay =>
      rw [answer] at readAs
      rw [acceptance .okay answer readAs]
      exact iff_of_false nofun id
  | refused =>
      rw [answer] at readAs
      rw [refusal .refused answer readAs]
      exact iff_of_true nofun trivial
  | data size =>
      rw [answer] at readAs
      have isValue : value = toInt32 size := readAs
      have whole :
          size = data.length → (0 ≤ toInt32 size ↔ size < 2 ^ 31) := by
        rintro rfl
        rw [toInt32]
        omega
      rw [DeviceAnswer.SignTells, ← isValue]
      by_cases negative : value < 0
      · rw [refusal _ answer negative, ne_eq, DeviceAnswer.data.injEq]
        split
        · rename_i asksAll
          have large := mt (whole asksAll).mpr
            (isValue ▸ Int.not_le.mpr negative)
          exact iff_of_false (fun other => other asksAll) large
        · rename_i other
          exact iff_of_true other negative
      · have accepted := Int.not_lt.mp negative
        rw [acceptance _ answer accepted, DeviceAnswer.data.injEq]
        split
        · rename_i asksAll
          exact iff_of_true asksAll ((whole asksAll).mp (isValue ▸ accepted))
        · rename_i other
          exact iff_of_false other negative

/-- Three bytes that are asked for. -/
theorem threeBytes_sendsOnlyAsked_iff :
    SendsOnlyAsked [1, 2, 3] (fun _ => 0)
        [some ⟨17, []⟩, some ⟨12, ascii "DATA00000003"⟩, some ⟨3, []⟩] ↔
      (downloadAnswer [1, 2, 3]
        [some ⟨17, []⟩, some ⟨12, ascii "DATA00000003"⟩,
          some ⟨3, []⟩]).SignTells 3 :=
  fastbootDownload_sendsOnlyAsked_iff (by decide) (by decide) _ _

/-- A device that asks for two bytes is sent one. -/
theorem otherSize_sent :
    ¬ ∀ (data : List UInt8) (beyond : Nat → UInt8) (script : BulkScript),
      data ≠ [] →
      data.length < 2 ^ 32 →
      SendsOnlyAsked data beyond script := by
  intro always
  have only := always [0x78] (fun _ => 0)
    [some ⟨17, []⟩, some ⟨12, ascii "DATA00000002"⟩, some ⟨1, []⟩]
    (by decide) (by decide)
  have asked := only.sends.mp (by decide +kernel)
  exact absurd asked (by decide +kernel)

/-! ## Eight hexadecimal digits -/

theorem hexDigit_char :
    ∀ ch, (hexDigit? ch).isSome →
      isSpace ch = false ∧ ch ≠ 0 ∧ ch ≠ 0x2b ∧ ch ≠ 0x2d ∧
        (ch == 0x78 || ch == 0x58) = false ∧ (hexDigit? ch).all (· < 16) :=
  forall_char (by decide +kernel)

/-- Each digit makes room for sixteen times the values. -/
theorem hexValue_lt
    {digits : List UInt8}
    (hex : ∀ ch, ch ∈ digits → (hexDigit? ch).isSome)
    {value bound : Nat}
    (below : value < bound) :
    hexValue digits value < bound * 16 ^ digits.length := by
  induction digits generalizing value bound with
  | nil => simpa [hexValue] using below
  | cons ch rest inductionHypothesis =>
      have isHex := hex ch List.mem_cons_self
      obtain ⟨digit, isDigit⟩ := Option.isSome_iff_exists.mp isHex
      have small := (hexDigit_char ch isHex).2.2.2.2.2
      rw [isDigit, Option.all_some, decide_eq_true_eq] at small
      rw [hexValue, isDigit, List.length_cons, Nat.pow_succ', ← Nat.mul_assoc]
      exact inductionHypothesis
        (fun ch member => hex ch (List.mem_cons_of_mem _ member)) (by omega)

/-- `strtol()` takes all of a few digits. -/
theorem strtol16_digits
    {digits : List UInt8}
    (short : digits.length ≤ 8)
    (hex : ∀ ch, ch ∈ digits → (hexDigit? ch).isSome) :
    strtol16 (cstr digits) = hexValue digits 0 := by
  have string : cstr digits = digits :=
    cstr_eq_self fun member => (hexDigit_char 0 (hex 0 member)).2.1 rfl
  have first :
      ∀ ch, digits.head? = some ch →
        isSpace ch = false ∧ ch ≠ 0x2b ∧ ch ≠ 0x2d := by
    intro ch isHead
    have facts := hexDigit_char ch (hex ch (List.mem_of_head? isHead))
    exact ⟨facts.1, facts.2.2.1, facts.2.2.2.1⟩
  have noSpace : digits.dropWhile isSpace = digits := by
    cases digits with
    | nil => rfl
    | cons ch rest =>
        rw [List.dropWhile_cons_of_neg (by simp [(first ch rfl).1])]
  have noSign :
      (digits.head? == some 0x2d) = false ∧
        (digits.head? == some 0x2b) = false := by
    cases digits with
    | nil => exact ⟨rfl, rfl⟩
    | cons ch rest =>
        simp [(first ch rfl).2.1, (first ch rfl).2.2]
  have noPrefix : skipHexPrefix digits = digits := by
    rcases digits with _ | ⟨zero, _ | ⟨x, _ | ⟨digit, rest⟩⟩⟩
    · rfl
    · rfl
    · rfl
    · have facts := hexDigit_char x (hex x (by simp))
      simp [skipHexPrefix, facts.2.2.2.2.1]
  have bound := hexValue_lt hex (show 0 < 1 by decide)
  have small : 16 ^ digits.length ≤ 16 ^ 8 :=
    Nat.pow_le_pow_right (by decide) short
  rw [string, strtol16]
  simp only [noSpace, noSign.1, noSign.2, noPrefix, Bool.or_self,
    Bool.false_eq_true, if_false]
  omega

/-- For eight digits: the payload's size below `2^31`, another one not. -/
theorem signTells_digits
    {digits : List UInt8}
    (count : digits.length = 8)
    (hex : ∀ ch, ch ∈ digits → (hexDigit? ch).isSome)
    (len : Nat) :
    (DeviceAnswer.data (strtol16 (cstr digits))).SignTells len ↔
      if hexValue digits 0 = len then
        hexValue digits 0 < 2 ^ 31
      else
        2 ^ 31 ≤ hexValue digits 0 := by
  have bound := hexValue_lt hex (show 0 < 1 by decide)
  rw [count] at bound
  rw [DeviceAnswer.SignTells, strtol16_digits (Nat.le_of_eq count) hex]
  by_cases same : hexValue digits 0 = len
  · rw [if_pos same, if_pos (congrArg Nat.cast same)]
    omega
  · rw [if_neg same, if_neg (by omega), toInt32]
    omega

end Cdba
