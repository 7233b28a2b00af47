import Cdba.Libc

namespace Cdba

/-!
# Status messages

`status.c`: the lines in which a control driver reports voltages, currents and
GPIOs.  A line is built in a buffer of fixed size, and given up when it does
not fit.
-/

/-- `enum status_unit`, apart from the end marker. -/
inductive StatusUnit where
  | mv
  | ma
  | gpio
  deriving DecidableEq, Repr

/-- `sz_units` -/
def StatusUnit.sz : StatusUnit → CString
  | .mv => ascii "mv"
  | .ma => ascii "ma"
  | .gpio => ascii "gpio"

/-- `struct status_value` -/
structure StatusValue where
  unit : StatusUnit
  value : UInt32
  deriving DecidableEq

/-- The time since the first status message, in seconds and nanoseconds. -/
structure StatusTime where
  sec : Nat
  nsec : Nat
  deriving DecidableEq

/-- `%u`, and `%lld` of a number that is not negative -/
def decimal (number : Nat) : CString :=
  (Nat.toDigits 10 number).map fun digit => UInt8.ofNat digit.toNat

/-- `%03ld` of a number that is not negative -/
def decimal3 (number : Nat) : CString :=
  List.replicate (3 - (decimal number).length) 0x30 ++ decimal number

/-- `sizeof(buf)` in `status_send_values` -/
def statusBufSize : Nat :=
  256

/-- What `status_send_values` writes in front of the values. -/
def statusHead (ts : StatusTime) (id : CString) : CString :=
  ascii "\x7b\"ts\":" ++ decimal ts.sec ++ ascii "." ++
    decimal3 (ts.nsec / 1000000) ++ ascii ", \"" ++ id ++ ascii "\":\x7b "

/-- One value, as `snprintf` formats it. -/
def statusChunk (value : StatusValue) : CString :=
  ascii "\"" ++ value.unit.sz ++ ascii "\": " ++ decimal value.value.toNat

/--
The loop of `status_send_values` behind the first value.  `text` is everything
formatted so far; the buffer only differs from it when it is too long, and then
every check fails.
-/
def appendValues (text : CString) : List StatusValue → Option CString
  | [] => some text
  | value :: rest =>
      if text.length + 3 ≥ statusBufSize then
        none
      else
        let text := text ++ ascii ", "
        if text.length + (statusChunk value).length + 1 ≥ statusBufSize then
          none
        else
          appendValues (text ++ statusChunk value) rest

/-- The loop of `status_send_values`: the first value has no separator. -/
def formatValues (text : CString) : List StatusValue → Option CString
  | [] => some text
  | value :: rest =>
      if text.length + (statusChunk value).length + 1 ≥ statusBufSize then
        none
      else
        appendValues (text ++ statusChunk value) rest

/--
`status_send_values`: the payload of its `MSG_STATUS_UPDATE`, or nothing when
the message overflows the buffer.
-/
def statusSendValues
    (ts : StatusTime)
    (id : CString)
    (values : List StatusValue) :
    Option CString :=
  match formatValues (statusHead ts id) values with
  | none => none
  | some text =>
      if text.length + 4 ≥ statusBufSize then
        none
      else
        some (text ++ ascii "\x7d\x7d\n")

/-- A status message fits into the buffer it is built in. -/
theorem length_statusSendValues
    {ts : StatusTime}
    {id : CString}
    {values : List StatusValue}
    {line : CString}
    (sent : statusSendValues ts id values = some line) :
    line.length < statusBufSize := by
  unfold statusSendValues at sent
  split at sent
  · contradiction
  · split at sent
    · contradiction
    · rename_i text _ short
      cases sent
      rw [List.length_append]
      have ends : (ascii "\x7d\x7d\n").length = 3 := by decide
      omega

/-! ## Newlines -/

/-- `'\n'` -/
def newline : UInt8 :=
  0x0a

/-- A text without its terminating newline. -/
def OneLine (text : CString) : Prop :=
  newline ∉ text

instance (text : CString) : Decidable (OneLine text) :=
  inferInstanceAs (Decidable (newline ∉ text))

theorem OneLine.append
    {first second : CString}
    (firstLine : OneLine first)
    (secondLine : OneLine second) :
    OneLine (first ++ second) := by
  intro member
  rcases List.mem_append.mp member with inFirst | inSecond
  · exact firstLine inFirst
  · exact secondLine inSecond

theorem decimal_oneLine
    (number : Nat) :
    OneLine (decimal number) := by
  intro member
  obtain ⟨digit, isDigit, same⟩ := List.mem_map.mp member
  have range := Nat.isDigit_of_mem_toDigits (by decide) (by decide) isDigit
  simp only [Char.isDigit, Bool.and_eq_true, decide_eq_true_eq] at range
  have lower : 48 ≤ digit.toNat := range.1
  have upper : digit.toNat ≤ 57 := range.2
  have value := congrArg UInt8.toNat same
  rw [UInt8.toNat_ofNat', show newline.toNat = 10 from rfl] at value
  omega

theorem decimal3_oneLine
    (number : Nat) :
    OneLine (decimal3 number) := by
  refine OneLine.append ?_ (decimal_oneLine number)
  intro member
  exact absurd (List.eq_of_mem_replicate member) (by decide)

theorem statusHead_oneLine
    (ts : StatusTime)
    {id : CString}
    (idLine : OneLine id) :
    OneLine (statusHead ts id) := by
  have opening : OneLine (ascii "\x7b\"ts\":") := by decide
  have point : OneLine (ascii ".") := by decide
  have comma : OneLine (ascii ", \"") := by decide
  have brace : OneLine (ascii "\":\x7b ") := by decide
  exact (((((opening.append (decimal_oneLine _)).append point).append
    (decimal3_oneLine _)).append comma).append idLine).append brace

theorem statusChunk_oneLine
    (value : StatusValue) :
    OneLine (statusChunk value) := by
  have quote : OneLine (ascii "\"") := by decide
  have colon : OneLine (ascii "\": ") := by decide
  have unit : OneLine value.unit.sz := by
    cases value.unit <;> decide
  exact ((quote.append unit).append colon).append (decimal_oneLine _)

theorem appendValues_oneLine
    {text final : CString}
    {values : List StatusValue}
    (textLine : OneLine text)
    (formatted : appendValues text values = some final) :
    OneLine final := by
  have separator : OneLine (ascii ", ") := by decide
  induction values generalizing text with
  | nil =>
      cases formatted
      exact textLine
  | cons value rest inductionHypothesis =>
      unfold appendValues at formatted
      split at formatted
      · contradiction
      · dsimp only at formatted
        split at formatted
        · contradiction
        · exact inductionHypothesis
            ((textLine.append separator).append
              (statusChunk_oneLine value))
            formatted

theorem formatValues_oneLine
    {text final : CString}
    {values : List StatusValue}
    (textLine : OneLine text)
    (formatted : formatValues text values = some final) :
    OneLine final := by
  cases values with
  | nil =>
      cases formatted
      exact textLine
  | cons value rest =>
      simp only [formatValues] at formatted
      split at formatted
      · contradiction
      · exact appendValues_oneLine
          (textLine.append (statusChunk_oneLine value)) formatted

/-- A status message is one line: text without a newline, and a newline. -/
theorem statusSendValues_line
    {ts : StatusTime}
    {id : CString}
    {values : List StatusValue}
    {line : CString}
    (idLine : OneLine id)
    (sent : statusSendValues ts id values = some line) :
    ∃ text, OneLine text ∧ line = text ++ [newline] := by
  have braces : OneLine (ascii "\x7d\x7d") := by decide
  unfold statusSendValues at sent
  split at sent
  · contradiction
  · rename_i text formatted
    split at sent
    · contradiction
    · cases sent
      have textLine :=
        formatValues_oneLine (statusHead_oneLine ts idLine) formatted
      refine ⟨text ++ ascii "\x7d\x7d", textLine.append braces, ?_⟩
      rw [List.append_assoc]
      rfl

/-- The report of a debug board. -/
example :
    statusSendValues ⟨3, 45000000⟩ (ascii "dc")
        [⟨.mv, 12050⟩, ⟨.ma, 310⟩] =
      some (ascii
        "\x7b\"ts\":3.045, \"dc\":\x7b \"mv\": 12050, \"ma\": 310\x7d\x7d\n") := by
  decide

end Cdba
