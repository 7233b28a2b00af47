import Cdba.StatusLines
import Cdba.Transducer

namespace Cdba

/-!
# The control data of the debug board

`qcomlt_dbg_ctrl_data` reads voltages and currents off a serial line with a
parser that keeps its state from one `read()` to the next.  The state in which
a measurement is reported is not left again, so what follows is taken for an
error, and the next measurement goes into getting over it.
-/

/-- `enum qcomlt_parse_state`: what of a measurement has been read so far. -/
inductive QcomltParseState where
  | empty
  | num
  | numM
  | numMV
  | numMVNum
  | numMVNumM
  | err
  deriving DecidableEq, Repr

/-- `struct qcomlt_dbg`, apart from the descriptor -/
structure QcomltDbg where
  parseState : QcomltParseState
  mv : UInt64
  ma : UInt64
  deriving DecidableEq

namespace QcomltDbg

/-- `isdigit()` -/
def isDigit (char : UInt8) : Bool :=
  0x30 ≤ char && char ≤ 0x39

/-- `ch - '0'` -/
def digitValue (char : UInt8) : UInt64 :=
  (char - 0x30).toUInt64

/-- As `calloc` leaves it. -/
def zero : QcomltDbg :=
  ⟨.empty, 0, 0⟩

/-- One turn of the loop in `qcomlt_dbg_ctrl_data`, with the report it makes. -/
def parse (dbg : QcomltDbg) (ch : UInt8) : QcomltDbg × List StatusReport :=
  match dbg.parseState with
  | .empty =>
      if isDigit ch then
        ({ dbg with mv := digitValue ch, parseState := .num }, [])
      else
        (dbg, [])
  | .num =>
      if isDigit ch then
        ({ dbg with mv := dbg.mv * 10 + digitValue ch }, [])
      else if ch = 0x6d then
        ({ dbg with parseState := .numM }, [])
      else
        ({ dbg with parseState := .err }, [])
  | .numM =>
      if ch = 0x56 then
        ({ dbg with parseState := .numMV }, [])
      else
        ({ dbg with parseState := .err }, [])
  | .numMV =>
      if isDigit ch then
        ({ dbg with ma := digitValue ch, parseState := .numMVNum }, [])
      else if !isSpace ch then
        ({ dbg with parseState := .err }, [])
      else
        (dbg, [])
  | .numMVNum =>
      if isDigit ch then
        ({ dbg with ma := dbg.ma * 10 + digitValue ch }, [])
      else if ch = 0x6d then
        ({ dbg with parseState := .numMVNumM }, [])
      else
        ({ dbg with parseState := .err }, [])
  | .numMVNumM =>
      if ch = 0x41 then
        -- The parser stays in this state.
        (dbg, [.dc dbg.mv.toUInt32 dbg.ma.toUInt32])
      else
        ({ dbg with parseState := .err }, [])
  | .err =>
      if ch = 0x41 then
        ({ dbg with parseState := .empty }, [])
      else
        (dbg, [])

/-- The parser as a machine that reads bytes and writes reports. -/
def parser : Transducer QcomltDbg UInt8 StatusReport :=
  ⟨parse⟩

end QcomltDbg

open QcomltDbg

/--
`qcomlt_dbg_ctrl_data`, given what `read()` put into its buffer; without that
the read failed, and the callback returns its result.
-/
def qcomltDbgCtrlData
    (dbg : QcomltDbg)
    (buf : Option (List UInt8)) :
    QcomltDbg × Option (List StatusReport) :=
  match buf with
  | none => (dbg, none)
  | some buf => (parser.after dbg buf, some (parser.output dbg buf))

/-- The reports made while the data arrives in the given portions. -/
def qcomltDbgReports : QcomltDbg → List (List UInt8) → List StatusReport
  | _, [] => []
  | dbg, portion :: rest =>
      let (dbg, reports) := qcomltDbgCtrlData dbg (some portion)
      reports.getD [] ++ qcomltDbgReports dbg rest

/-- The portions make no difference. -/
theorem qcomltDbgReports_eq
    (dbg : QcomltDbg)
    (portions : List (List UInt8)) :
    qcomltDbgReports dbg portions = parser.output dbg portions.flatten := by
  rw [← parser.outputs_eq]
  induction portions generalizing dbg with
  | nil =>
      rfl
  | cons portion rest inductionHypothesis =>
      simp only [qcomltDbgReports, qcomltDbgCtrlData, inductionHypothesis]
      rfl

/--
The callback in the main loop of the server: a status message for each report,
at the time at which it is made.
-/
def qcomltDbgCallback
    (dbg : QcomltDbg)
    (buf : Option (List UInt8))
    (ts : Nat → StatusTime) :
    Callback :=
  .controlData ((qcomltDbgCtrlData dbg buf).2.map fun reports =>
    (reports.mapIdx fun index made => (ts index, made)).flatMap
      fun made => (StatusStep.report made.1 made.2).payloads)

/-- The callback sends what `status_send_values` makes of its reports. -/
theorem runCallback_qcomltDbg
    {n : Nat}
    (dbg : QcomltDbg)
    (buf : List UInt8)
    (ts : Nat → StatusTime) :
    runCallback (n := n) (qcomltDbgCallback dbg (some buf) ts) =
      Program.within Receiver.stateOf (onHw (Program.each StatusStep.run
        (((parser.output dbg buf).mapIdx fun index made =>
          (ts index, made)).map fun made => .report made.1 made.2))) := by
  rw [StatusStep.each_run_reports]
  rfl

/-! ## Numbers -/

namespace QcomltDbg

/-- The number that digits add up to, behind those read before. -/
def accumulate (value : UInt64) (digits : List UInt8) : UInt64 :=
  digits.foldl (fun value digit => value * 10 + digitValue digit) value

theorem digitChar_byte
    {char : Char}
    (digit : char.isDigit = true) :
    isDigit (UInt8.ofNat char.toNat) = true ∧
      digitValue (UInt8.ofNat char.toNat) =
        UInt64.ofNat (char.toNat - '0'.toNat) := by
  simp only [Char.isDigit, Bool.and_eq_true, decide_eq_true_eq] at digit
  have lower : 48 ≤ char.toNat := digit.1
  have upper : char.toNat ≤ 57 := digit.2
  have codes :
      ∀ code : Fin 58, 48 ≤ code.val →
        isDigit (UInt8.ofNat code.val) = true ∧
          digitValue (UInt8.ofNat code.val) =
            UInt64.ofNat (code.val - '0'.toNat) := by
    decide
  exact codes ⟨char.toNat, by omega⟩ lower

theorem accumulate_digits
    {digits : List Char}
    (isDigits : ∀ char, char ∈ digits → char.isDigit = true)
    (value : Nat) :
    accumulate (UInt64.ofNat value)
        (digits.map fun char => UInt8.ofNat char.toNat) =
      UInt64.ofNat (Nat.ofDigitChars 10 digits value) := by
  induction digits generalizing value with
  | nil =>
      simp [accumulate]
  | cons char rest inductionHypothesis =>
      have first := (digitChar_byte (isDigits char List.mem_cons_self)).2
      have later := inductionHypothesis
        (fun later member => isDigits later (List.mem_cons_of_mem _ member))
        (10 * value + (char.toNat - '0'.toNat))
      rw [Nat.ofDigitChars_cons, ← later, List.map_cons, accumulate,
        List.foldl_cons, first]
      have next :
          UInt64.ofNat value * 10 +
              UInt64.ofNat (char.toNat - '0'.toNat) =
            UInt64.ofNat (10 * value + (char.toNat - '0'.toNat)) := by
        rw [UInt64.ofNat_add, UInt64.ofNat_mul, UInt64.mul_comm]
        rfl
      rw [next]
      rfl

/-- The digits of a number add up to it. -/
theorem accumulate_decimal
    (number : Nat) :
    accumulate 0 (decimal number) = UInt64.ofNat number := by
  have digits := accumulate_digits
    (fun char member =>
      Nat.isDigit_of_mem_toDigits (b := 10) (n := number) (by decide)
        (by decide) member) 0
  rw [Nat.ofDigitChars_ten_toDigits] at digits
  exact digits

theorem decimal_isDigit
    {number : Nat}
    {char : UInt8}
    (member : char ∈ decimal number) :
    isDigit char = true := by
  obtain ⟨digit, isDigit, rfl⟩ := List.mem_map.mp member
  exact (digitChar_byte
    (Nat.isDigit_of_mem_toDigits (by decide) (by decide) isDigit)).1

theorem decimal_ne_nil
    (number : Nat) :
    decimal number ≠ [] := by
  intro empty
  have short := congrArg List.length empty
  have digits := Nat.length_toDigits_pos (b := 10) (n := number)
  simp only [decimal, List.length_map, List.length_nil] at short
  omega

/-! ## Measurements -/

/-- A number behind its first digit. -/
theorem reads_digits
    {digits : List UInt8}
    (areDigits : ∀ char, char ∈ digits → isDigit char = true)
    (mv ma : UInt64) :
    parser.Reads ⟨.num, mv, ma⟩ digits ⟨.num, accumulate mv digits, ma⟩ [] ∧
      parser.Reads ⟨.numMVNum, mv, ma⟩ digits
        ⟨.numMVNum, mv, accumulate ma digits⟩ [] := by
  induction digits generalizing mv ma with
  | nil =>
      exact ⟨⟨rfl, rfl⟩, ⟨rfl, rfl⟩⟩
  | cons digit rest inductionHypothesis =>
      have first := areDigits digit List.mem_cons_self
      have later := inductionHypothesis
        fun char member => areDigits char (List.mem_cons_of_mem _ member)
      have ofMv := Transducer.Reads.one parser
        ⟨.num, mv, ma⟩ digit
      have ofMa := Transducer.Reads.one parser
        ⟨.numMVNum, mv, ma⟩ digit
      simp only [parser, parse, first, ↓reduceIte] at ofMv ofMa
      exact ⟨ofMv.append (later _ _).1, ofMa.append (later _ _).2⟩

/-- A number, from the state in front of it. -/
theorem reads_decimal
    (number : UInt32)
    (mv ma : UInt64) :
    parser.Reads ⟨.empty, mv, ma⟩ (decimal number.toNat)
        ⟨.num, number.toUInt64, ma⟩ [] ∧
      parser.Reads ⟨.numMV, mv, ma⟩ (decimal number.toNat)
        ⟨.numMVNum, mv, number.toUInt64⟩ [] := by
  have areDigits : ∀ char, char ∈ decimal number.toNat → isDigit char = true :=
    fun char member => decimal_isDigit member
  have sum := accumulate_decimal number.toNat
  cases shape : decimal number.toNat with
  | nil => exact absurd shape (decimal_ne_nil _)
  | cons digit rest =>
      rw [shape] at areDigits sum
      have first := areDigits digit List.mem_cons_self
      have later := reads_digits
        fun char member => areDigits char (List.mem_cons_of_mem _ member)
      have value :
          accumulate (digitValue digit) rest = number.toUInt64 := by
        rw [← UInt64.ofNat_uInt32ToNat, ← sum, accumulate, accumulate,
          List.foldl_cons, UInt64.zero_mul, UInt64.zero_add]
      have ofMv := Transducer.Reads.one parser
        ⟨.empty, mv, ma⟩ digit
      have ofMa := Transducer.Reads.one parser
        ⟨.numMV, mv, ma⟩ digit
      simp only [parser, parse, first, ↓reduceIte] at ofMv ofMa
      rw [← value]
      exact ⟨ofMv.append (later _ _).1, ofMa.append (later _ _).2⟩

end QcomltDbg

/-- A measurement as the debug board prints it, and the whitespace behind it. -/
structure Measurement where
  mv : UInt32
  ma : UInt32
  blank : List UInt8
  blank_ne : blank ≠ []
  blank_isSpace : ∀ char, char ∈ blank → isSpace char = true

namespace Measurement

/-- `<mv>mV <ma>mA` -/
def text (made : Measurement) : List UInt8 :=
  decimal made.mv.toNat ++ ascii "mV " ++ decimal made.ma.toNat ++ ascii "mA"

def bytes (made : Measurement) : List UInt8 :=
  made.text ++ made.blank

/-- The call of `status_send_values` for a measurement. -/
def report (made : Measurement) : StatusReport :=
  .dc made.mv made.ma

end Measurement

namespace QcomltDbg

theorem isSpace_other
    {char : UInt8}
    (space : isSpace char = true) :
    isDigit char = false ∧ char ≠ 0x41 := by
  have chars :
      ∀ code : Fin 256,
        isSpace (UInt8.ofFin code) = true →
        isDigit (UInt8.ofFin code) = false ∧ UInt8.ofFin code ≠ 0x41 := by
    decide +kernel
  exact chars char.toFin space

/-- The text of a measurement, in the state in which one is expected. -/
theorem reads_text
    (made : Measurement)
    (mv ma : UInt64) :
    parser.Reads ⟨.empty, mv, ma⟩ made.text
      ⟨.numMVNumM, made.mv.toUInt64, made.ma.toUInt64⟩ [made.report] := by
  have voltage := (reads_decimal made.mv mv ma).1
  have current := (reads_decimal made.ma made.mv.toUInt64 ma).2
  have unit :
      parser.Reads ⟨.num, made.mv.toUInt64, ma⟩ (ascii "mV ")
        ⟨.numMV, made.mv.toUInt64, ma⟩ [] :=
    ⟨rfl, rfl⟩
  have match_ :
      parser.Reads ⟨.numMVNum, made.mv.toUInt64, made.ma.toUInt64⟩
        (ascii "mA")
        ⟨.numMVNumM, made.mv.toUInt64, made.ma.toUInt64⟩
        [.dc made.mv.toUInt64.toUInt32 made.ma.toUInt64.toUInt32] :=
    ⟨rfl, rfl⟩
  rw [UInt32.toUInt32_toUInt64, UInt32.toUInt32_toUInt64] at match_
  exact ((voltage.append unit).append current).append match_

/-- Behind a reported measurement, whitespace is an error. -/
theorem reads_blank
    (made : Measurement)
    (mv ma : UInt64) :
    parser.Reads ⟨.numMVNumM, mv, ma⟩ made.blank ⟨.err, mv, ma⟩ [] := by
  cases shape : made.blank with
  | nil => exact absurd shape made.blank_ne
  | cons space rest =>
      have spaces := made.blank_isSpace
      rw [shape] at spaces
      have first := isSpace_other (spaces space List.mem_cons_self)
      have fails := Transducer.Reads.one parser
        ⟨.numMVNumM, mv, ma⟩ space
      simp only [parser, parse, first.2, ↓reduceIte] at fails
      refine fails.append (.ignored fun later member => ?_)
      have other :=
        isSpace_other (spaces later (List.mem_cons_of_mem _ member))
      simp [parse, other.2]

/-- An error lasts over a measurement; its end is the end of the error. -/
theorem reads_error
    (made : Measurement)
    (mv ma : UInt64) :
    parser.Reads ⟨.err, mv, ma⟩ made.bytes ⟨.empty, mv, ma⟩ [] := by
  have digits :
      ∀ number,
        parser.Reads ⟨.err, mv, ma⟩ (decimal number) ⟨.err, mv, ma⟩ [] := by
    intro number
    refine .ignored fun char member => ?_
    have isDigit := decimal_isDigit member
    have other : char ≠ 0x41 := by
      rintro rfl
      contradiction
    simp [parser, parse, other]
  have unit :
      parser.Reads ⟨.err, mv, ma⟩ (ascii "mV ") ⟨.err, mv, ma⟩ [] :=
    ⟨rfl, rfl⟩
  have ends :
      parser.Reads ⟨.err, mv, ma⟩ (ascii "mA") ⟨.empty, mv, ma⟩ [] :=
    ⟨rfl, rfl⟩
  have blank :
      parser.Reads ⟨.empty, mv, ma⟩ made.blank ⟨.empty, mv, ma⟩ [] := by
    refine .ignored fun char member => ?_
    simp [parser, parse, (isSpace_other (made.blank_isSpace char member)).1]
  exact ((((digits _).append unit).append (digits _)).append ends).append
    blank

/-- Every second element of a list, from the first on. -/
def everyOther {α : Type} : List α → List α
  | [] => []
  | [only] => [only]
  | first :: _ :: rest => first :: everyOther rest

theorem length_everyOther
    {α : Type}
    (items : List α) :
    (everyOther items).length = (items.length + 1) / 2 := by
  induction items using everyOther.induct with
  | case1 =>
      simp [everyOther]
  | case2 only =>
      simp [everyOther]
  | case3 first second rest inductionHypothesis =>
      simp only [everyOther, List.length_cons, inductionHypothesis]
      omega

/-- Every second measurement is reported. -/
theorem output_measurements
    (measurements : List Measurement)
    (mv ma : UInt64) :
    parser.output ⟨.empty, mv, ma⟩ (measurements.flatMap Measurement.bytes) =
      (everyOther measurements).map Measurement.report := by
  induction measurements using everyOther.induct generalizing mv ma with
  | case1 =>
      rfl
  | case2 only =>
      have reads :=
        (reads_text only mv ma).append (reads_blank only _ _)
      rw [List.flatMap_singleton]
      exact reads.output
  | case3 first second rest inductionHypothesis =>
      have reads :=
        ((reads_text first mv ma).append (reads_blank first _ _)).append
          (reads_error second _ _)
      rw [List.flatMap_cons, List.flatMap_cons, ← List.append_assoc,
        Transducer.output_append]
      change parser.Reads _ (first.bytes ++ second.bytes) _ _ at reads
      rw [reads.output, reads.after, inductionHypothesis]
      rfl

end QcomltDbg

/--
Every measurement of a stream is reported, once and with its values, exactly
when there is only one.
-/
theorem qcomltDbg_reportsAll_iff
    (first : Measurement)
    (rest : List Measurement)
    (portions : List (List UInt8))
    (stream :
      portions.flatten = (first :: rest).flatMap Measurement.bytes) :
    qcomltDbgReports .zero portions =
        (first :: rest).map Measurement.report ↔
      rest = [] := by
  rw [qcomltDbgReports_eq, stream]
  have reports := output_measurements (first :: rest) 0 0
  rw [QcomltDbg.zero, reports]
  constructor
  · intro same
    have lengths := congrArg List.length same
    rw [List.length_map, List.length_map, length_everyOther,
      List.length_cons] at lengths
    exact List.eq_nil_of_length_eq_zero (by omega)
  · rintro rfl
    rfl

/-- A measurement at the end of its line. -/
def lineMeasurement (mv ma : UInt32) : Measurement where
  mv := mv
  ma := ma
  blank := ascii "\r\n"
  blank_ne := by decide
  blank_isSpace := by decide +kernel

/-- A single measurement is reported, however it is cut up. -/
theorem oneMeasurement_reported :
    qcomltDbgReports .zero
        [ascii "1205", ascii "0mV 3", ascii "10mA", ascii "\r\n"] =
      [.dc 12050 310] :=
  (qcomltDbg_reportsAll_iff (lineMeasurement 12050 310) [] _
    (by decide)).mpr rfl

/-- Of two measurements the second is lost. -/
theorem secondMeasurement_lost :
    [ascii "12050mV 310mA\r\n12100mV 290mA\r\n"].flatten =
        [lineMeasurement 12050 310, lineMeasurement 12100 290].flatMap
          Measurement.bytes ∧
      qcomltDbgReports .zero
          [ascii "12050mV 310mA\r\n12100mV 290mA\r\n"] =
        [.dc 12050 310] ∧
      qcomltDbgReports .zero
          [ascii "12050mV 310mA\r\n12100mV 290mA\r\n"] ≠
        [lineMeasurement 12050 310, lineMeasurement 12100 290].map
          Measurement.report := by
  decide

end Cdba
