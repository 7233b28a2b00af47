import Cdba.Libc

namespace Cdba

/-!
# The reports of a CDB Assist

`cdb_assist.c` parses what the board reports on its control line, one character
at a time.  The parser keeps its state, the numbers and the key that it has
read so far from one `read()` to the next.
-/

/-! ## The parser -/

/-- The `STATE_*` enum: what of a report has been read so far. -/
inductive CdbState where
  | empty
  | key
  | keyBool
  | keyValue
  | keyO
  | keyOf
  | keyNum
  | keyNumM
  | num
  | numM
  | numMX
  | numMXSlash
  | numNumM
  deriving DecidableEq, Repr

/-- What `struct cdb_assist` holds under its comment "state". -/
structure CdbValues where
  currentActual : UInt32
  currentSet : UInt32
  voltageActual : UInt32
  voltageSet : UInt32
  vbat : Bool
  btn : Vector Bool 3
  vbus : Bool
  vref : UInt32
  deriving DecidableEq

/-- What `struct cdb_assist` holds under its comments "parser" and "state". -/
structure CdbAssist where
  state : CdbState
  num0 : UInt32
  num1 : UInt32
  key : Vector UInt8 32
  keyIdx : Nat
  voltage : Bool
  values : CdbValues
  deriving DecidableEq

/-- As `calloc` leaves it. -/
def CdbAssist.zero : CdbAssist where
  state := .empty
  num0 := 0
  num1 := 0
  key := Vector.replicate 32 0
  keyIdx := 0
  voltage := false
  values :=
    { currentActual := 0
      currentSet := 0
      voltageActual := 0
      voltageSet := 0
      vbat := false
      btn := Vector.replicate 3 false
      vbus := false
      vref := 0 }

/-- An array of `struct cdb_assist`, with an index behind its end. -/
inductive CdbOverrun where
  | key (index : Nat)
  | btn (index : Nat)
  deriving DecidableEq, Repr

/-- `cdb->key[index] = ch` -/
def CdbAssist.storeKey
    (cdb : CdbAssist)
    (index : Nat)
    (ch : UInt8) :
    Except CdbOverrun CdbAssist :=
  if inside : index < 32 then
    .ok { cdb with key := cdb.key.set index ch inside }
  else
    .error (.key index)

/-- `cdb->btn[index] = set` -/
def CdbAssist.storeBtn
    (cdb : CdbAssist)
    (index : Nat)
    (set : Bool) :
    Except CdbOverrun CdbAssist :=
  if inside : index < 3 then
    .ok { cdb with
      values := { cdb.values with btn := cdb.values.btn.set index set inside } }
  else
    .error (.btn index)

/-- `sz_keys` -/
def szKeys : List CString :=
  [ascii "vbat", ascii "btn1", ascii "btn2", ascii "btn3", ascii "vbus"]

/-- `cdb_parser_bool` -/
def cdbParserBool
    (cdb : CdbAssist)
    (key : CString)
    (set : Bool) :
    Except CdbOverrun CdbAssist :=
  match szKeys.findIdx (· = key) with
  | 0 => .ok { cdb with values := { cdb.values with vbat := set } }
  | 4 => .ok { cdb with values := { cdb.values with vbus := set } }
  | 5 => .ok cdb
  | i => cdb.storeBtn (i - 1) set

/-- `cdb_parser_current` -/
def cdbParserCurrent (cdb : CdbAssist) (set actual : UInt32) : CdbAssist :=
  { cdb with
    values := { cdb.values with currentActual := actual, currentSet := set } }

/-- `cdb_parser_voltage` -/
def cdbParserVoltage (cdb : CdbAssist) (set actual : UInt32) : CdbAssist :=
  { cdb with
    values := { cdb.values with voltageActual := actual, voltageSet := set } }

/-- `cdb_parser_vref` -/
def cdbParserVref (cdb : CdbAssist) (vref : UInt32) : CdbAssist :=
  { cdb with values := { cdb.values with vref := vref } }

/-- `ch - '0'` -/
def digitOf (ch : UInt8) : UInt32 :=
  (ch - 0x30).toUInt32

/-- Enter a state. -/
def CdbAssist.enter (cdb : CdbAssist) (state : CdbState) : CdbAssist :=
  { cdb with state := state }

/-- `cdb_parser_push` -/
def cdbParserPush
    (cdb : CdbAssist)
    (ch : UInt8) :
    Except CdbOverrun CdbAssist :=
  match cdb.state with
  | .empty =>
      if isDigit ch then
        .ok { cdb with num0 := digitOf ch, state := .num }
      else if isAlpha ch then do
        let cdb ← cdb.storeKey 0 ch
        .ok { cdb with keyIdx := 1, state := .key }
      else
        .ok cdb
  | .num =>
      if isDigit ch then
        .ok { cdb with num0 := cdb.num0 * 10 + digitOf ch }
      else if ch = 0x6d then
        .ok (cdb.enter .numM)
      else
        .ok (cdb.enter .empty)
  | .numM =>
      if ch = 0x76 then
        .ok { cdb with voltage := true, state := .numMX }
      else if ch = 0x61 then
        .ok { cdb with voltage := false, state := .numMX }
      else
        .ok (cdb.enter .empty)
  | .numMX =>
      if ch = 0x2f then
        .ok { cdb with num1 := 0, state := .numMXSlash }
      else
        .ok (cdb.enter .empty)
  | .numMXSlash =>
      if isDigit ch then
        .ok { cdb with num1 := cdb.num1 * 10 + digitOf ch }
      else if ch = 0x6d then
        .ok (cdb.enter .numNumM)
      else
        .ok (cdb.enter .empty)
  | .numNumM =>
      if ch = 0x76 && cdb.voltage then
        .ok ((cdbParserVoltage cdb cdb.num0 cdb.num1).enter .empty)
      else if ch = 0x61 && !cdb.voltage then
        .ok ((cdbParserCurrent cdb cdb.num0 cdb.num1).enter .empty)
      else
        .ok (cdb.enter .empty)
  | .key =>
      if isAlnum ch then do
        let cdb ← cdb.storeKey cdb.keyIdx ch
        .ok { cdb with keyIdx := cdb.keyIdx + 1 }
      else if ch = 0x3a then do
        let cdb ← cdb.storeKey cdb.keyIdx 0
        .ok (cdb.enter .keyBool)
      else if ch = 0x3d then do
        let cdb ← cdb.storeKey cdb.keyIdx 0
        .ok (cdb.enter .keyValue)
      else
        .ok (cdb.enter .empty)
  | .keyBool =>
      if ch = 0x6f then
        .ok (cdb.enter .keyO)
      else
        .ok (cdb.enter .empty)
  | .keyO =>
      if ch = 0x66 then
        .ok (cdb.enter .keyOf)
      else if ch = 0x6e then do
        let cdb ← cdbParserBool cdb (cstr cdb.key.toList) true
        .ok (cdb.enter .empty)
      else
        .ok (cdb.enter .empty)
  | .keyOf =>
      if ch = 0x66 then do
        let cdb ← cdbParserBool cdb (cstr cdb.key.toList) false
        .ok (cdb.enter .empty)
      else
        .ok (cdb.enter .empty)
  | .keyValue =>
      if isDigit ch then
        .ok { cdb with num0 := digitOf ch, state := .keyNum }
      else
        .ok (cdb.enter .empty)
  | .keyNum =>
      if isDigit ch then
        .ok { cdb with num0 := cdb.num0 * 10 + digitOf ch }
      else if ch = 0x6d then
        .ok (cdb.enter .keyNumM)
      else
        .ok (cdb.enter .empty)
  | .keyNumM =>
      if ch = 0x76 then
        .ok ((cdbParserVref cdb cdb.num0).enter .empty)
      else
        .ok (cdb.enter .empty)

/-! ## Reading the control line -/

/-- What `read()` puts into the buffer: at most `sizeof(buf) - 1` bytes. -/
abbrev CdbPortion :=
  { buf : List UInt8 // buf.length ≤ 9 }

/-- The loop of `cdb_assist_ctrl_data` over what was read. -/
def cdbParserPushAll
    (cdb : CdbAssist)
    (text : List UInt8) :
    Except CdbOverrun CdbAssist :=
  text.foldlM (fun cdb ch => cdbParserPush cdb (toLower ch)) cdb

/--
`cdb_assist_ctrl_data`, with what it returns; without a portion the `read()`
has failed.
-/
def cdbAssistCtrlData
    (cdb : CdbAssist)
    (portion : Option CdbPortion) :
    Except CdbOverrun (CdbAssist × Int) :=
  match portion with
  | none => .ok (cdb, -1)
  | some portion => do
      let cdb ← cdbParserPushAll cdb portion
      .ok (cdb, 0)

/-- The parser after the control line has delivered some portions. -/
def cdbAssistReads :
    CdbAssist → List CdbPortion → Except CdbOverrun CdbAssist
  | cdb, [] => .ok cdb
  | cdb, portion :: rest => do
      let read_ ← cdbAssistCtrlData cdb (some portion)
      cdbAssistReads read_.1 rest

/-- The text that arrives in some portions. -/
def portionsText (portions : List CdbPortion) : List UInt8 :=
  portions.flatMap (·.val)

theorem cdbParserPushAll_append
    (cdb : CdbAssist)
    (before behind : List UInt8) :
    cdbParserPushAll cdb (before ++ behind) =
      (cdbParserPushAll cdb before >>= (cdbParserPushAll · behind)) :=
  List.foldlM_append

/-- How the text is split across reads makes no difference. -/
theorem cdbAssistReads_eq
    (cdb : CdbAssist)
    (portions : List CdbPortion) :
    cdbAssistReads cdb portions =
      cdbParserPushAll cdb (portionsText portions) := by
  induction portions generalizing cdb with
  | nil =>
      rfl
  | cons portion rest inductionHypothesis =>
      rw [portionsText, List.flatMap_cons, cdbParserPushAll_append,
        cdbAssistReads, cdbAssistCtrlData]
      cases cdbParserPushAll cdb portion.val with
      | error overrun => rfl
      | ok next => exact inductionHypothesis next

/-- One character, and then the rest. -/
theorem cdbParserPushAll_cons
    {cdb next : CdbAssist}
    {ch : UInt8}
    (pushed : cdbParserPush cdb (toLower ch) = .ok next)
    (rest : List UInt8) :
    cdbParserPushAll cdb (ch :: rest) = cdbParserPushAll next rest := by
  rw [cdbParserPushAll, List.foldlM_cons, pushed]
  rfl

end Cdba
