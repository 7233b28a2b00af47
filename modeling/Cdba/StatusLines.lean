import Cdba.ClientLoop
import Cdba.LineStream
import Cdba.Outgoing
import Cdba.Status

namespace Cdba

/-!
# Status lines

Two sources write to the status fifo of the client.  What a status command
prints is forwarded in the portions in which it is read, a control driver
reports whole lines, and the watch loop alternates between them as it likes.
To say whose line a line is, bytes carry the source they come from.
-/

open Program

variable {n : Nat}

/-! ## The two sources -/

/-- The calls of `status_send_values`, with the values of the driver. -/
inductive StatusReport where
  /-- `cdb_assist_print_status` -/
  | vbat (voltageSet currentActual : UInt32)
  | vref (mv : UInt32)
  /-- `qcomlt_dbg_msg` -/
  | dc (mv ma : UInt32)
  deriving DecidableEq

/-- The `id` of a report. -/
def StatusReport.id : StatusReport → CString
  | .vbat _ _ => ascii "vbat"
  | .vref _ => ascii "vref"
  | .dc _ _ => ascii "dc"

/-- The `values` of a report. -/
def StatusReport.values : StatusReport → List StatusValue
  | .vbat voltageSet currentActual => [⟨.mv, voltageSet⟩, ⟨.ma, currentActual⟩]
  | .vref mv => [⟨.mv, mv⟩]
  | .dc mv ma => [⟨.mv, mv⟩, ⟨.ma, ma⟩]

/-- Who writes to the status fifo. -/
inductive StatusSource where
  | command
  | driver
  deriving DecidableEq

/-- One write: `status_data` after a `read()`, or `status_send_values`. -/
inductive StatusStep where
  | data (bytes : List UInt8)
  | report (ts : StatusTime) (made : StatusReport)
  deriving DecidableEq

namespace StatusStep

/-- Where what a step writes comes from. -/
def source : StatusStep → StatusSource
  | .data _ => .command
  | .report _ _ => .driver

/-- What the server does in a step. -/
def run : StatusStep → HwM n Unit
  | .data bytes => onlyIf (bytes ≠ []) (cdbaSendBuf .statusUpdate bytes)
  | .report ts made =>
      match statusSendValues ts made.id made.values with
      | none => pure ()
      | some line => cdbaSendBuf .statusUpdate line

/-- The payloads a step sends. -/
def payloads : StatusStep → List (List UInt8)
  | .data bytes => if bytes = [] then [] else [bytes]
  | .report ts made =>
      (statusSendValues ts made.id made.values).toList

/-- `status_data` is one step. -/
theorem runCallback_statusData
    (bytes : List UInt8) :
    (runCallback (n := n) (.statusData (some bytes))) =
      within Receiver.stateOf (onHw (StatusStep.data bytes).run) :=
  rfl

/-- The callback of a control driver is a step for each report. -/
theorem each_run_reports
    (reports : List (StatusTime × StatusReport)) :
    each (run (n := n)) (reports.map fun made => .report made.1 made.2) =
      each (cdbaSendBuf .statusUpdate)
        (reports.flatMap fun made => (report made.1 made.2).payloads) := by
  induction reports with
  | nil =>
      rfl
  | cons made rest inductionHypothesis =>
      rw [List.map_cons, each, inductionHypothesis, List.flatMap_cons, run,
        payloads]
      cases statusSendValues made.1 made.2.id made.2.values with
      | none => rfl
      | some line => rfl

/-- A step sends its payloads. -/
theorem run_apply
    (step : StatusStep)
    (hw : Hw n) :
    ∃ final,
      Does step.run hw final (step.payloads.map (.send .statusUpdate)) := by
  cases step with
  | data bytes =>
      cases bytes with
      | nil => exact ⟨hw, .pure hw⟩
      | cons first rest => exact ⟨_, .emit _ hw⟩
  | report ts made =>
      simp only [run, payloads]
      cases statusSendValues ts made.id made.values with
      | none => exact ⟨hw, .pure hw⟩
      | some line => exact ⟨_, .emit _ hw⟩

/-- The server sends the payloads of the steps in their order. -/
theorem each_run_did
    (steps : List StatusStep)
    (hw : Hw n) :
    hw.did (finalState (each run steps hw)) =
      (steps.flatMap payloads).map (.send .statusUpdate) := by
  have whole :
      ∃ final,
        Does (each run steps) hw final
          ((steps.flatMap payloads).map (.send .statusUpdate)) := by
    induction steps generalizing hw with
    | nil =>
        exact ⟨hw, .pure hw⟩
    | cons step rest inductionHypothesis =>
        obtain ⟨middle, first⟩ := run_apply step hw
        obtain ⟨final, others⟩ := inductionHypothesis middle
        rw [List.flatMap_cons, List.map_append]
        exact ⟨final, first.cons others⟩
  obtain ⟨final, does⟩ := whole
  exact does.did

end StatusStep

/-- All bytes that steps send. -/
def statusBytes (steps : List StatusStep) : List UInt8 :=
  (steps.flatMap StatusStep.payloads).flatten

/-! ## The fifo of the client -/

/-- What a client has handed to `write()` for its status fifo. -/
def fifoBytes (client : Client) : List UInt8 :=
  client.log.flatMap fun event =>
    match event with
    | .statusPipe bytes _ => bytes
    | _ => []

/-- A client with an open fifo writes what status messages carry to it. -/
theorem dispatch_statusUpdates
    {messages : List Msg}
    (types :
      ∀ msg, msg ∈ messages → msg.type = MsgType.statusUpdate.code)
    {client : Client}
    (openFifo : client.statusFd = true) :
    fifoBytes (finalState (each Client.dispatch messages client)) =
      fifoBytes client ++ (messages.map Msg.data).flatten := by
  induction messages generalizing client with
  | nil =>
      exact (List.append_nil _).symm
  | cons msg rest inductionHypothesis =>
      let updated : Client :=
        { client with
          dispatched := client.dispatched ++ [msg]
          log := client.log ++ [.statusPipe msg.data client.statusRoom] }
      have first : Client.dispatch msg client = .ok () updated := by
        rw [Client.dispatch, bind_of_ok (update_apply _ _),
          types msg List.mem_cons_self]
        show Client.handleStatusUpdate msg.data _ = _
        rw [Client.handleStatusUpdate, bind_of_ok (read_apply _ _),
          bind_of_ok (read_apply _ _), onlyIf, if_pos openFifo]
        rfl
      have later :=
        inductionHypothesis
          (fun other member => types other (List.mem_cons_of_mem _ member))
          (show updated.statusFd = true from openFifo)
      have written : fifoBytes updated = fifoBytes client ++ msg.data := by
        simp [fifoBytes, updated]
      rw [each, bind_of_ok first, later, written, List.append_assoc]
      rfl

/--
The client splits what the server writes in these steps into messages again,
and writes their payloads to its fifo.
-/
def ReachesFifo
    (hw : Hw n)
    (client : Client)
    (steps : List StatusStep) :
    Prop :=
  let bytes :=
    (hw.did (finalState (each StatusStep.run steps hw))).flatMap Event.written
  fifoBytes (finalState (each Client.dispatch (wire.parse bytes) client)) =
    fifoBytes client ++ statusBytes steps

/-- A status message fits into a frame. -/
theorem StatusStep.length_payload
    {step : StatusStep}
    (portion : ∀ bytes, step = .data bytes → bytes.length ≤ 128)
    {payload : List UInt8}
    (sent : payload ∈ step.payloads) :
    payload.length < 2 ^ 16 := by
  cases step with
  | data bytes =>
      have short := portion bytes rfl
      simp only [payloads] at sent
      split at sent
      · cases sent
      · rw [List.mem_singleton] at sent
        rw [sent]
        omega
  | report ts made =>
      have short := length_statusSendValues (Option.mem_toList.mp sent)
      simp only [statusBufSize] at short
      omega

theorem reachesFifo
    (hw : Hw n)
    {client : Client}
    (openFifo : client.statusFd = true)
    {steps : List StatusStep}
    (portions :
      ∀ bytes, StatusStep.data bytes ∈ steps → bytes.length ≤ 128) :
    ReachesFifo hw client steps := by
  have fit :
      ∀ payload,
        payload ∈ steps.flatMap StatusStep.payloads →
        payload.length < 2 ^ 16 := by
    intro payload member
    obtain ⟨step, isStep, sent⟩ := List.mem_flatMap.mp member
    refine StatusStep.length_payload (fun bytes same => ?_) sent
    exact portions bytes (same ▸ isStep)
  obtain ⟨messages, bytes, datas, types⟩ :=
    written_messages (n := n) .statusUpdate _ fit
  unfold ReachesFifo
  dsimp only
  rw [StatusStep.each_run_did, bytes, FrameFormat.parse_encodeAll,
    dispatch_statusUpdates types openFifo, datas, statusBytes]

/-! ## Bytes with their source -/

/-- A byte, and the source it comes from. -/
abbrev SourcedByte :=
  StatusSource × UInt8

/-- Mark bytes with a source. -/
def sourced (source : StatusSource) (bytes : List UInt8) : List SourcedByte :=
  bytes.map (Prod.mk source)

/-- What the steps write, byte for byte with its source. -/
def sourcedBytes (steps : List StatusStep) : List SourcedByte :=
  steps.flatMap fun step => sourced step.source step.payloads.flatten

/-- What one source sends, one payload at a time. -/
def payloadsFrom
    (source : StatusSource)
    (steps : List StatusStep) :
    List (List UInt8) :=
  (steps.filter (·.source = source)).flatMap StatusStep.payloads

/-- A newline, whoever sends it. -/
def endsLine (byte : UInt8) : Bool :=
  byte == newline

/-- Lines with their source, those of one source alone. -/
def linesFrom
    (source : StatusSource)
    (lines : List (StatusSource × List UInt8)) :
    List (List UInt8) :=
  (lines.filter (·.1 = source)).map Prod.snd

/--
Status lines stay whole.  Every line in what reaches the fifo consists of bytes
of one source; those of the command are the complete lines it has printed, those
of the driver are the lines it has reported, each once and in order.
-/
structure WholeLines
    (steps : List StatusStep)
    (lines : List (StatusSource × List UInt8)) :
    Prop where
  whole :
    LineStream.lines (endsLine ·.2) (sourcedBytes steps) =
      lines.map fun line => sourced line.1 line.2
  command :
    linesFrom .command lines =
      LineStream.lines endsLine (payloadsFrom .command steps).flatten
  driver : linesFrom .driver lines = payloadsFrom .driver steps

/-! ## When lines stay whole -/

/-- What the command has printed so far ends with a complete line. -/
def BetweenLines (steps : List StatusStep) : Prop :=
  LineStream.tail endsLine (payloadsFrom .command steps).flatten = []

instance (steps : List StatusStep) : Decidable (BetweenLines steps) :=
  inferInstanceAs (Decidable (_ = _))

/-- The driver only reports between two lines of the command. -/
def ReportsBetweenLines (steps : List StatusStep) : Prop :=
  ∀ before ts made after,
    steps = before ++ .report ts made :: after →
    (StatusStep.report ts made).payloads ≠ [] →
    BetweenLines before

/-! ## The bytes of one source -/

/-- The bytes of one source among others. -/
def bytesOf (source : StatusSource) (bytes : List SourcedByte) : List UInt8 :=
  (bytes.filter (·.1 = source)).map Prod.snd

@[simp] theorem bytesOf_append
    (source : StatusSource)
    (first second : List SourcedByte) :
    bytesOf source (first ++ second) =
      bytesOf source first ++ bytesOf source second := by
  simp [bytesOf]

@[simp] theorem bytesOf_sourced
    (source : StatusSource)
    (bytes : List UInt8) :
    bytesOf source (sourced source bytes) = bytes := by
  simp [bytesOf, sourced, List.filter_map, Function.comp_def]

theorem bytesOf_sourced_other
    {source other : StatusSource}
    (different : other ≠ source)
    (bytes : List UInt8) :
    bytesOf source (sourced other bytes) = [] := by
  simp [bytesOf, sourced, List.filter_map, Function.comp_def, different]

/-- What comes from a source is what the source sends. -/
theorem bytesOf_sourcedBytes
    (source : StatusSource)
    (steps : List StatusStep) :
    bytesOf source (sourcedBytes steps) =
      (payloadsFrom source steps).flatten := by
  induction steps with
  | nil =>
      rfl
  | cons step rest inductionHypothesis =>
      simp only [sourcedBytes, List.flatMap_cons, bytesOf_append]
        at inductionHypothesis ⊢
      rw [inductionHypothesis]
      by_cases same : step.source = source
      · simp [payloadsFrom, same]
      · rw [bytesOf_sourced_other same]
        simp [payloadsFrom, same]

theorem bytesOf_lines
    (source : StatusSource)
    (lines : List (StatusSource × List UInt8)) :
    bytesOf source
        (lines.map fun line => sourced line.1 line.2).flatten =
      (linesFrom source lines).flatten := by
  induction lines with
  | nil =>
      rfl
  | cons line rest inductionHypothesis =>
      rw [List.map_cons, List.flatten_cons, bytesOf_append,
        inductionHypothesis]
      by_cases same : line.1 = source
      · simp [linesFrom, same]
      · rw [bytesOf_sourced_other same]
        simp [linesFrom, same]

/-- Without their sources, the bytes are what the steps send. -/
theorem map_snd_sourcedBytes
    (steps : List StatusStep) :
    (sourcedBytes steps).map Prod.snd = statusBytes steps := by
  induction steps with
  | nil =>
      rfl
  | cons step rest inductionHypothesis =>
      simp only [sourcedBytes, statusBytes, List.flatMap_cons, List.map_append,
        List.flatten_append] at inductionHypothesis ⊢
      rw [inductionHypothesis, sourced, List.map_map]
      simp [Function.comp_def]

/-- The same without a source for each byte: whose line a line can be. -/
structure LinesOfSources
    (steps : List StatusStep)
    (lines : List (StatusSource × List UInt8)) :
    Prop where
  text : LineStream.lines endsLine (statusBytes steps) = lines.map Prod.snd
  command :
    linesFrom .command lines =
      LineStream.lines endsLine (payloadsFrom .command steps).flatten
  driver : linesFrom .driver lines = payloadsFrom .driver steps

theorem WholeLines.linesOfSources
    {steps : List StatusStep}
    {lines : List (StatusSource × List UInt8)}
    (whole : WholeLines steps lines) :
    LinesOfSources steps lines where
  text := by
    have cutText :=
      LineStream.cut_map Prod.snd
        (fun byte : SourcedByte => (rfl : endsLine byte.2 = endsLine byte.2))
        (sourcedBytes steps)
    rw [map_snd_sourcedBytes] at cutText
    have lineText := congrArg Prod.fst cutText
    have sources := whole.whole
    unfold LineStream.lines at sources ⊢
    rw [lineText, sources, List.map_map]
    apply List.map_congr_left
    intro line _
    simp [sourced, Function.comp_def]
  command := whole.command
  driver := whole.driver

/-- Every line is a line of one of the sources. -/
theorem LinesOfSources.line_of_source
    {steps : List StatusStep}
    {lines : List (StatusSource × List UInt8)}
    (ofSources : LinesOfSources steps lines)
    {line : List UInt8}
    (isLine : line ∈ LineStream.lines endsLine (statusBytes steps)) :
    line ∈ LineStream.lines endsLine (payloadsFrom .command steps).flatten ∨
      line ∈ payloadsFrom .driver steps := by
  rw [ofSources.text] at isLine
  obtain ⟨⟨source, text⟩, member, rfl⟩ := List.mem_map.mp isLine
  have fromSource : text ∈ linesFrom source lines :=
    List.mem_map.mpr ⟨(source, text), by simp [member], rfl⟩
  cases source with
  | command =>
      rw [ofSources.command] at fromSource
      exact .inl fromSource
  | driver =>
      rw [ofSources.driver] at fromSource
      exact .inr fromSource

/-! ## Lines that stay whole -/

theorem isLine_sourced
    {line : List UInt8}
    (isLine : LineStream.IsLine endsLine line)
    (source : StatusSource) :
    LineStream.IsLine (endsLine ·.2) (sourced source line) := by
  obtain ⟨text, last, rfl, inside, ends⟩ := isLine.shape
  refine ⟨sourced source text, (source, last), by simp [sourced], ?_, ends⟩
  intro byte member
  obtain ⟨value, inText, rfl⟩ := List.mem_map.mp member
  exact inside value inText

/-- What a driver reports is a line. -/
theorem isLine_report
    {ts : StatusTime}
    {made : StatusReport}
    {line : CString}
    (sent : statusSendValues ts made.id made.values = some line) :
    LineStream.IsLine endsLine line := by
  have idLine : OneLine made.id := by
    cases made with
    | vbat _ _ => exact show OneLine (ascii "vbat") by decide
    | vref _ => exact show OneLine (ascii "vref") by decide
    | dc _ _ => exact show OneLine (ascii "dc") by decide
  obtain ⟨text, textLine, rfl⟩ := statusSendValues_line idLine sent
  refine ⟨text, newline, rfl, ?_, rfl⟩
  intro byte member
  refine beq_eq_false_iff_ne.mpr ?_
  rintro rfl
  exact textLine member

/--
The steps so far have woven whole lines of both sources, and behind them stands
what the command has printed of its next line.
-/
structure Woven
    (steps : List StatusStep)
    (lines : List (StatusSource × List UInt8)) :
    Prop where
  areLines : ∀ line, line ∈ lines → LineStream.IsLine endsLine line.2
  bytes :
    sourcedBytes steps =
      (lines.map fun line => sourced line.1 line.2).flatten ++
        sourced .command
          (LineStream.tail endsLine (payloadsFrom .command steps).flatten)
  command :
    linesFrom .command lines =
      LineStream.lines endsLine (payloadsFrom .command steps).flatten
  driver : linesFrom .driver lines = payloadsFrom .driver steps

theorem Woven.wholeLines
    {steps : List StatusStep}
    {lines : List (StatusSource × List UInt8)}
    (woven : Woven steps lines) :
    WholeLines steps lines where
  whole := by
    have areLines :
        ∀ line,
          line ∈ lines.map (fun line => sourced line.1 line.2) →
          LineStream.IsLine (fun byte : SourcedByte => endsLine byte.2)
            line := by
      intro line member
      obtain ⟨made, isMade, rfl⟩ := List.mem_map.mp member
      exact isLine_sourced (woven.areLines made isMade) made.1
    have isOpen :
        LineStream.Open (fun byte : SourcedByte => endsLine byte.2)
          (sourced .command
            (LineStream.tail endsLine
              (payloadsFrom .command steps).flatten)) := by
      intro byte member
      obtain ⟨value, inTail, rfl⟩ := List.mem_map.mp member
      exact (LineStream.isLine_of_mem_lines _ _).2 value inTail
    rw [woven.bytes, LineStream.lines,
      LineStream.cut_flatten_append areLines isOpen]
  command := woven.command
  driver := woven.driver

theorem Woven.nil :
    Woven [] [] where
  areLines := nofun
  bytes := rfl
  command := rfl
  driver := rfl

/-! ### One more step -/

@[simp] theorem StatusStep.flatten_payloads_data
    (bytes : List UInt8) :
    (StatusStep.data bytes).payloads.flatten = bytes := by
  simp only [payloads]
  split
  · rename_i empty
    rw [empty]
    rfl
  · exact List.append_nil _

theorem sourcedBytes_concat
    (before : List StatusStep)
    (step : StatusStep) :
    sourcedBytes (before ++ [step]) =
      sourcedBytes before ++ sourced step.source step.payloads.flatten := by
  simp [sourcedBytes]

theorem payloadsFrom_concat_same
    (source : StatusSource)
    (before : List StatusStep)
    (step : StatusStep)
    (same : step.source = source) :
    payloadsFrom source (before ++ [step]) =
      payloadsFrom source before ++ step.payloads := by
  simp [payloadsFrom, same]

theorem payloadsFrom_concat_other
    (source : StatusSource)
    (before : List StatusStep)
    (step : StatusStep)
    (other : step.source ≠ source) :
    payloadsFrom source (before ++ [step]) = payloadsFrom source before := by
  simp [payloadsFrom, other]

theorem sourced_append
    (source : StatusSource)
    (first second : List UInt8) :
    sourced source (first ++ second) =
      sourced source first ++ sourced source second := by
  simp [sourced]

theorem sourced_flatten
    (source : StatusSource)
    (lines : List (List UInt8)) :
    ((lines.map (Prod.mk source)).map fun line =>
        sourced line.1 line.2).flatten =
      sourced source lines.flatten := by
  simp [sourced, List.map_flatten, Function.comp_def]

theorem linesFrom_append
    (source : StatusSource)
    (first second : List (StatusSource × List UInt8)) :
    linesFrom source (first ++ second) =
      linesFrom source first ++ linesFrom source second := by
  simp [linesFrom]

@[simp] theorem linesFrom_same
    (source : StatusSource)
    (lines : List (List UInt8)) :
    linesFrom source (lines.map (Prod.mk source)) = lines := by
  simp [linesFrom, List.filter_map, Function.comp_def]

theorem linesFrom_other
    {source other : StatusSource}
    (different : other ≠ source)
    (lines : List (List UInt8)) :
    linesFrom source (lines.map (Prod.mk other)) = [] := by
  simp [linesFrom, List.filter_map, Function.comp_def, different]

/-- A portion of the command's output completes lines of the command. -/
theorem Woven.data
    {before : List StatusStep}
    {lines : List (StatusSource × List UInt8)}
    (woven : Woven before lines)
    (bytes : List UInt8) :
    ∃ lines, Woven (before ++ [.data bytes]) lines := by
  let printed := (payloadsFrom .command before).flatten
  let waiting := LineStream.tail endsLine printed ++ bytes
  let made := LineStream.lines endsLine waiting
  have cutBefore := LineStream.flatten_lines_append_tail endsLine printed
  have cutWaiting := LineStream.flatten_lines_append_tail endsLine waiting
  have printedNow :
      (payloadsFrom .command (before ++ [.data bytes])).flatten =
        (LineStream.lines endsLine printed).flatten ++ waiting := by
    rw [payloadsFrom_concat_same .command before (.data bytes) rfl,
      List.flatten_append, StatusStep.flatten_payloads_data,
      ← List.append_assoc, cutBefore]
  obtain ⟨linesNow, tailNow⟩ :=
    LineStream.lines_flatten_append
      (LineStream.isLine_of_mem_lines endsLine printed).1 waiting
  rw [← printedNow] at linesNow tailNow
  refine ⟨lines ++ made.map (Prod.mk .command), ?_, ?_, ?_, ?_⟩
  · intro line member
    rcases List.mem_append.mp member with earlier | now
    · exact woven.areLines line earlier
    · obtain ⟨text, isMade, rfl⟩ := List.mem_map.mp now
      exact (LineStream.isLine_of_mem_lines endsLine waiting).1 text isMade
  · rw [sourcedBytes_concat, woven.bytes, tailNow,
      StatusStep.flatten_payloads_data]
    have sourcedWaiting := congrArg (sourced .command) cutWaiting
    rw [sourced_append, sourced_append] at sourcedWaiting
    rw [List.map_append, List.flatten_append, sourced_flatten,
      List.append_assoc, List.append_assoc, sourcedWaiting]
    rfl
  · rw [linesFrom_append, linesFrom_same, woven.command, linesNow]
  · rw [linesFrom_append,
      linesFrom_other (show StatusSource.command ≠ .driver by decide),
      woven.driver,
      payloadsFrom_concat_other .driver before (.data bytes) nofun,
      List.append_nil]

/-- A report between two lines of the command adds its line. -/
theorem Woven.report
    {before : List StatusStep}
    {lines : List (StatusSource × List UInt8)}
    (woven : Woven before lines)
    (ts : StatusTime)
    (made : StatusReport)
    (between :
      (StatusStep.report ts made).payloads ≠ [] → BetweenLines before) :
    ∃ lines, Woven (before ++ [.report ts made]) lines := by
  have printed :=
    payloadsFrom_concat_other .command before (.report ts made) nofun
  have reported :=
    payloadsFrom_concat_same .driver before (.report ts made) rfl
  cases sent : statusSendValues ts made.id made.values with
  | none =>
      have silent : (StatusStep.report ts made).payloads = [] := by
        simp [StatusStep.payloads, sent]
      refine ⟨lines, woven.areLines, ?_, ?_, ?_⟩
      · rw [sourcedBytes_concat, silent, printed, woven.bytes]
        exact List.append_nil _
      · rw [printed, woven.command]
      · rw [reported, silent, List.append_nil, woven.driver]
  | some line =>
      have speaks : (StatusStep.report ts made).payloads = [line] := by
        simp [StatusStep.payloads, sent]
      have complete : BetweenLines before := between (by simp [speaks])
      refine ⟨lines ++ [line].map (Prod.mk .driver), ?_, ?_, ?_, ?_⟩
      · intro other member
        rcases List.mem_append.mp member with earlier | now
        · exact woven.areLines other earlier
        · rw [List.mem_singleton.mp now]
          exact isLine_report sent
      · rw [sourcedBytes_concat, woven.bytes, printed, complete, speaks,
          List.map_append, List.flatten_append, sourced_flatten]
        simp [sourced, StatusStep.source]
      · rw [linesFrom_append,
          linesFrom_other (show StatusSource.driver ≠ .command by decide),
          List.append_nil, printed, woven.command]
      · rw [linesFrom_append, linesFrom_same, woven.driver, reported, speaks]

/-- Steps that report between lines weave whole lines, however far they get. -/
theorem woven_append
    {before steps : List StatusStep}
    {lines : List (StatusSource × List UInt8)}
    (woven : Woven before lines)
    (between : ReportsBetweenLines (before ++ steps)) :
    ∃ lines, Woven (before ++ steps) lines := by
  induction steps generalizing before lines with
  | nil =>
      rw [List.append_nil]
      exact ⟨lines, woven⟩
  | cons step rest inductionHypothesis =>
      have next : ∃ lines, Woven (before ++ [step]) lines := by
        cases step with
        | data bytes => exact woven.data bytes
        | report ts made =>
            exact woven.report ts made (between before ts made rest rfl)
      obtain ⟨linesNext, wovenNext⟩ := next
      rw [List.append_cons] at between ⊢
      exact inductionHypothesis wovenNext between

/-! ## Lines that are cut -/

/-- What the command has printed behind its last line is what waits there. -/
theorem WholeLines.bytesOf_tail
    {steps : List StatusStep}
    {lines : List (StatusSource × List UInt8)}
    (whole : WholeLines steps lines) :
    bytesOf .command
        (LineStream.tail (fun byte : SourcedByte => endsLine byte.2)
          (sourcedBytes steps)) =
      LineStream.tail endsLine (payloadsFrom .command steps).flatten := by
  have cutBytes :=
    LineStream.flatten_lines_append_tail
      (fun byte : SourcedByte => endsLine byte.2) (sourcedBytes steps)
  have cutPrinted :=
    LineStream.flatten_lines_append_tail endsLine
      (payloadsFrom .command steps).flatten
  have ofCommand := congrArg (bytesOf .command) cutBytes
  rw [bytesOf_append, whole.whole, bytesOf_lines, whole.command,
    bytesOf_sourcedBytes] at ofCommand
  exact List.append_cancel_left (ofCommand.trans cutPrinted.symm)

/-- A line that a report completes consists of the report alone. -/
theorem WholeLines.between
    {before : List StatusStep}
    {lines linesNext : List (StatusSource × List UInt8)}
    {ts : StatusTime}
    {made : StatusReport}
    (whole : WholeLines before lines)
    (wholeNext : WholeLines (before ++ [.report ts made]) linesNext)
    (sends : (StatusStep.report ts made).payloads ≠ []) :
    BetweenLines before := by
  obtain ⟨line, sent⟩ :
      ∃ line, statusSendValues ts made.id made.values = some line := by
    rw [← Option.isSome_iff_exists]
    cases sent : statusSendValues ts made.id made.values with
    | none => simp [StatusStep.payloads, sent] at sends
    | some line => rfl
  have isLine := isLine_report sent
  let isEnd := fun byte : SourcedByte => endsLine byte.2
  let waiting := LineStream.tail isEnd (sourcedBytes before)
  obtain ⟨areLines, isOpen⟩ :=
    LineStream.isLine_of_mem_lines isEnd (sourcedBytes before)
  have bytesNext :
      sourcedBytes (before ++ [.report ts made]) =
        (LineStream.lines isEnd (sourcedBytes before)).flatten ++
          (waiting ++ sourced .driver line) := by
    rw [sourcedBytes_concat, ← List.append_assoc,
      LineStream.flatten_lines_append_tail]
    simp [StatusStep.source, StatusStep.payloads, sent]
  have completed : LineStream.IsLine isEnd (waiting ++ sourced .driver line) := by
    obtain ⟨text, last, shape, inside, ends⟩ :=
      (isLine_sourced isLine .driver).shape
    refine ⟨waiting ++ text, last, by rw [shape, List.append_assoc], ?_, ends⟩
    intro byte member
    rcases List.mem_append.mp member with inWaiting | inText
    · exact isOpen byte inWaiting
    · exact inside byte inText
  have isCut :
      waiting ++ sourced .driver line ∈
        LineStream.lines isEnd (sourcedBytes (before ++ [.report ts made])) := by
    rw [bytesNext, (LineStream.lines_flatten_append areLines _).1,
      LineStream.lines_line completed]
    simp
  rw [wholeNext.whole] at isCut
  obtain ⟨⟨source, text⟩, _, same⟩ := List.mem_map.mp isCut
  have oneSource :
      ∀ byte, byte ∈ waiting ++ sourced .driver line → byte.1 = source := by
    intro byte member
    rw [← same] at member
    obtain ⟨value, _, rfl⟩ := List.mem_map.mp member
    rfl
  have isDriver : source = .driver := by
    obtain ⟨front, last, rfl, _⟩ := isLine.shape
    exact (oneSource (.driver, last) (by simp [sourced])).symm
  have noneOfCommand : bytesOf .command waiting = [] := by
    rw [bytesOf, List.map_eq_nil_iff, List.filter_eq_nil_iff]
    intro byte member
    rw [oneSource byte (List.mem_append_left _ member), isDriver]
    decide
  rw [BetweenLines, ← whole.bytesOf_tail]
  exact noneOfCommand

/--
In every state of a run, the fifo holds what has been sent, and its lines are
whole, exactly when the driver only reports between two lines of the command.
-/
theorem statusLines_whole_iff
    (hw : Hw n)
    {client : Client}
    (openFifo : client.statusFd = true)
    {steps : List StatusStep}
    (portions :
      ∀ bytes, StatusStep.data bytes ∈ steps → bytes.length ≤ 128) :
    (∀ before after,
      steps = before ++ after →
      ReachesFifo hw client before ∧ ∃ lines, WholeLines before lines) ↔
      ReportsBetweenLines steps := by
  constructor
  · intro whole before ts made after shape sends
    obtain ⟨_, lines, wholeBefore⟩ := whole before _ shape
    obtain ⟨_, linesNext, wholeNext⟩ :=
      whole (before ++ [.report ts made]) after (by rw [shape]; simp)
    exact wholeBefore.between wholeNext sends
  · rintro between before after rfl
    refine ⟨reachesFifo hw openFifo fun bytes member =>
      portions bytes (List.mem_append_left _ member), ?_⟩
    have betweenBefore : ReportsBetweenLines ([] ++ before) := by
      intro front ts made later shape sends
      refine between front ts made (later ++ after) ?_ sends
      rw [List.nil_append] at shape
      rw [shape]
      simp
    obtain ⟨lines, woven⟩ := woven_append Woven.nil betweenBefore
    exact ⟨lines, woven.wholeLines⟩

/-! ## Concrete runs -/

/-- A report of the debug board. -/
def debugBoardReport : StatusStep :=
  .report ⟨3, 45000000⟩ (.dc 12050 310)

/-- The command prints a line before the driver reports. -/
def reportBehindLine : List StatusStep :=
  [.data (ascii "temp 40\n"), debugBoardReport]

/-- A client that has opened its fifo. -/
def fifoClient : Client :=
  { Client.initial ⟨0, 0, true, false, none, false, []⟩ 0 [] ⟨⟨[], false⟩, []⟩
      ⟨0, []⟩ 0 with statusFd := true }

/-- The command has printed half a line when the driver reports. -/
def reportInsideLine : List StatusStep :=
  [.data (ascii "temp"), debugBoardReport, .data (ascii " 40\n")]

theorem reportBehindLine_between :
    ReportsBetweenLines reportBehindLine := by
  intro before ts made after shape _
  rw [reportBehindLine] at shape
  cases before with
  | nil =>
      obtain ⟨same, _⟩ := List.cons.inj shape
      cases same
  | cons first rest =>
      obtain ⟨rfl, later⟩ := List.cons.inj shape
      cases rest with
      | nil => exact show BetweenLines [.data (ascii "temp 40\n")] by decide
      | cons second others =>
          obtain ⟨_, nothing⟩ := List.cons.inj later
          cases others <;> cases nothing

/-- A report behind a line leaves the lines whole. -/
theorem reportBehindLine_whole :
    fifoClient.statusFd = true ∧
      ∀ before after,
        reportBehindLine = before ++ after →
        ReachesFifo (Hw.initial fun _ : Fin 1 => ftdiBoard) fifoClient
            before ∧
          ∃ lines, WholeLines before lines := by
  have opened : fifoClient.statusFd = true := rfl
  refine ⟨opened,
    (statusLines_whole_iff (Hw.initial fun _ : Fin 1 => ftdiBoard) opened
      ?_).mpr reportBehindLine_between⟩
  intro bytes member
  rcases List.mem_cons.mp member with same | later
  · cases same
    decide
  · cases List.mem_singleton.mp later

/-- A report inside a line is cut in by it: its line belongs to no source. -/
theorem reportInsideLine_cut :
    ¬ ∃ lines, LinesOfSources reportInsideLine lines := by
  rintro ⟨lines, ofSources⟩
  let first :=
    ascii "temp\x7b\"ts\":3.045, \"dc\":\x7b \"mv\": 12050, \"ma\": 310\x7d\x7d\n"
  have isLine :
      first ∈ LineStream.lines endsLine (statusBytes reportInsideLine) := by
    decide +kernel
  rcases ofSources.line_of_source isLine with ofCommand | ofDriver
  · exact absurd ofCommand (by decide +kernel)
  · exact absurd ofDriver (by decide +kernel)

end Cdba
