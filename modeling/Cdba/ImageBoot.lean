import Cdba.Session

namespace Cdba

/-!
# Booting a downloaded image

Whether `fastboot_download` succeeds is decided by the outcomes of the bulk
ioctls.  This module reads that decision off the outcomes alone, without the
bytes that travel, and relates it to what the server does with the image once
the download has returned.
-/

open Program

variable {n : Nat}

/-! ## Outcomes that let a transfer succeed -/

/-- What a response packet means to the host. -/
inductive Reply where
  | short
  | okay
  | fail
  | data (size : Int)
  | progress
  deriving DecidableEq

/-- Read a response packet. -/
def replyOf (packet : List UInt8) : Reply :=
  let status := packet.take 64
  if status.length < 4 then
    .short
  else if status.take 4 = ascii "OKAY" then
    .okay
  else if status.take 4 = ascii "FAIL" then
    .fail
  else if status.take 4 = ascii "DATA" then
    .data (toInt32 (strtol16 (cstr (status.drop 4))))
  else
    .progress

/-- Whether the next final response is positive, and the outcomes behind it. -/
def responds : BulkScript → Bool × BulkScript
  | [] => (false, [])
  | none :: script => (false, script)
  | some transfer :: script =>
      match replyOf transfer.data with
      | .short => (false, script)
      | .okay => (true, script)
      | .fail => (false, script)
      | .data size => (decide (0 ≤ size), script)
      | .progress => responds script

/-- Whether the device takes `size` bytes in one go, and the outcomes behind it. -/
def accepts : Nat → BulkScript → Bool × BulkScript
  | _, [] => (false, [])
  | _, none :: script => (false, script)
  | size, some transfer :: script =>
      let taken := min transfer.count maxUsbfsBulkSize
      if size ≤ taken then
        (true, script)
      else
        accepts (size - taken) script

/-- Whether the device takes pieces of the given sizes, one after the other. -/
def acceptsAll : List Nat → BulkScript → Bool × BulkScript
  | [], script => (true, script)
  | size :: sizes, script =>
      let piece := accepts size script
      if piece.1 then
        acceptsAll sizes piece.2
      else
        piece

/-- The sizes of the pieces in which an image travels. -/
def pieceSizes : Nat → Nat → List Nat
  | 0, _ => []
  | fuel + 1, size =>
      if size = 0 then
        []
      else
        min maxUsbfsBulkSize size ::
          pieceSizes fuel (size - maxUsbfsBulkSize)

/-- The outcomes that are left after a command of `size` bytes and its response. -/
def afterCommand (size : Nat) (script : BulkScript) : BulkScript :=
  (responds (accepts size script).2).2

/--
The outcomes let an image through: the device answers the download command
positively, takes every piece of the image and reports success at the end.
-/
def letsThrough (size : Nat) (script : BulkScript) : Bool :=
  let answer := responds (accepts 17 script).2
  let payload := acceptsAll (pieceSizes size size) answer.2
  answer.1 && payload.1 && (responds payload.2).1

/-- The outcomes that remain for the download once a slot was made active. -/
def afterSetActive
    (active : Option CString)
    (script : BulkScript) :
    BulkScript :=
  match active with
  | none => script
  | some active => afterCommand (11 + active.length) script

/-! ## They decide what the functions return -/

theorem fastbootRead_responds
    (len : Option Nat)
    (script : BulkScript) :
    responds script =
      (decide (0 ≤ (fastbootRead len script).value.1),
        (fastbootRead len script).script) := by
  induction script with
  | nil =>
      rfl
  | cons outcome script inductionHypothesis =>
      cases outcome with
      | none =>
          rfl
      | some transfer =>
          simp only [fastbootRead, responds, replyOf]
          by_cases short : (transfer.data.take 64).length < 4
          · simp only [short, ↓reduceIte]
            rfl
          · simp only [short, ↓reduceIte]
            by_cases info :
                (transfer.data.take 64).take 4 = ascii "INFO"
            · have notOkay : ¬ ascii "INFO" = ascii "OKAY" := by decide
              have notFail : ¬ ascii "INFO" = ascii "FAIL" := by decide
              have notData : ¬ ascii "INFO" = ascii "DATA" := by decide
              simp only [info, notOkay, notFail, notData, ↓reduceIte]
              exact inductionHypothesis
            · simp only [info, ↓reduceIte]
              by_cases okay :
                  (transfer.data.take 64).take 4 = ascii "OKAY"
              · have counted :
                    (0 : Int) ≤ (transfer.data.take 64).length - 4 := by
                  omega
                simp only [okay, counted, ↓reduceIte, decide_true]
              · simp only [okay, ↓reduceIte]
                by_cases fail :
                    (transfer.data.take 64).take 4 = ascii "FAIL"
                · simp only [fail, ↓reduceIte]
                  rfl
                · simp only [fail, ↓reduceIte]
                  by_cases size :
                      (transfer.data.take 64).take 4 = ascii "DATA"
                  · simp only [size, ↓reduceIte]
                  · simp only [size, ↓reduceIte]
                    exact inductionHypothesis

theorem fastbootWriteLoop_accepts
    (buf : List UInt8)
    (count : Nat)
    (script : BulkScript) :
    accepts buf.length script =
      (decide (0 ≤ (fastbootWriteLoop buf count script).value),
        (fastbootWriteLoop buf count script).script) := by
  induction script generalizing buf count with
  | nil =>
      rfl
  | cons outcome script inductionHypothesis =>
      cases outcome with
      | none =>
          rfl
      | some transfer =>
          simp only [fastbootWriteLoop, accepts, List.drop_eq_nil_iff,
            List.length_take]
          by_cases last :
              buf.length ≤ min transfer.count maxUsbfsBulkSize
          · have whole :
                buf.length ≤
                  min transfer.count (min maxUsbfsBulkSize buf.length) := by
              omega
            simp only [last, whole, ↓reduceIte, Int.natCast_nonneg,
              decide_true]
          · have taken :
                min transfer.count (min maxUsbfsBulkSize buf.length) =
                  min transfer.count maxUsbfsBulkSize := by
              omega
            simp only [last, ↓reduceIte, taken]
            have rest := inductionHypothesis
              (buf.drop (min transfer.count maxUsbfsBulkSize))
              (count + min transfer.count maxUsbfsBulkSize)
            rw [List.length_drop] at rest
            exact rest

theorem fastbootWrite_accepts
    (data : List UInt8)
    (script : BulkScript) :
    accepts data.length script =
      (decide (0 ≤ (fastbootWrite data script).value),
        (fastbootWrite data script).script) :=
  fastbootWriteLoop_accepts data 0 script

theorem sendPayload_accepts
    (fuel : Nat)
    (data : List UInt8)
    (script : BulkScript) :
    acceptsAll (pieceSizes fuel data.length) script =
      (decide (0 ≤ (sendPayload fuel data script).value),
        (sendPayload fuel data script).script) := by
  induction fuel generalizing data script with
  | zero =>
      rfl
  | succ fuel inductionHypothesis =>
      simp only [sendPayload, pieceSizes, List.length_eq_zero_iff]
      by_cases done : data = []
      · simp [done, acceptsAll]
      · have piece := fastbootWrite_accepts
          (data.take maxUsbfsBulkSize) script
        rw [List.length_take] at piece
        simp only [done, ↓reduceIte, acceptsAll, piece]
        rcases Int.lt_or_le
            (fastbootWrite (data.take maxUsbfsBulkSize) script).value 0
          with refused | written
        · simp [refused, Int.not_le.mpr refused]
        · simp only [written, Int.not_lt.mpr written, decide_true,
            ↓reduceIte, BulkRun.after]
          rw [← inductionHypothesis, List.length_drop]

theorem length_downloadCommand
    (len : Nat) :
    (downloadCommand len).length = 17 := by
  simp [downloadCommand, format08x, ascii]

/-- `fastboot_download` succeeds exactly when the outcomes let the image through. -/
theorem fastbootDownload_letsThrough
    (data : List UInt8)
    (script : BulkScript) :
    0 ≤ (fastbootDownload data script).value ↔
      letsThrough data.length script = true := by
  have command := fastbootWrite_accepts
    (downloadCommand data.length) script
  rw [length_downloadCommand] at command
  have answer := fastbootRead_responds (some maxUsbfsBulkSize)
    (fastbootWrite (downloadCommand data.length) script).script
  have payload := sendPayload_accepts data.length data
    (fastbootRead (some maxUsbfsBulkSize)
      (fastbootWrite (downloadCommand data.length) script).script).script
  have final := fastbootRead_responds none
    (sendPayload data.length data
      (fastbootRead (some maxUsbfsBulkSize)
        (fastbootWrite (downloadCommand data.length)
          script).script).script).script
  simp only [letsThrough, fastbootDownload, command, answer, payload, final,
    Bool.and_eq_true, decide_eq_true_eq]
  split
  · simp only
    omega
  · split
    · simp only [BulkRun.after]
      omega
    · simp only
      omega

/-! ## What the server does with the image -/

/-- The events that put a downloaded image to use. -/
def Event.usesImage : Event n → Bool
  | .boot _ _ => true
  | .send type _ => type = .fastbootDownload
  | _ => false

/-- What `fastboot_download` returns when `device_boot` calls it for a device. -/
def downloadValue (server : Server n) (device : Fin n) : Int :=
  (fastbootDownload server.fastbootPayload
    (setActiveTransfer (server.hw.devices device).setActive
      server.hw.bulks).script).value

/--
On the frame that ends an upload, the server boots a device and acknowledges
the image only if `fastboot_download` reported success for the whole image.
-/
def UsesOnlyTransferred (server : Server n) : Prop :=
  ∀ event,
    event ∈ server.hw.since (finalState (msgFastbootDownload [] server)).hw →
      event.value.usesImage = true →
        ∃ device,
          server.selectedDevice = some device ∧
            0 ≤ downloadValue server device

/-- A program that, however it ends, has logged an event of a given kind. -/
structure Logs (kind : Event n → Bool) (program : HwM n α) : Prop where
  extending : Extending program
  logged :
    ∀ hw : Hw n, ∃ event,
      event ∈ hw.since (finalState (program hw)) ∧ kind event.value = true

theorem emit_logs
    {kind : Event n → Bool}
    {event : Event n}
    (matching : kind event = true) :
    Logs kind (emit event) where
  extending := emit_extends event
  logged := fun hw =>
    ⟨⟨hw.clock.tick.now, event⟩,
      by simp [emit, Hw.since, finalState], matching⟩

theorem Logs.bind_left
    {kind : Event n → Bool}
    {first : HwM n α}
    {later : α → HwM n β}
    (logs : Logs kind first)
    (laterExtends : ∀ value, Extending (later value)) :
    Logs kind (first >>= later) where
  extending := .bind logs.extending laterExtends
  logged := by
    intro hw
    obtain ⟨event, member, matching⟩ := logs.logged hw
    have before := (logs.extending hw).related
    refine ⟨event, ?_, matching⟩
    rw [bind_apply]
    cases outcome : first hw with
    | ok value middle =>
        rw [outcome] at member before
        have after := (laterExtends value middle).related
        rw [since_append before after]
        exact List.mem_append_left _ member
    | error reason middle =>
        rw [outcome] at member
        exact member

/-- What is logged by the rest of a program once its beginning has returned. -/
theorem Logs.logged_after
    {kind : Event n → Bool}
    {first : HwM n α}
    {later : α → HwM n β}
    {value : α}
    {hw middle : Hw n}
    (logs : ∀ value, Logs kind (later value))
    (firstExtends : Extending first)
    (outcome : first hw = .ok value middle) :
    ∃ event,
      event ∈ hw.since (finalState ((first >>= later) hw)) ∧
        kind event.value = true := by
  obtain ⟨event, member, matching⟩ := (logs value).logged middle
  have before := (firstExtends hw).related
  rw [outcome] at before
  have after := ((logs value).extending middle).related
  refine ⟨event, ?_, matching⟩
  rw [bind_of_ok outcome, since_append before after]
  exact List.mem_append_right _ member

theorem Logs.bind_right
    {kind : Event n → Bool}
    {first : HwM n α}
    {later : α → HwM n β}
    (firstExtends : Extending first)
    (returns : ∀ hw, ∃ value middle, first hw = .ok value middle)
    (logs : ∀ value, Logs kind (later value)) :
    Logs kind (first >>= later) where
  extending := .bind firstExtends fun value => (logs value).extending
  logged := by
    intro hw
    obtain ⟨value, middle, outcome⟩ := returns hw
    exact Logs.logged_after logs firstExtends outcome

theorem bootMethod_logs
    (device : Fin n) :
    Logs Event.usesImage (bootMethod device) := by
  refine .bind_right (.read _) (fun hw => ⟨_, _, rfl⟩) fun method =>
    .bind_left (emit_logs rfl) fun _ => ?_
  cases method with
  | fastbootBoot =>
      exact .bind (.read _) fun _ => .onlyIf (runBulk_extends _ _)
  | fastbootFlashReboot =>
      exact .bind (.read _) fun _ =>
        .onlyIf (.bind (runBulk_extends _ _) fun _ => runBulk_extends _ _)

theorem fromDownload_logs
    (device : Fin n)
    (dev : Device)
    (image : List UInt8) :
    Logs Event.usesImage (fromDownload device dev image) :=
  .bind_right (runBulk_extends _ _) (fun _ => ⟨_, _, rfl⟩) fun _ =>
    .bind_left (bootMethod_logs device) fun _ =>
      .onlyIf (deviceUsb_extends _ _)

/-- Up to there the image was not put to use. -/
theorem beforeDownload_silent
    {hw middle : Hw n}
    {device : Fin n}
    {image : List UInt8}
    {mark time : Nat}
    {trace : List BulkEvent}
    (log :
      middle.log =
        hw.log ++ ⟨mark, .deviceBoot device image⟩ ::
          trace.map fun made => ⟨time, .bulk device made⟩) :
    ∀ event, event ∈ hw.since middle → event.value.usesImage = false := by
  intro event member
  simp only [Hw.since, log, List.drop_left, List.mem_cons,
    List.mem_map] at member
  obtain rfl | ⟨made, _, rfl⟩ := member
  · rfl
  · rfl

/-- With a fastboot object and a buffer, `device_boot` gets to the boot. -/
theorem deviceBoot_boots
    {hw : Hw n}
    {device : Fin n}
    {fastboot : Nat}
    (image : List UInt8)
    (present : (hw.devices device).fastboot = some fastboot)
    (granted : (hw.grants .memory).headD true = true) :
    ∃ event,
      event ∈
          hw.since (finalState (deviceBoot (some device) image hw)) ∧
        event.value.usesImage = true := by
  obtain ⟨middle, _, _, _, outcome, _⟩ :=
    beforeDownload_outcome hw device (hw.devices device) image
  rw [if_pos granted] at outcome
  rw [deviceBoot_eq image (by simp [present])]
  exact Logs.logged_after (fun _ => fromDownload_logs device _ image)
    (beforeDownload_extends device _ image) outcome

theorem setActiveTransfer_script
    (active : Option CString)
    (script : BulkScript) :
    (setActiveTransfer active script).script =
      afterSetActive active script := by
  cases active with
  | none =>
      rfl
  | some active =>
      have command := fastbootWrite_accepts
        (ascii "set_active:" ++ active) script
      have answer := fastbootRead_responds (some 80)
        (fastbootWrite (ascii "set_active:" ++ active) script).script
      have size :
          (ascii "set_active:" ++ active).length =
            11 + active.length := by
        rw [List.length_append]
        rfl
      rw [size] at command
      simp [setActiveTransfer, fastbootSetActive, fastbootCommand,
        afterSetActive, afterCommand, command, answer]

theorem downloadValue_nonneg_iff
    (server : Server n)
    (device : Fin n) :
    0 ≤ downloadValue server device ↔
      letsThrough server.fastbootPayload.length
        (afterSetActive (server.hw.devices device).setActive
          server.hw.bulks) = true := by
  rw [downloadValue, fastbootDownload_letsThrough,
    setActiveTransfer_script]

/--
The frame that ends an upload makes the server use the image in any case, once
there is a buffer to send it from.
-/
theorem msgFastbootDownload_uses
    {server : Server n}
    {device : Fin n}
    {fastboot : Nat}
    (selected : server.selectedDevice = some device)
    (present : (server.hw.devices device).fastboot = some fastboot)
    (granted : (server.hw.grants .memory).headD true = true) :
    ∃ event,
      event ∈
          server.hw.since
            (finalState (msgFastbootDownload [] server)).hw ∧
        event.value.usesImage = true := by
  obtain ⟨event, member, matching⟩ :=
    deviceBoot_boots server.fastbootPayload present granted
  let acknowledge : ServerM n Unit := do
    onHw (cdbaSend .fastbootDownload)
    update fun server => { server with fastbootPayload := [] }
  have acknowledges :
      Relates Server.Extends Stop.NotNullDevice acknowledge :=
    .bind (onHw_extends (emit_extends _)) fun _ =>
      .update fun _ => ⟨Composes.refl _, rfl⟩
  have same :
      msgFastbootDownload [] server =
        (onHw (deviceBoot (some device) server.fastbootPayload) >>=
          fun _ => acknowledge) server := by
    have unchanged :
        ({ server with
            fastbootPayload := server.fastbootPayload ++ [] } : Server n) =
          server := by
      rw [List.append_nil]
    rw [msgFastbootDownload_nil, bind_of_ok (update_apply _ _), unchanged,
      bind_of_ok (read_apply _ _), bind_of_ok (read_apply _ _), selected]
  have before := (deviceBoot_extends device server.fastbootPayload
    server.hw).related
  refine ⟨event, ?_, matching⟩
  rw [same, bind_apply]
  simp only [onHw, within, Server.hwOf]
  cases outcome :
      deviceBoot (some device) server.fastbootPayload server.hw with
  | ok value hw =>
      rw [outcome] at member before
      have after := (acknowledges { server with hw := hw }).related.hw
      rw [since_append before after]
      exact List.mem_append_left _ member
  | error reason hw =>
      rw [outcome] at member
      exact member

/-- Without a fastboot object the server stops before it could use an image. -/
theorem msgFastbootDownload_unused
    {server : Server n}
    (absent :
      ∀ device,
        server.selectedDevice = some device →
        (server.hw.devices device).fastboot = none) :
    ∀ event,
      event ∈
          server.hw.since
            (finalState (msgFastbootDownload [] server)).hw →
        event.value.usesImage = false := by
  cases selected : server.selectedDevice with
  | none =>
      simp [msgFastbootDownload_nil, bind_apply, selected, onHw, within,
        Server.hwOf, deviceBoot, deref, finalState, Hw.since]
  | some device =>
      simp [msgFastbootDownload_nil, bind_apply, selected, onHw, within,
        Server.hwOf, deviceBoot, deref, absent device selected,
        emit, finalState, Hw.since, Event.usesImage]

/-- Without a buffer to send the image from, the process ends before that. -/
theorem msgFastbootDownload_refused
    {server : Server n}
    {device : Fin n}
    {fastboot : Nat}
    (selected : server.selectedDevice = some device)
    (present : (server.hw.devices device).fastboot = some fastboot)
    (refused : ¬ (server.hw.grants .memory).headD true = true) :
    ∀ event,
      event ∈
          server.hw.since
            (finalState (msgFastbootDownload [] server)).hw →
        event.value.usesImage = false := by
  obtain ⟨middle, _, _, _, outcome, log, _⟩ :=
    beforeDownload_outcome server.hw device (server.hw.devices device)
      server.fastbootPayload
  rw [if_neg refused] at outcome
  have stopped :=
    deviceBoot_eq server.fastbootPayload
      (show (server.hw.devices device).fastboot ≠ none by simp [present])
  rw [bind_apply, outcome] at stopped
  simp only at stopped
  have same :
      msgFastbootDownload [] server =
        .error (.exit 1) { server with hw := middle } := by
    rw [msgFastbootDownload_nil, bind_of_ok (update_apply _ _),
      List.append_nil, bind_of_ok (read_apply _ _),
      bind_of_ok (read_apply _ _), selected, bind_apply, onHw, within]
    simp only [Server.hwOf, stopped]
  rw [same]
  exact beforeDownload_silent log

/--
The server only uses transferred images exactly when the device, if there is
one to boot and a buffer to send from, lets the whole image through: the result
of the download is not looked at.
-/
theorem usesOnlyTransferred_iff
    (server : Server n) :
    UsesOnlyTransferred server ↔
      ∀ device fastboot,
        server.selectedDevice = some device →
        (server.hw.devices device).fastboot = some fastboot →
        (server.hw.grants .memory).headD true = true →
        letsThrough server.fastbootPayload.length
          (afterSetActive (server.hw.devices device).setActive
            server.hw.bulks) = true := by
  constructor
  · intro usesOnly device fastboot selected present granted
    obtain ⟨event, member, matching⟩ :=
      msgFastbootDownload_uses selected present granted
    obtain ⟨booted, selected', success⟩ := usesOnly event member matching
    rw [selected] at selected'
    cases selected'
    exact (downloadValue_nonneg_iff server device).mp success
  · intro through event member matching
    by_cases absent :
        ∀ device,
          server.selectedDevice = some device →
          (server.hw.devices device).fastboot = none
    · have unused := msgFastbootDownload_unused absent event member
      rw [unused] at matching
      contradiction
    simp only [Classical.not_forall] at absent
    obtain ⟨device, selected, present⟩ := absent
    obtain ⟨fastboot, present⟩ := Option.ne_none_iff_exists'.mp present
    by_cases granted : (server.hw.grants .memory).headD true = true
    · exact ⟨device, selected,
        (downloadValue_nonneg_iff server device).mpr
          (through device fastboot selected present granted)⟩
    · have unused :=
        msgFastbootDownload_refused selected present granted event member
      rw [unused] at matching
      contradiction

/-- A server whose client has sent a one-byte image the device will refuse. -/
def refusedUpload : Server 1 :=
  finalState
    ((do
      dispatch selectFtdiBoard
      dispatch
        (Msg.ofData MsgType.fastbootDownload.code [0x7f] (by decide)))
      { (benchServer ⟨⟨[], false⟩, []⟩ []).state with
        hw :=
          { Hw.initial fun _ => ftdiBoard with
            bulks :=
              [some ⟨17, []⟩, some ⟨0, ascii "FAILtoo large"⟩] } })

/-- The refused image is booted all the same. -/
theorem refusedUpload_booted :
    ¬ UsesOnlyTransferred refusedUpload := by
  intro usesOnly
  obtain ⟨device, _, success⟩ :=
    usesOnly ⟨0, .boot 0 .fastbootBoot⟩ (by decide +kernel) rfl
  revert device
  decide +kernel

end Cdba
