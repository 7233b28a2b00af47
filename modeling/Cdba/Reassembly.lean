import Cdba.Background
import Cdba.ImageUpload
import Cdba.PowerSequence
import Cdba.Supervision
import Mathlib.Data.List.Basic
import Mathlib.Data.List.Induction

namespace Cdba

/-!
# Putting uploads together again

The server collects the payloads of download frames until an empty one
arrives.  It then boots what it has collected, acknowledges the upload and
starts over, whatever other messages, timers and callbacks come in between.
The frames into which the client cuts an image put the image together again.
-/

open Program

variable {n : Nat}

/-! ## What frames stand for -/

/-- Whether a message is part of an upload. -/
def Msg.isDownload (msg : Msg) : Bool :=
  msg.type = MsgType.fastbootDownload.code

/-- Whether a message ends an upload. -/
def Msg.endsUpload (msg : Msg) : Bool :=
  msg.isDownload && msg.data = []

/-- The payloads of all download frames since the last empty one. -/
def pendingImage (handled : List Msg) : List UInt8 :=
  ((handled.reverse.takeWhile fun msg => !msg.endsUpload).reverse.filter
    Msg.isDownload).flatMap Msg.data

/-- For every empty frame, what the frames before it have left pending. -/
def completedImages (handled : List Msg) : List (List UInt8) :=
  (List.range handled.length).filterMap fun index =>
    if handled[index]?.any Msg.endsUpload then
      some (pendingImage (handled.take index))
    else
      none

theorem pendingImage_concat
    (handled : List Msg)
    (msg : Msg) :
    pendingImage (handled ++ [msg]) =
      if msg.endsUpload then
        []
      else if msg.isDownload then
        pendingImage handled ++ msg.data
      else
        pendingImage handled := by
  unfold pendingImage
  rw [List.reverse_append, List.reverse_singleton, List.singleton_append,
    List.takeWhile_cons]
  cases msg.endsUpload with
  | true => rfl
  | false =>
      cases download : msg.isDownload <;> simp [download]

theorem completedImages_concat
    (handled : List Msg)
    (msg : Msg) :
    completedImages (handled ++ [msg]) =
      completedImages handled ++
        if msg.endsUpload then [pendingImage handled] else [] := by
  have same :
      ∀ index, index ∈ List.range handled.length →
        (if (handled ++ [msg])[index]?.any Msg.endsUpload then
            some (pendingImage ((handled ++ [msg]).take index))
          else
            none) =
          if handled[index]?.any Msg.endsUpload then
            some (pendingImage (handled.take index))
          else
            none := by
    intro index member
    have inside := List.mem_range.mp member
    rw [List.getElem?_append_left inside,
      List.take_append_of_le_length (Nat.le_of_lt inside)]
  rw [completedImages, List.length_append, List.length_singleton,
    List.range_succ, List.filterMap_append, List.filterMap_congr same]
  have last :
      (if (handled ++ [msg])[handled.length]?.any Msg.endsUpload then
          some (pendingImage ((handled ++ [msg]).take handled.length))
        else
          none) =
        if msg.endsUpload then some (pendingImage handled) else none := by
    simp
  rw [List.filterMap_cons, last]
  cases msg.endsUpload <;> rfl

/-- What an upload makes the server do to the outside. -/
inductive UploadCall where
  | deviceBoot (image : List UInt8)
  | acknowledge (payload : List UInt8)
  deriving DecidableEq

/-- The calls among the events of the log. -/
def Event.uploadCall? : Event n → Option UploadCall
  | .deviceBoot _ image => some (.deviceBoot image)
  | .send .fastbootDownload payload => some (.acknowledge payload)
  | _ => none

/-- The calls that a log holds. -/
def uploadCalls (log : List (Stamped (Event n))) : List UploadCall :=
  log.filterMap fun event => event.value.uploadCall?

/-- An image is booted once, and then acknowledged once. -/
def bootAndAcknowledge (image : List UInt8) : List UploadCall :=
  [.deviceBoot image, .acknowledge []]

/-- Every empty frame had its image booted, and the rest is kept for the next. -/
structure Reassembled (handled : List Msg) (server : Server n) : Prop where
  calls :
    uploadCalls server.hw.log =
      (completedImages handled).flatMap bootAndAcknowledge
  payload : server.fastbootPayload = pendingImage handled

/-- Only the log and what is kept for the next upload matter. -/
theorem Reassembled.of_same
    {handled : List Msg}
    {first last : Server n}
    (reassembled : Reassembled handled first)
    (log : last.hw.log = first.hw.log)
    (payload : last.fastbootPayload = first.fastbootPayload) :
    Reassembled handled last where
  calls := by
    rw [log]
    exact reassembled.calls
  payload := by
    rw [payload]
    exact reassembled.payload

/-- Work that does not belong to an upload. -/
structure Hw.SparesUploads (first last : Hw n) : Prop where
  calls : uploadCalls last.log = uploadCalls first.log
  fastboot :
    ∀ device,
      (first.devices device).fastboot ≠ none →
        (last.devices device).fastboot ≠ none

instance Hw.SparesUploads.composes :
    Composes (Hw.SparesUploads (n := n)) where
  refl := fun _ => ⟨rfl, fun _ => id⟩
  trans := fun firstStep laterStep =>
    { calls := laterStep.calls.trans firstStep.calls
      fastboot := fun device =>
        laterStep.fastboot device ∘ firstStep.fastboot device }

/-- Programs that do not belong to an upload. -/
abbrev SparingUploads (program : HwM n α) : Prop :=
  Relates Hw.SparesUploads Stop.Any program

theorem Event.Background.uploadCall?
    {event : Event n}
    (background : event.Background) :
    event.uploadCall? = none := by
  unfold Event.uploadCall?
  split
  · exact background.elim
  · exact absurd rfl background
  · rfl

theorem Hw.Background.sparesUploads
    {first last : Hw n}
    (background : first.Background last) :
    first.SparesUploads last where
  calls := by
    obtain ⟨events, log, others⟩ := background.logged
    have none :
        (events.filterMap fun event => event.value.uploadCall?) = [] :=
      List.filterMap_eq_nil_iff.mpr fun event member =>
        (others event member).uploadCall?
    rw [log, uploadCalls, List.filterMap_append, none, List.append_nil]
    rfl
  fastboot := fun device => (background.devices device).fastboot

theorem InBackground.sparingUploads
    {program : HwM n α}
    (background : InBackground program) :
    SparingUploads program :=
  background.mono (fun _ _ => Hw.Background.sparesUploads) fun _ => id

theorem emit_sparesUploads
    {event : Event n}
    (other : event.uploadCall? = none) :
    SparingUploads (emit event) :=
  .update fun hw => ⟨by simp [uploadCalls, other], fun _ => id⟩

/-- The same of the server, whose own part of the upload stays as it is. -/
structure Server.SparesUploads (first last : Server n) : Prop where
  hw : first.hw.SparesUploads last.hw
  selected : last.selectedDevice = first.selectedDevice
  payload : last.fastbootPayload = first.fastbootPayload
  dispatched : last.dispatched = first.dispatched

instance Server.SparesUploads.composes :
    Composes (Server.SparesUploads (n := n)) where
  refl := fun server => ⟨Composes.refl server.hw, rfl, rfl, rfl⟩
  trans := fun firstStep laterStep =>
    { hw := Composes.trans firstStep.hw laterStep.hw
      selected := laterStep.selected.trans firstStep.selected
      payload := laterStep.payload.trans firstStep.payload
      dispatched := laterStep.dispatched.trans firstStep.dispatched }

theorem Server.Background.sparesUploads
    {program : ServerM n α}
    (background : Relates Server.Background Stop.Any program) :
    Relates Server.SparesUploads Stop.Any program :=
  background.mono
    (fun _ _ step =>
      ⟨step.hw.sparesUploads, step.selected, step.payload,
        step.dispatched⟩)
    fun _ => id

theorem onHw_sparesUploads
    {program : HwM n α}
    (spares : SparingUploads program) :
    Relates Server.SparesUploads Stop.Any (onHw program) :=
  .within (fun _ _ step => ⟨step, rfl, rfl, rfl⟩) spares

/-- Between messages: uploads are in order, and a selected device can be booted. -/
structure Reassembling (server : Server n) : Prop where
  reassembled : Reassembled server.dispatched server
  bootable :
    ∀ device,
      server.selectedDevice = some device →
        (server.hw.devices device).fastboot ≠ none

/--
The messages that were handled: all that were dispatched, except for an empty
frame that found no device selected, at which the server crashes.
-/
inductive HandledAll
    (handled : List Msg)
    (server : Server n)
    (stopped : Option Stop) :
    Prop where
  | all
      (dispatched : server.dispatched = handled)
  | allButLast
      (last : Msg)
      (ends : last.endsUpload = true)
      (dispatched : server.dispatched = handled ++ [last])
      (unselected : server.selectedDevice = none)
      (crashed : stopped = some (.nullDeref .device))

/-- However the server stops, the uploads are in order. -/
def StopsReassembled (reason : Stop) (server : Server n) : Prop :=
  ∃ handled,
    HandledAll handled server (some reason) ∧ Reassembled handled server

theorem Reassembling.stops
    {server : Server n}
    (reassembling : Reassembling server)
    (reason : Stop) :
    StopsReassembled reason server :=
  ⟨server.dispatched, .all rfl, reassembling.reassembled⟩

theorem Reassembled.spared
    {first last : Server n}
    (reassembled : Reassembled first.dispatched first)
    (spares : first.SparesUploads last) :
    Reassembled last.dispatched last where
  calls := by
    rw [spares.hw.calls, spares.dispatched]
    exact reassembled.calls
  payload := by
    rw [spares.payload, spares.dispatched]
    exact reassembled.payload

theorem Reassembling.spared
    {first last : Server n}
    (reassembling : Reassembling first)
    (spares : first.SparesUploads last) :
    Reassembling last where
  reassembled := reassembling.reassembled.spared spares
  bootable := by
    intro device selected
    rw [spares.selected] at selected
    exact spares.hw.fastboot device (reassembling.bootable device selected)

/-- What spares the uploads keeps them in order. -/
theorem Reassembling.keeps
    {program : ServerM n α}
    {server : Server n}
    (reassembling : Reassembling server)
    (spares : RelatesAt Server.SparesUploads Stop.Any program server) :
    KeepsAt Reassembling StopsReassembled program server :=
  spares.keepsAt (fun _ related => reassembling.spared related)
    fun reason _ _ related => (reassembling.spared related).stops reason

/-- A message that belongs to no upload leaves nothing else to do. -/
theorem Reassembled.other
    {handled : List Msg}
    {msg : Msg}
    {server : Server n}
    (reassembled : Reassembled handled server)
    (other : msg.isDownload = false) :
    Reassembled (handled ++ [msg]) server := by
  have goesOn : msg.endsUpload = false := by
    rw [Msg.endsUpload, other, Bool.false_and]
  refine ⟨?_, ?_⟩
  · rw [completedImages_concat, goesOn, reassembled.calls]
    simp
  · rw [pendingImage_concat, goesOn, other, reassembled.payload]
    simp

/-- Where nothing is refused, the next request is granted. -/
theorem headD_of_granted
    {answers : List Bool}
    (granted : false ∉ answers) :
    answers.headD true = true := by
  cases answers with
  | nil => rfl
  | cons answer rest =>
      cases answer with
      | true => rfl
      | false => exact absurd List.mem_cons_self granted

theorem fromDownload_background
    (device : Fin n)
    (dev : Device)
    (image : List UInt8) :
    Relates Hw.Background Stop.Never (fromDownload device dev image) :=
  .bind (runBulk_background _ _) fun _ =>
    .bind (bootMethod_background _) fun _ =>
      .onlyIf (deviceUsb_some_background _ _)

/-- Transfers are no calls that concern uploads. -/
theorem uploadCalls_bulk
    (device : Fin n)
    (time : Nat)
    (trace : List BulkEvent) :
    uploadCalls (trace.map fun made => ⟨time, .bulk device made⟩) = [] := by
  simp [uploadCalls, Event.uploadCall?, List.filterMap_map,
    List.filterMap_eq_nil_iff]

/-- Booting a device that has a fastboot object returns, given a buffer. -/
theorem deviceBoot_returns
    {hw : Hw n}
    {device : Fin n}
    (image : List UInt8)
    (present : (hw.devices device).fastboot ≠ none)
    (granted : (hw.grants .memory).headD true = true) :
    ∃ final,
      deviceBoot (some device) image hw = .ok () final ∧
        uploadCalls final.log =
          uploadCalls hw.log ++ [.deviceBoot image] ∧
        ∀ other,
          (hw.devices other).fastboot ≠ none →
            (final.devices other).fastboot ≠ none := by
  obtain ⟨marked, time, later, trace, mark, log, devices⟩ :=
    beforeDownload_outcome hw device (hw.devices device) image
  rw [if_pos granted] at mark
  have background :=
    fromDownload_background device (hw.devices device) image marked
  obtain ⟨_, final, outcome, related⟩ := background.succeeds
  have spares := related.sparesUploads
  rw [deviceBoot_eq image present, bind_of_ok mark]
  refine ⟨final, outcome, ?_, ?_⟩
  · have calls :
        uploadCalls marked.log =
          uploadCalls hw.log ++ [.deviceBoot image] := by
      have none := uploadCalls_bulk device later trace
      unfold uploadCalls at none ⊢
      rw [log, List.filterMap_append, List.filterMap_cons, none]
      rfl
    exact spares.calls.trans calls
  · rw [← devices]
    exact spares.fastboot

/-- What the server does with an empty frame. -/
theorem dispatch_endsUpload
    {msg : Msg}
    (ends : msg.endsUpload = true)
    (server : Server n) :
    dispatch msg server =
      (do
        onHw (deviceBoot server.selectedDevice server.fastbootPayload)
        onHw (cdbaSend .fastbootDownload)
        update fun server => { server with fastbootPayload := [] } :
        ServerM n Unit)
        { server with dispatched := server.dispatched ++ [msg] } := by
  obtain ⟨download, empty⟩ := Bool.and_eq_true_iff.mp ends
  have decoded : MsgType.ofCode? msg.type = some .fastbootDownload := by
    rw [of_decide_eq_true download]
    exact MsgType.ofCode?_code _
  have unchanged :
      ({ server with
          dispatched := server.dispatched ++ [msg]
          fastbootPayload := server.fastbootPayload ++ [] } : Server n) =
        { server with dispatched := server.dispatched ++ [msg] } := by
    rw [List.append_nil]
  rw [dispatch_known decoded, handleType, of_decide_eq_true empty,
    msgFastbootDownload_nil, bind_of_ok (update_apply _ _), unchanged,
    bind_of_ok (read_apply _ _), bind_of_ok (read_apply _ _)]

/-- An empty frame has what is pending booted and acknowledged. -/
theorem Reassembling.emptyFrame
    {server : Server n}
    {device : Fin n}
    {msg : Msg}
    (reassembling : Reassembling server)
    (granted : false ∉ server.hw.grants .memory)
    (selected : server.selectedDevice = some device)
    (ends : msg.endsUpload = true) :
    ∃ final,
      dispatch msg server = .ok () final ∧ Reassembling final := by
  obtain ⟨booted, boots, calls, fastboot⟩ :=
    deviceBoot_returns server.fastbootPayload
      (reassembling.bootable device selected) (headD_of_granted granted)
  obtain ⟨acknowledged, acknowledges, log, devices⟩ :
      ∃ acknowledged,
        cdbaSend .fastbootDownload booted = .ok () acknowledged ∧
          uploadCalls acknowledged.log =
            uploadCalls booted.log ++ [.acknowledge []] ∧
          acknowledged.devices = booted.devices :=
    ⟨_, rfl, by simp [uploadCalls, Event.uploadCall?], rfl⟩
  let received : Server n :=
    { server with dispatched := server.dispatched ++ [msg] }
  have boots' := onHw_of_ok
    (show deviceBoot (some device) _ received.hw = _ from boots)
  rw [← selected] at boots'
  refine
    ⟨{ server with
        hw := acknowledged
        dispatched := server.dispatched ++ [msg]
        fastbootPayload := [] },
      ?_, ⟨⟨?_, ?_⟩, ?_⟩⟩
  · rw [dispatch_endsUpload ends, bind_of_ok boots',
      bind_of_ok (onHw_of_ok acknowledges)]
    rfl
  · rw [completedImages_concat, ends, if_pos rfl, List.flatMap_append,
      ← reassembling.reassembled.calls,
      ← reassembling.reassembled.payload, log, calls, List.append_assoc]
    rfl
  · rw [pendingImage_concat, ends]
    rfl
  · intro other selected
    rw [devices]
    exact fastboot other (reassembling.bootable other selected)

/-- Without a selected device an empty frame crashes the server. -/
theorem Reassembling.unselected
    {server : Server n}
    {msg : Msg}
    (reassembling : Reassembling server)
    (unselected : server.selectedDevice = none)
    (ends : msg.endsUpload = true) :
    KeepsAt Reassembling StopsReassembled (dispatch msg) server := by
  have crashes :
      dispatch msg server =
        .error (.nullDeref .device)
          { server with dispatched := server.dispatched ++ [msg] } := by
    rw [dispatch_endsUpload ends, unselected]
    rfl
  exact .of_error crashes
    ⟨server.dispatched, .allButLast msg ends rfl unselected rfl,
      reassembling.reassembled.of_same rfl rfl⟩

/-- A frame with a payload adds it to what is pending. -/
theorem Reassembling.chunk
    {server : Server n}
    {msg : Msg}
    (reassembling : Reassembling server)
    (granted : false ∉ server.hw.grants .memory)
    (download : msg.isDownload = true)
    (goesOn : msg.endsUpload = false) :
    KeepsAt Reassembling StopsReassembled (dispatch msg) server := by
  have nonempty : msg.data ≠ [] := by
    rw [Msg.endsUpload, download, Bool.true_and] at goesOn
    exact of_decide_eq_false goesOn
  have decoded : MsgType.ofCode? msg.type = some .fastbootDownload := by
    rw [of_decide_eq_true download]
    exact MsgType.ofCode?_code _
  have collects :
      dispatch msg server =
        .ok ()
          { server with
            hw := server.hw.spend .memory
            dispatched := server.dispatched ++ [msg]
            fastbootPayload := server.fastbootPayload ++ msg.data } := by
    have grows :=
      (acquire_apply .memory server.hw).trans
        (if_pos (headD_of_granted granted))
    rw [dispatch_known decoded]
    simp only [handleType, msgFastbootDownload_chunk nonempty]
    rw [bind_apply, onHw, within]
    simp only [Server.hwOf, grows]
    rfl
  refine .of_ok collects ⟨⟨?_, ?_⟩, reassembling.bootable⟩
  · have calls :
        uploadCalls (server.hw.spend .memory).log =
          (completedImages server.dispatched).flatMap bootAndAcknowledge :=
      reassembling.reassembled.calls
    rw [completedImages_concat, goesOn, calls]
    simp
  · rw [pendingImage_concat, goesOn, download,
      reassembling.reassembled.payload]
    rfl

theorem deviceFastbootOpen_sets
    {device : Fin n}
    {hw final : Hw n}
    (result : deviceFastbootOpen device hw = .ok () final) :
    (final.devices device).fastboot ≠ none := by
  obtain ⟨_, _, _, result⟩ := bind_eq_ok result
  obtain ⟨_, _, _, result⟩ := bind_eq_ok result
  cases result
  simp

/-- A selected board always gets a fastboot object. -/
theorem Reassembling.selectBoard
    {server : Server n}
    (reassembling : Reassembling server)
    (data : List UInt8) :
    KeepsAt Reassembling StopsReassembled (msgSelectBoard data) server := by
  refine KeepsAt.read ?_
  refine (reassembling.keeps (Server.Background.sparesUploads
    (deviceOpen_background _) server)).bind ?_
  intro opened middle _ reassembling
  cases opened with
  | none =>
      have unselected :
          Reassembling { middle with selectedDevice := none } :=
        ⟨reassembling.reassembled.of_same rfl rfl,
          fun _ selected => nomatch selected⟩
      have answers :
          Relates Server.SparesUploads Stop.Any
            (do
              watchQuit
              onHw (cdbaSend (n := n) .selectBoard)) :=
        .bind
          (.update fun server =>
            ⟨Composes.refl server.hw, rfl, rfl, rfl⟩)
          fun _ => onHw_sparesUploads (emit_sparesUploads rfl)
      exact unselected.keeps (answers _)
  | some device =>
      -- Until the fastboot object is there, the device cannot be booted.
      have opens :
          KeepsAt Reassembling StopsReassembled
            (onHw (deviceFastbootOpen device))
            { middle with selectedDevice := some device } := by
        have spares :=
          (onHw_sparesUploads
            (deviceFastbootOpen_background device).sparingUploads
            { middle with selectedDevice := some device }).related
        have selects :
            Reassembled middle.dispatched
              { middle with selectedDevice := some device } :=
          reassembling.reassembled.of_same rfl rfl
        unfold KeepsAt
        cases outcome :
            onHw (deviceFastbootOpen device)
              { middle with selectedDevice := some device } with
        | ok value final =>
            rw [outcome] at spares
            refine ⟨selects.spared spares, ?_⟩
            intro other selected
            have same := spares.selected.symm.trans selected
            cases same
            exact deviceFastbootOpen_sets (within_eq_ok outcome).1
        | error reason final =>
            rw [outcome] at spares
            exact ⟨final.dispatched, .all rfl, selects.spared spares⟩
      refine opens.bind fun _ opened _ reassembling => ?_
      exact reassembling.keeps
        (onHw_sparesUploads (emit_sparesUploads rfl) opened)

/-- The same in a run whose system had memory for everything at its start. -/
structure ReassemblingSince (start server : Server n) : Prop where
  reassembling : Reassembling server
  guards : Permission.everything.Guards start server

section Runs

variable {start : Server n}

theorem ReassemblingSince.granted
    {server : Server n}
    (since : ReassemblingSince start server)
    (granted : false ∉ start.hw.grants .memory) :
    false ∉ server.hw.grants .memory :=
  fun refused => granted
    ((since.guards.hw.extended.grants .memory).subset refused)

/-- What keeps the uploads in order, and does only what is permitted. -/
theorem ReassemblingSince.keeps
    {program : ServerM n Unit}
    {server : Server n}
    (since : ReassemblingSince start server)
    (reassembles : KeepsAt Reassembling StopsReassembled program server)
    (guarding : Permission.everything.Guarding Stop.Any start program) :
    KeepsAt (ReassemblingSince start) StopsReassembled program server :=
  (reassembles.and (guarding server since.guards)).mono
    (fun _ both => ⟨both.1, both.2⟩) fun _ _ both => both.1

end Runs

namespace Client

/-- Passes over an empty queue. -/
theorem afterPasses_idle
    {client : Client}
    (represents : client.workItems.Represents .head [])
    (passes : Nat) :
    afterPasses passes client = client := by
  induction passes with
  | zero => rfl
  | succ passes inductionHypothesis =>
      rw [afterPasses_succ (workPass_nil represents)]
      exact inductionHypothesis

/-- When every write is complete, an upload is over after enough passes. -/
theorem Uploading.sliced
    {index : Nat}
    {image : List UInt8}
    {offset pieces passes : Nat}
    {earlier frames : List Msg}
    {client : Client}
    (uploading : Uploading index image offset client)
    (complete : ∀ outcome, outcome ∈ client.writes → outcome = .done)
    (carries : Carries frames (image.take offset))
    (stdin : client.sshStdin = wire.encodeAll (earlier ++ frames))
    (left : image.length - offset ≤ 2048 * pieces)
    (enough : pieces < passes) :
    ∃ frames,
      Carries frames image ∧
        (afterPasses passes client).sshStdin =
          wire.encodeAll (earlier ++ frames ++ [emptyFrame]) := by
  induction passes generalizing offset pieces frames client with
  | zero => contradiction
  | succ passes inductionHypothesis =>
      have allDone :
          ∀ writes : List WriteOutcome,
            writes <:+ client.writes → writes.headD .done = .done := by
        intro writes suffix
        cases writes with
        | nil => rfl
        | cons first rest =>
            exact complete first (suffix.subset List.mem_cons_self)
      have nonBlocking :
          ∀ outcome, outcome ∈ client.writes → outcome ≠ .fail := by
        intro outcome member
        rw [complete outcome member]
        decide
      obtain ⟨final, ran, suffix, passed⟩ := uploading.pass nonBlocking
      have complete' :
          ∀ outcome, outcome ∈ final.writes → outcome = .done :=
        fun outcome member => complete outcome (suffix.subset member)
      rw [afterPasses_succ ran]
      cases passed with
      | waits uploading' writes stdin' =>
          have refused := complete .wouldBlock (by simp [writes])
          contradiction
      | leavesHeader uploading' more header payload stdin' =>
          exact absurd (allDone _ (List.tail_suffix _)) payload
      | sendsPiece uploading' more header payload writes stdin' =>
          have sent :
              final.sshStdin =
                wire.encodeAll
                  (earlier ++ (frames ++ [pieceFrame image offset])) := by
            rw [stdin', stdin, ← List.append_assoc, wire.encodeAll_append]
            simp
          have left' :
              image.length -
                  (offset + min 2048 (image.length - offset)) ≤
                2048 * (pieces - 1) := by
            omega
          exact inductionHypothesis uploading' complete'
            (carries.piece more) sent left' (by omega)
      | finishes represents freed done header stdin' =>
          rw [afterPasses_idle represents]
          have whole : image.take offset = image :=
            List.take_of_length_le (by omega)
          rw [whole] at carries
          refine ⟨frames, carries, ?_⟩
          rw [stdin', stdin, wire.encodeAll_append (earlier ++ frames)]
          simp

/--
What the client has sent once it has uploaded an image behind earlier frames,
with all of its writes complete.
-/
def AddsUpload (image : List UInt8) (earlier sent : List Msg) : Prop :=
  ∃ index client passes,
    Uploading index image 0 client ∧
      (∀ outcome, outcome ∈ client.writes → outcome = .done) ∧
      client.sshStdin = wire.encodeAll earlier ∧
      image.length / 2048 + 1 < passes ∧
      (afterPasses passes client).sshStdin = wire.encodeAll sent

/-- The frames of an upload carry the image and end with an empty one. -/
theorem AddsUpload.frames
    {image : List UInt8}
    {earlier sent : List Msg}
    (uploads : AddsUpload image earlier sent) :
    ∃ frames,
      Carries frames image ∧ sent = earlier ++ frames ++ [emptyFrame] := by
  obtain ⟨index, client, passes, uploading, complete, stdin, enough, stream⟩ :=
    uploads
  have nothing : Carries [] (image.take 0) := ⟨by simp, by simp, rfl⟩
  have before : client.sshStdin = wire.encodeAll (earlier ++ []) := by
    rw [stdin, List.append_nil]
  have left : image.length - 0 ≤ 2048 * (image.length / 2048 + 1) := by
    omega
  obtain ⟨frames, carries, sliced⟩ :=
    uploading.sliced complete nothing before left enough
  have whole :
      wire.encodeAll sent =
        wire.encodeAll (earlier ++ frames ++ [emptyFrame]) ++ [] := by
    rw [← stream, sliced, List.append_nil]
  have same := FrameFormat.eq_of_encodeAll_eq whole wire.next?_nil
  exact ⟨frames, carries, same.1⟩

end Client

end Cdba
