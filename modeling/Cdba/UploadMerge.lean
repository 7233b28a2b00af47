import Cdba.ImageUpload
import Cdba.Server

namespace Cdba

/-!
# One upload after the other

The client and the server with the frames on their way between them.  Every
notification that fastboot is present starts an upload, while the server
collects the payloads of all download frames in one buffer.  As long as an
upload only starts when the data of every earlier one has been sent, each
buffer that is booted is the image.
-/

open Program

variable {n : Nat}

/-! ## Frames and the buffer of the server -/

/--
The frames turn one content of the server's buffer into another, and whenever
one of them ends an upload the buffer is the image.
-/
inductive Delivers (image : List UInt8) :
    List UInt8 → List Msg → List UInt8 → Prop where
  | nil (payload : List UInt8) : Delivers image payload [] payload
  | chunk
      {payload final : List UInt8}
      {frame : Msg}
      {rest : List Msg}
      (download : frame.type = MsgType.fastbootDownload.code)
      (nonempty : frame.data ≠ [])
      (delivers : Delivers image (payload ++ frame.data) rest final) :
      Delivers image payload (frame :: rest) final
  | boot
      {final : List UInt8}
      {rest : List Msg}
      (delivers : Delivers image [] rest final) :
      Delivers image image (Client.emptyFrame :: rest) final

theorem Delivers.append
    {image payload middle final : List UInt8}
    {frames later : List Msg}
    (first : Delivers image payload frames middle)
    (second : Delivers image middle later final) :
    Delivers image payload (frames ++ later) final := by
  induction first with
  | nil payload =>
      exact second
  | chunk download nonempty _ inductionHypothesis =>
      exact .chunk download nonempty (inductionHypothesis second)
  | boot _ inductionHypothesis =>
      exact .boot (inductionHypothesis second)

namespace Client

/-! ## Queued uploads -/

/--
The uploads in the queue, each with its index and what is sent of it, and the
content of the server's buffer once everything sent has arrived: only the first
upload has been begun, and it is complete when there is another one.
-/
inductive Sequential (image : List UInt8) :
    List (Nat × Nat) → List UInt8 → Prop where
  | idle : Sequential image [] []
  | sending
      (index offset : Nat)
      (inside : offset ≤ image.length) :
      Sequential image [(index, offset)] (image.take offset)
  | ending
      (index next : Nat)
      (rest : List Nat)
      (blank : rest ≠ [] → image = []) :
      Sequential image
        ((index, image.length) :: (next :: rest).map (·, 0)) image

/-- The queue in memory consists of uploads of one image. -/
structure UploadQueue
    (image : List UInt8)
    (uploads : List (Nat × Nat))
    (client : Client) :
    Prop where
  represents :
    client.workItems.Represents .head
      (uploads.map fun upload => .heap upload.1)
  allocated :
    ∀ index work,
      client.works[index]? = some (some work) ↔
        ∃ offset,
          (index, offset) ∈ uploads ∧
            work = .fastbootDownload image offset image.length
  writable : ∀ outcome, outcome ∈ client.writes → outcome = .done
  file : client.options.fastbootFile = some image
  uploading : client.fastbootContinue = false

/-- Some data of an upload still has to be sent. -/
def Work.unsent : Option Work → Bool
  | some (.fastbootDownload _ offset size) => offset < size
  | _ => false

/-- Whether a notification makes the client start an upload. -/
def startsUpload (client : Client) (data : List UInt8) : Bool :=
  data.headD client.beyond ≠ 0 && !client.fastbootContinue &&
    (!client.fastbootDone || client.options.fastbootRepeat)

section Uploads

variable {image part : List UInt8} {uploads : List (Nat × Nat)}
variable {client : Client}

theorem UploadQueue.sent
    (queue : UploadQueue image uploads client)
    (sent :
      ∀ work, work ∈ client.works → Work.unsent work = false)
    {upload : Nat × Nat}
    (member : upload ∈ uploads) :
    image.length ≤ upload.2 := by
  have found :=
    (queue.allocated upload.1
      (.fastbootDownload image upload.2 image.length)).mpr
      ⟨upload.2, member, rfl⟩
  have complete := sent _ (List.mem_of_getElem? found)
  simpa [Work.unsent] using complete

/-- A further upload waits until the ones before it have ended. -/
theorem Sequential.request
    (sequential : Sequential image uploads part)
    (sent :
      ∀ upload, upload ∈ uploads → image.length ≤ upload.2)
    (index : Nat) :
    Sequential image (uploads ++ [(index, 0)]) part := by
  cases sequential with
  | idle => exact .sending index 0 (Nat.zero_le _)
  | sending first offset inside =>
      have complete := sent (first, offset) (by simp)
      have whole : offset = image.length :=
        Nat.le_antisymm inside complete
      rw [whole, List.take_length]
      exact .ending first index [] (by simp)
  | ending first next rest blank =>
      have complete := sent (next, 0) (by simp)
      have empty : image = [] :=
        List.length_eq_zero_iff.mp (Nat.le_zero.mp complete)
      have more :=
        Sequential.ending first next (rest ++ [index])
          fun _ => empty
      simpa using more

/-- A request for an upload. -/
theorem UploadQueue.request
    (queue : UploadQueue image uploads client) :
    UploadQueue image (uploads ++ [(client.works.length, 0)])
      { client with
        works :=
          client.works ++
            [some (.fastbootDownload image 0 image.length)]
        log := client.log ++ [.request (.heap client.works.length)]
        workItems :=
          client.workItems.listAdd .head
            (.heap client.works.length) } where
  represents := by
    rw [List.map_append]
    refine queue.represents.listAdd ?_
    simp only [List.mem_cons, List.mem_map, reduceCtorEq, false_or,
      WorkNode.heap.injEq, not_exists, not_and]
    intro upload member same
    have found :=
      (queue.allocated upload.1
        (.fastbootDownload image upload.2 image.length)).mpr
        ⟨upload.2, member, rfl⟩
    have inside := (List.getElem?_eq_some_iff.mp found).1
    omega
  allocated := by
    intro index work
    have before := queue.allocated index work
    simp only [List.mem_append, List.mem_singleton, Prod.mk.injEq]
    rw [List.getElem?_append]
    by_cases inside : index < client.works.length
    · rw [if_pos inside, before]
      simp [Nat.ne_of_lt inside]
    · have none : client.works[index]? = none :=
        List.getElem?_eq_none (Nat.le_of_not_lt inside)
      rw [if_neg inside]
      constructor
      · intro found
        have last : index - client.works.length = 0 := by
          have bound := (List.getElem?_eq_some_iff.mp found).1
          simpa using bound
        rw [last] at found
        cases found
        exact ⟨0, .inr ⟨by omega, rfl⟩, rfl⟩
      · rintro ⟨offset, old | ⟨rfl, rfl⟩, rfl⟩
        · have found := before.mpr ⟨offset, old, rfl⟩
          rw [none] at found
          contradiction
        · simp
  writable := queue.writable
  file := queue.file
  uploading := queue.uploading

/-- The first upload has sent the last of its data. -/
theorem Sequential.finish
    {index offset : Nat}
    {rest : List (Nat × Nat)}
    (sequential : Sequential image ((index, offset) :: rest) part)
    (complete : image.length - offset = 0) :
    part = image ∧ Sequential image rest [] := by
  cases sequential with
  | sending _ _ inside =>
      exact ⟨List.take_of_length_le (by omega), .idle⟩
  | ending _ next rest blank =>
      refine ⟨rfl, ?_⟩
      cases rest with
      | nil => exact .sending next 0 (Nat.zero_le _)
      | cons second rest =>
          have empty := blank (by simp)
          subst empty
          exact .ending next second rest fun _ => rfl

/-- An upload with data to send is the only one. -/
theorem Sequential.only
    {index offset : Nat}
    {rest : List (Nat × Nat)}
    (sequential : Sequential image ((index, offset) :: rest) part)
    (more : image.length - offset ≠ 0) :
    rest = [] ∧ part = image.take offset ∧ offset ≤ image.length := by
  cases sequential with
  | sending _ _ inside => exact ⟨rfl, rfl, inside⟩
  | ending _ next rest blank => omega

/-- The upload in front has ended. -/
theorem UploadQueue.finish
    {index offset : Nat}
    {rest : List (Nat × Nat)}
    {final : Client}
    (queue : UploadQueue image ((index, offset) :: rest) client)
    (links : final.workItems = client.workItems.listDel (.heap index))
    (works : final.works = client.works.set index none)
    (writes : final.writes <:+ client.writes)
    (options : final.options = client.options)
    (continues : final.fastbootContinue = client.fastbootContinue) :
    UploadQueue image rest final where
  represents := by
    rw [links]
    exact queue.represents.listDel []
  allocated := by
    intro query work
    have before := queue.allocated query work
    have fresh := queue.represents.notMem_rest
    rw [works, List.getElem?_set]
    by_cases same : index = query
    · subst same
      constructor
      · simp
      · rintro ⟨offset, member, _⟩
        exact absurd (List.mem_map.mpr ⟨_, member, rfl⟩) fresh
    · rw [if_neg same, before]
      simp [Ne.symm same]
  writable := fun outcome member =>
    queue.writable outcome (writes.subset member)
  file := by rw [options, queue.file]
  uploading := by rw [continues, queue.uploading]

/-- The only upload has sent a piece. -/
theorem UploadQueue.advance
    {index offset next : Nat}
    {final : Client}
    (queue : UploadQueue image [(index, offset)] client)
    (links :
      final.workItems =
        (client.workItems.listDel (.heap index)).listAdd .head
          (.heap index))
    (works :
      final.works =
        client.works.set index
          (some (.fastbootDownload image next image.length)))
    (writes : final.writes <:+ client.writes)
    (options : final.options = client.options)
    (continues : final.fastbootContinue = client.fastbootContinue) :
    UploadQueue image [(index, next)] final where
  represents := by
    rw [links]
    exact (queue.represents.listDel []).listAdd (by simp)
  allocated := by
    intro query work
    have before := queue.allocated query work
    have inside : index < client.works.length :=
      (List.getElem?_eq_some_iff.mp
        ((queue.allocated index _).mpr ⟨offset, by simp, rfl⟩)).1
    rw [works, List.getElem?_set]
    by_cases same : index = query
    · subst same
      simp [inside, eq_comm]
    · rw [if_neg same, before]
      simp [Ne.symm same]
  writable := fun outcome member =>
    queue.writable outcome (writes.subset member)
  file := by rw [options, queue.file]
  uploading := by rw [continues, queue.uploading]

end Uploads

/-! ## A pass over the uploads -/

/-- What a pass has sent so far, and the uploads that are left. -/
structure UploadPass
    (image started : List UInt8)
    (start : Client)
    (items : List WorkNode)
    (client : Client) :
    Prop where
  account :
    ∃ uploads part frames,
      items = uploads.map (fun upload => .heap upload.1) ∧
        UploadQueue image uploads client ∧
        Sequential image uploads part ∧
        client.sshStdin =
          start.sshStdin ++ wire.encodeAll frames ∧
        Delivers image started frames part

/-- A visit ends the first upload, or sends a piece of it. -/
theorem UploadPass.visit
    {image started : List UInt8}
    {start client : Client}
    {item : WorkNode}
    {rest : List WorkNode}
    (pass : UploadPass image started start (item :: rest) client) :
    KeepsAt
      (fun final =>
        ∃ items,
          (items = rest ∨ items = rest ++ [item]) ∧
            UploadPass image started start items final ∧
            (final.works.map Work.runs).sum <
              (client.works.map Work.runs).sum)
      (fun _ _ => False) (runNode item) client := by
  obtain ⟨uploads, part, frames, shape, queue, sequential, stdin,
    delivers⟩ := pass.account
  cases uploads with
  | nil => simp at shape
  | cons upload uploads =>
      obtain ⟨index, offset⟩ := upload
      simp only [List.map_cons, List.cons.injEq] at shape
      obtain ⟨rfl, rfl⟩ := shape
      have found :=
        (queue.allocated index _).mpr ⟨offset, by simp, rfl⟩
      have suffix := sendResult_suffix .fastbootDownload
        (piece image offset image.length) client.writes
      have sent := sendResult_writable queue.writable .fastbootDownload
        (piece image offset image.length)
      have cost := fun new =>
        sum_set Work.runs new found
      unfold KeepsAt
      rw [runNode_upload found, fastbootWorkFn_eq]
      dsimp only
      rw [sent]
      by_cases complete : image.length - offset = 0
      · obtain ⟨rfl, later⟩ := sequential.finish complete
        simp only [complete, Nat.min_zero, ↓reduceIte]
        refine ⟨_, .inl rfl,
          ⟨uploads, [], frames ++ [emptyFrame], rfl,
            queue.finish rfl rfl suffix rfl rfl, later, ?_,
            delivers.append (.boot (.nil _))⟩, ?_⟩
        · rw [stdin, piece_eq_nil_iff.mpr complete]
          simp [sendBufBytes_eq_encodeMsg, emptyFrame]
        · have less := cost none
          simp only [Work.runs] at less
          omega
      · obtain ⟨rfl, rfl, inside⟩ := sequential.only complete
        have progress : min 2048 (image.length - offset) ≠ 0 := by omega
        simp only [progress, ↓reduceIte]
        have carried :
            image.take offset ++ (pieceFrame image offset).data =
              image.take
                (offset + min 2048 (image.length - offset)) := by
          rw [List.take_add]
          rfl
        refine ⟨_, .inr rfl,
          ⟨[(index, _)], _, frames ++ [pieceFrame image offset], rfl,
            queue.advance rfl rfl suffix rfl rfl,
            .sending index _ (by omega), ?_, ?_⟩, ?_⟩
        · rw [stdin]
          simp [pieceFrame]
          rfl
        · refine delivers.append (.chunk rfl ?_ ?_)
          · exact fun empty => complete (piece_eq_nil_iff.mp empty)
          · rw [carried]
            exact .nil _
        · have less := cost
            (some (.fastbootDownload image
              (offset + min 2048 (image.length - offset)) image.length))
          simp only [Work.runs] at less
          omega

/-- A pass over queued uploads sends frames that fit the server's buffer. -/
theorem UploadQueue.pass
    {image part : List UInt8}
    {uploads : List (Nat × Nat)}
    {client : Client}
    (queue : UploadQueue image uploads client)
    (sequential : Sequential image uploads part) :
    KeepsAt
      (fun final =>
        ∃ uploads' part' frames,
          UploadQueue image uploads' final ∧
            Sequential image uploads' part' ∧
            final.sshStdin =
              client.sshStdin ++ wire.encodeAll frames ∧
            Delivers image part frames part')
      (fun _ _ => False) workPass client := by
  have start :
      UploadPass image part client
        (uploads.map fun upload => .heap upload.1) client :=
    ⟨uploads, part, [], rfl, queue, sequential, by simp, .nil _⟩
  have pass := workPass_of_visits
    (fun _ state => (state.works.map Work.runs).sum)
    (fun items state pass => by
      obtain ⟨uploads, _, _, rfl, queue, _⟩ := pass.account
      exact queue.represents)
    (fun item rest state pass => pass.visit)
    start (by unfold potential; omega)
  refine KeepsAt.mono pass ?_ (fun _ _ => id)
  rintro final ⟨left, ⟨uploads', part', frames, _, account⟩, _⟩
  exact ⟨uploads', part', frames, account⟩

end Client

/-! ## The server -/

/-- Every image that was ever booted is a given one. -/
def BootsOnly (image : List UInt8) (hw : Hw n) : Prop :=
  ∀ event, event ∈ hw.log →
    ∀ device booted,
      event.value = .deviceBoot device booted → booted = image

/-- Programs that boot no other image, however they end. -/
abbrev KeepsBoots (image : List UInt8) (program : HwM n α) : Prop :=
  Keeps (BootsOnly image) (fun _ => BootsOnly image) program

section Boots

variable {image : List UInt8}

theorem emit_keepsBoots
    {event : Event n}
    (only :
      ∀ device booted,
        event = .deviceBoot device booted → booted = image) :
    KeepsBoots image (emit event) := by
  intro hw boots entry member device booted isBoot
  rcases List.mem_append.mp member with old | new
  · exact boots entry old device booted isBoot
  · rw [List.mem_singleton.mp new] at isBoot
    exact only device booted isBoot

theorem acquire_keepsBoots
    (resource : Resource) :
    KeepsBoots (n := n) image (acquire resource) :=
  acquire_keeps (fun _ boots => boots) fun _ boots _ => boots

theorem runBulk_keepsBoots
    (device : Fin n)
    (transfer : BulkScript → BulkRun α) :
    KeepsBoots image (runBulk device transfer) := by
  intro hw boots entry member booting booted isBoot
  rcases List.mem_append.mp member with old | new
  · exact boots entry old booting booted isBoot
  · obtain ⟨made, _, rfl⟩ := List.mem_map.mp new
    contradiction

theorem updateFastboot_keepsBoots
    (index : Nat)
    (change : Fastboot → Fastboot) :
    KeepsBoots (n := n) image (updateFastboot index change) :=
  fun _ boots => boots

theorem deviceUsb_keepsBoots
    (device : Fin n)
    (on : Bool) :
    KeepsBoots image (deviceUsb (some device) on) :=
  .bind (.pure _) fun _ =>
    .bind (.read _) fun _ =>
      .bind (.onlyIf (emit_keepsBoots nofun)) fun _ =>
        .onlyIf (emit_keepsBoots nofun)

theorem bootMethod_keepsBoots
    (device : Fin n) :
    KeepsBoots image (bootMethod device) := by
  refine .bind (.read _) fun method =>
    .bind (emit_keepsBoots nofun) fun _ => ?_
  cases method with
  | fastbootBoot =>
      exact .bind (.read _) fun _ => .onlyIf (runBulk_keepsBoots _ _)
  | fastbootFlashReboot =>
      exact .bind (.read _) fun _ =>
        .onlyIf (.bind (runBulk_keepsBoots _ _) fun _ =>
          runBulk_keepsBoots _ _)

theorem deviceBoot_keepsBoots
    (device : Option (Fin n)) :
    KeepsBoots image (deviceBoot device image) := by
  have dereferences : KeepsBoots image (deref device) := by
    cases device with
    | none => exact .stop fun _ boots => boots
    | some device => exact .pure _
  refine .bind dereferences fun device => .bind (.read _) fun dev =>
    .bind (emit_keepsBoots ?_) fun _ =>
      .ite (.stop fun _ boots => boots)
        (.bind (runBulk_keepsBoots _ _) fun _ =>
          .bind (acquire_keepsBoots _) fun _ =>
            .bind (runBulk_keepsBoots _ _) fun _ =>
              .bind (bootMethod_keepsBoots _) fun _ =>
                .onlyIf (deviceUsb_keepsBoots _ _))
  intro other booted same
  cases same
  rfl

theorem handleUdevEvent_keepsBoots
    (index : Nat)
    (event : UdevEvent) :
    KeepsBoots (n := n) image (handleUdevEvent index event) := by
  refine .bind (.read _) fun fb => ?_
  cases event with
  | add serial node =>
      refine .onlyIf ?_
      unfold handleFastbootAdd
      cases node.probe with
      | none => exact .pure _
      | some endpoints =>
          exact .bind (updateFastboot_keepsBoots _ _) fun _ =>
            emit_keepsBoots nofun
  | remove path =>
      exact .onlyIf
        (.bind (updateFastboot_keepsBoots _ _) fun _ =>
          .bind (emit_keepsBoots nofun) fun _ =>
            updateFastboot_keepsBoots _ _)
  | other => exact .pure _

theorem onHw_keepsBoots
    {program : HwM n α}
    (keeps : KeepsBoots image program)
    {server : Server n}
    (boots : BootsOnly image server.hw) :
    KeepsAt
      (fun server => BootsOnly image server.hw)
      (fun _ server => BootsOnly image server.hw)
      (onHw program) server :=
  KeepsAt.within Server.hwOf (keeps server.hw boots)

/-- The frame that ends an upload boots the image and clears the buffer. -/
theorem msgFastbootDownload_boots
    {server : Server n}
    (boots : BootsOnly image server.hw)
    (buffer : server.fastbootPayload = image) :
    KeepsAt
      (fun final =>
        BootsOnly image final.hw ∧ final.fastbootPayload = [])
      (fun _ final => BootsOnly image final.hw)
      (msgFastbootDownload []) server := by
  subst buffer
  have unchanged :
      ({ server with
          fastbootPayload := server.fastbootPayload ++ [] } : Server n) =
        server := by
    rw [List.append_nil]
  rw [msgFastbootDownload_nil]
  refine .update ?_
  rw [unchanged]
  refine .read (.read ?_)
  refine (onHw_keepsBoots (deviceBoot_keepsBoots _) boots).seq
    fun _ booted _ boots => ?_
  have acknowledges :
      KeepsBoots (n := n) server.fastbootPayload
        (cdbaSend .fastbootDownload) :=
    emit_keepsBoots nofun
  exact (onHw_keepsBoots acknowledges boots).seq
    fun _ acknowledged _ boots => ⟨boots, rfl⟩

/-- A frame of uploads that keep the buffer in order. -/
theorem dispatch_delivers
    {server : Server n}
    {msg : Msg}
    {rest : List Msg}
    {final : List UInt8}
    (boots : BootsOnly image server.hw)
    (delivers :
      Delivers image server.fastbootPayload (msg :: rest) final) :
    KeepsAt
      (fun server =>
        BootsOnly image server.hw ∧
          Delivers image server.fastbootPayload rest final)
      (fun _ server => BootsOnly image server.hw)
      (dispatch msg) server := by
  have isDownload :
      msg.type = MsgType.fastbootDownload.code := by
    cases delivers with
    | chunk download => exact download
    | boot => rfl
  refine .update ?_
  rw [isDownload, MsgType.ofCode?_code]
  cases delivers with
  | chunk download nonempty later =>
      simp only [handleType, msgFastbootDownload_chunk nonempty]
      apply KeepsAt.seq
      · exact onHw_keepsBoots (acquire_keepsBoots _) boots
      · intro _ granted outcome grantedBoots
        obtain ⟨_, same⟩ := within_eq_ok outcome
        rw [same] at grantedBoots ⊢
        exact ⟨grantedBoots, later⟩
  | boot later =>
      refine KeepsAt.mono (msgFastbootDownload_boots boots rfl) ?_
        (fun _ _ => id)
      rintro booted ⟨boots, cleared⟩
      rw [cleared]
      exact ⟨boots, later⟩

end Boots

/-! ## The two programs together -/

/-- The client, the server, and how much of the client's output has arrived. -/
structure UploadSystem (n : Nat) where
  client : Client
  server : Server n
  received : Nat

/-- What may happen next while images are uploaded. -/
inductive UploadStep where
  /-- `MSG_FASTBOOT_PRESENT` reaches the client. -/
  | present (data : List UInt8)
  /-- `MSG_FASTBOOT_DOWNLOAD` reaches the client. -/
  | downloaded
  /-- The client's main loop goes over its work queue. -/
  | work
  /-- The next frame reaches the server, if there is a complete one. -/
  | deliver
  /-- A fastboot device comes or goes. -/
  | udev (index : Nat) (event : UdevEvent)

/-- Runs of both programs, until one of them stops. -/
abbrev UploadM (n : Nat) :=
  EStateM (ClientStop ⊕ Stop) (UploadSystem n)

namespace UploadSystem

def clientOf : Component (UploadSystem n) Client where
  get := UploadSystem.client
  set := fun system client => { system with client := client }
  get_set := fun _ _ => rfl
  set_get := fun _ => rfl
  set_set := fun _ _ _ => rfl

def serverOf : Component (UploadSystem n) (Server n) where
  get := UploadSystem.server
  set := fun system server => { system with server := server }
  get_set := fun _ _ => rfl
  set_get := fun _ => rfl
  set_set := fun _ _ _ => rfl

/-- The bytes that are on their way to the server. -/
def inFlight (system : UploadSystem n) : List UInt8 :=
  system.client.sshStdin.drop system.received

end UploadSystem

/-- Run the client. -/
def onClient (program : ClientM Unit) : UploadM n Unit :=
  within UploadSystem.clientOf (EStateM.adaptExcept .inl program)

/-- Run the server. -/
def onServer (program : ServerM n Unit) : UploadM n Unit :=
  within UploadSystem.serverOf (EStateM.adaptExcept .inr program)

/-- One step of one of the programs. -/
def uploadStep : UploadStep → UploadM n Unit
  | .present data =>
      onClient (Client.handleType (some .fastbootPresent) data)
  | .downloaded =>
      onClient (Client.handleType (some .fastbootDownload) [])
  | .work => onClient Client.workPass
  | .deliver => do
      let unread ← read UploadSystem.inFlight
      match splitMsg? unread with
      | none => pure ()
      | some (msg, rest) => do
          update fun system =>
            { system with
              received := system.client.sshStdin.length - rest.length }
          onServer (dispatch msg)
  | .udev index event => onServer (onHw (handleUdevEvent index event))

/--
A step does not start an upload while some data of an earlier one is unsent.
-/
def UploadStep.startsApart (system : UploadSystem n) : UploadStep → Bool
  | .present data =>
      !system.client.startsUpload data ||
        system.client.works.all fun work => !Client.Work.unsent work
  | _ => true

/-- Every step of a run keeps the uploads apart. -/
def uploadsApart : List UploadStep → UploadSystem n → Bool
  | [], _ => true
  | step :: rest, system =>
      step.startsApart system &&
        match uploadStep step system with
        | .ok _ next => uploadsApart rest next
        | .error _ _ => true

/-- Everything that is sent keeps the server's buffer in order. -/
structure NeverMerged
    (image : List UInt8)
    (system : UploadSystem n) :
    Prop where
  boots : BootsOnly image system.server.hw
  account :
    ∃ uploads part pending,
      Client.UploadQueue image uploads system.client ∧
        Client.Sequential image uploads part ∧
        system.received ≤ system.client.sshStdin.length ∧
        system.inFlight = wire.encodeAll pending ∧
        Delivers image system.server.fastbootPayload pending part

/-- No upload is queued or on its way. -/
structure UploadIdle
    (image : List UInt8)
    (system : UploadSystem n) :
    Prop where
  queue : Client.UploadQueue image [] system.client
  received : system.received = system.client.sshStdin.length
  buffer : system.server.fastbootPayload = []
  boots : BootsOnly image system.server.hw

section System

variable {image : List UInt8} {system : UploadSystem n}

theorem UploadIdle.neverMerged
    (idle : UploadIdle image system) :
    NeverMerged image system where
  boots := idle.boots
  account := by
    refine ⟨[], [], [], idle.queue, .idle, Nat.le_of_eq idle.received,
      ?_, ?_⟩
    · rw [UploadSystem.inFlight, idle.received, List.drop_length]
      rfl
    · rw [idle.buffer]
      exact .nil []

/-- The client leaves the server and what has arrived alone. -/
theorem onClient_keeps
    {program : ClientM Unit}
    {after : Client → Prop}
    (keeps :
      KeepsAt after (fun _ _ => False) program system.client) :
    KeepsAt
      (fun last : UploadSystem n =>
        ∃ client, after client ∧ last = { system with client := client })
      (fun _ _ => False) (onClient program) system := by
  unfold KeepsAt at keeps
  unfold KeepsAt onClient within EStateM.adaptExcept
  simp only [UploadSystem.clientOf]
  cases outcome : program system.client with
  | ok value client =>
      rw [outcome] at keeps
      exact ⟨client, keeps, rfl⟩
  | error reason client =>
      rw [outcome] at keeps
      exact keeps

/-- The server leaves the client and its output alone. -/
theorem onServer_keeps
    {program : ServerM n Unit}
    {after stopped : Server n → Prop}
    (keeps :
      KeepsAt after (fun _ => stopped) program system.server) :
    KeepsAt
      (fun last : UploadSystem n =>
        ∃ server, after server ∧ last = { system with server := server })
      (fun _ last => stopped last.server)
      (onServer program) system := by
  unfold KeepsAt at keeps
  unfold KeepsAt onServer within EStateM.adaptExcept
  simp only [UploadSystem.serverOf]
  cases outcome : program system.server with
  | ok value server =>
      rw [outcome] at keeps
      exact ⟨server, keeps, rfl⟩
  | error reason server =>
      rw [outcome] at keeps
      exact keeps

/-- What a notification adds to the queue waits behind what is there. -/
theorem Client.UploadQueue.present
    {part : List UInt8}
    {uploads : List (Nat × Nat)}
    {client : Client}
    {data : List UInt8}
    (queue : Client.UploadQueue image uploads client)
    (sequential : Client.Sequential image uploads part)
    (apart :
      client.startsUpload data = true →
        ∀ work, work ∈ client.works →
          Client.Work.unsent work = false) :
    KeepsAt
      (fun final =>
        ∃ uploads',
          Client.UploadQueue image uploads' final ∧
            Client.Sequential image uploads' part ∧
            final.sshStdin = client.sshStdin)
      (fun _ _ => False)
      (Client.handleType (some .fastbootPresent) data) client := by
  unfold Client.handleType
  refine .read ?_
  by_cases off : data.headD client.beyond = 0
  · simp only [off, onlyIf]
    exact ⟨uploads, queue, sequential, rfl⟩
  · simp only [ne_eq, off, not_false_eq_true, decide_true, onlyIf,
      ↓reduceIte]
    unfold Client.fastbootPresent
    refine .read ?_
    simp only [id, queue.uploading, Bool.false_eq_true, ↓reduceIte]
    by_cases wanted :
        (!client.fastbootDone || client.options.fastbootRepeat) = true
    · have sent := apart (by
        rw [Client.startsUpload, queue.uploading, wanted]
        simpa using off)
      simp only [wanted, ↓reduceIte]
      unfold Client.requestFastbootFiles
      refine .read ?_
      rw [queue.file]
      exact ⟨_, queue.request,
        sequential.request (fun upload => queue.sent sent) _, rfl⟩
    · simp only [wanted]
      exact ⟨uploads,
        { represents := queue.represents
          allocated := queue.allocated
          writable := queue.writable
          file := queue.file
          uploading := queue.uploading },
        sequential, rfl⟩

/-- The next frame is the first of those on their way. -/
theorem NeverMerged.deliver
    (never : NeverMerged image system) :
    KeepsAt (NeverMerged image)
      (fun _ last => BootsOnly image last.server.hw)
      (uploadStep .deliver) system := by
  obtain ⟨uploads, part, pending, queue, sequential, inside, flight,
    delivers⟩ := never.account
  unfold uploadStep
  refine .read ?_
  rw [flight, ← wire_next?]
  cases pending with
  | nil =>
      rw [FrameFormat.encodeAll_nil, FrameFormat.next?_nil]
      exact never
  | cons frame later =>
      rw [FrameFormat.encodeAll_cons, wire.next?_encode_append]
      refine .update ?_
      refine KeepsAt.mono
        (onServer_keeps (dispatch_delivers never.boots delivers)) ?_
        (fun _ _ => id)
      rintro last ⟨server, ⟨boots, rest⟩, rfl⟩
      have suffix :
          wire.encodeAll later <:+ system.client.sshStdin := by
        have shape := List.drop_suffix system.received
          system.client.sshStdin
        rw [show List.drop system.received system.client.sshStdin =
          wire.encodeAll (frame :: later) from flight,
          FrameFormat.encodeAll_cons] at shape
        exact (List.suffix_append _ _).trans shape
      exact
        { boots := boots
          account :=
            ⟨uploads, part, later, queue, sequential, Nat.sub_le _ _,
              (List.suffix_iff_eq_drop.mp suffix).symm, rest⟩ }

/-- Every step keeps the uploads apart. -/
theorem NeverMerged.step
    {step : UploadStep}
    (never : NeverMerged image system)
    (apart : step.startsApart system = true) :
    KeepsAt (NeverMerged image)
      (fun _ last => BootsOnly image last.server.hw)
      (uploadStep step) system := by
  obtain ⟨uploads, part, pending, queue, sequential, inside, flight,
    delivers⟩ := never.account
  cases step with
  | present data =>
      have sent :
          system.client.startsUpload data = true →
            ∀ work, work ∈ system.client.works →
              Client.Work.unsent work = false := by
        intro starts
        simpa [UploadStep.startsApart, starts] using apart
      refine KeepsAt.mono
        (onClient_keeps (queue.present sequential sent)) ?_
        (fun _ _ => False.elim)
      rintro last
        ⟨client, ⟨uploads', queue', sequential', stdin⟩, rfl⟩
      exact
        { boots := never.boots
          account :=
            ⟨uploads', part, pending, queue', sequential',
              by rw [stdin]; exact inside,
              by rw [UploadSystem.inFlight, stdin]; exact flight,
              delivers⟩ }
  | downloaded =>
      exact
        { boots := never.boots
          account :=
            ⟨uploads, part, pending,
              { represents := queue.represents
                allocated := queue.allocated
                writable := queue.writable
                file := queue.file
                uploading := queue.uploading },
              sequential, inside, flight, delivers⟩ }
  | work =>
      refine KeepsAt.mono (onClient_keeps (queue.pass sequential)) ?_
        (fun _ _ => False.elim)
      rintro last
        ⟨client, ⟨uploads', part', frames, queue', sequential', stdin,
          more⟩, rfl⟩
      refine
        { boots := never.boots
          account :=
            ⟨uploads', part', pending ++ frames, queue', sequential', ?_,
              ?_, delivers.append more⟩ }
      · rw [stdin, List.length_append]
        exact Nat.le_add_right_of_le inside
      · rw [UploadSystem.inFlight, stdin,
          List.drop_append_of_le_length inside, wire.encodeAll_append]
        exact congrArg (· ++ _) flight
  | deliver => exact never.deliver
  | udev index event =>
      have keeps :
          KeepsAt
            (fun server =>
              BootsOnly image server.hw ∧
                server.fastbootPayload = system.server.fastbootPayload)
            (fun _ server => BootsOnly image server.hw)
            (onHw (handleUdevEvent index event)) system.server := by
        have kept := handleUdevEvent_keepsBoots index event
          system.server.hw never.boots
        unfold KeepsAt at kept
        unfold KeepsAt onHw within
        simp only [Server.hwOf]
        cases outcome : handleUdevEvent index event system.server.hw with
        | ok value hw =>
            rw [outcome] at kept
            exact ⟨kept, rfl⟩
        | error reason hw =>
            rw [outcome] at kept
            exact kept
      refine KeepsAt.mono (onServer_keeps keeps) ?_ (fun _ _ => id)
      rintro last ⟨server, ⟨boots, buffer⟩, rfl⟩
      exact
        { boots := boots
          account :=
            ⟨uploads, part, pending, queue, sequential, inside, flight,
              by rw [buffer]; exact delivers⟩ }

theorem NeverMerged.run
    {steps : List UploadStep}
    (never : NeverMerged image system)
    (apart : uploadsApart steps system = true) :
    KeepsAt (NeverMerged image)
      (fun _ last => BootsOnly image last.server.hw)
      (each uploadStep steps) system := by
  induction steps generalizing system with
  | nil =>
      exact never
  | cons step rest inductionHypothesis =>
      rw [uploadsApart, Bool.and_eq_true] at apart
      obtain ⟨first, later⟩ := apart
      refine KeepsAt.bind (never.step first) ?_
      intro _ middle outcome never
      rw [outcome] at later
      exact inductionHypothesis never later

end System

/--
In every run of the two programs in which an upload only starts when the data
of every earlier one has been sent, every image that is booted is the client's.
-/
theorem uploads_neverMerged
    {image : List UInt8}
    {system : UploadSystem n}
    {steps : List UploadStep}
    (idle : UploadIdle image system)
    (apart : uploadsApart steps system = true) :
    BootsOnly image (finalState (each uploadStep steps system)).server.hw :=
  KeepsAt.final
    (fun last => BootsOnly image last.server.hw)
    (KeepsAt.mono (idle.neverMerged.run apart)
      (fun _ never => never.boots) (fun _ _ => id))

/-- A one-byte image, and a server that has selected its board. -/
def uploadBench : UploadSystem 1 where
  client :=
    Client.initial ⟨0, 0, true, false, some [0x7f], false, []⟩ 0 []
      ⟨⟨[], false⟩, []⟩ ⟨0, []⟩ 0
  server :=
    finalState
      (dispatch selectFtdiBoard (benchServer ⟨⟨[], false⟩, []⟩ []).state)
  received := 0

theorem uploadBench_idle :
    UploadIdle [0x7f] uploadBench where
  queue :=
    { represents := Links.represents_init WorkNode.head
      allocated := by
        intro index work
        simp [uploadBench, Client.initial]
      writable := by decide
      file := rfl
      uploading := rfl }
  received := rfl
  buffer := by decide +kernel
  boots := by
    have silent :
        ∀ event, event ∈ uploadBench.server.hw.log →
          (event.value matches .deviceBoot _ _) = false := by
      decide +kernel
    intro event member device booted isBoot
    have noBoot := silent event member
    rw [isBoot] at noBoot
    contradiction

/-- Fastboot goes and comes back after the first upload. -/
def presentAfterUpload : List UploadStep :=
  [.present [1], .work, .work, .deliver, .present [0], .present [1],
    .work, .deliver, .work, .deliver, .deliver]

/-- Fastboot goes and comes back before the pipe takes any data. -/
def presentBeforeUpload : List UploadStep :=
  [.present [1], .present [0], .present [1], .work, .deliver, .deliver,
    .deliver]

/-- Two uploads, one after the other. -/
theorem presentAfterUpload_apart :
    BootsOnly [0x7f]
      (finalState
        (each uploadStep presentAfterUpload uploadBench)).server.hw :=
  uploads_neverMerged uploadBench_idle (by decide +kernel)

/-- Two uploads at once: their chunks end up in one image. -/
theorem presentBeforeUpload_merged :
    UploadIdle [0x7f] uploadBench ∧
      ¬BootsOnly [0x7f]
        (finalState
          (each uploadStep presentBeforeUpload
            uploadBench)).server.hw := by
  refine ⟨uploadBench_idle, fun boots => ?_⟩
  have merged :
      ⟨0, .deviceBoot 0 [0x7f, 0x7f]⟩ ∈
        (finalState
          (each uploadStep presentBeforeUpload
            uploadBench)).server.hw.log := by
    decide +kernel
  have single := boots _ merged 0 _ rfl
  exact absurd single (by decide)

end Cdba
