import Cdba.WorkQueue

namespace Cdba

/-!
# Uploading an image through a full pipe

A chunk of the image goes out in two writes, its header and its payload, and
either of them may find the pipe full.  `fastboot_work_fn` then starts the
whole chunk again, which is right after a refused header and wrong after a
refused payload.
-/

open Program

namespace Client

/-! ## Frames of an upload -/

theorem piece_fits
    (image : List UInt8)
    (offset : Nat) :
    (piece image offset image.length).length < 2 ^ 16 := by
  rw [piece, List.length_take]
  omega

/-- The frame that carries a piece of an image. -/
def pieceFrame (image : List UInt8) (offset : Nat) : Msg :=
  Msg.ofData MsgType.fastbootDownload.code
    (piece image offset image.length) (piece_fits image offset)

/-- The frame that ends an upload. -/
def emptyFrame : Msg :=
  Msg.ofData MsgType.fastbootDownload.code [] Msg.nil_fits

/-- Frames whose payloads, one after the other, are a part of an image. -/
structure Carries (frames : List Msg) (part : List UInt8) : Prop where
  download :
    ∀ frame, frame ∈ frames →
      frame.type = MsgType.fastbootDownload.code
  nonempty : ∀ frame, frame ∈ frames → frame.data ≠ []
  payload : frames.flatMap Msg.data = part

theorem length_piece
    (image : List UInt8)
    (offset : Nat) :
    (piece image offset image.length).length =
      min 2048 (image.length - offset) := by
  rw [piece, List.length_take, List.length_drop]
  omega

theorem piece_eq_nil_iff
    {image : List UInt8}
    {offset : Nat} :
    piece image offset image.length = [] ↔ image.length - offset = 0 := by
  rw [← List.length_eq_zero_iff, length_piece]
  omega

/-- The next piece carries on where the frames so far end. -/
theorem Carries.piece
    {frames : List Msg}
    {image : List UInt8}
    {offset : Nat}
    (carries : Carries frames (image.take offset))
    (more : image.length - offset ≠ 0) :
    Carries (frames ++ [pieceFrame image offset])
      (image.take (offset + min 2048 (image.length - offset))) where
  download := by
    intro frame member
    rcases List.mem_append.mp member with early | last
    · exact carries.download frame early
    · rw [List.mem_singleton.mp last]
      rfl
  nonempty := by
    intro frame member
    rcases List.mem_append.mp member with early | last
    · exact carries.nonempty frame early
    · rw [List.mem_singleton.mp last]
      exact fun empty => more (piece_eq_nil_iff.mp empty)
  payload := by
    rw [List.flatMap_append, carries.payload, List.take_add]
    simp [pieceFrame, Msg.ofData, Client.piece]

/-! ## One pass -/

/-- The only queued work is an upload of which `offset` bytes are sent. -/
structure Uploading
    (index : Nat)
    (image : List UInt8)
    (offset : Nat)
    (client : Client) :
    Prop where
  represents : client.workItems.Represents .head [.heap index]
  work :
    client.works[index]? =
      some (some (.fastbootDownload image offset image.length))
  inside : offset ≤ image.length

/-- What a pass does to an upload, depending on how its writes end. -/
inductive Passed
    (index : Nat)
    (image : List UInt8)
    (offset : Nat)
    (client final : Client) :
    Prop where
  /-- The header is refused. -/
  | waits
      (uploading : Uploading index image offset final)
      (writes : client.writes = .wouldBlock :: final.writes)
      (stdin : final.sshStdin = client.sshStdin)
  /-- The payload is refused, behind a header that went out. -/
  | leavesHeader
      (uploading : Uploading index image offset final)
      (more : image.length - offset ≠ 0)
      (header : client.writes.headD .done = .done)
      (payload : client.writes.tail.headD .done ≠ .done)
      (stdin :
        final.sshStdin =
          client.sshStdin ++
            headerBytes MsgType.fastbootDownload.code
              (pieceFrame image offset).len)
  /-- The piece goes out. -/
  | sendsPiece
      (uploading :
        Uploading index image
          (offset + min 2048 (image.length - offset)) final)
      (more : image.length - offset ≠ 0)
      (header : client.writes.headD .done = .done)
      (payload : client.writes.tail.headD .done = .done)
      (writes : final.writes = client.writes.tail.tail)
      (stdin :
        final.sshStdin =
          client.sshStdin ++ encodeMsg (pieceFrame image offset))
  /-- The frame that ends the upload goes out. -/
  | finishes
      (represents : final.workItems.Represents .head [])
      (freed : final.works[index]? = some none)
      (complete : image.length - offset = 0)
      (header : client.writes.headD .done = .done)
      (stdin :
        final.sshStdin = client.sshStdin ++ encodeMsg emptyFrame)

section Pass

variable {index : Nat} {image : List UInt8} {offset : Nat}
variable {client : Client}

/-- The node of an upload has been removed and added again. -/
theorem Uploading.requeued
    {final : Client}
    {next : Nat}
    (uploading : Uploading index image offset client)
    (links :
      final.workItems =
        (client.workItems.listDel (.heap index)).listAdd .head
          (.heap index))
    (work :
      final.works[index]? =
        some (some (.fastbootDownload image next image.length)))
    (inside : next ≤ image.length) :
    Uploading index image next final where
  represents := by
    rw [links]
    exact (uploading.represents.listDel []).listAdd (by simp)
  work := work
  inside := inside

theorem Uploading.pass
    (uploading : Uploading index image offset client)
    (nonBlocking :
      ∀ outcome, outcome ∈ client.writes → outcome ≠ .fail) :
    ∃ final,
      workPass client = .ok () final ∧
        final.writes <:+ client.writes ∧
        Passed index image offset client final := by
  have inBounds : index < client.works.length :=
    (List.getElem?_eq_some_iff.mp uploading.work).1
  have inside := uploading.inside
  have suffix := sendResult_suffix .fastbootDownload
    (piece image offset image.length) client.writes
  have mayFail :
      ∀ writes : List WriteOutcome,
        writes <:+ client.writes → writes.headD .done ≠ .fail := by
    intro writes isSuffix failed
    have member : writes.headD .done ∈ writes :=
      (mem_of_headD (by rw [failed]; decide)).1
    exact nonBlocking _ (isSuffix.subset member) failed
  rw [workPass_singleton uploading.represents,
    runNode_upload uploading.work, fastbootWorkFn_eq]
  dsimp only
  unfold sendResult at suffix ⊢
  cases header : client.writes.headD .done with
  | fail => exact absurd header (mayFail _ (List.suffix_refl _))
  | wouldBlock =>
      simp only [header] at suffix ⊢
      refine ⟨_, rfl, suffix,
        .waits (uploading.requeued rfl uploading.work inside) ?_ (by simp)⟩
      cases writes : client.writes with
      | nil => simp [writes] at header
      | cons first rest =>
          rw [writes] at header
          rw [show first = .wouldBlock from header]
          rfl
  | done =>
      by_cases complete : image.length - offset = 0
      · have empty := piece_eq_nil_iff.mpr complete
        simp only [header, empty, ↓reduceIte, complete, Nat.min_zero]
          at suffix ⊢
        exact ⟨_, rfl, suffix,
          .finishes (uploading.represents.listDel [])
            (by simp [inBounds]) complete header rfl⟩
      · have nonempty : ¬piece image offset image.length = [] :=
          fun empty => complete (piece_eq_nil_iff.mp empty)
        have progress : min 2048 (image.length - offset) ≠ 0 := by omega
        simp only [header, nonempty, ↓reduceIte] at suffix ⊢
        cases payload : client.writes.tail.headD .done with
        | fail => exact absurd payload (mayFail _ (List.tail_suffix _))
        | wouldBlock =>
            simp only [payload] at suffix ⊢
            exact ⟨_, rfl, suffix,
              .leavesHeader
                (uploading.requeued rfl uploading.work inside)
                complete header (by rw [payload]; decide) rfl⟩
        | done =>
            simp only [payload, progress, ↓reduceIte] at suffix ⊢
            exact ⟨_, rfl, suffix,
              .sendsPiece
                (uploading.requeued rfl (by simp [inBounds]) (by omega))
                complete header payload rfl rfl⟩

end Pass

/-! ## Whole uploads -/

/-- The client after some passes over its queue. -/
def afterPasses (passes : Nat) (client : Client) : Client :=
  finalState (workPasses passes client)

/--
Complete frames with the beginning of the image, and at most one more frame
that is still being written.
-/
def FramesSoFar
    (image : List UInt8)
    (earlier : List Msg)
    (stream : List UInt8) :
    Prop :=
  ∃ frames unfinished next missing,
    stream = wire.encodeAll (earlier ++ frames) ++ unfinished ∧
      (∀ frame, frame ∈ frames →
        frame.type = MsgType.fastbootDownload.code) ∧
      frames.flatMap Msg.data <+: image ∧
      next.type = MsgType.fastbootDownload.code ∧
      missing ≠ [] ∧
      encodeMsg next = unfinished ++ missing

/--
An upload survives some passes: the pipe holds complete frames and at most one
unfinished one, a pass that does not get on with the work leaves nothing
behind, and a finished upload has carried the image and one empty frame.
-/
structure UploadIntact
    (index : Nat)
    (image : List UInt8)
    (earlier : List Msg)
    (passes : Nat)
    (client : Client) :
    Prop where
  complete :
    ∀ count, count ≤ passes →
      FramesSoFar image earlier (afterPasses count client).sshStdin
  retried :
    ∀ count, count < passes →
      (afterPasses (count + 1) client).works[index]? =
          (afterPasses count client).works[index]? →
        (afterPasses (count + 1) client).sshStdin =
          (afterPasses count client).sshStdin
  finished :
    ∀ count, count ≤ passes →
      (afterPasses count client).workItems.listEmpty .head = true →
        ∃ frames,
          Carries frames image ∧
            (afterPasses count client).sshStdin =
              wire.encodeAll (earlier ++ frames ++ [emptyFrame])

/--
Whether, in some passes over an upload with `left` bytes to go, the payload of
a chunk is refused after its header was written.
-/
def payloadRefused : Nat → Nat → List WriteOutcome → Bool
  | 0, _, _ => false
  | passes + 1, left, writes =>
      match writes.headD .done with
      | .done =>
          if left = 0 then
            false
          else
            match writes.tail.headD .done with
            | .done => payloadRefused passes (left - 2048) writes.tail.tail
            | _ => true
      | _ => payloadRefused passes left writes.tail

/-- What happens to a chunk whose header goes out. -/
theorem payloadRefused_of_header
    {writes : List WriteOutcome}
    (header : writes.headD .done = .done)
    (passes left : Nat) :
    payloadRefused (passes + 1) left writes =
      if left = 0 then
        false
      else if writes.tail.headD .done = .done then
        payloadRefused passes (left - 2048) writes.tail.tail
      else
        true := by
  rw [payloadRefused, header]
  cases writes.tail.headD .done with
  | done => rfl
  | wouldBlock => rfl
  | fail => rfl

/-- An upload in which no payload has been refused, nor will be. -/
inductive Progress
    (index : Nat)
    (image : List UInt8)
    (earlier : List Msg)
    (passes : Nat)
    (client : Client) :
    Prop where
  | running
      (offset : Nat)
      (frames : List Msg)
      (uploading : Uploading index image offset client)
      (nonBlocking :
        ∀ outcome, outcome ∈ client.writes → outcome ≠ .fail)
      (carries : Carries frames (image.take offset))
      (stdin : client.sshStdin = wire.encodeAll (earlier ++ frames))
      (unrefused :
        payloadRefused passes (image.length - offset) client.writes =
          false)
  | finished
      (frames : List Msg)
      (represents : client.workItems.Represents .head [])
      (carries : Carries frames image)
      (stdin :
        client.sshStdin =
          wire.encodeAll (earlier ++ frames ++ [emptyFrame]))

section Upload

variable {index : Nat} {image : List UInt8} {earlier : List Msg}
variable {passes : Nat} {client : Client}

theorem afterPasses_succ
    {final : Client}
    (ran : workPass client = .ok () final)
    (count : Nat) :
    afterPasses (count + 1) client = afterPasses count final := by
  rw [afterPasses, workPasses, bind_of_ok ran]
  rfl

/-- A pass gets on with an upload, or leaves it and the pipe as they are. -/
theorem Progress.pass
    (progress : Progress index image earlier (passes + 1) client) :
    ∃ final,
      workPass client = .ok () final ∧
        Progress index image earlier passes final ∧
        (final.works[index]? = client.works[index]? →
          final.sshStdin = client.sshStdin) := by
  cases progress with
  | finished frames represents carries stdin =>
      exact ⟨client, workPass_nil represents,
        .finished frames represents carries stdin, fun _ => rfl⟩
  | running offset frames uploading nonBlocking carries stdin unrefused =>
      obtain ⟨final, ran, suffix, passed⟩ := uploading.pass nonBlocking
      have nonBlocking :
          ∀ outcome, outcome ∈ final.writes → outcome ≠ .fail :=
        fun outcome member => nonBlocking outcome (suffix.subset member)
      refine ⟨final, ran, ?_⟩
      cases passed with
      | waits uploading' writes stdin' =>
          refine ⟨.running offset frames uploading' nonBlocking carries
            (stdin'.trans stdin) ?_, fun _ => stdin'⟩
          simpa [payloadRefused, writes] using unrefused
      | leavesHeader uploading' more header payload stdin' =>
          rw [payloadRefused_of_header header, if_neg more,
            if_neg payload] at unrefused
          contradiction
      | sendsPiece uploading' more header payload writes stdin' =>
          refine ⟨.running _ (frames ++ [pieceFrame image offset])
            uploading' nonBlocking (carries.piece more) ?_ ?_, ?_⟩
          · rw [stdin', stdin, ← List.append_assoc,
              wire.encodeAll_append]
            simp
          · have rest :
                image.length -
                    (offset + min 2048 (image.length - offset)) =
                  image.length - offset - 2048 := by
              omega
            rw [rest, writes]
            rwa [payloadRefused_of_header header, if_neg more,
              if_pos payload] at unrefused
          · intro same
            rw [uploading'.work, uploading.work] at same
            simp only [Option.some.injEq, Work.fastbootDownload.injEq]
              at same
            omega
      | finishes represents freed complete header stdin' =>
          have whole : image.take offset = image :=
            List.take_of_length_le (by omega)
          rw [whole] at carries
          refine ⟨.finished frames represents carries ?_, ?_⟩
          · rw [stdin', stdin, wire.encodeAll_append (earlier ++ frames)]
            simp
          · intro same
            rw [freed, uploading.work] at same
            simp at same

theorem Progress.framesSoFar
    (progress : Progress index image earlier passes client) :
    FramesSoFar image earlier client.sshStdin := by
  have unstarted :
      emptyFrame.type = MsgType.fastbootDownload.code ∧
        encodeMsg emptyFrame ≠ [] ∧
        encodeMsg emptyFrame = [] ++ encodeMsg emptyFrame := by
    decide
  cases progress with
  | running offset frames uploading nonBlocking carries stdin unrefused =>
      refine ⟨frames, [], emptyFrame, _, by simp [stdin],
        carries.download, ?_, unstarted⟩
      rw [carries.payload]
      exact List.take_prefix _ _
  | finished frames represents carries stdin =>
      refine ⟨frames ++ [emptyFrame], [], emptyFrame, _,
        by simp [stdin], ?_, ?_, unstarted⟩
      · intro frame member
        rcases List.mem_append.mp member with early | last
        · exact carries.download frame early
        · rw [List.mem_singleton.mp last]
          rfl
      · rw [List.flatMap_append, carries.payload]
        exact ⟨[], by simp [emptyFrame, Msg.ofData]⟩

theorem Progress.done
    (progress : Progress index image earlier passes client)
    (empty : client.workItems.listEmpty .head = true) :
    ∃ frames,
      Carries frames image ∧
        client.sshStdin =
          wire.encodeAll (earlier ++ frames ++ [emptyFrame]) := by
  cases progress with
  | running offset frames uploading nonBlocking carries stdin unrefused =>
      have none := uploading.represents.listEmpty_iff.mp empty
      exact absurd none (by simp)
  | finished frames represents carries stdin =>
      exact ⟨frames, carries, stdin⟩

/-- An upload in which no payload is refused survives. -/
theorem Progress.intact
    (progress : Progress index image earlier passes client) :
    UploadIntact index image earlier passes client := by
  induction passes generalizing client with
  | zero =>
      refine ⟨?_, ?_, ?_⟩
      · intro count bound
        rw [Nat.le_zero.mp bound]
        exact progress.framesSoFar
      · exact fun count bound => absurd bound (Nat.not_lt_zero _)
      · intro count bound empty
        rw [Nat.le_zero.mp bound] at empty ⊢
        exact progress.done empty
  | succ passes inductionHypothesis =>
      obtain ⟨final, ran, later, leaves⟩ := progress.pass
      have rest := inductionHypothesis later
      refine ⟨?_, ?_, ?_⟩
      · intro count bound
        cases count with
        | zero => exact progress.framesSoFar
        | succ count =>
            rw [afterPasses_succ ran]
            exact rest.complete count (by omega)
      · intro count bound
        cases count with
        | zero =>
            rw [afterPasses_succ ran]
            exact leaves
        | succ count =>
            rw [afterPasses_succ ran, afterPasses_succ ran]
            exact rest.retried count (by omega)
      · intro count bound empty
        cases count with
        | zero => exact progress.done empty
        | succ count =>
            rw [afterPasses_succ ran] at empty ⊢
            exact rest.finished count (by omega) empty

/-- A pass that leaves a bare header behind does not leave the pipe as it was. -/
theorem unrefused_of_retried
    {offset : Nat}
    (uploading : Uploading index image offset client)
    (nonBlocking :
      ∀ outcome, outcome ∈ client.writes → outcome ≠ .fail)
    (retried :
      ∀ count, count < passes →
        (afterPasses (count + 1) client).works[index]? =
            (afterPasses count client).works[index]? →
          (afterPasses (count + 1) client).sshStdin =
            (afterPasses count client).sshStdin) :
    payloadRefused passes (image.length - offset) client.writes =
      false := by
  induction passes generalizing client offset with
  | zero =>
      rfl
  | succ passes inductionHypothesis =>
      obtain ⟨final, ran, suffix, passed⟩ := uploading.pass nonBlocking
      have nonBlocking :
          ∀ outcome, outcome ∈ final.writes → outcome ≠ .fail :=
        fun outcome member => nonBlocking outcome (suffix.subset member)
      have later :
          ∀ count, count < passes →
            (afterPasses (count + 1) final).works[index]? =
                (afterPasses count final).works[index]? →
              (afterPasses (count + 1) final).sshStdin =
                (afterPasses count final).sshStdin := by
        intro count bound
        have step := retried (count + 1) (by omega)
        rwa [afterPasses_succ ran, afterPasses_succ ran] at step
      cases passed with
      | waits uploading' writes stdin' =>
          have rest := inductionHypothesis uploading' nonBlocking later
          simpa [payloadRefused, writes] using rest
      | leavesHeader uploading' more header payload stdin' =>
          have same := retried 0 (by omega)
          rw [afterPasses_succ ran] at same
          have sameStdin : final.sshStdin = client.sshStdin :=
            same (uploading'.work.trans uploading.work.symm)
          rw [stdin'] at sameStdin
          simp [headerBytes] at sameStdin
      | sendsPiece uploading' more header payload writes stdin' =>
          have rest := inductionHypothesis uploading' nonBlocking later
          have left :
              image.length -
                  (offset + min 2048 (image.length - offset)) =
                image.length - offset - 2048 := by
            omega
          rw [left, writes] at rest
          rwa [payloadRefused_of_header header, if_neg more,
            if_pos payload]
      | finishes represents freed complete header stdin' =>
          rw [payloadRefused_of_header header, if_pos complete]

end Upload

/--
Through any number of passes, an upload survives a pipe that is now and then
full exactly when no payload is refused behind its header.
-/
theorem uploadIntact_iff
    {index : Nat}
    {image : List UInt8}
    {earlier : List Msg}
    {client : Client}
    (uploading : Uploading index image 0 client)
    (stdin : client.sshStdin = wire.encodeAll earlier)
    (nonBlocking :
      ∀ outcome, outcome ∈ client.writes → outcome ≠ .fail)
    (passes : Nat) :
    UploadIntact index image earlier passes client ↔
      payloadRefused passes image.length client.writes = false := by
  constructor
  · exact fun intact =>
      unrefused_of_retried uploading nonBlocking intact.retried
  · intro unrefused
    refine (Progress.running 0 [] uploading nonBlocking ?_ ?_
      unrefused).intact
    · exact ⟨by simp, by simp, rfl⟩
    · rw [stdin, List.append_nil]

/-- A client that has requested to upload a one-byte image. -/
def oneByteUpload (writes : List WriteOutcome) : Client :=
  finalState
    (requestFastbootFiles
      (initial ⟨0, 0, true, false, some [0x7f], false, []⟩ 0 writes
        ⟨⟨[], false⟩, []⟩ ⟨0, []⟩ 0))

theorem oneByteUpload_uploading
    (writes : List WriteOutcome) :
    Uploading 0 [0x7f] 0 (oneByteUpload writes) where
  represents := (Links.represents_init WorkNode.head).listAdd (by simp)
  work := rfl
  inside := Nat.zero_le _

/-- Both headers are refused once. -/
theorem refusedHeaders_intact :
    UploadIntact 0 [0x7f] [] 4
      (oneByteUpload [.wouldBlock, .done, .done, .wouldBlock]) :=
  (uploadIntact_iff (oneByteUpload_uploading _) rfl (by decide) 4).mpr
    (by decide)

/--
The payload is refused once: its header stays in the pipe, and the server
takes the header that is sent again for the payload.
-/
theorem refusedPayload_damaged :
    (afterPasses 3
        (oneByteUpload [.done, .wouldBlock])).workItems.listEmpty .head =
        true ∧
      (afterPasses 3 (oneByteUpload [.done, .wouldBlock])).sshStdin =
        [7, 1, 0, 7, 1, 0, 0x7f, 7, 0, 0] ∧
      ¬UploadIntact 0 [0x7f] [] 3
        (oneByteUpload [.done, .wouldBlock]) := by
  have empty :
      (afterPasses 3
        (oneByteUpload [.done, .wouldBlock])).workItems.listEmpty .head =
        true := by
    decide +kernel
  have stream :
      (afterPasses 3 (oneByteUpload [.done, .wouldBlock])).sshStdin =
        [7, 1, 0, 7, 1, 0, 0x7f, 7, 0, 0] := by
    decide +kernel
  refine ⟨empty, stream, fun intact => ?_⟩
  obtain ⟨frames, carries, sent⟩ :=
    intact.finished 3 (Nat.le_refl _) empty
  let decoded : Msg :=
    Msg.ofData MsgType.fastbootDownload.code [7] (by decide)
  have parsed :
      wire.encodeAll (frames ++ [emptyFrame]) =
        wire.encodeAll [decoded] ++ [1, 0, 0x7f, 7, 0, 0] := by
    rw [← List.nil_append frames, ← sent, stream]
    decide
  obtain ⟨remaining, shape, _⟩ := FrameFormat.encodeAll_eq_append parsed
  cases frames with
  | nil =>
      have same : emptyFrame = decoded := (List.cons.inj shape).1
      exact absurd same (by decide)
  | cons frame rest =>
      have same : frame = decoded := (List.cons.inj shape).1
      have payload := carries.payload
      rw [List.flatMap_cons, same] at payload
      exact absurd (List.cons.inj payload).1 (by decide)

end Client

end Cdba
