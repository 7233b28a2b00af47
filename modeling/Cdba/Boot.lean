import Cdba.ImageUpload
import Cdba.MessageLengths
import Cdba.Requests

namespace Cdba

/-!
# Booting an image

With `-c N` the client is to boot its image, and after each run of 20 tildes to
restart the board and boot the image again, `N` times.  The server and the
board are whatever answers the client's requests in this order: the board is
selected, then in every boot fastboot shows up, the image is accepted, fastboot
goes away, and the tildes are printed.
-/

open Program

/-! ## What the server and the board do -/

/-- How far the board has come since it was last powered off. -/
inductive Stage where
  /-- It has not been selected. -/
  | connecting
  /-- It is selected, and fastboot has not shown up. -/
  | starting
  /-- Fastboot waits for an image. -/
  | fastboot
  /-- The image has been accepted. -/
  | accepted
  /-- Fastboot has gone away. -/
  | running
  /-- A run of 20 tildes has been printed. -/
  | finished
  deriving DecidableEq, Repr

/-- What the server has told, up to one of its messages. -/
structure Course where
  stage : Stage
  /-- The tildes at the end of the console output. -/
  tildes : Nat
  /-- How often the board was powered off. -/
  restarts : Nat
  deriving DecidableEq, Repr

namespace Course

/-- Before the first message. -/
def initial : Course where
  stage := .connecting
  tildes := 0
  restarts := 0

/-- How often fastboot has shown up. -/
def presents (course : Course) : Nat :=
  course.restarts +
    match course.stage with
    | .connecting | .starting => 0
    | _ => 1

/-- How many images have been accepted. -/
def acceptances (course : Course) : Nat :=
  course.restarts +
    match course.stage with
    | .connecting | .starting | .fastboot => 0
    | _ => 1

/-- How many runs of tildes have been printed. -/
def runs (course : Course) : Nat :=
  course.restarts +
    match course.stage with
    | .finished => 1
    | _ => 0

/-- The console: only a running board prints 20 tildes, once, and never 21. -/
def print? (course : Course) (char : UInt8) : Option Course :=
  if char ≠ 0x7e then
    some { course with tildes := 0 }
  else if course.tildes = 20 then
    none
  else if course.tildes ≠ 19 then
    some { course with tildes := course.tildes + 1 }
  else if course.stage = .running then
    some { course with stage := .finished, tildes := 20 }
  else
    none

/-- The next message, if it is in its turn. -/
def next? (course : Course) (msg : Msg) : Option Course :=
  match MsgType.ofCode? msg.type with
  | some .selectBoard =>
      if course.stage = .connecting then
        some { course with stage := .starting }
      else
        none
  | some .powerOn => some course
  | some .statusUpdate => some course
  | some .console => msg.data.foldlM print? course
  | some .fastbootPresent =>
      if msg.data = [1] ∧ course.stage = .starting then
        some { course with stage := .fastboot }
      else if msg.data = [0] ∧ course.stage = .accepted then
        some { course with stage := .running }
      else
        none
  | some .fastbootDownload =>
      if course.stage = .fastboot then
        some { course with stage := .accepted }
      else
        none
  | some .powerOff =>
      if course.stage = .finished then
        some
          { course with
            stage := .starting
            restarts := course.restarts + 1 }
      else
        none
  | _ => none

/-- A whole conversation. -/
def after? (received : List Msg) : Option Course :=
  received.foldlM next? initial

end Course

namespace Course

theorem after?_concat
    (received : List Msg)
    (msg : Msg) :
    after? (received ++ [msg]) =
      (after? received).bind fun course => course.next? msg := by
  unfold after?
  rw [List.foldlM_append]
  simp only [List.foldlM_cons, List.foldlM_nil, bind_pure]
  rfl

/-- Console output only brings the tildes that a running board prints. -/
structure Prints (course next : Course) : Prop where
  restarts : next.restarts = course.restarts
  stage :
    next.stage = course.stage ∨
      course.stage = .running ∧ next.stage = .finished

theorem Prints.of_print?
    {course next : Course}
    {char : UInt8}
    (prints : course.print? char = some next) :
    Prints course next := by
  unfold print? at prints
  split at prints
  · cases prints
    exact ⟨rfl, .inl rfl⟩
  · split at prints
    · contradiction
    · split at prints
      · cases prints
        exact ⟨rfl, .inl rfl⟩
      · split at prints
        · rename_i running
          cases prints
          exact ⟨rfl, .inr ⟨running, rfl⟩⟩
        · contradiction

theorem Prints.of_foldlM
    {course next : Course}
    {data : List UInt8}
    (prints : data.foldlM print? course = some next) :
    Prints course next := by
  induction data generalizing course with
  | nil =>
      cases prints
      exact ⟨rfl, .inl rfl⟩
  | cons char rest inductionHypothesis =>
      rw [List.foldlM_cons] at prints
      obtain ⟨middle, first, later⟩ := Option.bind_eq_some_iff.mp prints
      have one := Prints.of_print? first
      have others := inductionHypothesis later
      refine ⟨others.restarts.trans one.restarts, ?_⟩
      rcases one.stage with same | ⟨running, finished⟩
      · rw [← same]
        exact others.stage
      · rcases others.stage with same | ⟨again, _⟩
        · exact .inr ⟨running, same.trans finished⟩
        · rw [finished] at again
          contradiction

theorem Prints.presents
    {course next : Course}
    (prints : Prints course next) :
    next.presents = course.presents ∧
      next.acceptances = course.acceptances ∧
      (next.stage = .connecting ↔ course.stage = .connecting) := by
  unfold Course.presents Course.acceptances
  rw [prints.restarts]
  rcases prints.stage with same | ⟨running, finished⟩
  · rw [same]
    exact ⟨rfl, rfl, Iff.rfl⟩
  · rw [running, finished]
    exact ⟨rfl, rfl, by simp⟩

/-- Nothing that was told is taken back. -/
theorem next?_grows
    {course next : Course}
    {msg : Msg}
    (advance : course.next? msg = some next) :
    course.presents ≤ next.presents ∧
      course.acceptances ≤ next.acceptances ∧
      course.restarts ≤ next.restarts ∧
      (next.stage = .connecting → course.stage = .connecting) := by
  unfold next? at advance
  split at advance
  · split at advance
    · rename_i connecting
      cases advance
      simp [Course.presents, Course.acceptances, connecting]
    · contradiction
  · cases advance
    simp
  · cases advance
    simp
  · have prints := Prints.of_foldlM advance
    obtain ⟨presents, acceptances, connecting⟩ := prints.presents
    rw [presents, acceptances, prints.restarts, connecting]
    simp
  · split at advance
    · rename_i starts
      cases advance
      simp [Course.presents, Course.acceptances, starts.2]
    · split at advance
      · rename_i goes
        cases advance
        simp [Course.presents, Course.acceptances, goes.2]
      · contradiction
  · split at advance
    · rename_i waits
      cases advance
      simp [Course.presents, Course.acceptances, waits]
    · contradiction
  · split at advance
    · rename_i finished
      cases advance
      simp [Course.presents, Course.acceptances, finished]
    · contradiction
  · contradiction

end Course

/-- The frames of one type. -/
def framesOf (type : MsgType) (sent : List Msg) : Nat :=
  sent.countP fun frame => frame.type = type.code

/-- The uploads that were sent to their end. -/
def uploadsOf (sent : List Msg) : Nat :=
  sent.countP fun frame =>
    frame.type = MsgType.fastbootDownload.code && frame.data = []

/--
The messages are in their turn, and each of them answers a request that has
been sent: the selection, a power on, an image, a power off.
-/
def justified (sent received : List Msg) : Bool :=
  match Course.after? received with
  | none => false
  | some course =>
      (course.stage = .connecting || 1 ≤ framesOf .selectBoard sent) &&
        course.presents ≤ framesOf .powerOn sent &&
        course.acceptances ≤ uploadsOf sent &&
        course.restarts ≤ framesOf .powerOff sent

namespace Client

/-- Nobody types `^A`, and the connection stays. -/
def Ready.calm (ready : Ready) : Bool :=
  (ready.tty.join.getD []).all (· ≠ 0x01) &&
    ready.stderr ≠ some .eof && ready.stderr ≠ some .fail

/--
In every iteration the messages that are dispatched are justified by what the
client has sent before, and no deadline is reached.
-/
def undisturbed : List Ready → ClientLoop → Bool
  | [], _ => true
  | ready :: rest, loop =>
      loop.state.quit ||
        (Ready.calm ready &&
          justified (wire.parse loop.state.sshStdin)
            (finalState (iteration ready loop)).state.dispatched &&
          !(finalState (iteration ready loop)).state.reachedTimeout &&
          match iteration ready loop with
          | .ok _ next => undisturbed rest next
          | .error _ _ => true)

/-! ## What the client is to do -/

/-- The main loop has ended. -/
def leftLoop (result : EStateM.Result ClientStop ClientLoop Unit) : Bool :=
  match result with
  | .ok _ loop => loop.state.quit
  | .error reason _ => reason = .leaveLoop

/-- The exit status of `main`. -/
def exitStatus (client : Client) : Nat :=
  if client.reachedTimeout then
    if client.fastbootDone then 110 else 2
  else if client.quit || client.receivedPowerOff then
    0
  else
    1

/-- An image, sent a number of times. -/
inductive Uploads (image : List UInt8) : Nat → List Msg → Prop where
  | nil : Uploads image 0 []
  | cons
      {count : Nat}
      {chunks rest : List Msg}
      (carries : Carries chunks image)
      (later : Uploads image count rest) :
      Uploads image (count + 1) (chunks ++ emptyFrame :: rest)

/-- The frames that carry images. -/
def downloads (sent : List Msg) : List Msg :=
  sent.filter fun frame => frame.type = MsgType.fastbootDownload.code

/-- The types of the frames that turn power on and off, in order. -/
def powerRequests (sent : List Msg) : List MsgType :=
  sent.filterMap fun frame =>
    if frame.type = MsgType.powerOn.code then
      some .powerOn
    else if frame.type = MsgType.powerOff.code then
      some .powerOff
    else
      none

/--
The client ends with status 0 when it has been told of `cycles + 1` runs of
tildes, has sent the image as often, and has turned the power on, and then off
and on again `cycles` times.
-/
structure Restarts
    (image : List UInt8)
    (cycles : Nat)
    (result : EStateM.Result ClientStop ClientLoop Unit) :
    Prop where
  left : leftLoop result = true
  status : exitStatus (finalState result).state = 0
  told :
    (Course.after? (finalState result).state.dispatched).map Course.runs =
      some (cycles + 1)
  uploads :
    Uploads image (cycles + 1)
      (downloads (wire.parse (finalState result).state.sshStdin))
  power :
    powerRequests (wire.parse (finalState result).state.sshStdin) =
      .powerOn ::
        (List.replicate cycles [.powerOff, .powerOn]).flatten

/-- The loop has ended, or could have, as an iteration began with all tildes told. -/
def ranFar
    (cycles : Nat) :
    List Ready → ClientLoop → Bool
  | [], loop => loop.state.quit
  | ready :: rest, loop =>
      loop.state.quit ||
        (Course.after? loop.state.dispatched).map Course.runs =
          some (cycles + 1) ||
        match iteration ready loop with
        | .ok _ next => ranFar cycles rest next
        | .error reason _ => reason = .leaveLoop

/-! ## Frames that were sent -/

section Frames

variable {sent : List Msg} {image : List UInt8}

theorem downloads_append
    (first second : List Msg) :
    downloads (first ++ second) = downloads first ++ downloads second :=
  List.filter_append ..

/-- Every upload that was sent to its end is among the downloads. -/
theorem uploadsOf_downloads
    (sent : List Msg) :
    uploadsOf (downloads sent) = uploadsOf sent := by
  unfold uploadsOf downloads
  rw [List.countP_filter]
  congr 1
  funext frame
  simp only [Bool.and_eq_left_iff_imp, Bool.and_eq_true, and_imp]
  exact fun isDownload _ => isDownload

/-- The chunks of an image do not end an upload. -/
theorem Carries.uploadsOf
    {chunks : List Msg}
    {part : List UInt8}
    (carries : Carries chunks part) :
    uploadsOf chunks = 0 := by
  rw [Cdba.uploadsOf, List.countP_eq_zero]
  intro frame member
  simp [carries.nonempty frame member]

/-- Without a frame that turns power off, the others only turn it on. -/
theorem powerRequests_eq
    (neverOff : framesOf .powerOff sent = 0) :
    powerRequests sent =
      List.replicate (framesOf .powerOn sent) .powerOn := by
  induction sent with
  | nil =>
      rfl
  | cons frame rest inductionHypothesis =>
      unfold framesOf at neverOff inductionHypothesis ⊢
      unfold powerRequests at inductionHypothesis ⊢
      rw [List.countP_cons] at neverOff
      have none := inductionHypothesis (by omega)
      have notOff : ¬frame.type = MsgType.powerOff.code := by
        intro off
        simp [off] at neverOff
      rw [List.filterMap_cons, List.countP_cons]
      by_cases on : frame.type = MsgType.powerOn.code
      · simp only [on, ↓reduceIte, none, decide_true,
          List.replicate_succ]
      · simp only [on, notOff, ↓reduceIte, none, decide_false,
          Bool.false_eq_true, Nat.add_zero]

end Frames

/-! ## At most one upload -/

/-- No allocated work is an upload. -/
def NoUpload (works : List (Option Work)) : Prop :=
  ∀ (index : Nat) (data : List UInt8) (offset size : Nat),
    works[index]? ≠ some (some (Work.fastbootDownload data offset size))

/-- Of at most one upload: what has been sent, and the work that is left. -/
inductive SentOnce (image : List UInt8) :
    List Msg → List (Option Work) → Prop where
  | waiting
      {works : List (Option Work)}
      (idle : NoUpload works) :
      SentOnce image [] works
  | sending
      {works : List (Option Work)}
      {chunks : List Msg}
      {index offset : Nat}
      (found :
        works[index]? =
          some (some (.fastbootDownload image offset image.length)))
      (only :
        ∀ (other : Nat) (data : List UInt8) (offset size : Nat),
          works[other]? =
              some (some (.fastbootDownload data offset size)) →
            other = index)
      (inside : offset ≤ image.length)
      (carries : Carries chunks (image.take offset)) :
      SentOnce image chunks works
  | sent
      {works : List (Option Work)}
      {chunks : List Msg}
      (idle : NoUpload works)
      (carries : Carries chunks image) :
      SentOnce image (chunks ++ [emptyFrame]) works

@[simp] theorem uploadsOf_append
    (first second : List Msg) :
    uploadsOf (first ++ second) = uploadsOf first + uploadsOf second :=
  List.countP_append ..

@[simp] theorem framesOf_append
    (type : MsgType)
    (first second : List Msg) :
    framesOf type (first ++ second) =
      framesOf type first + framesOf type second :=
  List.countP_append ..

section SentOnce

variable {image : List UInt8} {frames : List Msg}
variable {works : List (Option Work)}

theorem SentOnce.uploadsOf_le
    (once : SentOnce image frames works) :
    uploadsOf frames ≤ 1 := by
  cases once with
  | waiting idle => exact Nat.zero_le _
  | sending found only inside carries =>
      rw [carries.uploadsOf]
      exact Nat.zero_le _
  | sent idle carries =>
      have last : uploadsOf [emptyFrame] = 1 := by decide
      exact Nat.le_of_eq (by rw [uploadsOf_append, carries.uploadsOf, last])

theorem SentOnce.uploads
    (once : SentOnce image frames works)
    (ended : 1 ≤ uploadsOf frames) :
    Uploads image 1 frames := by
  cases once with
  | waiting idle => exact absurd ended (by decide)
  | sending found only inside carries =>
      rw [carries.uploadsOf] at ended
      exact absurd ended (by decide)
  | sent idle carries => exact .cons carries .nil

/-- Memory in use after a `free` was in use before, and is other memory. -/
theorem used_of_freed
    {index other : Nat}
    {work : Work}
    (found : (works.set index none)[other]? = some (some work)) :
    index ≠ other ∧ works[other]? = some (some work) := by
  rw [List.getElem?_set] at found
  by_cases same : index = other
  · rw [if_pos same] at found
    split at found
    · exact absurd found nofun
    · exact absurd found nofun
  · rw [if_neg same] at found
    exact ⟨same, found⟩

theorem NoUpload.set_none
    (idle : NoUpload works)
    (index : Nat) :
    NoUpload (works.set index none) :=
  fun other data offset size found =>
    idle other data offset size (used_of_freed found).2

/-- Work that is no upload is freed. -/
theorem SentOnce.free
    {index : Nat}
    {work : Work}
    (once : SentOnce image frames works)
    (found : works[index]? = some (some work))
    (other :
      ∀ data offset size, work ≠ .fastbootDownload data offset size) :
    SentOnce image frames (works.set index none) := by
  cases once with
  | waiting idle => exact .waiting (idle.set_none index)
  | sent idle carries => exact .sent (idle.set_none index) carries
  | @sending _ _ upload offset uploading only inside carries =>
      have apart : index ≠ upload := by
        rintro rfl
        rw [found] at uploading
        simp only [Option.some.injEq] at uploading
        exact other _ _ _ uploading
      have kept :
          (works.set index none)[upload]? =
            some (some (.fastbootDownload image offset image.length)) := by
        rw [List.getElem?_set, if_neg apart]
        exact uploading
      exact .sending kept
        (fun query data offset size isUpload =>
          only query data offset size (used_of_freed isUpload).2)
        inside carries

/-- An upload in memory was there before other work was allocated. -/
theorem upload_of_allocated
    {work : Work}
    (other :
      ∀ data offset size, work ≠ .fastbootDownload data offset size)
    {index offset size : Nat}
    {data : List UInt8}
    (found :
      (works ++ [some work])[index]? =
        some (some (.fastbootDownload data offset size))) :
    works[index]? = some (some (.fastbootDownload data offset size)) := by
  rw [List.getElem?_append] at found
  by_cases inside : index < works.length
  · rw [if_pos inside] at found
    exact found
  · rw [if_neg inside] at found
    have member := List.mem_of_getElem? found
    simp only [List.mem_singleton, Option.some.injEq] at member
    exact absurd member.symm (other data offset size)

theorem NoUpload.allocate
    {work : Work}
    (idle : NoUpload works)
    (other :
      ∀ data offset size, work ≠ .fastbootDownload data offset size) :
    NoUpload (works ++ [some work]) :=
  fun index data offset size found =>
    idle index data offset size (upload_of_allocated other found)

/-- Work that is no upload is allocated. -/
theorem SentOnce.allocate
    {work : Work}
    (once : SentOnce image frames works)
    (other :
      ∀ data offset size, work ≠ .fastbootDownload data offset size) :
    SentOnce image frames (works ++ [some work]) := by
  cases once with
  | waiting idle => exact .waiting (idle.allocate other)
  | sent idle carries => exact .sent (idle.allocate other) carries
  | sending found only inside carries =>
      have inBounds := (List.getElem?_eq_some_iff.mp found).1
      rw [← List.getElem?_append_left inBounds] at found
      exact .sending found (fun index data offset size isUpload =>
        only index data offset size (upload_of_allocated other isUpload))
        inside carries

/-- A first upload is allocated. -/
theorem SentOnce.start
    (idle : NoUpload works) :
    SentOnce image []
      (works ++ [some (.fastbootDownload image 0 image.length)]) := by
  have last :
      (works ++
          [some (.fastbootDownload image 0 image.length)])[works.length]? =
        some (some (.fastbootDownload image 0 image.length)) := by
    simp
  refine .sending last ?_ (Nat.zero_le _) ⟨nofun, nofun, rfl⟩
  · intro other data offset size isUpload
    rw [List.getElem?_append] at isUpload
    by_cases inside : other < works.length
    · rw [if_pos inside] at isUpload
      exact absurd isUpload (idle other data offset size)
    · rw [if_neg inside] at isUpload
      have bound := (List.getElem?_eq_some_iff.mp isUpload).1
      simp only [List.length_singleton] at bound
      omega

/-- The upload in memory is of this image, and under way. -/
theorem SentOnce.found
    {index offset size : Nat}
    {data : List UInt8}
    (once : SentOnce image frames works)
    (found :
      works[index]? = some (some (.fastbootDownload data offset size))) :
    data = image ∧ size = image.length ∧ offset ≤ image.length ∧
      Carries frames (image.take offset) ∧
      ∀ (other : Nat) (data : List UInt8) (offset size : Nat),
        works[other]? =
            some (some (.fastbootDownload data offset size)) →
          other = index := by
  cases once with
  | waiting idle => exact absurd found (idle _ _ _ _)
  | sent idle carries => exact absurd found (idle _ _ _ _)
  | sending uploading only inside carries =>
      cases only _ _ _ _ found
      rw [found] at uploading
      cases uploading
      exact ⟨rfl, rfl, inside, carries, only⟩

/-- A chunk of the upload has been sent. -/
theorem SentOnce.advance
    {index offset : Nat}
    (once : SentOnce image frames works)
    (found :
      works[index]? =
        some (some (.fastbootDownload image offset image.length)))
    (more : image.length - offset ≠ 0) :
    SentOnce image (frames ++ [pieceFrame image offset])
      (works.set index
        (some (.fastbootDownload image
          (offset + min 2048 (image.length - offset)) image.length))) := by
  obtain ⟨_, _, inside, carries, only⟩ := once.found found
  have inBounds := (List.getElem?_eq_some_iff.mp found).1
  refine .sending (List.getElem?_set_self inBounds) ?_ (by omega)
    (carries.piece more)
  · intro other data offset size isUpload
    rw [List.getElem?_set] at isUpload
    by_cases same : index = other
    · exact same.symm
    · rw [if_neg same] at isUpload
      exact only other data offset size isUpload

/-- The frame that ends the upload has been sent. -/
theorem SentOnce.finish
    {index offset : Nat}
    (once : SentOnce image frames works)
    (found :
      works[index]? =
        some (some (.fastbootDownload image offset image.length)))
    (complete : image.length - offset = 0) :
    SentOnce image (frames ++ [emptyFrame]) (works.set index none) := by
  obtain ⟨_, _, inside, carries, only⟩ := once.found found
  rw [List.take_of_length_le (by omega)] at carries
  refine .sent ?_ carries
  intro other data offset size isUpload
  obtain ⟨apart, before⟩ := used_of_freed isUpload
  exact apart (only other data offset size before).symm

end SentOnce

end Client

end Cdba
