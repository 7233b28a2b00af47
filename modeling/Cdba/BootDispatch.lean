import Cdba.BootSending

namespace Cdba

/-!
# The messages of a boot

Each message of the server takes the client one step further on its course.
-/

open Program

namespace Client

section Steps

variable {image : List UInt8} {cycles : Nat} {sent started : List Msg}
variable {course next : Course} {client final : Client}

/-! ## Dispatching -/

/-- The tildes that the client counts are those at the end of the console. -/
theorem SingleBoot.print
    (single : SingleBoot course client)
    {char : UInt8}
    (prints : course.print? char = some next) :
    SingleBoot next (countTilde client char) := by
  have kept :
      ∀ (chars : Nat) (received : Bool) (next : Course),
        next.restarts = course.restarts →
        (next.stage = .connecting ↔ course.stage = .connecting) →
        (chars = if next.tildes = 20 then 0 else next.tildes) →
        received = decide (next.stage = .finished) →
        SingleBoot next
          { client with
            powerOffChars := chars
            receivedPowerOff := received } := by
    intro chars received next restarts connecting counted told
    exact
      { cycles := single.cycles
        goesOn := single.goesOn
        manual := single.manual
        first := restarts.trans single.first
        counted := counted
        received := told
        requested := by
          simp only [connecting]
          exact single.requested
        neverOff := single.neverOff }
  have counted := single.counted
  have received := single.received
  unfold Course.print? at prints
  unfold countTilde
  by_cases tilde : char = 0x7e
  · simp only [ne_eq, tilde, not_true_eq_false, ↓reduceIte] at prints ⊢
    by_cases full : course.tildes = 20
    · simp [full] at prints
    · simp only [full, ↓reduceIte] at prints counted
      rw [counted]
      by_cases last : course.tildes = 19
      · simp only [last, not_true_eq_false, ↓reduceIte] at prints ⊢
        split at prints
        · rename_i running
          cases prints
          exact kept 0 true _ rfl (by simp [running]) rfl rfl
        · contradiction
      · simp only [last, not_false_eq_true, ↓reduceIte] at prints ⊢
        cases prints
        refine kept _ _ _ rfl Iff.rfl ?_ received
        have short : ¬course.tildes + 1 = 20 := by omega
        simp [short]
  · simp only [ne_eq, tilde, not_false_eq_true, ↓reduceIte] at prints ⊢
    cases prints
    exact kept 0 _ _ rfl Iff.rfl rfl received

theorem SingleBoot.prints
    {data : List UInt8}
    (single : SingleBoot course client)
    (prints : data.foldlM Course.print? course = some next) :
    SingleBoot next (data.foldl countTilde client) := by
  induction data generalizing course client with
  | nil =>
      cases prints
      exact single
  | cons char rest inductionHypothesis =>
      rw [List.foldlM_cons] at prints
      obtain ⟨middle, first, later⟩ := Option.bind_eq_some_iff.mp prints
      exact inductionHypothesis (single.print first) later

/-- Neither the selection nor the end of a boot. -/
def Stage.Booted (stage : Stage) : Prop :=
  stage ≠ .connecting ∧ stage ≠ .finished

instance (stage : Stage) : Decidable (Stage.Booted stage) :=
  inferInstanceAs (Decidable (_ ∧ _))

theorem SingleBoot.enters
    (single : SingleBoot course client)
    (before : Stage.Booted course.stage)
    {stage : Stage}
    (after : Stage.Booted stage) :
    SingleBoot { course with stage := stage } client where
  cycles := single.cycles
  goesOn := single.goesOn
  manual := single.manual
  first := single.first
  counted := single.counted
  received := by
    rw [single.received, decide_eq_false before.2, decide_eq_false after.2]
  requested := by
    rw [single.requested, if_neg before.1, if_neg after.1]
  neverOff := single.neverOff

theorem framesOf_mono
    (type : MsgType)
    (extends_ : started <+: sent) :
    framesOf type started ≤ framesOf type sent :=
  extends_.sublist.countP_le

/-- Every frame that turns power off was requested. -/
theorem Booting.neverOff
    (booting : Booting image cycles sent course client)
    (inOrder : InOrder cycles client)
    (none : cycles = 0) :
    framesOf .powerOff sent = 0 := by
  obtain ⟨items, queued⟩ := inOrder none
  have balanced := queued.balanced (.powerOff, .powerOff) (by decide)
  have logged := booting.logged (.powerOff, .powerOff) (by decide)
  have never := (booting.single none).neverOff
  dsimp only at balanced logged
  omega

/-- What a message does to a client on course. -/
def Advances
    (image : List UInt8)
    (cycles : Nat)
    (sent : List Msg)
    (next : Course)
    (client : Client) :
    Prop :=
  Booting image cycles sent next client ∧ InOrder cycles client

theorem advances_of_steadying
    {program : ClientM α}
    (steadying : Steadying program) :
    Keeps (Advances image cycles sent next) (fun reason _ => Aborts reason)
      program := by
  rintro client ⟨booting, inOrder⟩
  refine (steadying client).keepsAt ?_ fun _ _ aborts _ => aborts
  intro final related
  exact ⟨booting.steady related, inOrder.aside related.aside⟩

/-- The board is selected: power is requested for the first time. -/
theorem selectBoard_advances
    (booting : Booting image cycles sent course client)
    (inOrder : InOrder cycles client)
    (connecting : course.stage = .connecting)
    {dispatched : List Msg}
    (told :
      Course.after? dispatched = some { course with stage := .starting }) :
    KeepsAt
      (Advances image cycles sent { course with stage := .starting })
      (fun reason _ => Aborts reason) requestPowerOn
      { client with dispatched := dispatched } := by
  refine .update (.of_ok (update_apply _ _) ⟨?_, ?_⟩)
  · have presents :
        { course with stage := .starting : Course }.presents =
          course.presents := by
      simp [Course.presents, connecting]
    have acceptances :
        { course with stage := .starting : Course }.acceptances =
          course.acceptances := by
      simp [Course.acceptances, connecting]
    refine booting.moves told rfl booting.fits booting.uploads
      (by rw [presents]; exact booting.untouched)
      (by rw [acceptances]; exact booting.accepted)
      (fun type => by simp) ?_
    · intro none
      have single := booting.single none
      exact
        { cycles := single.cycles
          goesOn := single.goesOn
          manual := single.manual
          first := single.first
          counted := single.counted
          received := by
            rw [single.received, connecting]
            rfl
          requested := by
            rw [List.count_append, single.requested, if_pos connecting]
            rfl
          neverOff := by
            rw [List.count_append, single.neverOff]
            rfl }
  · intro none
    obtain ⟨items, queued⟩ := inOrder none
    have single := booting.single none
    have balanced := queued.balanced (.powerOn, .powerOn) (by decide)
    have unasked := single.requested
    rw [if_pos connecting] at unasked
    have aside : Aside client { client with dispatched := dispatched } :=
      .unlogged rfl rfl rfl rfl
    exact ⟨_, (queued.aside aside).request_static (.powerOn, .powerOn)
      (by decide)
      (by
        dsimp only at balanced unasked ⊢
        omega)
      client.fastbootContinue
      (fun continues => ⟨by decide, continues⟩)⟩

/-- A message to which the client's uploads and requests are indifferent. -/
theorem Booting.tells
    (booting : Booting image cycles sent course client)
    (told : Course.after? final.dispatched = some next)
    (presents : next.presents = course.presents)
    (acceptances : next.acceptances = course.acceptances)
    (same : final.sendParts = client.sendParts)
    (works : final.works = client.works)
    (done : final.fastbootDone = client.fastbootDone)
    (log : final.log = client.log)
    (single : cycles = 0 → SingleBoot next final) :
    Booting image cycles sent next final :=
  booting.moves told same
    (by rw [works]; exact booting.fits)
    (by rw [works]; exact booting.uploads)
    (by rw [presents, works]; exact booting.untouched)
    (by rw [acceptances, done]; exact booting.accepted)
    (by rw [log]; exact fun _ => rfl) single

/-- The board prints something. -/
theorem console_advances
    (booting : Booting image cycles sent course client)
    (inOrder : InOrder cycles client)
    {data : List UInt8}
    (printed : data.foldlM Course.print? course = some next)
    {dispatched : List Msg}
    (told : Course.after? dispatched = some next) :
    KeepsAt (Advances image cycles sent next)
      (fun reason _ => Aborts reason) (handleConsole data)
      { client with dispatched := dispatched } := by
  obtain ⟨presents, acceptances, connecting⟩ :=
    (Course.Prints.of_foldlM printed).presents
  have prints : Steadying (record (.stdout data)) :=
    record_steady trivial
  refine .update (advances_of_steadying prints _ ?_)
  obtain ⟨chars, received, counted⟩ :=
    foldl_countTilde data { client with dispatched := dispatched }
  dsimp only
  split
  · rw [counted]
    refine ⟨booting.tells told presents acceptances rfl rfl rfl rfl ?_,
      inOrder.aside (.unlogged rfl rfl rfl rfl)⟩
    intro none
    have single :
        SingleBoot course { client with dispatched := dispatched } :=
      { booting.single none with }
    rw [← counted]
    exact single.prints printed
  · rename_i negative
    refine ⟨booting.tells told presents acceptances rfl rfl rfl rfl ?_,
      inOrder.aside (.unlogged rfl rfl rfl rfl)⟩
    intro none
    have zero := (booting.single none).cycles
    exact absurd (Int.le_of_eq zero.symm) negative

/-- The board is off: with power cycles it is turned on again. -/
theorem powerOff_advances
    (booting : Booting image cycles sent course client)
    (inOrder : InOrder cycles client)
    (finished : course.stage = .finished)
    (requested : course.restarts + 1 ≤ framesOf .powerOff sent)
    {dispatched : List Msg}
    {data : List UInt8}
    (told :
      Course.after? dispatched =
        some
          { course with
            stage := .starting
            restarts := course.restarts + 1 }) :
    KeepsAt
      (Advances image cycles sent
        { course with
          stage := .starting
          restarts := course.restarts + 1 })
      (fun reason _ => Aborts reason) (handleType (some .powerOff) data)
      { client with dispatched := dispatched } := by
  have several : cycles ≠ 0 := by
    intro none
    have never := booting.neverOff inOrder none
    omega
  have presents :
      { course with
        stage := .starting
        restarts := course.restarts + 1 : Course }.presents =
        course.presents := by
    simp [Course.presents, finished]
  have acceptances :
      { course with
        stage := .starting
        restarts := course.restarts + 1 : Course }.acceptances =
        course.acceptances := by
    simp [Course.acceptances, finished]
  have advances :
      ∀ final : Client,
        final.dispatched = dispatched →
        final.sendParts = client.sendParts →
        final.works = client.works →
        final.fastbootDone = client.fastbootDone →
        (∀ type,
          final.log.count (.frame type) =
            client.log.count (.frame type)) →
        Advances image cycles sent
          { course with
            stage := .starting
            restarts := course.restarts + 1 } final := by
    intro final sameTold same works done logged
    refine ⟨?_, fun none => absurd none several⟩
    exact booting.moves (by rw [sameTold]; exact told) same
      (by rw [works]; exact booting.fits)
      (by rw [works]; exact booting.uploads)
      (by rw [presents, works]; exact booting.untouched)
      (by rw [acceptances, done]; exact booting.accepted)
      logged (fun none => absurd none several)
  unfold handleType
  refine .read ?_
  cases client.autoPowerOn with
  | false =>
      exact advances _ rfl rfl rfl rfl (fun _ => rfl)
  | true =>
      exact .of_ok rfl (advances _ rfl rfl rfl rfl (fun _ => by simp))

/-- The first image is requested. -/
theorem fastbootPresent_fresh
    (uploading : client.fastbootContinue = false)
    (unaccepted : client.fastbootDone = false)
    (file : client.options.fastbootFile = some image) :
    fastbootPresent client =
      .ok ()
        { client with
          works :=
            client.works ++
              [some (.fastbootDownload image 0 image.length)]
          log := client.log ++ [.request (.heap client.works.length)]
          workItems :=
            client.workItems.listAdd .head
              (.heap client.works.length) } := by
  have requests :
      fastbootPresent client = requestFastbootFiles client := by
    unfold fastbootPresent
    rw [bind_of_ok (read_apply _ _)]
    simp only [id, uploading, unaccepted, Bool.not_false, Bool.true_or,
      Bool.false_eq_true, ↓reduceIte]
  rw [requests, requestFastbootFiles, bind_of_ok (read_apply _ _), file]
  rfl

/-- Once an image has been accepted, fastboot ends the session. -/
theorem fastbootPresent_again
    (uploading : client.fastbootContinue = false)
    (done : client.fastbootDone = true)
    (onlyOnce : client.options.fastbootRepeat = false) :
    fastbootPresent client = .ok () { client with quit := true } := by
  have quits :
      fastbootPresent client =
        update (fun client => { client with quit := true }) client := by
    unfold fastbootPresent
    rw [bind_of_ok (read_apply _ _)]
    simp only [id, uploading, done, onlyOnce, Bool.not_true, Bool.or_self,
      Bool.false_eq_true, ↓reduceIte]
  exact quits.trans (update_apply _ _)

/-- Fastboot shows up: the image is sent, unless one has been accepted. -/
theorem present_advances
    (booting : Booting image cycles sent course client)
    (inOrder : InOrder cycles client)
    (starting : course.stage = .starting)
    {dispatched : List Msg}
    (told :
      Course.after? dispatched = some { course with stage := .fastboot }) :
    KeepsAt
      (Advances image cycles sent { course with stage := .fastboot })
      (fun reason _ => Aborts reason)
      (handleType (some .fastbootPresent) [1])
      { client with dispatched := dispatched } := by
  have begun :
      { course with stage := .fastboot : Course }.presents ≠ 0 := by
    simp [Course.presents]
  have acceptances :
      { course with stage := .fastboot : Course }.acceptances =
        course.acceptances := by
    simp [Course.acceptances, starting]
  have single :
      cycles = 0 →
        SingleBoot { course with stage := .fastboot }
          { client with dispatched := dispatched } := by
    intro none
    have entered := (booting.single none).enters
      (by rw [starting]; decide) (show Stage.Booted .fastboot by decide)
    exact { entered with }
  have aside : Aside client { client with dispatched := dispatched } :=
    .unlogged rfl rfl rfl rfl
  have present :
      handleType (some .fastbootPresent) [1]
          { client with dispatched := dispatched } =
        fastbootPresent { client with dispatched := dispatched } :=
    rfl
  by_cases fresh : course.restarts = 0
  · -- The first boot: nothing has been uploaded yet.
    have unseen : course.presents = 0 := by
      simp [Course.presents, starting, fresh]
    have unaccepted : client.fastbootDone = false := by
      rw [booting.accepted]
      simp [Course.acceptances, starting, fresh]
    obtain ⟨nothing, idle⟩ := booting.untouched unseen
    refine .of_ok
      (present.trans
        (fastbootPresent_fresh booting.uploading unaccepted booting.file))
      ⟨?_, ?_⟩
    · refine booting.moves told rfl ?_ ?_ (fun none => absurd none begun)
        (by rw [acceptances]; exact booting.accepted)
        (fun type => by simp) ?_
      · intro work member
        rcases List.mem_append.mp member with old | new
        · exact booting.fits work old
        · cases List.mem_singleton.mp new
          trivial
      · rw [nothing]
        exact .start idle
      · exact fun none => (single none).relogged rfl
          (List.count_append ..) (List.count_append ..)
    · intro none
      obtain ⟨items, queued⟩ := inOrder none
      exact ⟨_, (queued.aside aside).allocate _⟩
  · have done : client.fastbootDone = true := by
      rw [booting.accepted, decide_eq_true_eq, Course.acceptances]
      omega
    have several : cycles ≠ 0 :=
      fun none => fresh (booting.single none).first
    exact .of_ok
      (present.trans
        (fastbootPresent_again booting.uploading done booting.onlyOnce))
      ⟨booting.moves told rfl booting.fits booting.uploads
        (fun none => absurd none begun)
        (by rw [acceptances]; exact booting.accepted) (fun _ => rfl)
        (fun none => absurd none several),
        fun none => absurd none several⟩

/-- A message that does not move the course is dispatched. -/
theorem Booting.unmoved
    (booting : Booting image cycles sent course client)
    (inOrder : InOrder cycles client)
    {dispatched : List Msg}
    (told : Course.after? dispatched = some course) :
    Advances image cycles sent course
      { client with dispatched := dispatched } :=
  ⟨booting.tells told rfl rfl rfl rfl rfl rfl
      (fun none => { booting.single none with }),
    inOrder.aside (.unlogged rfl rfl rfl rfl)⟩

/-- A status update goes to the status pipe. -/
theorem statusUpdate_advances
    (booting : Booting image cycles sent course client)
    (inOrder : InOrder cycles client)
    (data : List UInt8)
    {dispatched : List Msg}
    (told : Course.after? dispatched = some course) :
    KeepsAt (Advances image cycles sent course)
      (fun reason _ => Aborts reason) (handleStatusUpdate data)
      { client with dispatched := dispatched } := by
  have updates : Steadying (handleStatusUpdate data) :=
    .bind (.read _) fun _ => .bind (.read _) fun _ =>
      .onlyIf (record_steady trivial)
  exact advances_of_steadying updates _ (booting.unmoved inOrder told)

/-- Fastboot goes away: the board runs. -/
theorem absent_advances
    (booting : Booting image cycles sent course client)
    (inOrder : InOrder cycles client)
    (accepted : course.stage = .accepted)
    {dispatched : List Msg}
    (told :
      Course.after? dispatched = some { course with stage := .running }) :
    KeepsAt (Advances image cycles sent { course with stage := .running })
      (fun reason _ => Aborts reason)
      (handleType (some .fastbootPresent) [0])
      { client with dispatched := dispatched } := by
  refine .of_ok rfl
    ⟨booting.tells told ?_ ?_ rfl rfl rfl rfl fun none => ?_,
      inOrder.aside (.unlogged rfl rfl rfl rfl)⟩
  · simp [Course.presents, accepted]
  · simp [Course.acceptances, accepted]
  · have entered := (booting.single none).enters
      (by rw [accepted]; decide) (show Stage.Booted .running by decide)
    exact { entered with }

/-- The board accepts the image. -/
theorem fastbootDownload_advances
    (booting : Booting image cycles sent course client)
    (inOrder : InOrder cycles client)
    (waits : course.stage = .fastboot)
    (data : List UInt8)
    {dispatched : List Msg}
    (told :
      Course.after? dispatched = some { course with stage := .accepted }) :
    KeepsAt (Advances image cycles sent { course with stage := .accepted })
      (fun reason _ => Aborts reason)
      (handleType (some .fastbootDownload) data)
      { client with dispatched := dispatched } := by
  refine .of_ok rfl
    ⟨booting.moves told rfl booting.fits booting.uploads ?_ ?_
      (fun _ => rfl) fun none => ?_,
      inOrder.aside (.unlogged rfl rfl rfl rfl)⟩
  · exact fun none => absurd none (by simp [Course.presents])
  · simp [Course.acceptances]
  · have entered := (booting.single none).enters
      (by rw [waits]; decide) (show Stage.Booted .accepted by decide)
    exact { entered with }

/-- Every message in its turn. -/
theorem dispatch_advances
    (booting : Booting image cycles sent course client)
    (inOrder : InOrder cycles client)
    {msg : Msg}
    (advance : course.next? msg = some next)
    (requested : next.restarts ≤ framesOf .powerOff sent) :
    KeepsAt (Advances image cycles sent next)
      (fun reason _ => Aborts reason) (dispatch msg) client := by
  have told :
      Course.after? (client.dispatched ++ [msg]) = some next := by
    rw [Course.after?_concat, booting.told]
    exact advance
  unfold dispatch
  refine .update ?_
  unfold Course.next? at advance
  cases known : MsgType.ofCode? msg.type with
  | none =>
      rw [known] at advance
      contradiction
  | some type =>
      rw [known] at advance
      cases type with
      | selectBoard =>
          simp only at advance
          split at advance
          · rename_i connecting
            cases advance
            exact selectBoard_advances booting inOrder connecting told
          · contradiction
      | powerOn =>
          cases advance
          exact booting.unmoved inOrder told
      | statusUpdate =>
          cases advance
          exact statusUpdate_advances booting inOrder _ told
      | console =>
          exact console_advances booting inOrder advance told
      | powerOff =>
          simp only at advance
          split at advance
          · rename_i finished
            cases advance
            exact powerOff_advances booting inOrder finished requested told
          · contradiction
      | fastbootPresent =>
          simp only at advance
          split at advance
          · rename_i starts
            cases advance
            rw [starts.1]
            exact present_advances booting inOrder starts.2 told
          · split at advance
            · rename_i goes
              cases advance
              rw [goes.1]
              exact absent_advances booting inOrder goes.2 told
            · contradiction
      | fastbootDownload =>
          simp only at advance
          split at advance
          · rename_i waits
            cases advance
            exact fastbootDownload_advances booting inOrder waits _ told
          · contradiction
      | _ => contradiction

end Steps

end Client

end Cdba
