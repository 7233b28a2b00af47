import Cdba.ClientFrame

namespace Cdba

/-!
# The work queue of the client

Requests link a node into the queue, and passes over the queue run the nodes'
functions.  As long as a static node is not requested while it is queued, the
memory represents a list in every reachable state, and every request for power
is either queued or has led to one frame.
-/

open Program

namespace Client

/-! ## How a message goes out -/

/--
What `cdba_send_buf` does, given how the writes will end: its result, the bytes
that reach the pipe, and the outcomes that are left.
-/
def sendResult
    (type : MsgType)
    (buf : List UInt8)
    (writes : List WriteOutcome) :
    Option Errno × List UInt8 × List WriteOutcome :=
  let header := headerBytes type.code (UInt16.ofNat buf.length)
  match writes.headD .done with
  | .done =>
      if buf = [] then
        (none, header, writes.tail)
      else
        match writes.tail.headD .done with
        | .done => (none, header ++ buf, writes.tail.tail)
        | .wouldBlock => (some .eagain, header, writes.tail.tail)
        | .fail => (some .other, header, writes.tail.tail)
  | .wouldBlock => (some .eagain, [], writes.tail)
  | .fail => (some .other, [], writes.tail)

/-- What a single `write()` does. -/
theorem writeSsh_eq
    (bytes : List UInt8)
    (client : Client) :
    writeSsh bytes client =
      match client.writes.headD .done with
      | .done =>
          .ok none
            { client with
              writes := client.writes.tail
              sshStdin := client.sshStdin ++ bytes }
      | .wouldBlock =>
          .ok (some .eagain) { client with writes := client.writes.tail }
      | .fail =>
          .ok (some .other) { client with writes := client.writes.tail } := by
  unfold writeSsh
  rw [bind_of_ok (read_apply _ _), bind_of_ok (update_apply _ _)]
  cases client.writes.headD .done <;> rfl

theorem cdbaSendBuf_eq
    (type : MsgType)
    (buf : List UInt8)
    (client : Client) :
    cdbaSendBuf type buf client =
      .ok (sendResult type buf client.writes).1
        { client with
          sshStdin :=
            client.sshStdin ++ (sendResult type buf client.writes).2.1
          writes := (sendResult type buf client.writes).2.2 } := by
  unfold cdbaSendBuf sendResult
  simp only [bind_apply, writeSsh_eq]
  cases client.writes.headD .done with
  | done =>
      by_cases empty : buf = []
      · simp [empty]
      · simp only [Option.isSome_none, Bool.false_eq_true, ↓reduceIte,
          ne_eq, empty, not_false_eq_true, writeSsh_eq]
        cases client.writes.tail.headD .done with
        | done => simp only [List.append_assoc]
        | wouldBlock => rfl
        | fail => rfl
  | wouldBlock => simp
  | fail => simp

/-- Outcomes are used up from the front. -/
theorem sendResult_suffix
    (type : MsgType)
    (buf : List UInt8)
    (writes : List WriteOutcome) :
    (sendResult type buf writes).2.2 <:+ writes := by
  have first := List.tail_suffix writes
  have second := (List.tail_suffix writes.tail).trans first
  unfold sendResult
  dsimp only
  split
  · split
    · exact first
    · split
      · exact second
      · exact second
      · exact second
  · exact first
  · exact first

/-- Without a refusal the whole message goes out. -/
theorem sendResult_writable
    {writes : List WriteOutcome}
    (writable : ∀ outcome, outcome ∈ writes → outcome = .done)
    (type : MsgType)
    (buf : List UInt8) :
    sendResult type buf writes =
      (none, sendBufBytes type buf,
        (sendResult type buf writes).2.2) := by
  have next :
      ∀ writes' : List WriteOutcome,
        writes' <:+ writes → writes'.headD .done = .done := by
    intro writes' suffix
    cases writes' with
    | nil => rfl
    | cons first rest =>
        exact writable first (suffix.subset (by simp))
  unfold sendResult sendBufBytes
  rw [next writes (List.suffix_refl _), next _ (List.tail_suffix _)]
  by_cases empty : buf = []
  · simp [empty]
  · simp [empty]

/-- An outcome that is not the default is in the script. -/
theorem mem_of_headD
    {writes : List WriteOutcome}
    (notDone : writes.headD .done ≠ .done) :
    writes.headD .done ∈ writes ∧ writes.tail.length < writes.length := by
  cases writes with
  | nil => exact absurd rfl notDone
  | cons first rest => simp

/-- A message that does not go out has met with a refused write. -/
theorem sendResult_refused
    (type : MsgType)
    (buf : List UInt8)
    (writes : List WriteOutcome)
    (failed : (sendResult type buf writes).1 ≠ none) :
    (∃ outcome, outcome ∈ writes ∧ outcome ≠ .done) ∧
      (sendResult type buf writes).2.2.length < writes.length := by
  have refused :
      ∀ writes' : List WriteOutcome,
        writes' <:+ writes →
        writes'.headD .done ≠ .done →
        (∃ outcome, outcome ∈ writes ∧ outcome ≠ .done) ∧
          writes'.tail.length < writes.length := by
    intro writes' suffix notDone
    obtain ⟨member, shorter⟩ := mem_of_headD notDone
    exact ⟨⟨_, suffix.subset member, notDone⟩,
      Nat.lt_of_lt_of_le shorter suffix.length_le⟩
  unfold sendResult at failed ⊢
  cases first : writes.headD .done with
  | done =>
      simp only [first] at failed ⊢
      by_cases empty : buf = []
      · simp [empty] at failed
      · simp only [empty, ↓reduceIte] at failed ⊢
        cases second : writes.tail.headD .done with
        | done =>
            simp only [second] at failed
            exact absurd rfl failed
        | wouldBlock =>
            exact refused _ (List.tail_suffix _) (by rw [second]; decide)
        | fail =>
            exact refused _ (List.tail_suffix _) (by rw [second]; decide)
  | wouldBlock =>
      exact refused _ (List.suffix_refl _) (by rw [first]; decide)
  | fail => exact refused _ (List.suffix_refl _) (by rw [first]; decide)

theorem sendOrErr_eq
    (type : MsgType)
    (buf : List UInt8)
    (message : String)
    (client : Client) :
    sendOrErr type buf message client =
      if (sendResult type buf client.writes).1 = none then
        .ok ()
          { client with
            sshStdin :=
              client.sshStdin ++ (sendResult type buf client.writes).2.1
            writes := (sendResult type buf client.writes).2.2
            log := client.log ++ [.frame type] }
      else
        .error (.err message)
          { client with
            sshStdin :=
              client.sshStdin ++ (sendResult type buf client.writes).2.1
            writes := (sendResult type buf client.writes).2.2 } := by
  unfold sendOrErr
  rw [bind_of_ok (cdbaSendBuf_eq type buf client)]
  cases (sendResult type buf client.writes).1 with
  | none => rfl
  | some errno => rfl

/-- The piece of an image that `fastboot_work_fn` sends next. -/
def piece (data : List UInt8) (offset size : Nat) : List UInt8 :=
  (data.drop offset).take (min 2048 (size - offset))

/--
What `fastboot_work_fn` does, given how its writes will end: it goes on to the
next piece, waits for the next pass, or gives up.
-/
theorem fastbootWorkFn_eq
    (index : Nat)
    (data : List UInt8)
    (offset size : Nat)
    (client : Client) :
    fastbootWorkFn index data offset size client =
      match
        sendResult .fastbootDownload (piece data offset size)
          client.writes
      with
      | (none, bytes, writes) =>
          if min 2048 (size - offset) = 0 then
            .ok ()
              { client with
                sshStdin := client.sshStdin ++ bytes
                writes := writes
                works := client.works.set index none }
          else
            .ok ()
              { client with
                sshStdin := client.sshStdin ++ bytes
                writes := writes
                works := client.works.set index
                  (some (.fastbootDownload data
                    (offset + min 2048 (size - offset)) size))
                workItems :=
                  client.workItems.listAdd .head (.heap index) }
      | (some .eagain, bytes, writes) =>
          .ok ()
            { client with
              sshStdin := client.sshStdin ++ bytes
              writes := writes
              workItems := client.workItems.listAdd .head (.heap index) }
      | (some _, bytes, writes) =>
          .error (.err "failed to write fastboot message")
            { client with
              sshStdin := client.sshStdin ++ bytes
              writes := writes } := by
  unfold fastbootWorkFn
  rw [bind_of_ok (cdbaSendBuf_eq _ _ _), piece]
  generalize sendResult .fastbootDownload
    ((data.drop offset).take (min 2048 (size - offset)))
    client.writes = sent
  obtain ⟨failed, bytes, writes⟩ := sent
  cases failed with
  | none =>
      by_cases finished : min 2048 (size - offset) = 0
      · simp only [bind_apply, update_apply, finished, ↓reduceIte, free,
          List.set_set]
      · simp only [bind_apply, update_apply, finished, ↓reduceIte,
          enqueue]
  | some errno =>
      cases errno with
      | eagain => rfl
      | epipe => rfl
      | other => rfl

/-- A queued upload is removed, and then its work is done. -/
theorem runNode_upload
    {index : Nat}
    {data : List UInt8}
    {offset size : Nat}
    {client : Client}
    (found :
      client.works[index]? =
        some (some (.fastbootDownload data offset size))) :
    runNode (.heap index) client =
      fastbootWorkFn index data offset size
        { client with
          workItems := client.workItems.listDel (.heap index) } := by
  rw [runNode, bind_of_ok (update_apply _ _)]
  simp only [workFn, bind_apply, read_apply, found, Option.join_some,
    runWork]

/-! ## The invariant of the queue -/

/-- The nodes of the two power requests and the frames they lead to. -/
def powerFrames : List (WorkNode × MsgType) :=
  [(.powerOn, .powerOn), (.powerOff, .powerOff)]

/-- All static nodes with their frames. -/
def staticFrames : List (WorkNode × MsgType) :=
  (.fastbootContinue, .fastbootContinue) :: powerFrames

/-- Power is only requested when every earlier such request has been sent. -/
def Polite (log : List ClientEvent) : Prop :=
  ∀ index, index < log.length →
    ∀ pair, pair ∈ powerFrames →
      log[index]? = some (.request pair.1) →
      (log.take index).count (.request pair.1) =
        (log.take index).count (.frame pair.2)

instance (log : List ClientEvent) : Decidable (Polite log) :=
  inferInstanceAs (Decidable (∀ index, index < log.length → _))

theorem Polite.shorten
    {log log' : List ClientEvent}
    (polite : Polite log')
    (isPrefix : log <+: log') :
    Polite log := by
  obtain ⟨events, rfl⟩ := isPrefix
  intro index inside pair member found
  have earlier := polite index
    (by rw [List.length_append]; omega) pair member
    (by rw [List.getElem?_append_left inside]; exact found)
  rwa [List.take_append_of_le_length (Nat.le_of_lt inside)] at earlier

/-- The last event of a polite log. -/
theorem Polite.last
    {log : List ClientEvent}
    {pair : WorkNode × MsgType}
    (polite : Polite (log ++ [.request pair.1]))
    (member : pair ∈ powerFrames) :
    log.count (.request pair.1) = log.count (.frame pair.2) := by
  have last := polite log.length (by simp) pair member (by simp)
  rwa [List.take_left] at last

/--
The queue in memory: its nodes in order, the allocated work among them, and for
each static node one frame for every request that is not queued any more.
-/
structure Queued (items : List WorkNode) (client : Client) : Prop where
  represents : client.workItems.Represents .head items
  allocated :
    ∀ index,
      .heap index ∈ items ↔
        ∃ work, client.works[index]? = some (some work)
  balanced :
    ∀ pair, pair ∈ staticFrames →
      client.log.count (.request pair.1) =
        client.log.count (.frame pair.2) +
          if pair.1 ∈ items then 1 else 0
  continueOnce :
    client.fastbootContinue = true →
      client.log.count (.request .fastbootContinue) = 0

/-- How many visits the queued work can still take. -/
def cost (items : List WorkNode) (client : Client) : Nat :=
  (staticFrames.map fun pair => if pair.1 ∈ items then 1 else 0).sum +
    (client.works.map Work.runs).sum + client.writes.length

theorem cost_le_potential
    (items : List WorkNode)
    (client : Client) :
    cost items client ≤ potential client := by
  have atMost :
      ∀ node : WorkNode, (if node ∈ items then 1 else 0) ≤ 1 := by
    intro node
    split <;> omega
  have first := atMost .fastbootContinue
  have second := atMost .powerOn
  have third := atMost .powerOff
  simp only [cost, potential, staticFrames, powerFrames, List.map_cons,
    List.map_nil, List.sum_cons, List.sum_nil]
  omega

/-! ## Visits -/

/-- Replacing an element changes a sum by the difference. -/
theorem sum_set
    {α : Type}
    (weight : α → Nat)
    {elements : List α}
    {index : Nat}
    {old : α}
    (new : α)
    (found : elements[index]? = some old) :
    ((elements.set index new).map weight).sum + weight old =
      (elements.map weight).sum + weight new := by
  induction elements generalizing index with
  | nil =>
      simp at found
  | cons first rest inductionHypothesis =>
      cases index with
      | zero =>
          cases found
          simp only [List.set_cons_zero, List.map_cons, List.sum_cons]
          omega
      | succ index =>
          have sums := inductionHypothesis
            (show rest[index]? = some old by simpa using found)
          simp only [List.set_cons_succ, List.map_cons, List.sum_cons]
          omega

private theorem set_self
    {α : Type}
    {elements : List α}
    {index : Nat}
    {element : α}
    (found : elements[index]? = some element) :
    elements.set index element = elements := by
  obtain ⟨inside, rfl⟩ := List.getElem?_eq_some_iff.mp found
  exact List.set_getElem_self inside

theorem static_ne_heap
    {pair : WorkNode × MsgType}
    (static : pair ∈ staticFrames)
    (index : Nat) :
    WorkNode.heap index ≠ pair.1 := by
  simp only [staticFrames, powerFrames, List.mem_cons, List.not_mem_nil,
    or_false] at static
  rcases static with rfl | rfl | rfl
  · exact nofun
  · exact nofun
  · exact nofun

/-- Different static nodes lead to different frames. -/
theorem static_injective :
    ∀ pair, pair ∈ staticFrames →
      ∀ other, other ∈ staticFrames →
        (pair.2 = other.2 ↔ pair.1 = other.1) := by
  decide

/-- What a node adds to the number of queued static nodes. -/
theorem statics_cons
    {node : WorkNode}
    {rest : List WorkNode}
    (fresh : node ∉ rest) :
    (staticFrames.map fun pair =>
        if pair.1 ∈ node :: rest then 1 else 0).sum =
      (staticFrames.map fun pair => if pair.1 ∈ rest then 1 else 0).sum +
        (staticFrames.map Prod.fst).count node := by
  have split :
      ∀ other : WorkNode,
        (if other ∈ node :: rest then 1 else 0) =
          (if other ∈ rest then 1 else 0) +
            (if other = node then 1 else 0) := by
    intro other
    by_cases same : other = node
    · subst same
      simp [fresh]
    · simp [same]
  simp only [staticFrames, powerFrames, List.map_cons, List.map_nil,
    List.sum_cons, List.sum_nil, split, List.count_cons, List.count_nil,
    beq_iff_eq]
  omega

/-- The function of a static node has sent its frame. -/
theorem Queued.sent
    {pair : WorkNode × MsgType}
    {rest : List WorkNode}
    {client final : Client}
    (queued : Queued (pair.1 :: rest) client)
    (static : pair ∈ staticFrames)
    (links : final.workItems = client.workItems.listDel pair.1)
    (works : final.works = client.works)
    (sameContinue : final.fastbootContinue = client.fastbootContinue)
    (writes : final.writes.length ≤ client.writes.length)
    (log : final.log = client.log ++ [.frame pair.2]) :
    Queued rest final ∧
      cost rest final < cost (pair.1 :: rest) client := by
  have fresh := queued.represents.notMem_rest
  refine ⟨
    { represents := by
        rw [links]
        exact queued.represents.listDel []
      allocated := ?_
      balanced := ?_
      continueOnce := ?_ }, ?_⟩
  · intro index
    rw [works, ← queued.allocated index, List.mem_cons]
    simp [static_ne_heap static index]
  · intro other otherStatic
    have balanced := queued.balanced other otherStatic
    have same := static_injective pair static other otherStatic
    rw [log, List.count_append, List.count_append]
    by_cases isPair : pair.1 = other.1
    · rw [← isPair] at balanced ⊢
      have sameFrame := same.mpr isPair
      simp [fresh, sameFrame] at balanced ⊢
      omega
    · have otherFrame : ¬pair.2 = other.2 := fun frame =>
        isPair (same.mp frame)
      have notPair : ¬other.1 = pair.1 := fun node => isPair node.symm
      simp [otherFrame, notPair] at balanced ⊢
      omega
  · intro isSet
    rw [log, List.count_append,
      queued.continueOnce (sameContinue ▸ isSet)]
    simp
  · have counted :
        ∀ pair, pair ∈ staticFrames →
          (staticFrames.map Prod.fst).count pair.1 = 1 := by
      decide
    simp only [cost, statics_cons fresh, counted pair static, works]
    omega

/-- Events that concern no static node. -/
def Unrelated (events : List ClientEvent) : Prop :=
  ∀ pair, pair ∈ staticFrames →
    events.count (.request pair.1) = 0 ∧ events.count (.frame pair.2) = 0

instance (events : List ClientEvent) : Decidable (Unrelated events) :=
  inferInstanceAs (Decidable (∀ pair, pair ∈ staticFrames → _))

/-- What the requests and frames of static nodes amount to, without the heap. -/
theorem Queued.balanced_heap
    {index : Nat}
    {rest : List WorkNode}
    (items : List WorkNode)
    {client final : Client}
    {events : List ClientEvent}
    (queued : Queued (.heap index :: rest) client)
    (sameStatics :
      ∀ pair, pair ∈ staticFrames → (pair.1 ∈ items ↔ pair.1 ∈ rest))
    (log : final.log = client.log ++ events)
    (unrelated : Unrelated events) :
    (∀ pair, pair ∈ staticFrames →
        final.log.count (.request pair.1) =
          final.log.count (.frame pair.2) +
            if pair.1 ∈ items then 1 else 0) ∧
      final.log.count (.request .fastbootContinue) =
        client.log.count (.request .fastbootContinue) := by
  constructor
  · intro pair static
    have balanced := queued.balanced pair static
    obtain ⟨noRequest, noFrame⟩ := unrelated pair static
    have other := (static_ne_heap static index).symm
    simp only [List.mem_cons, other, false_or] at balanced
    simp only [log, List.count_append, noRequest, noFrame,
      sameStatics pair static]
    omega
  · have noRequest :=
      (unrelated (.fastbootContinue, .fastbootContinue)
        (by decide)).1
    rw [log, List.count_append, noRequest, Nat.add_zero]

/-- Allocated work has been done and its memory is freed. -/
theorem Queued.freed
    {index : Nat}
    {work : Work}
    {rest : List WorkNode}
    {client final : Client}
    {events : List ClientEvent}
    (queued : Queued (.heap index :: rest) client)
    (found : client.works[index]? = some (some work))
    (links : final.workItems = client.workItems.listDel (.heap index))
    (works : final.works = client.works.set index none)
    (sameContinue : final.fastbootContinue = client.fastbootContinue)
    (writes : final.writes.length ≤ client.writes.length)
    (log : final.log = client.log ++ events)
    (unrelated : Unrelated events) :
    Queued rest final ∧
      cost rest final < cost (.heap index :: rest) client := by
  have fresh := queued.represents.notMem_rest
  obtain ⟨balanced, once⟩ :=
    queued.balanced_heap rest (fun _ _ => Iff.rfl) log unrelated
  have inside : index < client.works.length :=
    (List.getElem?_eq_some_iff.mp found).1
  refine ⟨
    { represents := by
        rw [links]
        exact queued.represents.listDel []
      allocated := ?_
      balanced := balanced
      continueOnce := fun isSet => by
        rw [once]
        exact queued.continueOnce (sameContinue ▸ isSet) }, ?_⟩
  · intro other
    rw [works, List.getElem?_set]
    by_cases same : index = other
    · subst same
      simp [fresh, inside]
    · have before := queued.allocated other
      have notSame : ¬WorkNode.heap other = .heap index := fun node =>
        same (WorkNode.heap.inj node).symm
      rw [if_neg same, ← before, List.mem_cons]
      simp [notSame]
  · have sum := sum_set Work.runs none found
    have once : 1 ≤ Work.runs (some work) := by
      cases work <;> simp [Work.runs]
    rw [show Work.runs none = 0 from rfl] at sum
    simp only [cost, statics_cons fresh, works]
    omega

/-- Allocated work was added again, with at least one visit less to go. -/
theorem Queued.requeued
    {index : Nat}
    {work again : Work}
    {rest : List WorkNode}
    {client final : Client}
    (queued : Queued (.heap index :: rest) client)
    (found : client.works[index]? = some (some work))
    (links :
      final.workItems =
        (client.workItems.listDel (.heap index)).listAdd .head
          (.heap index))
    (works : final.works = client.works.set index (some again))
    (sameContinue : final.fastbootContinue = client.fastbootContinue)
    (log : final.log = client.log)
    (progress :
      Work.runs (some again) + final.writes.length <
        Work.runs (some work) + client.writes.length) :
    Queued (rest ++ [.heap index]) final ∧
      cost (rest ++ [.heap index]) final <
        cost (.heap index :: rest) client := by
  have fresh := queued.represents.notMem_rest
  have inside : index < client.works.length :=
    (List.getElem?_eq_some_iff.mp found).1
  have sameStatics :
      ∀ pair, pair ∈ staticFrames →
        (pair.1 ∈ rest ++ [.heap index] ↔ pair.1 ∈ rest) := by
    intro pair static
    simp [(static_ne_heap static index).symm]
  obtain ⟨balanced, once⟩ :=
    queued.balanced_heap _ sameStatics
      (by rw [log, List.append_nil]) (by simp [Unrelated])
  have removed := queued.represents.listDel []
  refine ⟨
    { represents := by
        rw [links]
        refine removed.listAdd ?_
        simp only [List.nil_append, List.mem_cons, not_or]
        exact ⟨nofun, fresh⟩
      allocated := ?_
      balanced := balanced
      continueOnce := fun isSet => by
        rw [once]
        exact queued.continueOnce (sameContinue ▸ isSet) }, ?_⟩
  · intro other
    rw [works, List.getElem?_set]
    by_cases same : index = other
    · subst same
      simp [inside]
    · have before := queued.allocated other
      have notSame : ¬WorkNode.heap other = .heap index := fun node =>
        same (WorkNode.heap.inj node).symm
      rw [if_neg same, ← before, List.mem_cons, List.mem_append]
      simp [notSame]
  · have sum := sum_set Work.runs (some again) found
    have statics :
        (staticFrames.map fun pair =>
            if pair.1 ∈ rest ++ [.heap index] then 1 else 0) =
          staticFrames.map fun pair =>
            if pair.1 ∈ rest then 1 else 0 := by
      refine List.map_congr_left fun pair static => ?_
      simp only [sameStatics pair static]
    simp only [cost, statics_cons fresh, statics, works]
    omega

/-- The queue after some visits of a pass that began in `start`. -/
structure InPass
    (start : Client)
    (items : List WorkNode)
    (client : Client) :
    Prop where
  queued : Queued items client
  writes : client.writes <:+ start.writes
  log : start.log <+: client.log

/-- A work function gave up because a write was refused. -/
structure GaveUp
    (start : Client)
    (reason : ClientStop)
    (client : Client) :
    Prop where
  represents : ∃ items, client.workItems.Represents .head items
  err : ∃ message, reason = .err message
  refused : ∃ outcome, outcome ∈ start.writes ∧ outcome ≠ .done
  log : start.log <+: client.log

/-- One visit either removes its node, or removes it and adds it again. -/
abbrev Visited
    (start : Client)
    (item : WorkNode)
    (rest : List WorkNode)
    (client final : Client) :
    Prop :=
  ∃ items,
    (items = rest ∨ items = rest ++ [item]) ∧
      InPass start items final ∧
      cost items final < cost (item :: rest) client

section Visit

variable {start client : Client} {item : WorkNode} {rest : List WorkNode}

/-- The node is gone from the queue. -/
theorem InPass.gone
    {final : Client}
    (inPass : InPass start (item :: rest) client)
    (kept :
      Queued rest final ∧ cost rest final < cost (item :: rest) client)
    (writes : final.writes <:+ client.writes)
    (log : client.log <+: final.log) :
    Visited start item rest client final :=
  ⟨rest, .inl rfl,
    { queued := kept.1
      writes := writes.trans inPass.writes
      log := inPass.log.trans log },
    kept.2⟩

/-- The node was added again, with fewer visits to go. -/
theorem InPass.again
    {final : Client}
    (inPass : InPass start (item :: rest) client)
    (kept :
      Queued (rest ++ [item]) final ∧
        cost (rest ++ [item]) final < cost (item :: rest) client)
    (writes : final.writes <:+ client.writes)
    (log : client.log <+: final.log) :
    Visited start item rest client final :=
  ⟨rest ++ [item], .inr rfl,
    { queued := kept.1
      writes := writes.trans inPass.writes
      log := inPass.log.trans log },
    kept.2⟩

theorem InPass.gaveUp
    {message : String}
    {final : Client}
    (inPass : InPass start (item :: rest) client)
    (links : final.workItems = client.workItems.listDel item)
    (log : final.log = client.log)
    (refused : ∃ outcome, outcome ∈ client.writes ∧ outcome ≠ .done) :
    GaveUp start (.err message) final where
  represents := by
    refine ⟨rest, ?_⟩
    rw [links]
    exact inPass.queued.represents.listDel []
  err := ⟨message, rfl⟩
  refused := by
    obtain ⟨outcome, member, notDone⟩ := refused
    exact ⟨outcome, inPass.writes.subset member, notDone⟩
  log := by
    rw [log]
    exact inPass.log

/-- A visit to a static node sends its frame, or gives up. -/
theorem InPass.visit_static
    (pair : WorkNode × MsgType)
    {message : String}
    (inPass : InPass start (pair.1 :: rest) client)
    (static : pair ∈ staticFrames) :
    KeepsAt (Visited start pair.1 rest client) (GaveUp start)
      (sendOrErr pair.2 [] message)
      { client with
        workItems := client.workItems.listDel pair.1 } := by
  have suffix := sendResult_suffix pair.2 [] client.writes
  unfold KeepsAt
  rw [sendOrErr_eq]
  by_cases sent : (sendResult pair.2 [] client.writes).1 = none
  · simp only [sent, ↓reduceIte]
    exact inPass.gone
      (inPass.queued.sent static rfl rfl rfl suffix.length_le rfl)
      suffix (List.prefix_append _ _)
  · simp only [sent, ↓reduceIte]
    exact inPass.gaveUp rfl rfl (sendResult_refused _ _ _ sent).1

/-- A visit to allocated work that is freed once its message is sent. -/
theorem InPass.visit_once
    {index : Nat}
    {work : Work}
    {type : MsgType}
    {buf : List UInt8}
    {message : String}
    (inPass : InPass start (.heap index :: rest) client)
    (found : client.works[index]? = some (some work))
    (unrelated : Unrelated [.frame type]) :
    KeepsAt (Visited start (.heap index) rest client) (GaveUp start)
      (do
        sendOrErr type buf message
        free index)
      { client with
        workItems := client.workItems.listDel (.heap index) } := by
  have suffix := sendResult_suffix type buf client.writes
  unfold KeepsAt
  rw [bind_apply, sendOrErr_eq]
  by_cases sent : (sendResult type buf client.writes).1 = none
  · simp only [sent, ↓reduceIte, free, update_apply]
    exact inPass.gone
      (inPass.queued.freed found rfl rfl rfl suffix.length_le rfl
        unrelated)
      suffix (List.prefix_append _ _)
  · simp only [sent, ↓reduceIte]
    exact inPass.gaveUp rfl rfl (sendResult_refused _ _ _ sent).1

/-- A visit to the request for status updates, whose failure is ignored. -/
theorem InPass.visit_status
    {index : Nat}
    (inPass : InPass start (.heap index :: rest) client)
    (found : client.works[index]? = some (some .statusEnable)) :
    KeepsAt (Visited start (.heap index) rest client) (GaveUp start)
      (runWork index .statusEnable)
      { client with
        workItems := client.workItems.listDel (.heap index) } := by
  have suffix := sendResult_suffix .statusUpdate [] client.writes
  unfold KeepsAt
  simp only [runWork, cdbaSend, bind_apply, cdbaSendBuf_eq, free,
    update_apply]
  exact inPass.gone
    (inPass.queued.freed found rfl rfl rfl suffix.length_le
      (List.append_nil _).symm (by decide))
    suffix (List.prefix_refl _)

/-- A visit to an upload: a chunk goes out, or has to wait, or all is done. -/
theorem InPass.visit_upload
    {index : Nat}
    {data : List UInt8}
    {offset size : Nat}
    (inPass : InPass start (.heap index :: rest) client)
    (found :
      client.works[index]? =
        some (some (.fastbootDownload data offset size))) :
    KeepsAt (Visited start (.heap index) rest client) (GaveUp start)
      (fastbootWorkFn index data offset size)
      { client with
        workItems := client.workItems.listDel (.heap index) } := by
  have suffix := sendResult_suffix .fastbootDownload
    (piece data offset size) client.writes
  have refused := sendResult_refused .fastbootDownload
    (piece data offset size) client.writes
  unfold KeepsAt
  rw [fastbootWorkFn_eq]
  dsimp only
  generalize sendResult .fastbootDownload (piece data offset size)
    client.writes = sent at suffix refused ⊢
  obtain ⟨failed, bytes, writes⟩ := sent
  dsimp only at suffix refused ⊢
  cases failed with
  | none =>
      by_cases finished : min 2048 (size - offset) = 0
      · simp only [finished, ↓reduceIte]
        exact inPass.gone
          (inPass.queued.freed found rfl rfl rfl suffix.length_le
            (List.append_nil _).symm (by decide))
          suffix (List.prefix_refl _)
      · simp only [finished, ↓reduceIte]
        refine inPass.again
          (inPass.queued.requeued found rfl rfl rfl rfl ?_)
          suffix (List.prefix_refl _)
        have shorter := suffix.length_le
        simp only [Work.runs]
        omega
  | some errno =>
      obtain ⟨notDone, shorter⟩ := refused (by simp)
      cases errno with
      | eagain =>
          refine inPass.again
            (inPass.queued.requeued found rfl (set_self found).symm rfl
              rfl ?_)
            suffix (List.prefix_refl _)
          simp only [Work.runs]
          omega
      | epipe =>
          exact inPass.gaveUp rfl rfl notDone
      | other =>
          exact inPass.gaveUp rfl rfl notDone

/-- Every visit of a pass over a well-formed queue keeps it well-formed. -/
theorem InPass.visit
    (inPass : InPass start (item :: rest) client) :
    KeepsAt (Visited start item rest client) (GaveUp start)
      (runNode item) client := by
  have notHead := inPass.queued.represents.ne_head List.mem_cons_self
  unfold KeepsAt runNode
  rw [bind_of_ok (update_apply _ _)]
  cases item with
  | head => exact absurd rfl notHead
  | powerOn =>
      exact inPass.visit_static (.powerOn, .powerOn) (by decide)
  | powerOff =>
      exact inPass.visit_static (.powerOff, .powerOff) (by decide)
  | fastbootContinue =>
      exact inPass.visit_static
        (.fastbootContinue, .fastbootContinue) (by decide)
  | heap index =>
      obtain ⟨work, found⟩ :=
        (inPass.queued.allocated index).mp (by simp)
      simp only [workFn, bind_apply, read_apply, found, Option.join_some]
      cases work with
      | listBoards =>
          exact inPass.visit_once found (by decide)
      | boardInfo board =>
          exact inPass.visit_once found (by decide)
      | selectBoard board =>
          exact inPass.visit_once found (by decide)
      | statusEnable => exact inPass.visit_status found
      | fastbootDownload data offset size =>
          exact inPass.visit_upload found

end Visit

/-! ## Passes over a queue -/

/-- A pass over an empty queue. -/
theorem workPass_nil
    {client : Client}
    (represents : client.workItems.Represents .head []) :
    workPass client = .ok () client := by
  have first : client.workItems.next .head = .head :=
    represents.chain.next_first
  unfold workPass
  rw [bind_of_ok (read_apply _ _), bind_of_ok (read_apply _ _),
    bind_of_ok (read_apply _ _), Links.forEachEntrySafe, if_pos first]
  rfl

/-- A pass over one node runs its work once, even if it is added again. -/
theorem workPass_singleton
    {node : WorkNode}
    {client : Client}
    (represents : client.workItems.Represents .head [node]) :
    workPass client = runNode node client := by
  have first : client.workItems.next .head = node :=
    represents.chain.next_first
  have second : client.workItems.next node = .head :=
    represents.next_eq []
  have notHead := represents.ne_head List.mem_cons_self
  obtain ⟨fuel, bound⟩ : ∃ fuel, potential client = fuel + 1 :=
    Nat.exists_eq_add_one.mpr (by unfold potential; omega)
  unfold workPass
  rw [bind_of_ok (read_apply _ _), bind_of_ok (read_apply _ _),
    bind_of_ok (read_apply _ _), first, second, bound,
    Links.forEachEntrySafe, if_neg notHead]
  cases outcome : runNode node client with
  | error reason final => exact bind_of_error outcome _
  | ok value final =>
      rw [bind_of_ok outcome, bind_of_ok (read_apply _ _),
        Links.forEachEntrySafe, if_pos rfl]
      rfl

/--
A pass keeps what visits to the front node keep, as long as each of them lowers
a cost that the work of the queue bounds.
-/
theorem workPass_of_visits
    {queued : List WorkNode → Client → Prop}
    (cost : List WorkNode → Client → Nat)
    {stopped : ClientStop → Client → Prop}
    (represents :
      ∀ items client,
        queued items client →
        client.workItems.Represents .head items)
    (visits :
      ∀ item rest client,
        queued (item :: rest) client →
        KeepsAt
          (fun final =>
            ∃ items,
              (items = rest ∨ items = rest ++ [item]) ∧
                queued items final ∧
                cost items final < cost (item :: rest) client)
          stopped (runNode item) client)
    {items : List WorkNode}
    {client : Client}
    (holds : queued items client)
    (bounded : cost items client ≤ potential client) :
    KeepsAt
      (fun final =>
        ∃ left,
          queued left final ∧
            (items ≠ [] → cost left final < cost items client))
      stopped workPass client := by
  have represented := represents items client holds
  have behindFirst :
      ∀ rest,
        items = client.workItems.next .head :: rest →
          client.workItems.next (client.workItems.next .head) =
            rest.headD .head := by
    intro rest shape
    rw [shape] at represented
    exact represented.next_eq []
  have pass :
      KeepsAt _ stopped
        (Links.forEachEntrySafe Client.workItems .head runNode .diverges
          (potential client + 1) _ _) client :=
    Links.forEachEntrySafe_keeps represents visits holds
      (Nat.lt_succ_of_le bounded) represented.chain.next_first behindFirst
  have unfolded :
      workPass client =
        Links.forEachEntrySafe Client.workItems .head runNode .diverges
          (potential client + 1) (client.workItems.next .head)
          (client.workItems.next (client.workItems.next .head)) client :=
    rfl
  unfold KeepsAt at pass ⊢
  rw [unfolded]
  refine KeepsAt.mono pass ?_ (fun _ _ => id)
  rintro final ⟨left, kept, _, less⟩
  exact ⟨left, kept, less⟩

/-- A pass over a well-formed queue ends, and gets on with a nonempty one. -/
theorem workPass_keeps
    {items : List WorkNode}
    {client : Client}
    (queued : Queued items client) :
    KeepsAt
      (fun final =>
        ∃ left,
          InPass client left final ∧
            (items ≠ [] → cost left final < cost items client))
      (GaveUp client) workPass client :=
  workPass_of_visits cost
    (fun _ _ inPass => inPass.queued.represents)
    (fun _ _ _ inPass => inPass.visit)
    ⟨queued, List.suffix_refl _, List.prefix_refl _⟩
    (cost_le_potential items client)

/-- Some passes over the queue, with nothing in between. -/
def workPasses : Nat → ClientM Unit
  | 0 => pure ()
  | passes + 1 => do
      workPass
      workPasses passes

/-- When writes succeed, passes empty a well-formed queue. -/
theorem Queued.drains
    {items : List WorkNode}
    {client : Client}
    (queued : Queued items client)
    (writable : ∀ outcome, outcome ∈ client.writes → outcome = .done) :
    ∃ passes final,
      workPasses passes client = .ok () final ∧
        Queued [] final ∧
        client.log <+: final.log := by
  generalize bound : cost items client = visits
  induction visits using Nat.strongRecOn generalizing items client with
  | ind visits inductionHypothesis =>
      cases items with
      | nil =>
          exact ⟨0, client, rfl, queued, List.prefix_refl _⟩
      | cons item rest =>
          have pass := workPass_keeps queued
          unfold KeepsAt at pass
          cases outcome : workPass client with
          | error reason final =>
              rw [outcome] at pass
              obtain ⟨refused, member, notDone⟩ := pass.refused
              exact absurd (writable refused member) notDone
          | ok value middle =>
              rw [outcome] at pass
              obtain ⟨left, inPass, less⟩ := pass
              obtain ⟨passes, final, ran, empty, log⟩ :=
                inductionHypothesis _ (bound ▸ less (by simp))
                  inPass.queued
                  (fun outcome member =>
                    writable outcome (inPass.writes.subset member)) rfl
              refine ⟨passes + 1, final, ?_, empty, inPass.log.trans log⟩
              rw [workPasses, bind_of_ok outcome]
              exact ran

/-! ## Requests -/

/-- Other events in the log do not affect the account of the static nodes. -/
theorem Queued.balanced_append
    {items : List WorkNode}
    {client : Client}
    {events : List ClientEvent}
    (queued : Queued items client)
    (unrelated : Unrelated events) :
    (∀ pair, pair ∈ staticFrames →
        (client.log ++ events).count (.request pair.1) =
          (client.log ++ events).count (.frame pair.2) +
            if pair.1 ∈ items then 1 else 0) ∧
      (client.log ++ events).count (.request .fastbootContinue) =
        client.log.count (.request .fastbootContinue) := by
  constructor
  · intro pair static
    obtain ⟨noRequest, noFrame⟩ := unrelated pair static
    have balanced := queued.balanced pair static
    simp only [List.count_append, noRequest, noFrame]
    omega
  · have noRequest :=
      (unrelated (.fastbootContinue, .fastbootContinue)
        (by decide)).1
    rw [List.count_append, noRequest, Nat.add_zero]

/-- New memory is linked once. -/
theorem Queued.allocate
    {items : List WorkNode}
    {client : Client}
    (queued : Queued items client)
    (work : Work) :
    Queued (items ++ [.heap client.works.length])
      { client with
        works := client.works ++ [some work]
        log := client.log ++ [.request (.heap client.works.length)]
        workItems :=
          client.workItems.listAdd .head
            (.heap client.works.length) } := by
  have fresh : .heap client.works.length ∉ items := by
    rw [queued.allocated]
    simp
  have sameStatics :
      ∀ pair, pair ∈ staticFrames →
        (pair.1 ∈ items ++ [.heap client.works.length] ↔
          pair.1 ∈ items) := by
    intro pair static
    simp [(static_ne_heap static client.works.length).symm]
  have unrelated :
      Unrelated [.request (.heap client.works.length)] := by
    intro pair static
    simp [static_ne_heap static client.works.length]
  obtain ⟨balanced, once⟩ := queued.balanced_append unrelated
  exact
    { represents :=
        queued.represents.listAdd (by
          simp only [List.mem_cons, not_or]
          exact ⟨nofun, fresh⟩)
      allocated := by
        intro other
        have before := queued.allocated other
        simp only [List.mem_append, List.mem_singleton,
          WorkNode.heap.injEq]
        rw [before, List.getElem?_append]
        by_cases inside : other < client.works.length
        · simp [inside, Nat.ne_of_lt inside]
        · have none : client.works[other]? = none :=
            List.getElem?_eq_none (Nat.le_of_not_lt inside)
          rw [none, if_neg inside]
          by_cases same : other = client.works.length
          · simp [same]
          · have beyond : other - client.works.length ≠ 0 := by omega
            simp [same, beyond]
      balanced := by
        intro pair static
        have before := balanced pair static
        simp only [sameStatics pair static]
        exact before
      continueOnce := fun isSet => by
        rw [once]
        exact queued.continueOnce isSet }

/-- A static node that is not queued is linked once. -/
theorem Queued.request_static
    {items : List WorkNode}
    {client : Client}
    (queued : Queued items client)
    (pair : WorkNode × MsgType)
    (static : pair ∈ staticFrames)
    (answered :
      client.log.count (.request pair.1) =
        client.log.count (.frame pair.2))
    (continue_ : Bool)
    (stillContinues :
      continue_ = true →
        pair.1 ≠ .fastbootContinue ∧ client.fastbootContinue = true) :
    Queued (items ++ [pair.1])
      { client with
        fastbootContinue := continue_
        log := client.log ++ [.request pair.1]
        workItems := client.workItems.listAdd .head pair.1 } := by
  have fresh : pair.1 ∉ items := by
    intro member
    have balanced := queued.balanced pair static
    rw [if_pos member] at balanced
    omega
  have notHead : ∀ pair, pair ∈ staticFrames → pair.1 ≠ .head := by
    decide
  exact
    { represents :=
        queued.represents.listAdd (by
          simp only [List.mem_cons, not_or]
          exact ⟨notHead pair static, fresh⟩)
      allocated := by
        intro index
        have other : ¬WorkNode.heap index = pair.1 :=
          static_ne_heap static index
        rw [List.mem_append, List.mem_singleton]
        simp only [other, or_false]
        exact queued.allocated index
      balanced := by
        intro other otherStatic
        have balanced := queued.balanced other otherStatic
        rw [List.count_append, List.count_append]
        by_cases isPair : pair.1 = other.1
        · rw [← isPair] at balanced ⊢
          simp [fresh] at balanced ⊢
          omega
        · have notPair : ¬other.1 = pair.1 := fun node =>
            isPair node.symm
          simp [isPair, notPair] at balanced ⊢
          omega
      continueOnce := by
        intro isSet
        obtain ⟨other, before⟩ := stillContinues isSet
        rw [List.count_append, queued.continueOnce before]
        simp [other] }

end Client

end Cdba
