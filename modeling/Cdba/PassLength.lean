import Cdba.RotatingQueue
import Cdba.Requests

namespace Cdba

/-!
# How long a pass over the work queue gets

The loop of `main` over the work queue is looked at call by call.  Uploads put
themselves back while the pass goes on, so that it can come to them again.  Two
of them can keep each other in the pass for as long as they have something to
send, and forever while every write has to wait.
-/

open Program

namespace Client

/-! ## The calls of a pass -/

/--
The calls that a pass makes until it is at the head, and whether each of them
has put its item back at the end of the queue.
-/
inductive PassCalls :
    WorkNode → WorkNode → Client → List (WorkNode × Bool) → Client →
      Prop where
  | ends
      (next : WorkNode)
      (client : Client) :
      PassCalls .head next client [] client
  | call
      {item next : WorkNode}
      {client middle final : Client}
      {calls : List (WorkNode × Bool)}
      (inside : item ≠ .head)
      (returns : runNode item client = .ok () middle)
      (later :
        PassCalls next (middle.workItems.next next) middle calls final) :
      PassCalls item next client
        ((item, decide (middle.workItems.prev .head = item)) :: calls) final

theorem passCalls_cons
    {item next : WorkNode}
    {client final : Client}
    {call : WorkNode × Bool}
    {calls : List (WorkNode × Bool)} :
    PassCalls item next client (call :: calls) final ↔
      item ≠ .head ∧
        ∃ middle,
          runNode item client = .ok () middle ∧
            call = (item, decide (middle.workItems.prev .head = item)) ∧
            PassCalls next (middle.workItems.next next) middle calls
              final := by
  constructor
  · intro pass
    cases pass with
    | call inside returns later => exact ⟨inside, _, returns, rfl, later⟩
  · rintro ⟨inside, middle, returns, rfl, later⟩
    exact .call inside returns later

/-- At the head a pass is over. -/
theorem passCalls_head
    {next : WorkNode}
    {client : Client}
    {calls : List (WorkNode × Bool)} :
    (∃ final, PassCalls .head next client calls final) ↔ calls = [] := by
  constructor
  · rintro ⟨final, pass⟩
    cases pass with
    | ends => rfl
    | call inside => exact absurd rfl inside
  · rintro rfl
    exact ⟨client, .ends _ _⟩

/-- The loop returns exactly if it makes fewer calls than it has fuel. -/
theorem forEachEntrySafe_calls
    {fuel : Nat}
    {item next : WorkNode}
    {client final : Client} :
    Links.forEachEntrySafe Client.workItems .head runNode .diverges fuel item
        next client = .ok () final ↔
      ∃ calls,
        PassCalls item next client calls final ∧ calls.length < fuel := by
  induction fuel generalizing item next client with
  | zero =>
      refine iff_of_false nofun ?_
      rintro ⟨calls, _, few⟩
      exact Nat.not_lt_zero _ few
  | succ fuel inductionHypothesis =>
      rw [Links.forEachEntrySafe]
      by_cases atHead : item = .head
      · rw [if_pos atHead]
        constructor
        · intro returns
          cases returns
          subst atHead
          exact ⟨[], .ends _ _, Nat.succ_pos _⟩
        · rintro ⟨calls, pass, _⟩
          cases pass with
          | ends => rfl
          | call inside => exact absurd atHead inside
      · rw [if_neg atHead]
        constructor
        · intro returns
          obtain ⟨_, middle, called, rest⟩ := bind_eq_ok returns
          rw [bind_of_ok (read_apply _ _)] at rest
          obtain ⟨calls, later, few⟩ := inductionHypothesis.mp rest
          exact ⟨_, .call atHead called later, Nat.succ_lt_succ few⟩
        · rintro ⟨calls, pass, few⟩
          cases pass with
          | ends => exact absurd rfl atHead
          | call inside returns later =>
              rw [bind_of_ok returns, bind_of_ok (read_apply _ _)]
              exact inductionHypothesis.mpr
                ⟨_, later, Nat.lt_of_succ_lt_succ few⟩

/-- The pass over the work queue, call by call. -/
theorem workPass_calls
    {client final : Client} :
    workPass client = .ok () final ↔
      ∃ calls,
        PassCalls (client.workItems.next .head)
            (client.workItems.next (client.workItems.next .head)) client
            calls final ∧
          calls.length < potential client + 1 :=
  forEachEntrySafe_calls

/--
A pass that is over after one call for every queued item, and one more for
every one of them that was put back.
-/
def PassInTime (items : List WorkNode) (client : Client) : Prop :=
  ∃ calls final,
    PassCalls (client.workItems.next .head)
        (client.workItems.next (client.workItems.next .head)) client calls
        final ∧
      calls.length ≤
        items.length + items.countP fun node => (node, true) ∈ calls

/-! ## Writes that all end alike -/

/-- How the writes of a pass end. -/
inductive WriteRegime where
  | complete
  | eagain
  deriving DecidableEq, Repr

/-- The next so many writes end that way. -/
def WriteRegime.Meets
    (regime : WriteRegime)
    (budget : Nat)
    (writes : List WriteOutcome) :
    Prop :=
  match regime with
  | .complete => ∀ outcome ∈ writes, outcome = .done
  | .eagain => List.replicate budget .wouldBlock <+: writes

/-- The work of a queued node, unless its function is all there is to it. -/
def workOf (client : Client) : WorkNode → Option Work
  | .heap index => (client.works[index]?).join
  | _ => none

/-- A node of the queue and its work. -/
abbrev Entry :=
  WorkNode × Option Work

/-- What a call of a node puts back. -/
def Entry.again (regime : WriteRegime) : Entry → Option Entry
  | (node, some (.fastbootDownload data offset size)) =>
      match regime with
      | .complete =>
          if min 2048 (size - offset) = 0 then
            none
          else
            some (node, some (.fastbootDownload data
              (offset + min 2048 (size - offset)) size))
      | .eagain => some (node, some (.fastbootDownload data offset size))
  | _ => none

/-- A call of a node that leaves the program. -/
def Entry.stops (regime : WriteRegime) : Entry → Prop
  | (_, some (.fastbootDownload _ _ _)) => False
  | (_, some .statusEnable) => False
  | _ => regime = .eagain

/-- The queue with the work of its nodes. -/
def entries (client : Client) (items : List WorkNode) : List Entry :=
  items.map fun node => (node, client.workOf node)

/-- A message that is sent while writes are complete. -/
theorem sendResult_complete
    {budget : Nat}
    {writes : List WriteOutcome}
    (meets : WriteRegime.complete.Meets (budget + 1) writes)
    (type : MsgType)
    (buf : List UInt8) :
    (sendResult type buf writes).1 = none ∧
      WriteRegime.complete.Meets budget (sendResult type buf writes).2.2 := by
  constructor
  · rw [sendResult_writable meets]
  · intro outcome member
    exact meets outcome ((sendResult_suffix type buf writes).subset member)

/-- A message that is not sent because the first write has to wait. -/
theorem sendResult_eagain
    {budget : Nat}
    {writes : List WriteOutcome}
    (meets : WriteRegime.eagain.Meets (budget + 1) writes)
    (type : MsgType)
    (buf : List UInt8) :
    (sendResult type buf writes).1 = some .eagain ∧
      WriteRegime.eagain.Meets budget (sendResult type buf writes).2.2 ∧
      (sendResult type buf writes).2.2.length < writes.length := by
  obtain ⟨rest, rfl⟩ := meets
  rw [List.replicate_succ, List.cons_append]
  refine ⟨rfl, List.prefix_append _ rest, ?_⟩
  exact Nat.lt_succ_self _

/-! ## One call -/

/-- The work of nodes that a change does not concern. -/
theorem entries_eq
    {index : Nat}
    {items : List WorkNode}
    {work : Option Work}
    {client final : Client}
    (other : .heap index ∉ items)
    (works : final.works = client.works.set index work) :
    entries final items = entries client items := by
  refine List.map_congr_left fun node member => ?_
  cases node with
  | heap query =>
      have different : index ≠ query := by
        rintro rfl
        exact other member
      simp only [workOf, works, List.getElem?_set_ne different]
  | head => rfl
  | powerOn => rfl
  | powerOff => rfl
  | fastbootContinue => rfl

/-- What a call leaves behind, as long as the writes end as they should. -/
structure CallLeaves
    (regime : WriteRegime)
    (budget : Nat)
    (item : WorkNode)
    (rest : List WorkNode)
    (client final : Client) :
    Prop where
  goes : ¬ Entry.stops regime (item, client.workOf item)
  queued :
    Queued
      (rest ++
        (Entry.again regime (item, client.workOf item)).toList.map Prod.fst)
      final
  entries :
    final.entries
        (rest ++
          (Entry.again regime (item, client.workOf item)).toList.map
            Prod.fst) =
      client.entries rest ++
        (Entry.again regime (item, client.workOf item)).toList
  meets : regime.Meets budget final.writes

/-- A call, by what its writes do. -/
abbrev CallsAs
    (regime : WriteRegime)
    (budget : Nat)
    (item : WorkNode)
    (rest : List WorkNode)
    (client : Client)
    (program : ClientM Unit)
    (state : Client) :
    Prop :=
  KeepsAt (CallLeaves regime budget item rest client)
    (fun _ _ => Entry.stops regime (item, client.workOf item))
    program state

section Call

variable {regime : WriteRegime} {budget : Nat}
variable {rest : List WorkNode} {client : Client}

/-- A call of a static node. -/
theorem Queued.call_static
    {pair : WorkNode × MsgType}
    (queued : Queued (pair.1 :: rest) client)
    (static : pair ∈ staticFrames)
    (meets : regime.Meets (budget + 1) client.writes)
    (noWork : client.workOf pair.1 = none)
    (message : String) :
    CallsAs regime budget pair.1 rest client
      (sendOrErr pair.2 [] message)
      { client with
        workItems := client.workItems.listDel pair.1 } := by
  have suffix := sendResult_suffix pair.2 [] client.writes
  unfold CallsAs KeepsAt
  rw [sendOrErr_eq]
  cases regime with
  | complete =>
      obtain ⟨sent, meetsLater⟩ := sendResult_complete meets pair.2 []
      simp only [sent, ↓reduceIte]
      refine ⟨?_, ?_, ?_, meetsLater⟩
      · rw [noWork]
        nofun
      · rw [noWork]
        show Queued (rest ++ []) _
        rw [List.append_nil]
        exact And.left
          (queued.sent static rfl rfl rfl suffix.length_le rfl)
      · rw [noWork]
        show Client.entries _ (rest ++ []) = client.entries rest ++ []
        rw [List.append_nil, List.append_nil]
        rfl
  | eagain =>
      obtain ⟨refused, _⟩ := sendResult_eagain meets pair.2 []
      simp only [refused, reduceCtorEq, ↓reduceIte]
      rw [noWork]
      exact rfl

/-- A call of allocated work that is freed once its message is sent. -/
theorem Queued.call_once
    {index : Nat}
    {work : Work}
    {type : MsgType}
    {buf : List UInt8}
    (queued : Queued (.heap index :: rest) client)
    (found : client.works[index]? = some (some work))
    (unrelated : Unrelated [.frame type])
    (meets : regime.Meets (budget + 1) client.writes)
    (noUpload : ∀ data offset size, work ≠ .fastbootDownload data offset size)
    (noStatus : work ≠ .statusEnable)
    (message : String) :
    CallsAs regime budget (.heap index) rest client
      (do
        sendOrErr type buf message
        free index)
      { client with
        workItems := client.workItems.listDel (.heap index) } := by
  have suffix := sendResult_suffix type buf client.writes
  have fresh := queued.represents.notMem_rest
  have isWork : client.workOf (.heap index) = some work := by
    rw [workOf, found]
    rfl
  have noneBack :
      Entry.again regime (.heap index, some work) = none := by
    cases work with
    | fastbootDownload data offset size =>
        exact absurd rfl (noUpload data offset size)
    | listBoards => rfl
    | boardInfo board => rfl
    | selectBoard board => rfl
    | statusEnable => rfl
  have stops : Entry.stops regime (.heap index, some work) ↔
      regime = .eagain := by
    cases work with
    | fastbootDownload data offset size =>
        exact absurd rfl (noUpload data offset size)
    | listBoards => exact Iff.rfl
    | boardInfo board => exact Iff.rfl
    | selectBoard board => exact Iff.rfl
    | statusEnable => exact absurd rfl noStatus
  unfold CallsAs KeepsAt
  rw [bind_apply, sendOrErr_eq]
  cases regime with
  | complete =>
      obtain ⟨sent, meetsLater⟩ := sendResult_complete meets type buf
      simp only [sent, ↓reduceIte, free, update_apply]
      refine ⟨?_, ?_, ?_, meetsLater⟩
      · rw [isWork, stops]
        intro eagain
        cases eagain
      · rw [isWork, noneBack]
        show Queued (rest ++ []) _
        rw [List.append_nil]
        exact And.left
          (queued.freed found rfl rfl rfl suffix.length_le rfl unrelated)
      · rw [isWork, noneBack]
        show Client.entries _ (rest ++ []) = client.entries rest ++ []
        rw [List.append_nil, List.append_nil]
        exact entries_eq fresh rfl
  | eagain =>
      obtain ⟨refused, _⟩ := sendResult_eagain meets type buf
      simp only [refused, reduceCtorEq, ↓reduceIte]
      rw [isWork]
      exact stops.mpr rfl

/-- A call of the request for status updates, whose failure is ignored. -/
theorem Queued.call_status
    {index : Nat}
    (queued : Queued (.heap index :: rest) client)
    (found : client.works[index]? = some (some .statusEnable))
    (meets : regime.Meets (budget + 1) client.writes) :
    CallsAs regime budget (.heap index) rest client
      (runWork index .statusEnable)
      { client with
        workItems := client.workItems.listDel (.heap index) } := by
  have suffix := sendResult_suffix .statusUpdate [] client.writes
  have fresh := queued.represents.notMem_rest
  have isWork : client.workOf (.heap index) = some .statusEnable := by
    rw [workOf, found]
    rfl
  have meetsLater :
      regime.Meets budget (sendResult .statusUpdate [] client.writes).2.2 := by
    cases regime with
    | complete => exact (sendResult_complete meets .statusUpdate []).2
    | eagain => exact (sendResult_eagain meets .statusUpdate []).2.1
  unfold CallsAs KeepsAt
  simp only [runWork, cdbaSend, bind_apply, cdbaSendBuf_eq, free,
    update_apply]
  refine ⟨?_, ?_, ?_, meetsLater⟩
  · rw [isWork]
    exact id
  · rw [isWork]
    show Queued (rest ++ []) _
    rw [List.append_nil]
    exact And.left
      (queued.freed found rfl rfl rfl suffix.length_le
        (List.append_nil _).symm (by decide))
  · rw [isWork]
    show Client.entries _ (rest ++ []) = client.entries rest ++ []
    rw [List.append_nil, List.append_nil]
    exact entries_eq fresh rfl

/-- A call of an upload that puts it back. -/
theorem Queued.call_again
    {index : Nat}
    {work later : Work}
    {final : Client}
    (queued : Queued (.heap index :: rest) client)
    (found : client.works[index]? = some (some work))
    (goes : ¬ Entry.stops regime (.heap index, some work))
    (back :
      Entry.again regime (.heap index, some work) =
        some (.heap index, some later))
    (links :
      final.workItems =
        (client.workItems.listDel (.heap index)).listAdd .head
          (.heap index))
    (works : final.works = client.works.set index (some later))
    (sameContinue : final.fastbootContinue = client.fastbootContinue)
    (log : final.log = client.log)
    (progress :
      Work.runs (some later) + final.writes.length <
        Work.runs (some work) + client.writes.length)
    (meets : regime.Meets budget final.writes) :
    CallLeaves regime budget (.heap index) rest client final := by
  have fresh := queued.represents.notMem_rest
  have isWork : client.workOf (.heap index) = some work := by
    rw [workOf, found]
    rfl
  have inside : index < client.works.length :=
    (List.getElem?_eq_some_iff.mp found).1
  refine ⟨?_, ?_, ?_, meets⟩
  · rwa [isWork]
  · rw [isWork, back]
    exact And.left
      (queued.requeued found links works sameContinue log progress)
  · rw [isWork, back]
    have isLater : final.workOf (.heap index) = some later := by
      rw [workOf, works, List.getElem?_set_self inside]
      rfl
    have others := entries_eq fresh works
    unfold Client.entries at others ⊢
    rw [List.map_append, others]
    simp [isLater]

/-- A call of an upload. -/
theorem Queued.call_upload
    {index : Nat}
    {data : List UInt8}
    {offset size : Nat}
    (queued : Queued (.heap index :: rest) client)
    (found :
      client.works[index]? =
        some (some (.fastbootDownload data offset size)))
    (meets : regime.Meets (budget + 1) client.writes) :
    CallsAs regime budget (.heap index) rest client
      (fastbootWorkFn index data offset size)
      { client with
        workItems := client.workItems.listDel (.heap index) } := by
  have suffix := sendResult_suffix .fastbootDownload
    (piece data offset size) client.writes
  have fresh := queued.represents.notMem_rest
  have isWork : client.workOf (.heap index) =
      some (.fastbootDownload data offset size) := by
    rw [workOf, found]
    rfl
  unfold CallsAs KeepsAt
  rw [fastbootWorkFn_eq]
  dsimp only
  cases regime with
  | complete =>
      obtain ⟨sent, meetsLater⟩ := sendResult_complete meets
        .fastbootDownload (piece data offset size)
      generalize sendResult .fastbootDownload (piece data offset size)
        client.writes = result at sent meetsLater suffix ⊢
      obtain ⟨failed, bytes, writes⟩ := result
      dsimp only at sent meetsLater suffix
      subst sent
      by_cases finished : min 2048 (size - offset) = 0
      · simp only [finished, ↓reduceIte]
        have noneBack : Entry.again .complete
            (.heap index, some (.fastbootDownload data offset size)) =
              none := by
          simp only [Entry.again, finished, ↓reduceIte]
        refine ⟨?_, ?_, ?_, meetsLater⟩
        · rw [isWork]
          exact id
        · rw [isWork, noneBack]
          show Queued (rest ++ []) _
          rw [List.append_nil]
          exact And.left
            (queued.freed found rfl rfl rfl suffix.length_le
              (List.append_nil _).symm (by decide))
        · rw [isWork, noneBack]
          show Client.entries _ (rest ++ []) = client.entries rest ++ []
          rw [List.append_nil, List.append_nil]
          exact entries_eq fresh rfl
      · simp only [finished, ↓reduceIte]
        have back : Entry.again .complete
            (.heap index, some (.fastbootDownload data offset size)) =
              some (.heap index, some (.fastbootDownload data
                (offset + min 2048 (size - offset)) size)) := by
          simp only [Entry.again, finished, ↓reduceIte]
        refine queued.call_again found id back rfl rfl rfl rfl ?_ meetsLater
        have shorter := suffix.length_le
        simp only [Work.runs]
        omega
  | eagain =>
      obtain ⟨refused, meetsLater, shorter⟩ := sendResult_eagain meets
        .fastbootDownload (piece data offset size)
      generalize sendResult .fastbootDownload (piece data offset size)
        client.writes = result at refused meetsLater shorter ⊢
      obtain ⟨failed, bytes, writes⟩ := result
      dsimp only at refused meetsLater shorter
      subst refused
      have sameWorks : client.works =
          client.works.set index
            (some (.fastbootDownload data offset size)) := by
        obtain ⟨inside, isSelf⟩ := List.getElem?_eq_some_iff.mp found
        rw [← isSelf, List.set_getElem_self]
      refine queued.call_again found id rfl rfl sameWorks rfl rfl ?_
        meetsLater
      simp only [Work.runs]
      omega

/-- A call of any queued node. -/
theorem Queued.call
    {item : WorkNode}
    (queued : Queued (item :: rest) client)
    (meets : regime.Meets (budget + 1) client.writes) :
    CallsAs regime budget item rest client (runNode item) client := by
  unfold CallsAs KeepsAt runNode
  rw [bind_of_ok (update_apply _ _)]
  cases item with
  | head => exact absurd rfl (queued.represents.ne_head List.mem_cons_self)
  | powerOn =>
      exact @Queued.call_static _ _ _ _ (.powerOn, .powerOn) queued
        (by decide) meets rfl _
  | powerOff =>
      exact @Queued.call_static _ _ _ _ (.powerOff, .powerOff) queued
        (by decide) meets rfl _
  | fastbootContinue =>
      exact @Queued.call_static _ _ _ _
        (.fastbootContinue, .fastbootContinue) queued (by decide) meets rfl _
  | heap index =>
      obtain ⟨work, found⟩ := (queued.allocated index).mp (by simp)
      simp only [workFn, bind_apply, read_apply, found, Option.join_some]
      cases work with
      | listBoards =>
          exact queued.call_once found (by decide) meets (by simp) (by simp) _
      | boardInfo board =>
          exact queued.call_once found (by decide) meets (by simp) (by simp) _
      | selectBoard board =>
          exact queued.call_once found (by decide) meets (by simp) (by simp) _
      | statusEnable => exact queued.call_status found meets
      | fastbootDownload data offset size =>
          exact queued.call_upload found meets

end Call

/-! ## Passes as rotations -/

/-- What is put back is the upload that was called. -/
theorem Entry.again_upload
    {regime : WriteRegime}
    {entry next : Entry}
    (back : entry.again regime = some next) :
    ∃ data offset size,
      next = (entry.1, some (.fastbootDownload data offset size)) := by
  obtain ⟨node, work⟩ := entry
  rcases work with _ | work
  · contradiction
  · cases work with
    | fastbootDownload data offset size =>
        cases regime with
        | complete =>
            rw [Entry.again] at back
            split at back
            · contradiction
            · cases back
              exact ⟨_, _, _, rfl⟩
        | eagain =>
            cases back
            exact ⟨_, _, _, rfl⟩
    | listBoards => contradiction
    | boardInfo board => contradiction
    | selectBoard board => contradiction
    | statusEnable => contradiction

theorem Entry.again_node
    {regime : WriteRegime}
    (entry next : Entry)
    (back : entry.again regime = some next) :
    next.1 = entry.1 := by
  obtain ⟨_, _, _, rfl⟩ := Entry.again_upload back
  rfl

/-- What has been put back does not stop the pass. -/
theorem Entry.again_goes
    {regime : WriteRegime}
    (entry next : Entry)
    (back : entry.again regime = some next) :
    ¬ next.stops regime := by
  obtain ⟨_, _, _, rfl⟩ := Entry.again_upload back
  exact id

/-- A call, and whether it puts its node back. -/
def Entry.call (regime : WriteRegime) (entry : Entry) : WorkNode × Bool :=
  (entry.1, (entry.again regime).isSome)

section Rotation

variable {regime : WriteRegime} {budget : Nat}

/-- Whether a node has been put back shows at the end of the queue. -/
theorem CallLeaves.at_end
    {item : WorkNode}
    {rest : List WorkNode}
    {client final : Client}
    (queued : Queued (item :: rest) client)
    (leaves : CallLeaves regime budget item rest client final) :
    decide (final.workItems.prev .head = item) =
      (Entry.again regime (item, client.workOf item)).isSome := by
  have last := leaves.queued.represents.chain.prev_last
  have sameNode :=
    @Entry.again_node regime (item, client.workOf item)
  rw [last]
  cases back : Entry.again regime (item, client.workOf item) with
  | none =>
      have nodup := queued.represents.nodup
      have gone : item ∉ WorkNode.head :: rest := by
        simp only [List.nodup_cons, List.mem_cons, not_or] at nodup ⊢
        exact ⟨fun same => nodup.1.1 same.symm, nodup.2.1⟩
      refine decide_eq_false fun same => gone ?_
      have member : rest.getLastD .head ∈ WorkNode.head :: rest :=
        List.getLastD_mem_cons
      rw [← same, Option.toList_none, List.map_nil, List.append_nil]
      exact member
  | some next =>
      refine decide_eq_true ?_
      rw [Option.toList_some, List.map_singleton, List.getLastD_concat]
      exact sameNode next back

/-- A pass without calls is one over an empty queue. -/
theorem passCalls_nil_iff
    {items : List WorkNode}
    {client : Client}
    (queued : Queued items client) :
    (∃ final,
      PassCalls (items.headD .head) (items.tail.headD .head) client [] final) ↔
      ∃ visits,
        RotatingQueue.Pass (Entry.again regime) (Entry.stops regime)
            (client.entries items) visits ∧
          [] = visits.map (Entry.call regime) := by
  cases items with
  | nil =>
      exact iff_of_true ⟨client, .ends _ _⟩ ⟨[], .empty, rfl⟩
  | cons item rest =>
      refine iff_of_false ?_ ?_
      · rintro ⟨final, pass⟩
        cases pass
        exact queued.represents.ne_head List.mem_cons_self rfl
      · rintro ⟨visits, pass, none_called⟩
        rw [List.map_eq_nil_iff.mp none_called.symm] at pass
        exact absurd pass.prefix_calls.length_le (by simp [entries])

/-- The first call of a pass, and the pass behind it. -/
theorem CallLeaves.passCalls_iff
    {item next : WorkNode}
    {rest : List WorkNode}
    {client middle : Client}
    (queued : Queued (item :: rest) client)
    (leaves : CallLeaves regime budget item rest client middle)
    {value : Unit}
    (outcome : runNode item client = .ok value middle)
    {call : WorkNode × Bool}
    {calls : List (WorkNode × Bool)} :
    (∃ final, PassCalls item next client (call :: calls) final) ↔
      call = Entry.call regime (item, client.workOf item) ∧
        ∃ final,
          PassCalls next (middle.workItems.next next) middle calls final := by
  simp only [passCalls_cons, outcome, EStateM.Result.ok.injEq, true_and,
    exists_eq_left', leaves.at_end queued]
  have notHead := queued.represents.ne_head List.mem_cons_self
  simp only [ne_eq, notHead, not_false_eq_true, true_and, exists_and_left,
    Entry.call]

/-- The calls of a pass are those of the rotating queue. -/
theorem passCalls_iff
    {items : List WorkNode}
    {client : Client}
    (queued : Queued items client)
    (meets : regime.Meets budget client.writes)
    {calls : List (WorkNode × Bool)}
    (few : calls.length ≤ budget) :
    (∃ final,
      PassCalls (items.headD .head) (items.tail.headD .head) client calls
        final) ↔
      ∃ visits,
        RotatingQueue.Pass (Entry.again regime) (Entry.stops regime)
            (client.entries items) visits ∧
          calls = visits.map (Entry.call regime) := by
  induction calls generalizing items client budget with
  | nil =>
      exact passCalls_nil_iff queued
  | cons call calls inductionHypothesis =>
      cases items with
      | nil =>
          refine iff_of_false ?_ ?_
          · rintro ⟨final, pass⟩
            exact (passCalls_cons.mp pass).1 rfl
          · rintro ⟨visits, pass, shape⟩
            cases pass
            contradiction
      | cons item rest =>
          obtain ⟨budget, rfl⟩ : ∃ left, budget = left + 1 :=
            ⟨budget - 1, by rw [List.length_cons] at few; omega⟩
          have few := Nat.le_of_succ_le_succ few
          have called := queued.call meets
          unfold CallsAs KeepsAt at called
          rw [List.headD_cons, List.tail_cons]
          cases outcome : runNode item client with
          | error reason final =>
              rw [outcome] at called
              refine iff_of_false ?_ ?_
              · rintro ⟨_, pass⟩
                obtain ⟨_, middle, returns, _⟩ := passCalls_cons.mp pass
                rw [outcome] at returns
                contradiction
              · rintro ⟨visits, pass, _⟩
                exact pass.goes _ List.mem_cons_self called
          | ok value middle =>
              rw [outcome] at called
              have leaves : CallLeaves regime budget item rest client middle :=
                called
              have later := inductionHypothesis leaves.queued leaves.meets few
              rw [leaves.entries] at later
              rw [leaves.passCalls_iff queued outcome]
              cases rest with
              | nil =>
                  rw [List.headD_nil, passCalls_head]
                  constructor
                  · rintro ⟨rfl, rfl⟩
                    exact ⟨_, .alone leaves.goes, rfl⟩
                  · rintro ⟨visits, pass, shape⟩
                    obtain ⟨_, rfl⟩ := RotatingQueue.pass_alone.mp pass
                    exact List.cons.inj shape
              | cons second others =>
                  have behind : client.entries (second :: others) ≠ [] :=
                    List.cons_ne_nil _ _
                  have following := leaves.queued.represents.next_eq []
                  rw [List.headD_cons, following]
                  refine (and_congr_right fun _ => later).trans ?_
                  constructor
                  · rintro ⟨rfl, visits, pass, rfl⟩
                    exact ⟨_, (RotatingQueue.pass_cons behind).mpr
                      ⟨leaves.goes, visits, rfl, pass⟩, rfl⟩
                  · rintro ⟨visits, pass, shape⟩
                    obtain ⟨_, rest, rfl, laterPass⟩ :=
                      (RotatingQueue.pass_cons behind).mp pass
                    obtain ⟨isCall, areCalls⟩ := List.cons.inj shape
                    exact ⟨isCall, rest, laterPass, areCalls⟩

/-- The nodes that calls put back are counted in the rotating queue. -/
theorem countP_entries
    (client : Client)
    (items : List WorkNode)
    (visits : List Entry) :
    (items.countP fun node =>
        (node, true) ∈ visits.map (Entry.call regime)) =
      RotatingQueue.putBack (Entry.again regime) Prod.fst
        (client.entries items) visits := by
  rw [RotatingQueue.putBack, entries, List.countP_map]
  refine List.countP_congr fun node _ => ?_
  simp only [Function.comp_apply, decide_eq_true_eq, List.any_eq_true,
    Bool.and_eq_true, List.mem_map, Entry.call, Prod.mk.injEq]

/-- A pass over a queue in time, as a rotation of its entries. -/
theorem Queued.inTime_iff_rotation
    {items : List WorkNode}
    {client : Client}
    (queued : Queued items client)
    (meets : regime.Meets (2 * items.length) client.writes) :
    PassInTime items client ↔
      (∀ entry ∈ client.entries items, ¬ Entry.stops regime entry) ∧
        ∀ first second,
          RotatingQueue.InOrder (client.entries items) first second →
            (second.again regime).isSome →
              (first.again regime).bind (Entry.again regime) = none := by
  have distinct : ((client.entries items).map Prod.fst).Nodup := by
    have same : (client.entries items).map Prod.fst = items := by
      rw [entries, List.map_map]
      exact List.map_id items
    rw [same]
    exact (List.nodup_cons.mp queued.represents.nodup).2
  rw [← RotatingQueue.twice_eq_nil_iff,
    ← RotatingQueue.inTime_iff Entry.again_node Entry.again_goes distinct]
  have atFirst : client.workItems.next .head = items.headD .head :=
    queued.represents.chain.next_first
  have atSecond : client.workItems.next (items.headD .head) =
      items.tail.headD .head := by
    cases items with
    | nil => exact atFirst
    | cons item rest => exact queued.represents.next_eq []
  have length : (client.entries items).length = items.length :=
    List.length_map _
  unfold PassInTime
  rw [atFirst, atSecond, length]
  constructor
  · rintro ⟨calls, final, pass, few⟩
    have atMost : calls.length ≤ 2 * items.length := by
      have counted := List.countP_le_length
        (p := fun node => decide ((node, true) ∈ calls)) (l := items)
      omega
    obtain ⟨visits, rotation, rfl⟩ :=
      (passCalls_iff queued meets atMost).mp ⟨final, pass⟩
    rw [List.length_map, countP_entries client] at few
    exact ⟨visits, rotation, few⟩
  · rintro ⟨visits, rotation, few⟩
    rw [← countP_entries] at few
    have atMost : (visits.map (Entry.call regime)).length ≤
        2 * items.length := by
      have counted := List.countP_le_length
        (p := fun node =>
          decide ((node, true) ∈ visits.map (Entry.call regime)))
        (l := items)
      rw [List.length_map]
      omega
    obtain ⟨final, pass⟩ :=
      (passCalls_iff queued meets atMost).mpr ⟨visits, rotation, rfl⟩
    refine ⟨_, final, pass, ?_⟩
    rw [List.length_map]
    exact few

end Rotation

/-! ## Which queues are passed in time -/

/-- The bytes that an upload has not sent yet. -/
def bytesLeft (client : Client) (node : WorkNode) : Nat :=
  match client.workOf node with
  | some (.fastbootDownload _ offset size) => size - offset
  | _ => 0

/-- Whether a node is an upload. -/
def isUpload (client : Client) (node : WorkNode) : Bool :=
  match client.workOf node with
  | some (.fastbootDownload _ _ _) => true
  | _ => false

/--
With complete writes, no upload with more than 2048 bytes left has an unfinished
one behind it.  When every write has to wait, there is one upload at most, and
otherwise only the request for status updates.
-/
def QuickQueue
    (regime : WriteRegime)
    (items : List WorkNode)
    (client : Client) :
    Prop :=
  match regime with
  | .complete =>
      ∀ first second, RotatingQueue.InOrder items first second →
        client.bytesLeft second = 0 ∨ client.bytesLeft first ≤ 2048
  | .eagain =>
      (∀ node ∈ items,
        client.isUpload node = true ∨
          client.workOf node = some .statusEnable) ∧
      ∀ first second, RotatingQueue.InOrder items first second →
        client.isUpload first = false ∨ client.isUpload second = false

/-- With complete writes, what is left decides how often a node is put back. -/
theorem Entry.complete_iff
    (client : Client)
    (node : WorkNode) :
    let entry : Entry := (node, client.workOf node)
    ¬ entry.stops .complete ∧
      ((entry.again .complete).isSome ↔ client.bytesLeft node ≠ 0) ∧
      ((entry.again .complete).bind (Entry.again .complete) = none ↔
        client.bytesLeft node ≤ 2048) := by
  intro entry
  have isEntry : entry = (node, client.workOf node) := rfl
  rw [isEntry, bytesLeft]
  rcases client.workOf node with _ | work
  · exact ⟨nofun, by simp [Entry.again], by simp [Entry.again]⟩
  · cases work with
    | listBoards => exact ⟨nofun, by simp [Entry.again], by simp [Entry.again]⟩
    | boardInfo board =>
        exact ⟨nofun, by simp [Entry.again], by simp [Entry.again]⟩
    | selectBoard board =>
        exact ⟨nofun, by simp [Entry.again], by simp [Entry.again]⟩
    | statusEnable => exact ⟨id, by simp [Entry.again], by simp [Entry.again]⟩
    | fastbootDownload data offset size =>
        refine ⟨id, ?_, ?_⟩
        · by_cases finished : min 2048 (size - offset) = 0
          · simp only [Entry.again, finished, ↓reduceIte]
            exact iff_of_false Bool.false_ne_true (by omega)
          · simp only [Entry.again, finished, ↓reduceIte]
            exact iff_of_true rfl (by omega)
        · by_cases finished : min 2048 (size - offset) = 0
          · simp only [Entry.again, finished, ↓reduceIte]
            exact iff_of_true rfl (by omega)
          · simp only [Entry.again, finished, ↓reduceIte, Option.bind_some]
            by_cases more :
                min 2048 (size - (offset + min 2048 (size - offset))) = 0
            · rw [if_pos more]
              exact iff_of_true rfl (by omega)
            · simp only [more, ↓reduceIte]
              exact iff_of_false nofun (by omega)

/-- When every write has to wait, uploads are put back for good. -/
theorem Entry.eagain_iff
    (client : Client)
    (node : WorkNode) :
    let entry : Entry := (node, client.workOf node)
    (¬ entry.stops .eagain ↔
        client.isUpload node = true ∨
          client.workOf node = some .statusEnable) ∧
      ((entry.again .eagain).isSome ↔ client.isUpload node = true) ∧
      ((entry.again .eagain).bind (Entry.again .eagain) = none ↔
        client.isUpload node = false) := by
  intro entry
  have isEntry : entry = (node, client.workOf node) := rfl
  rw [isEntry, isUpload]
  rcases client.workOf node with _ | work
  · simp [Entry.stops, Entry.again]
  · cases work <;> simp [Entry.stops, Entry.again]

/-- A pass over a queue is over in time exactly if the queue is quick. -/
theorem Queued.inTime_iff
    {regime : WriteRegime}
    {items : List WorkNode}
    {client : Client}
    (queued : Queued items client)
    (meets : regime.Meets (2 * items.length) client.writes) :
    PassInTime items client ↔ QuickQueue regime items client := by
  rw [queued.inTime_iff_rotation meets]
  have inEntries :
      ∀ holds : Entry → Prop,
        (∀ entry ∈ client.entries items, holds entry) ↔
          ∀ node ∈ items, holds (node, client.workOf node) :=
    fun holds => List.forall_mem_map
  have ordered :
      ∀ holds : Entry → Entry → Prop,
        (∀ first second,
          RotatingQueue.InOrder (client.entries items) first second →
            holds first second) ↔
        ∀ first second, RotatingQueue.InOrder items first second →
          holds (first, client.workOf first)
            (second, client.workOf second) := by
    intro holds
    constructor
    · intro all first second order
      exact all _ _ ((RotatingQueue.inOrder_map _ _ _ _).mpr
        ⟨first, second, order, rfl, rfl⟩)
    · intro all first second order
      obtain ⟨before, behind, queuedSo, rfl, rfl⟩ :=
        (RotatingQueue.inOrder_map _ _ _ _).mp order
      exact all before behind queuedSo
  rw [inEntries fun entry => ¬ entry.stops regime,
    ordered fun first second =>
      (second.again regime).isSome →
        (first.again regime).bind (Entry.again regime) = none]
  cases regime with
  | complete =>
      have goes : ∀ node ∈ items,
          ¬ Entry.stops .complete (node, client.workOf node) :=
        fun node _ => (Entry.complete_iff client node).1
      refine (and_iff_right goes).trans
        (forall_congr' fun first => forall_congr' fun second =>
          forall_congr' fun _ => ?_)
      rw [(Entry.complete_iff client first).2.2,
        (Entry.complete_iff client second).2.1]
      omega
  | eagain =>
      refine and_congr
        (forall_congr' fun node => forall_congr' fun _ =>
          (Entry.eagain_iff client node).1)
        (forall_congr' fun first => forall_congr' fun second =>
          forall_congr' fun _ => ?_)
      rw [(Entry.eagain_iff client first).2.2,
        (Entry.eagain_iff client second).2.1]
      cases client.isUpload first <;> cases client.isUpload second <;> simp

/-! ## Passes of a run -/

/-- What `serve` does in front of the pass, and whether there is a pass. -/
def receiving (ready : Ready) : ClientLoopM Bool := do
  onlyIf ready.stdout do
    handleMessage
    let sec ← read fun loop : ClientLoop =>
      loop.state.options.timeoutInactivity
    onlyIf (sec ≠ 0) (within Receiver.stateOf armInactivity)
  pure ready.stdin

/-- An iteration up to its pass over the queue, and whether there is one. -/
def beforePass (ready : Ready) : ClientLoopM Bool := do
  let ready ← within Receiver.stateOf (waitReady ready)
  onlyIf ready.tty.isSome
    (within Receiver.stateOf (ttyCallback ready.tty.join))
  match ready.stderr with
  | some .eof => stop .leaveLoop
  | some .wouldBlock => pure false
  | some .fail => stop .leaveLoop
  | some .data => receiving ready
  | none => receiving ready

/-- An iteration is what comes in front of the pass, and then the pass. -/
theorem iteration_eq_pass
    (ready : Ready) :
    iteration ready =
      (beforePass ready >>= fun writable =>
        onlyIf writable (within Receiver.stateOf workPass)) := by
  have serves : ∀ ready, serve ready =
      (receiving ready >>= fun writable =>
        onlyIf writable (within Receiver.stateOf workPass)) := by
    intro ready
    simp only [serve, receiving, bind_assoc, pure_bind]
  simp only [iteration, beforePass, bind_assoc]
  congr 1
  funext ready
  congr 1
  funext _
  cases ready.stderr with
  | none => exact serves ready
  | some result =>
      cases result with
      | data => exact serves ready
      | eof => rfl
      | wouldBlock => rfl
      | fail => rfl

/-- A client in front of a pass over its queue, in a run that may go on. -/
inductive ReachesPass : Client → Prop where
  | intro
      {options : ClientOptions}
      {powerCycles : Int}
      {writes : List WriteOutcome}
      {sshStdout : Input}
      {clock : Clock}
      {beyond : UInt8}
      {verb : Verb}
      {statusPipe : Bool}
      {iterations : List Ready}
      {ready : Ready}
      {loop middle : ClientLoop}
      (runs :
        run verb statusPipe iterations
          (start options powerCycles writes sshStdout clock beyond) =
            .ok () loop)
      (goesOn : loop.state.quit = false)
      (passes : beforePass ready loop = .ok true middle) :
      ReachesPass middle.state

/-- What comes in front of a pass keeps the queue in order. -/
theorem beforePass_orderly
    (ready : Ready) :
    OrderlyLoop (beforePass ready) := by
  have receives : ∀ ready, OrderlyLoop (receiving ready) := by
    intro ready
    refine .bind (.onlyIf (.bind (receive_keeps ?_
      (leave_orderly (α := Unit)) dispatch_orderly) fun _ =>
        .bind (.read _) fun _ => .onlyIf
          (within_orderly (orderly_of_asiding armInactivity_aside))))
      fun _ => .pure _
    intro client input accounted polite
    obtain ⟨items, queued⟩ := accounted polite
    exact ⟨items, queued.aside ⟨rfl, rfl, rfl, [], by
      simp [sshStdoutOf], by simp⟩⟩
  have leaves : OrderlyLoop (stop .leaveLoop : ClientLoopM Bool) :=
    .stop fun loop accounted =>
      leave_orderly (α := Unit) loop.state accounted
  refine .bind (within_orderly (waitReady_orderly ready)) fun ready =>
    .bind (.onlyIf (within_orderly
      (orderly_of_asiding (ttyCallback_aside _)))) fun _ => ?_
  split
  · exact leaves
  · exact .pure _
  · exact leaves
  · exact receives ready
  · exact receives ready

theorem ReachesPass.queued
    {client : Client}
    (reached : ReachesPass client)
    (polite : Polite client.log) :
    ∃ items, Queued items client := by
  cases reached with
  | intro runs _ passes =>
      have started := (run_orderly _ _ _ _ _ _ _ _ _).returned runs
      exact ((beforePass_orderly _ _ started).returned passes) polite

/--
In front of every pass of a run in which power is requested politely, the pass
is over in time exactly if the queue is quick.
-/
theorem pass_inTime_iff
    {client : Client}
    (reached : ReachesPass client)
    (polite : Polite client.log) :
    ∃ items,
      client.workItems.Represents .head items ∧
        ∀ regime : WriteRegime,
          regime.Meets (2 * items.length) client.writes →
            (PassInTime items client ↔ QuickQueue regime items client) := by
  obtain ⟨items, queued⟩ := reached.queued polite
  exact ⟨items, queued.represents, fun _ meets => queued.inTime_iff meets⟩

/-- The fastboot device appears twice before an upload has been answered. -/
def twoAppearances : Input where
  fd :=
    { unread :=
        wire.encodeAll
          [Msg.ofData MsgType.fastbootPresent.code [1] (by decide),
            Msg.ofData MsgType.fastbootPresent.code [1] (by decide)]
      closed := false }
  script := [.deliver 7, .wouldBlock]

/-- The board is selected; then the pipe to the server is full. -/
def fullPipe : List WriteOutcome :=
  [.done, .done, .wouldBlock, .wouldBlock, .wouldBlock, .wouldBlock]

/-- A client with an image that has selected a board, and has seen both. -/
def selectedBoard : EStateM.Result ClientStop ClientLoop Unit :=
  run (.boot (ascii "db410c")) false
    [⟨none, none, false, true⟩, ⟨none, none, true, false⟩]
    (start ⟨0, 0, true, false, some [0x7f], false, []⟩ (-1) fullPipe
      twoAppearances ⟨0, []⟩ 0)

/-- Its next iteration, up to the pass. -/
def twoUploadsQueued : EStateM.Result ClientStop ClientLoop Bool :=
  beforePass ⟨none, none, false, true⟩ (finalState selectedBoard)

/-- The client in front of that pass. -/
def twoUploads : Client :=
  (finalState twoUploadsQueued).state

theorem twoUploads_reached :
    ReachesPass twoUploads := by
  have runs := eq_ok_of_returned
    (show returned? selectedBoard = some () by decide +kernel)
  have passes := eq_ok_of_returned
    (show returned? twoUploadsQueued = some true by decide +kernel)
  exact .intro runs (by decide +kernel) passes

theorem twoUploads_polite :
    Polite twoUploads.log := by
  decide +kernel

theorem twoUploads_inTime_iff :
    ReachesPass twoUploads ∧
      Polite twoUploads.log ∧
        ∃ items,
          twoUploads.workItems.Represents .head items ∧
            ∀ regime : WriteRegime,
              regime.Meets (2 * items.length) twoUploads.writes →
                (PassInTime items twoUploads ↔
                  QuickQueue regime items twoUploads) :=
  ⟨twoUploads_reached, twoUploads_polite,
    pass_inTime_iff twoUploads_reached twoUploads_polite⟩

/-- Two uploads whose writes all have to wait are not passed in time. -/
theorem twoUploads_late :
    ReachesPass twoUploads ∧
      ∃ items,
        twoUploads.workItems.Represents .head items ∧
          WriteRegime.eagain.Meets (2 * items.length) twoUploads.writes ∧
            ¬ PassInTime items twoUploads := by
  obtain ⟨items, queued⟩ := twoUploads_reached.queued twoUploads_polite
  have first : twoUploads.workItems.next .head = .heap 1 := by
    decide +kernel
  have second : twoUploads.workItems.next (.heap 1) = .heap 2 := by
    decide +kernel
  have last : twoUploads.workItems.next (.heap 2) = .head := by
    decide +kernel
  have isPair : items = [.heap 1, .heap 2] := by
    have chain := queued.represents.chain
    have headFresh := (List.nodup_cons.mp queued.represents.nodup).1
    rcases items with _ | ⟨a, _ | ⟨b, _ | ⟨c, rest⟩⟩⟩
    · simp only [Links.Chain, first] at chain
      exact absurd chain.1 (by decide)
    · obtain ⟨isFirst, _, toHead, _⟩ := chain
      rw [← isFirst, first, second] at toHead
      contradiction
    · obtain ⟨isFirst, _, isSecond, _⟩ := chain
      rw [first] at isFirst
      rw [← isFirst, second] at isSecond
      rw [← isFirst, ← isSecond]
    · obtain ⟨isFirst, _, isSecond, _, isThird, _⟩ := chain
      rw [first] at isFirst
      rw [← isFirst, second] at isSecond
      rw [← isSecond, last] at isThird
      exact absurd (by simp [isThird]) headFresh
  have meets :
      WriteRegime.eagain.Meets (2 * items.length) twoUploads.writes := by
    rw [isPair]
    exact ⟨[], by decide +kernel⟩
  refine ⟨twoUploads_reached, items, queued.represents, meets, ?_⟩
  rw [queued.inTime_iff meets]
  rintro ⟨_, all⟩
  rcases all (.heap 1) (.heap 2) ⟨[], [], [], isPair⟩ with never | never
  · revert never
    decide +kernel
  · revert never
    decide +kernel

end Client

end Cdba
