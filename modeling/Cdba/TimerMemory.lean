import Cdba.IntrusiveList
import Cdba.Watch

namespace Cdba

/-!
# Timers in memory

The timer half of `watch.c` with its list as it lies in memory.  Callbacks add
timers while `watch_timer_invoke` walks the list, and the walk unlinks and
frees what it has called.  The list always holds the timers that have not been
called, in the order in which they were added.
-/

open Program

/-! ## The program -/

/-- The `list_head` members: the one of the list, and those of the timers. -/
inductive TimerNode where
  | head
  | heap (index : Nat)
  deriving DecidableEq, Repr

/-- Why the timer functions do not go on. -/
inductive TimerStop where
  /-- A timer is looked at that is not there, or not any more. -/
  | useAfterFree
  /-- A bound of the model was hit; the code would still be running. -/
  | diverges
  deriving DecidableEq, Repr

/-- A call of a timer's callback, for a reading of the clock. -/
structure TimerCall (κ : Type) where
  index : Nat
  cb : κ
  now : Timeval
  deriving DecidableEq

/--
`timer_watches` and the timers it links, by their allocation.  What the
callbacks will add, call by call, is a script.  `called` is not part of the
program: it records which callbacks of which timers were called.
-/
structure TimerMemory (κ : Type) where
  links : Links TimerNode
  heap : List (Timer κ)
  freed : List Nat
  clock : Clock
  additions : List (List (Nat × κ))
  called : List (TimerCall κ)

variable {κ : Type}

/-- Programs over the timers. -/
abbrev TimerM (κ : Type) :=
  EStateM TimerStop (TimerMemory κ)

namespace TimerMemory

/-- `gettimeofday(&now, NULL)` -/
def gettimeofday : TimerM κ Timeval := do
  update fun memory => { memory with clock := memory.clock.tick }
  read fun memory => Timeval.ofMicros memory.clock.now

/-- The timer that is there, unless it has been freed. -/
def timer? (memory : TimerMemory κ) (index : Nat) : Option (Timer κ) :=
  if index ∈ memory.freed then none else memory.heap[index]?

/-- Look at the timer around a `list_head`. -/
def entry (node : TimerNode) : TimerM κ (Timer κ) := do
  let found ← read fun memory =>
    match node with
    | .head => none
    | .heap index => memory.timer? index
  match found with
  | some timer => pure timer
  | none => stop .useAfterFree

/-- `free(t)` -/
def free (node : TimerNode) : TimerM κ Unit :=
  match node with
  | .head => stop .useAfterFree
  | .heap index =>
      update fun memory => { memory with freed := memory.freed ++ [index] }

/-- `watch_timer_add` -/
def watchTimerAdd (timeoutMs : Int) (cb : κ) : TimerM κ Unit := do
  let now ← gettimeofday
  let tvTimeout : Timeval :=
    ⟨timeoutMs.tdiv 1000, timeoutMs.tmod 1000 * 1000⟩
  update fun memory =>
    { memory with
      heap := memory.heap ++ [⟨now.add tvTimeout, cb⟩]
      links := memory.links.listAdd .head (.heap memory.heap.length) }

/-- Add some timers, one after the other. -/
def addTimers (timers : List (Nat × κ)) : TimerM κ Unit :=
  each (fun timer => watchTimerAdd timer.1 timer.2) timers

/-- `t->cb(t->data)`: a callback may add timers. -/
def call (node : TimerNode) (cb : κ) (now : Timeval) : TimerM κ Unit := do
  update fun memory =>
    match node with
    | .head => memory
    | .heap index =>
        { memory with called := memory.called ++ [⟨index, cb, now⟩] }
  let additions ← read TimerMemory.additions
  update fun memory => { memory with additions := additions.tail }
  addTimers (additions.headD [])

/-- How many timers the callbacks will add. -/
def budget (memory : TimerMemory κ) : Nat :=
  memory.additions.flatten.length

/--
More than the timers that are there, and those that callbacks will add, and
the visit to the list itself.
-/
def bound (memory : TimerMemory κ) : Nat :=
  memory.heap.length + memory.budget + 1

/-- The search of `watch_timer_next` for the earliest timer. -/
def earliest : Nat → TimerNode → TimerNode → TimerM κ TimerNode
  | 0, _, _ => stop .diverges
  | fuel + 1, t, next =>
      if t = .head then
        pure next
      else do
        let timer ← entry t
        let best ← entry next
        let following ← read fun memory => memory.links.next t
        earliest fuel following (if timer.tv.lt best.tv then t else next)

/-- `watch_timer_next`; without a timer it returns NULL. -/
def watchTimerNext : TimerM κ (Option Timeval) := do
  let links ← read TimerMemory.links
  if links.listEmpty .head then
    pure none
  else do
    let first := links.next .head
    let fuel ← read bound
    let next ← earliest fuel first first
    let timer ← entry next
    let now ← gettimeofday
    let timeout := timer.tv.sub now
    pure (some (if timeout.sec < 0 then ⟨0, 0⟩ else timeout))

/-- What `watch_timer_invoke` does with one timer. -/
def visit (now : Timeval) (node : TimerNode) : TimerM κ Unit := do
  let timer ← entry node
  if timer.tv.lt now then do
    call node timer.cb now
    update fun memory => { memory with links := memory.links.listDel node }
    free node
  else
    pure ()

/-- `watch_timer_invoke` -/
def watchTimerInvoke : TimerM κ Unit := do
  let now ← gettimeofday
  let links ← read TimerMemory.links
  let fuel ← read bound
  let first := links.next .head
  Links.forEachEntrySafe TimerMemory.links .head (visit now) .diverges fuel
    first (links.next first)

/-- What the watch loop does with timers. -/
inductive Step (κ : Type) where
  /-- A `watch_timer_add` outside of timer callbacks. -/
  | add (timeoutMs : Nat) (cb : κ)
  | next
  | invoke

/-- Run one step. -/
def step : Step κ → TimerM κ Unit
  | .add timeoutMs cb => watchTimerAdd timeoutMs cb
  | .next => do
      let _ ← watchTimerNext
      pure ()
  | .invoke => watchTimerInvoke

/-- No timer has been added yet. -/
def start (clock : Clock) (additions : List (List (Nat × κ))) :
    TimerMemory κ where
  links := .init
  heap := []
  freed := []
  clock := clock
  additions := additions
  called := []

/-! ## The queue behind the memory -/

/-- The timers that have not been called, in the order of their allocation. -/
def uncalled (memory : TimerMemory κ) : List Nat :=
  (List.range memory.heap.length).filter fun index =>
    index ∉ memory.called.map TimerCall.index

/-- The time at which a timer is to be called. -/
def deadline (memory : TimerMemory κ) (index : Nat) : Timeval :=
  (memory.heap[index]?.map Timer.tv).getD ⟨0, 0⟩

/-- Whether a timer is to be called at a reading of the clock. -/
def expired (memory : TimerMemory κ) (now : Timeval) (index : Nat) : Bool :=
  (memory.deadline index).lt now

/--
The list holds the timers that have not been called, in the order in which
they were added; no timer was called twice, or at its deadline or before.
-/
structure InOrder (memory : TimerMemory κ) : Prop where
  list :
    memory.links.Represents .head (memory.uncalled.map .heap)
  freed : memory.freed = memory.called.map TimerCall.index
  once : (memory.called.map TimerCall.index).Nodup
  late :
    ∀ made, made ∈ memory.called →
      (∃ timer,
        memory.heap[made.index]? = some timer ∧ made.cb = timer.cb) ∧
        memory.expired made.now made.index = true
  normalised :
    ∀ timer, timer ∈ memory.heap → timer.tv.Normalised

theorem start_inOrder
    (clock : Clock)
    (additions : List (List (Nat × κ))) :
    (start clock additions).InOrder where
  list := Links.represents_init TimerNode.head
  freed := rfl
  once := List.nodup_nil
  late := nofun
  normalised := nofun

theorem mem_uncalled
    {memory : TimerMemory κ}
    {index : Nat} :
    index ∈ memory.uncalled ↔
      index < memory.heap.length ∧
        index ∉ memory.called.map TimerCall.index := by
  simp [uncalled]

theorem deadline_eq
    {memory : TimerMemory κ}
    {index : Nat}
    {timer : Timer κ}
    (found : memory.heap[index]? = some timer) :
    memory.deadline index = timer.tv := by
  rw [deadline, found]
  rfl

/-- Timers stay as they are while others are added. -/
theorem deadline_of_prefix
    {memory later : TimerMemory κ}
    {index : Nat}
    (grown : memory.heap <+: later.heap)
    (inside : index < memory.heap.length) :
    later.deadline index = memory.deadline index := by
  obtain ⟨added, heap⟩ := grown
  rw [deadline, deadline, ← heap, List.getElem?_append_left inside]

theorem InOrder.entry_eq
    {memory : TimerMemory κ}
    {index : Nat}
    (inOrder : memory.InOrder)
    (isUncalled : index ∈ memory.uncalled) :
    ∃ timer,
      memory.heap[index]? = some timer ∧
        entry (.heap index) memory = .ok timer memory := by
  obtain ⟨inside, notCalled⟩ := mem_uncalled.mp isUncalled
  have found : memory.heap[index]? = some memory.heap[index] :=
    List.getElem?_eq_getElem inside
  refine ⟨_, found, ?_⟩
  unfold entry
  rw [bind_of_ok (read_apply _ _)]
  simp only [timer?, inOrder.freed, notCalled, ↓reduceIte, found]
  rfl

/-! ## Adding timers -/

/-- A timer as `watch_timer_add` makes it at a reading of the clock. -/
structure MadeAt
    (reading : Nat)
    (request : Nat × κ)
    (timer : Timer κ) : Prop where
  cb : timer.cb = request.2
  normalised : timer.tv.Normalised
  micros : timer.tv.micros = reading + request.1 * 1000

/--
Timers that `watch_timer_add` makes for some requests, one for each and in
their order, at readings of the clock between two times.
-/
inductive Made :
    Nat → Nat → List (Nat × κ) → List (Timer κ) → Prop where
  | none
      {since till : Nat}
      (elapsed : since ≤ till) :
      Made since till [] []
  | next
      {since reading till : Nat}
      {request : Nat × κ}
      {requests : List (Nat × κ)}
      {timer : Timer κ}
      {timers : List (Timer κ)}
      (elapsed : since ≤ reading)
      (makes : MadeAt reading request timer)
      (rest : Made reading till requests timers) :
      Made since till (request :: requests) (timer :: timers)

section Made

variable {since till : Nat} {requests : List (Nat × κ)}
variable {timers : List (Timer κ)}

theorem Made.elapsed
    (made : Made since till requests timers) :
    since ≤ till := by
  induction made with
  | none elapsed => exact elapsed
  | next elapsed makes rest inductionHypothesis =>
      exact Nat.le_trans elapsed inductionHypothesis

theorem Made.length
    (made : Made since till requests timers) :
    timers.length = requests.length := by
  induction made with
  | none elapsed => rfl
  | next elapsed makes rest inductionHypothesis =>
      rw [List.length_cons, List.length_cons, inductionHypothesis]

/-- No timer is due before it is added. -/
theorem Made.later
    {timer : Timer κ}
    (made : Made since till requests timers)
    (member : timer ∈ timers) :
    timer.tv.Normalised ∧ (since : Int) ≤ timer.tv.micros := by
  induction made with
  | none elapsed => cases member
  | next elapsed makes rest inductionHypothesis =>
      rcases List.mem_cons.mp member with rfl | inRest
      · exact ⟨makes.normalised, by rw [makes.micros]; omega⟩
      · obtain ⟨normalised, later⟩ := inductionHypothesis inRest
        exact ⟨normalised, by omega⟩

theorem Made.append
    {further : Nat}
    {requests' : List (Nat × κ)}
    {timers' : List (Timer κ)}
    (made : Made since till requests timers)
    (made' : Made till further requests' timers') :
    Made since further (requests ++ requests') (timers ++ timers') := by
  induction made with
  | none elapsed =>
      cases made' with
      | none elapsed' => exact .none (Nat.le_trans elapsed elapsed')
      | next elapsed' makes rest =>
          exact .next (Nat.le_trans elapsed elapsed') makes rest
  | next elapsed makes rest inductionHypothesis =>
      exact .next elapsed makes (inductionHypothesis made')

end Made

/--
Timers have been added for some requests, and nothing else has changed but the
clock.
-/
structure Grows
    (requests : List (Nat × κ))
    (memory final : TimerMemory κ) : Prop where
  heap :
    ∃ added,
      final.heap = memory.heap ++ added ∧
        Made memory.clock.now final.clock.now requests added
  list :
    ∀ items,
      memory.links.Represents .head (items.map .heap) →
      (∀ index, index ∈ items → index < memory.heap.length) →
        final.links.Represents .head
          ((items ++
            List.range' memory.heap.length requests.length).map .heap)
  freed : final.freed = memory.freed
  called : final.called = memory.called
  additions : final.additions = memory.additions

theorem Grows.refl
    (memory : TimerMemory κ) :
    Grows [] memory memory where
  heap := ⟨[], (List.append_nil _).symm, .none (Nat.le_refl _)⟩
  list := fun items represents _ => by simpa using represents
  freed := rfl
  called := rfl
  additions := rfl

theorem Grows.length
    {requests : List (Nat × κ)}
    {memory final : TimerMemory κ}
    (grows : Grows requests memory final) :
    final.heap.length = memory.heap.length + requests.length := by
  obtain ⟨added, heap, made⟩ := grows.heap
  rw [heap, List.length_append, made.length]

theorem Grows.trans
    {requests requests' : List (Nat × κ)}
    {memory middle final : TimerMemory κ}
    (firstStep : Grows requests memory middle)
    (laterStep : Grows requests' middle final) :
    Grows (requests ++ requests') memory final where
  heap := by
    obtain ⟨added, heap, made⟩ := firstStep.heap
    obtain ⟨added', heap', made'⟩ := laterStep.heap
    refine ⟨added ++ added', ?_, made.append made'⟩
    rw [heap', heap, List.append_assoc]
  list := by
    intro items represents inside
    have between := firstStep.list items represents inside
    have whole := laterStep.list _ between (by
      intro index member
      rw [firstStep.length]
      rcases List.mem_append.mp member with old | new
      · have bound := inside index old
        omega
      · have bound := (List.mem_range'_1.mp new).2
        omega)
    rw [firstStep.length, List.append_assoc, List.range'_append_1] at whole
    rw [List.length_append]
    exact whole
  freed := laterStep.freed.trans firstStep.freed
  called := laterStep.called.trans firstStep.called
  additions := laterStep.additions.trans firstStep.additions

/-- A timeout in milliseconds as a `struct timeval`. -/
theorem normalised_timeout
    (timeoutMs : Nat) :
    let timeout : Timeval :=
      ⟨(timeoutMs : Int).tdiv 1000, (timeoutMs : Int).tmod 1000 * 1000⟩
    timeout.Normalised ∧ timeout.micros = timeoutMs * 1000 := by
  have quotient : (timeoutMs : Int).tdiv 1000 = (timeoutMs / 1000 : Nat) := by
    rw [Int.tdiv_eq_ediv_of_nonneg (by omega)]
    omega
  have remainder : (timeoutMs : Int).tmod 1000 = (timeoutMs % 1000 : Nat) := by
    rw [Int.tmod_eq_emod_of_nonneg (by omega)]
    omega
  simp only [quotient, remainder, Timeval.Normalised, Timeval.micros]
  omega

/-- The timer that `watch_timer_add` makes. -/
theorem madeAt_add
    (now timeoutMs : Nat)
    (cb : κ) :
    MadeAt now (timeoutMs, cb)
      ⟨(Timeval.ofMicros now).add
        ⟨(timeoutMs : Int).tdiv 1000, (timeoutMs : Int).tmod 1000 * 1000⟩,
        cb⟩ := by
  obtain ⟨normalised, micros⟩ := normalised_timeout timeoutMs
  exact
    { cb := rfl
      normalised :=
        Timeval.normalised_add (Timeval.normalised_ofMicros now) normalised
      micros := by
        rw [Timeval.micros_add, Timeval.micros_ofMicros, micros] }

theorem watchTimerAdd_grows
    (timeoutMs : Nat)
    (cb : κ)
    (memory : TimerMemory κ) :
    ∃ final,
      watchTimerAdd timeoutMs cb memory = .ok () final ∧
        Grows [(timeoutMs, cb)] memory final := by
  refine ⟨_, rfl,
    { heap :=
        ⟨[_], rfl, .next (Clock.now_le_tick memory.clock)
          (madeAt_add _ timeoutMs cb) (.none (Nat.le_refl _))⟩
      list := ?_
      freed := rfl
      called := rfl
      additions := rfl }⟩
  intro items represents inside
  have fresh :
      TimerNode.heap memory.heap.length ∉
        TimerNode.head :: items.map .heap := by
    simp only [List.mem_cons, reduceCtorEq, List.mem_map,
      TimerNode.heap.injEq, exists_eq_right, false_or]
    exact fun member => absurd (inside _ member) (Nat.lt_irrefl _)
  rw [List.map_append]
  exact represents.listAdd fresh

theorem addTimers_grows
    (timers : List (Nat × κ))
    (memory : TimerMemory κ) :
    ∃ final,
      addTimers timers memory = .ok () final ∧
        Grows timers memory final := by
  induction timers generalizing memory with
  | nil =>
      exact ⟨memory, rfl, .refl memory⟩
  | cons timer rest inductionHypothesis =>
      obtain ⟨middle, adds, grows⟩ :=
        watchTimerAdd_grows timer.1 timer.2 memory
      obtain ⟨final, addsRest, growsRest⟩ := inductionHypothesis middle
      refine ⟨final, ?_, grows.trans growsRest⟩
      unfold addTimers at addsRest ⊢
      rw [each, bind_of_ok adds]
      exact addsRest

theorem InOrder.inside
    {memory : TimerMemory κ}
    {made : TimerCall κ}
    (inOrder : memory.InOrder)
    (isCalled : made ∈ memory.called) :
    made.index < memory.heap.length := by
  obtain ⟨timer, found, _⟩ := (inOrder.late made isCalled).1
  exact (List.getElem?_eq_some_iff.mp found).1

/-- What was called was late, also when timers are added. -/
theorem late_of_prefix
    {memory later : TimerMemory κ}
    {made : TimerCall κ}
    (grown : memory.heap <+: later.heap)
    (late :
      (∃ timer,
        memory.heap[made.index]? = some timer ∧ made.cb = timer.cb) ∧
        memory.expired made.now made.index = true) :
    (∃ timer,
      later.heap[made.index]? = some timer ∧ made.cb = timer.cb) ∧
      later.expired made.now made.index = true := by
  obtain ⟨⟨timer, found, cb⟩, isExpired⟩ := late
  have inside := (List.getElem?_eq_some_iff.mp found).1
  refine ⟨⟨timer, ?_, cb⟩, ?_⟩
  · obtain ⟨added, heap⟩ := grown
    rw [← heap, List.getElem?_append_left inside]
    exact found
  · rw [expired, deadline_of_prefix grown inside]
    exact isExpired

/-- A timer that is added outside of a pass waits at the end of the list. -/
theorem InOrder.grows
    {requests : List (Nat × κ)}
    {memory final : TimerMemory κ}
    (inOrder : memory.InOrder)
    (grows : Grows requests memory final) :
    final.InOrder ∧
      final.uncalled =
        memory.uncalled ++
          List.range' memory.heap.length requests.length := by
  obtain ⟨added, heap, made⟩ := grows.heap
  have uncalled :
      final.uncalled =
        memory.uncalled ++
          List.range' memory.heap.length requests.length := by
    have new :
        (List.range' memory.heap.length requests.length).filter
            (fun index => index ∉ memory.called.map TimerCall.index) =
          List.range' memory.heap.length requests.length := by
      rw [List.filter_eq_self]
      intro index member
      have above := (List.mem_range'_1.mp member).1
      simp only [decide_not, Bool.not_eq_eq_eq_not, Bool.not_true,
        decide_eq_false_iff_not, List.mem_map]
      rintro ⟨made, isCalled, rfl⟩
      have below := inOrder.inside isCalled
      omega
    rw [TimerMemory.uncalled, TimerMemory.uncalled, grows.length,
      grows.called, List.range_eq_range', List.range_eq_range',
      ← List.range'_append_1, List.filter_append, Nat.zero_add, new]
  refine ⟨⟨?_, ?_, ?_, ?_, ?_⟩, uncalled⟩
  · rw [uncalled]
    exact grows.list _ inOrder.list fun index member =>
      (mem_uncalled.mp member).1
  · rw [grows.freed, grows.called]
    exact inOrder.freed
  · rw [grows.called]
    exact inOrder.once
  · intro made isCalled
    rw [grows.called] at isCalled
    exact late_of_prefix ⟨added, heap.symm⟩ (inOrder.late made isCalled)
  · intro timer member
    rw [heap] at member
    rcases List.mem_append.mp member with old | new
    · exact inOrder.normalised timer old
    · exact (made.later new).1

/-! ## One pass -/

/-- What a pass did to the timer it has called. -/
structure Called
    (made : TimerCall κ)
    (before rest : List Nat)
    (memory final : TimerMemory κ) :
    Prop where
  inOrder : final.InOrder
  called : final.called = memory.called ++ [made]
  uncalled :
    final.uncalled =
      before ++ rest ++
        List.range' memory.heap.length (memory.additions.headD []).length
  heap :
    ∃ added,
      final.heap = memory.heap ++ added ∧
        Made memory.clock.now final.clock.now
          (memory.additions.headD []) added
  additions : final.additions = memory.additions.tail

/-- Marking the next call takes its additions off the script. -/
theorem budget_tail
    (memory : TimerMemory κ) :
    (memory.additions.headD []).length +
        memory.additions.tail.flatten.length =
      memory.budget := by
  unfold budget
  cases memory.additions with
  | nil => rfl
  | cons first rest => exact List.length_append.symm

/-- The timers that are left once one of them was called. -/
theorem uncalled_of_called
    {memory final : TimerMemory κ}
    {count : Nat}
    {made : TimerCall κ}
    {before rest : List Nat}
    (inOrder : memory.InOrder)
    (shape : memory.uncalled = before ++ made.index :: rest)
    (called : final.called = memory.called ++ [made])
    (length : final.heap.length = memory.heap.length + count) :
    final.uncalled =
      before ++ rest ++ List.range' memory.heap.length count := by
  have nodup : memory.uncalled.Nodup := List.nodup_range.filter _
  have inside : made.index < memory.heap.length :=
    (mem_uncalled.mp (by simp [shape])).1
  rw [shape] at nodup
  obtain ⟨_, nodupRest, disjoint⟩ := List.nodup_append.mp nodup
  have old :
      (List.range memory.heap.length).filter
          (fun query => query ∉ final.called.map TimerCall.index) =
        before ++ rest := by
    have split :
        (List.range memory.heap.length).filter
            (fun query => query ∉ final.called.map TimerCall.index) =
          memory.uncalled.filter (fun query => query ≠ made.index) := by
      rw [uncalled, List.filter_filter, called]
      apply List.filter_congr
      intro query _
      simp only [List.map_append, List.map_cons, List.map_nil,
        List.mem_append, List.mem_singleton]
      by_cases same : query = made.index <;> simp [same]
    have keepsBefore :
        before.filter (fun query => query ≠ made.index) = before :=
      List.filter_eq_self.mpr fun query member =>
        decide_eq_true (disjoint query member made.index (by simp))
    have keepsRest :
        rest.filter (fun query => query ≠ made.index) = rest :=
      List.filter_eq_self.mpr fun query member =>
        decide_eq_true fun same =>
          (List.nodup_cons.mp nodupRest).1 (same ▸ member)
    rw [split, shape, List.filter_append, List.filter_cons_of_neg (by simp),
      keepsBefore, keepsRest]
  have new :
      (List.range' memory.heap.length count).filter
          (fun query => query ∉ final.called.map TimerCall.index) =
        List.range' memory.heap.length count := by
    rw [List.filter_eq_self]
    intro query member
    have above := (List.mem_range'_1.mp member).1
    simp only [called, decide_not, Bool.not_eq_eq_eq_not, Bool.not_true,
      decide_eq_false_iff_not, List.map_append, List.mem_append,
      List.mem_map]
    rintro (⟨earlier, isCalled, rfl⟩ | ⟨earlier, isCalled, rfl⟩)
    · have below := inOrder.inside isCalled
      omega
    · rw [List.mem_singleton.mp isCalled] at above
      omega
  rw [uncalled, length, List.range_eq_range', ← List.range'_append_1,
    List.filter_append, ← List.range_eq_range', Nat.zero_add, old, new]

/-- An expired timer is called, unlinked and freed. -/
theorem InOrder.visit_expired
    {memory : TimerMemory κ}
    {index : Nat}
    {now : Timeval}
    {before rest : List Nat}
    (inOrder : memory.InOrder)
    (shape : memory.uncalled = before ++ index :: rest)
    (isExpired : memory.expired now index = true) :
    ∃ timer final,
      memory.heap[index]? = some timer ∧
        visit now (.heap index) memory = .ok () final ∧
        Called ⟨index, timer.cb, now⟩ before rest memory final := by
  have isUncalled : index ∈ memory.uncalled := by simp [shape]
  obtain ⟨inside, notCalled⟩ := mem_uncalled.mp isUncalled
  obtain ⟨timer, found, looks⟩ := inOrder.entry_eq isUncalled
  let made : TimerCall κ := ⟨index, timer.cb, now⟩
  let marked : TimerMemory κ :=
    { memory with
      called := memory.called ++ [made]
      additions := memory.additions.tail }
  obtain ⟨grown, adds, grows⟩ :=
    addTimers_grows (memory.additions.headD []) marked
  have length : grown.heap.length =
      memory.heap.length + (memory.additions.headD []).length :=
    grows.length
  let final : TimerMemory κ :=
    { grown with
      links := grown.links.listDel (.heap index)
      freed := grown.freed ++ [index] }
  have called : final.called = memory.called ++ [made] :=
    grows.called
  have uncalled :
      final.uncalled =
        before ++ rest ++
          List.range' memory.heap.length
            (memory.additions.headD []).length :=
    uncalled_of_called inOrder shape called length
  obtain ⟨added, heap, makes⟩ := grows.heap
  refine ⟨timer, final, found, ?_,
    { inOrder := ⟨?_, ?_, ?_, ?_, ?_⟩
      called := called
      uncalled := uncalled
      heap := ⟨added, heap, makes⟩
      additions := grows.additions }⟩
  · have expires : timer.tv.lt now = true := by
      rw [← deadline_eq found]
      exact isExpired
    have calls :
        call (.heap index) timer.cb now memory = .ok () grown := adds
    unfold visit
    rw [bind_of_ok looks, if_pos expires, bind_of_ok calls]
    rfl
  · have linked := grows.list memory.uncalled inOrder.list
      fun query member => (mem_uncalled.mp member).1
    rw [shape, List.append_assoc, List.cons_append, List.map_append,
      List.map_cons] at linked
    rw [uncalled, List.append_assoc, List.map_append]
    exact linked.listDel (before.map TimerNode.heap)
  · change grown.freed ++ [index] = _
    rw [grows.freed, called, List.map_append]
    change memory.freed ++ [index] = _
    rw [inOrder.freed]
    rfl
  · rw [called, List.map_append, List.nodup_append]
    refine ⟨inOrder.once, by simp, ?_⟩
    rintro query member _ isIndex rfl
    rw [List.map_singleton, List.mem_singleton] at isIndex
    subst isIndex
    exact notCalled member
  · intro earlier isCalled
    rw [called, List.mem_append, List.mem_singleton] at isCalled
    refine late_of_prefix ⟨added, heap.symm⟩ ?_
    rcases isCalled with early | rfl
    · exact inOrder.late earlier early
    · exact ⟨⟨timer, found, rfl⟩, isExpired⟩
  · intro timer member
    change timer ∈ grown.heap at member
    rw [heap] at member
    rcases List.mem_append.mp member with old | new
    · exact inOrder.normalised timer old
    · exact (makes.later new).1

/-- Any other timer is left alone. -/
theorem InOrder.visit_waiting
    {memory : TimerMemory κ}
    {index : Nat}
    {now : Timeval}
    (inOrder : memory.InOrder)
    (isUncalled : index ∈ memory.uncalled)
    (waits : memory.expired now index = false) :
    visit now (.heap index) memory = .ok () memory := by
  obtain ⟨timer, found, looks⟩ := inOrder.entry_eq isUncalled
  have notExpired : ¬ timer.tv.lt now = true := by
    rw [← deadline_eq found]
    exact Bool.eq_false_iff.mp waits
  unfold visit
  rw [bind_of_ok looks, if_neg notExpired]
  rfl

/-- The calls of some timers, for a reading of the clock. -/
def calls
    (memory : TimerMemory κ)
    (now : Nat)
    (indices : List Nat) :
    List (TimerCall κ) :=
  indices.filterMap fun index =>
    memory.heap[index]?.map fun timer =>
      ⟨index, timer.cb, Timeval.ofMicros now⟩

/-- The timers, of some, that are to be called at a reading of the clock. -/
def due
    (memory : TimerMemory κ)
    (now : Nat)
    (indices : List Nat) :
    List Nat :=
  indices.filter (memory.expired (Timeval.ofMicros now))

/-- What the next calls of callbacks will add. -/
def requested (memory : TimerMemory κ) (count : Nat) : List (Nat × κ) :=
  (memory.additions.take count).flatten

/-- One more call. -/
theorem requested_succ
    (memory : TimerMemory κ)
    (count : Nat) :
    memory.requested (count + 1) =
      memory.requested count ++ (memory.additions.drop count).headD [] := by
  unfold requested
  generalize memory.additions = additions
  induction additions generalizing count with
  | nil => cases count <;> rfl
  | cons first rest inductionHypothesis =>
      cases count with
      | zero => simp
      | succ count =>
          rw [List.take_succ_cons, List.take_succ_cons, List.flatten_cons,
            List.flatten_cons, inductionHypothesis, List.append_assoc,
            List.drop_succ_cons]

/-- In the middle of a pass: what was visited, and what is still to be. -/
structure Passing
    (begun : TimerMemory κ)
    (visited remaining before fresh : List Nat)
    (memory : TimerMemory κ) :
    Prop where
  inOrder : memory.InOrder
  split : begun.uncalled = visited ++ remaining
  shape : memory.uncalled = before ++ (remaining ++ fresh)
  new : ∀ index, index ∈ fresh → begun.heap.length ≤ index
  called :
    memory.called =
      begun.called ++
        begun.calls begun.clock.now (begun.due begun.clock.now visited)
  heap :
    ∃ added,
      memory.heap = begun.heap ++ added ∧
        Made begun.clock.now memory.clock.now
          (begun.requested (begun.due begun.clock.now visited).length) added
  additions :
    memory.additions =
      begun.additions.drop (begun.due begun.clock.now visited).length

/-- A timer that was added during the pass has not expired. -/
theorem Passing.waits
    {begun memory : TimerMemory κ}
    {visited remaining before fresh : List Nat}
    {index : Nat}
    (passing : Passing begun visited remaining before fresh memory)
    (isUncalled : index ∈ memory.uncalled)
    (isNew : begun.heap.length ≤ index) :
    memory.expired (Timeval.ofMicros begun.clock.now) index = false := by
  obtain ⟨added, heap, made⟩ := passing.heap
  obtain ⟨inside, _⟩ := mem_uncalled.mp isUncalled
  obtain ⟨timer, found⟩ : ∃ timer, memory.heap[index]? = some timer :=
    ⟨_, List.getElem?_eq_getElem inside⟩
  have isAdded : timer ∈ added := by
    rw [heap, List.getElem?_append_right isNew] at found
    exact List.mem_of_getElem? found
  obtain ⟨normal, later⟩ := made.later isAdded
  rw [expired, deadline_eq found]
  apply Bool.eq_false_iff.mpr
  rw [ne_eq, Timeval.lt_iff normal (Timeval.normalised_ofMicros _),
    Timeval.micros_ofMicros]
  omega

/--
The visit to a timer goes on to the next one, and pays for the timers that it
adds.
-/
def Visits
    (begun memory : TimerMemory κ)
    (index : Nat)
    (rest : List Nat) :
    Prop :=
  ∃ final visited remaining before fresh count,
    visit (.ofMicros begun.clock.now) (.heap index) memory =
        .ok () final ∧
      Passing begun visited remaining before fresh final ∧
      remaining ++ fresh = rest ++ List.range' memory.heap.length count ∧
      count + final.budget ≤ memory.budget ∧
      (rest = [] → remaining = [])

section Visits

variable {begun memory : TimerMemory κ}
variable {visited remaining others before fresh : List Nat} {index : Nat}

/-- A timer that was added during the pass stays where it is. -/
theorem Passing.visits_added
    (passing : Passing begun visited [] before (index :: fresh) memory) :
    Visits begun memory index fresh := by
  have isUncalled : index ∈ memory.uncalled := by
    simp [passing.shape]
  have isNew := passing.new index List.mem_cons_self
  have waits := passing.waits isUncalled isNew
  refine ⟨memory, visited, [], before ++ [index], fresh, 0,
    passing.inOrder.visit_waiting isUncalled waits, ?_, by simp,
    by omega, fun _ => rfl⟩
  exact
    { passing with
      shape := by simp [passing.shape]
      new := fun query member =>
        passing.new query (List.mem_cons_of_mem _ member) }

/-- What is visited next was there when the pass began. -/
theorem Passing.split_next
    (passing :
      Passing begun visited (index :: others) before fresh memory) :
    begun.uncalled = (visited ++ [index]) ++ others ∧
      index < begun.heap.length := by
  refine ⟨?_, (mem_uncalled.mp (by simp [passing.split])).1⟩
  rw [passing.split, List.append_assoc, List.singleton_append]

/-- It has the deadline that it had then. -/
theorem Passing.expired_next
    (passing :
      Passing begun visited (index :: others) before fresh memory)
    (now : Timeval) :
    memory.expired now index = begun.expired now index := by
  obtain ⟨added, heap, _⟩ := passing.heap
  rw [expired, expired,
    deadline_of_prefix ⟨added, heap.symm⟩ passing.split_next.2]

/-- A timer that has not expired stays where it is. -/
theorem Passing.visits_waiting
    (passing :
      Passing begun visited (index :: others) before fresh memory)
    (waits :
      begun.expired (.ofMicros begun.clock.now) index = false) :
    Visits begun memory index (others ++ fresh) := by
  have isUncalled : index ∈ memory.uncalled := by
    simp [passing.shape]
  have stays :
      begun.due begun.clock.now (visited ++ [index]) =
        begun.due begun.clock.now visited := by
    simp [due, waits]
  refine ⟨memory, visited ++ [index], others, before ++ [index], fresh, 0,
    passing.inOrder.visit_waiting isUncalled
      ((passing.expired_next _).trans waits),
    ?_, by simp, by omega, fun nothing =>
      (List.append_eq_nil_iff.mp nothing).1⟩
  exact
    { inOrder := passing.inOrder
      split := passing.split_next.1
      shape := by simp [passing.shape]
      new := passing.new
      called := stays ▸ passing.called
      heap := stays ▸ passing.heap
      additions := stays ▸ passing.additions }

/-- An expired timer is called, and what it adds is visited later. -/
theorem Passing.visits_expired
    (passing :
      Passing begun visited (index :: others) before fresh memory)
    (isExpired :
      begun.expired (.ofMicros begun.clock.now) index = true) :
    Visits begun memory index (others ++ fresh) := by
  obtain ⟨split, inside⟩ := passing.split_next
  obtain ⟨added, heap, made⟩ := passing.heap
  have grows :
      begun.due begun.clock.now (visited ++ [index]) =
        begun.due begun.clock.now visited ++ [index] := by
    simp [due, isExpired]
  obtain ⟨timer, final, found, visits, isCalled⟩ :=
    passing.inOrder.visit_expired (by rw [passing.shape, List.cons_append])
      ((passing.expired_next _).trans isExpired)
  have foundFirst : begun.heap[index]? = some timer := by
    rw [heap, List.getElem?_append_left inside] at found
    exact found
  obtain ⟨later, grown, laterMade⟩ := isCalled.heap
  refine ⟨final, visited ++ [index], others, before,
    fresh ++ List.range' memory.heap.length
      (memory.additions.headD []).length,
    (memory.additions.headD []).length, visits, ?_, by simp,
    Nat.le_of_eq ?_, fun nothing =>
      (List.append_eq_nil_iff.mp nothing).1⟩
  · exact
      { inOrder := isCalled.inOrder
        split := split
        shape := by
          rw [isCalled.uncalled, List.append_assoc, List.append_assoc]
        new := by
          intro query member
          rcases List.mem_append.mp member with old | new
          · exact passing.new query old
          · have above := (List.mem_range'_1.mp new).1
            rw [heap, List.length_append] at above
            omega
        called := by
          rw [isCalled.called, passing.called, grows]
          simp [calls, foundFirst]
        heap := by
          refine ⟨added ++ later, ?_, ?_⟩
          · rw [grown, heap, List.append_assoc]
          · rw [grows, List.length_append, List.length_singleton,
              requested_succ, ← passing.additions]
            exact made.append laterMade
        additions := by
          rw [isCalled.additions, passing.additions, grows,
            List.length_append, List.length_singleton, List.tail_drop] }
  · rw [show final.budget = memory.additions.tail.flatten.length by
      rw [budget, isCalled.additions]]
    exact budget_tail memory

theorem Passing.visits
    {rest : List Nat}
    (passing : Passing begun visited remaining before fresh memory)
    (next : remaining ++ fresh = index :: rest) :
    Visits begun memory index rest := by
  cases remaining with
  | nil =>
      rw [List.nil_append] at next
      subst next
      exact passing.visits_added
  | cons first others =>
      obtain ⟨rfl, rfl⟩ := List.cons.inj next
      cases isExpired : begun.expired (.ofMicros begun.clock.now) first with
      | false => exact passing.visits_waiting isExpired
      | true => exact passing.visits_expired isExpired

end Visits

/--
A pass calls the callback of every timer that was expired when it began, once,
and of no other; the timers that callbacks add meanwhile are made as they ask
and wait for a later pass.
-/
structure Fires (now : Nat) (memory final : TimerMemory κ) : Prop where
  inOrder : final.InOrder
  called :
    final.called =
      memory.called ++ memory.calls now (memory.due now memory.uncalled)
  added :
    ∃ added,
      final.heap = memory.heap ++ added ∧
        Made now final.clock.now
          (memory.requested (memory.due now memory.uncalled).length) added
  additions :
    final.additions =
      memory.additions.drop (memory.due now memory.uncalled).length
  waits :
    ∀ index, memory.heap.length ≤ index → index < final.heap.length →
      index ∈ final.uncalled

/-- What was called when a pass began was there. -/
theorem inside_of_calls
    {memory : TimerMemory κ}
    {now : Nat}
    {indices : List Nat}
    {made : TimerCall κ}
    (isCalled : made ∈ memory.calls now indices) :
    made.index < memory.heap.length := by
  obtain ⟨index, _, found⟩ := List.mem_filterMap.mp isCalled
  obtain ⟨timer, isTimer, rfl⟩ := Option.map_eq_some_iff.mp found
  exact (List.getElem?_eq_some_iff.mp isTimer).1

theorem Passing.ends
    {begun memory : TimerMemory κ}
    {visited before fresh : List Nat}
    (ordered : begun.InOrder)
    (passing : Passing begun visited [] before fresh memory) :
    Fires begun.clock.now begun memory := by
  have all := passing.split
  rw [List.append_nil] at all
  have called := passing.called
  rw [← all] at called
  refine
    { inOrder := passing.inOrder
      called := called
      added := all ▸ passing.heap
      additions := all ▸ passing.additions
      waits := ?_ }
  intro index isNew inside
  refine mem_uncalled.mpr ⟨inside, ?_⟩
  rw [called, List.map_append, List.mem_append]
  rintro (early | now)
  · obtain ⟨made, isCalled, rfl⟩ := List.mem_map.mp early
    have below := ordered.inside isCalled
    omega
  · obtain ⟨made, isCalled, rfl⟩ := List.mem_map.mp now
    have below := inside_of_calls isCalled
    omega

/-- A pass begins with all timers ahead. -/
theorem InOrder.passing
    {begun : TimerMemory κ}
    (inOrder : begun.InOrder) :
    Passing begun [] begun.uncalled [] [] begun where
  inOrder := inOrder
  split := rfl
  shape := by simp
  new := nofun
  called := (List.append_nil _).symm
  heap := ⟨[], (List.append_nil _).symm, .none (Nat.le_refl _)⟩
  additions := rfl

theorem length_uncalled
    (memory : TimerMemory κ) :
    memory.uncalled.length ≤ memory.heap.length := by
  have filtered := List.length_filter_le
    (fun index => decide (index ∉ memory.called.map TimerCall.index))
    (List.range memory.heap.length)
  rw [List.length_range] at filtered
  exact filtered

/-- The loop of `watch_timer_invoke`, from the first timer on. -/
theorem InOrder.fires
    {begun : TimerMemory κ}
    (inOrder : begun.InOrder) :
    KeepsAt (Fires begun.clock.now begun) (fun _ _ => False)
      (Links.forEachEntrySafe TimerMemory.links .head
        (TimerMemory.visit (.ofMicros begun.clock.now)) .diverges
        begun.bound (begun.links.next .head)
        (begun.links.next (begun.links.next .head)))
      begun := by
  refine Links.forEachEntrySafe_pass
    (fun before items memory =>
      ∃ visited remaining before' fresh,
        before = before'.map TimerNode.heap ∧
          items = (remaining ++ fresh).map TimerNode.heap ∧
          Passing begun visited remaining before' fresh memory)
    budget ?_ ?_ ?_
    ⟨[], begun.uncalled, [], [], rfl, rfl, inOrder.passing⟩ ?_ ?_ ?_
  · rintro _ _ memory
      ⟨visited, remaining, before, fresh, rfl, rfl, passing⟩
    rw [← List.map_append, ← passing.shape]
    exact passing.inOrder.list
  · rintro _ item rest memory
      ⟨visited, remaining, before, fresh, rfl, shape, passing⟩
    obtain ⟨index, rest', next, rfl, rfl⟩ :=
      List.map_eq_cons_iff.mp shape.symm
    obtain ⟨final, visited', remaining', before', fresh', count, visits,
      passing', next', paid, ends⟩ := passing.visits next
    refine .of_ok visits
      ⟨before'.map .heap,
        (List.range' memory.heap.length count).map .heap,
        ⟨visited', remaining', before', fresh', rfl, ?_, passing'⟩,
        ?_, ?_⟩
    · rw [next', List.map_append]
    · rw [List.length_map, List.length_range']
      exact paid
    · intro last
      have none := ends (List.map_eq_nil_iff.mp last)
      subst none
      exact passing'.ends inOrder
  · rintro _ memory
      ⟨visited, remaining, before, fresh, rfl, shape, passing⟩
    have none := List.map_eq_nil_iff.mp shape.symm
    have noneLeft := (List.append_eq_nil_iff.mp none).1
    subst noneLeft
    exact passing.ends inOrder
  · have short := length_uncalled begun
    rw [List.length_map, List.append_nil, bound]
    omega
  · rw [List.append_nil]
    exact inOrder.list.chain.next_first
  · intro rest shape
    have represents := inOrder.list
    rw [List.append_nil] at shape
    rw [shape] at represents
    exact represents.next_eq []

/-- `watch_timer_invoke` fires what has expired, and always comes to an end. -/
theorem watchTimerInvoke_fires
    {memory : TimerMemory κ}
    (inOrder : memory.InOrder) :
    ∃ final,
      watchTimerInvoke memory = .ok () final ∧
        Fires memory.clock.tick.now memory final := by
  let begun : TimerMemory κ := { memory with clock := memory.clock.tick }
  have ordered : begun.InOrder :=
    ⟨inOrder.list, inOrder.freed, inOrder.once, inOrder.late,
      inOrder.normalised⟩
  have pass := ordered.fires
  unfold KeepsAt at pass
  cases outcome :
      Links.forEachEntrySafe TimerMemory.links .head
        (TimerMemory.visit (.ofMicros begun.clock.now)) .diverges begun.bound
        (begun.links.next .head)
        (begun.links.next (begun.links.next .head)) begun with
  | error reason final =>
      rw [outcome] at pass
      exact pass.elim
  | ok value final =>
      rw [outcome] at pass
      exact ⟨final, outcome, pass.inOrder, pass.called, pass.added,
        pass.additions, pass.waits⟩

/-! ## The next timer -/

/-- The list head behind the last timer, or the timer at the front. -/
def frontNode (timers : List Nat) : TimerNode :=
  (timers.map TimerNode.heap).headD .head

theorem InOrder.deadline_normalised
    {memory : TimerMemory κ}
    {index : Nat}
    (inOrder : memory.InOrder)
    (isUncalled : index ∈ memory.uncalled) :
    (memory.deadline index).Normalised := by
  obtain ⟨timer, found, _⟩ := inOrder.entry_eq isUncalled
  rw [deadline_eq found]
  exact inOrder.normalised timer (List.mem_of_getElem? found)

/-- The search keeps the earliest of the timers it has seen. -/
theorem InOrder.earliest
    {memory : TimerMemory κ}
    {fuel best : Nat}
    {seen rest : List Nat}
    (inOrder : memory.InOrder)
    (shape : memory.uncalled = seen ++ rest)
    (isUncalled : best ∈ memory.uncalled)
    (least :
      ∀ other, other ∈ seen →
        (memory.deadline best).micros ≤ (memory.deadline other).micros)
    (enough : rest.length < fuel) :
    ∃ found,
      TimerMemory.earliest fuel (frontNode rest) (.heap best) memory =
          .ok (.heap found) memory ∧
        found ∈ memory.uncalled ∧
        ∀ other, other ∈ memory.uncalled →
          (memory.deadline found).micros ≤
            (memory.deadline other).micros := by
  induction fuel generalizing seen rest best with
  | zero => exact absurd enough (Nat.not_lt_zero _)
  | succ fuel inductionHypothesis =>
      unfold TimerMemory.earliest
      cases rest with
      | nil =>
          rw [List.append_nil] at shape
          rw [shape]
          exact ⟨best, rfl, shape ▸ isUncalled, least⟩
      | cons index rest =>
          have member : index ∈ memory.uncalled := by simp [shape]
          obtain ⟨timer, found, looks⟩ := inOrder.entry_eq member
          obtain ⟨bestTimer, bestFound, looksBest⟩ :=
            inOrder.entry_eq isUncalled
          have linked := inOrder.list
          rw [shape, List.map_append, List.map_cons] at linked
          have following := linked.next_eq (seen.map TimerNode.heap)
          have compare :
              timer.tv.lt bestTimer.tv = true ↔
                (memory.deadline index).micros <
                  (memory.deadline best).micros := by
            rw [← deadline_eq found, ← deadline_eq bestFound]
            exact Timeval.lt_iff (inOrder.deadline_normalised member)
              (inOrder.deadline_normalised isUncalled)
          have shape' : memory.uncalled = (seen ++ [index]) ++ rest := by
            rw [shape, List.append_assoc, List.singleton_append]
          have front : frontNode (index :: rest) = .heap index := rfl
          have behind :
              memory.links.next (.heap index) = frontNode rest :=
            following
          rw [front, if_neg TimerNode.noConfusion, bind_of_ok looks,
            bind_of_ok looksBest, bind_of_ok (read_apply _ _), behind]
          rw [List.length_cons] at enough
          cases earlier : timer.tv.lt bestTimer.tv with
          | true =>
              have before := compare.mp earlier
              refine inductionHypothesis shape' member ?_ (by omega)
              intro other isSeen
              rcases List.mem_append.mp isSeen with old | new
              · have least := least other old
                omega
              · have same := List.mem_singleton.mp new
                subst same
                exact Int.le_refl _
          | false =>
              have notBefore := mt compare.mpr (Bool.eq_false_iff.mp earlier)
              refine inductionHypothesis shape' isUncalled ?_ (by omega)
              intro other isSeen
              rcases List.mem_append.mp isSeen with old | new
              · exact least other old
              · rw [List.mem_singleton.mp new]
                omega

/--
No timeout without a timer, and otherwise the time until the earliest timer,
or zero when that has passed.
-/
structure TellsNext
    (now : Nat)
    (memory : TimerMemory κ)
    (timeout : Option Timeval) :
    Prop where
  none : timeout = none ↔ memory.uncalled = []
  some :
    ∀ tv, timeout = some tv →
      ∃ earliest,
        earliest ∈ memory.uncalled ∧
          (∀ other, other ∈ memory.uncalled →
            (memory.deadline earliest).micros ≤
              (memory.deadline other).micros) ∧
          tv.Normalised ∧
          tv.micros = max 0 ((memory.deadline earliest).micros - now)

/-- `watch_timer_next` tells the next timer and only reads the clock. -/
theorem watchTimerNext_tells
    {memory : TimerMemory κ}
    (inOrder : memory.InOrder) :
    ∃ timeout final,
      watchTimerNext memory = .ok timeout final ∧
        final.InOrder ∧
        TellsNext memory.clock.tick.now memory timeout := by
  unfold watchTimerNext
  rw [bind_of_ok (read_apply _ _)]
  have empty_iff := inOrder.list.listEmpty_iff
  rw [List.map_eq_nil_iff] at empty_iff
  cases empty : memory.links.listEmpty .head with
  | true =>
      exact ⟨none, memory, rfl, inOrder,
        ⟨iff_of_true rfl (empty_iff.mp empty), nofun⟩⟩
  | false =>
      have nonempty : memory.uncalled ≠ [] := fun none =>
        Bool.eq_false_iff.mp empty (empty_iff.mpr none)
      obtain ⟨first, rest, shape⟩ := List.exists_cons_of_ne_nil nonempty
      have isFirst : memory.links.next .head = .heap first := by
        have front := inOrder.list.chain.next_first
        rw [shape] at front
        exact front
      have short : memory.uncalled.length ≤ memory.heap.length := by
        have filtered := List.length_filter_le
          (fun index => decide (index ∉ memory.called.map TimerCall.index))
          (List.range memory.heap.length)
        rw [List.length_range] at filtered
        exact filtered
      obtain ⟨found, searches, isUncalled, least⟩ :=
        inOrder.earliest
          (show memory.uncalled = [] ++ memory.uncalled from rfl)
          (show first ∈ memory.uncalled by simp [shape])
          nofun
          (show memory.uncalled.length < memory.bound by
            rw [bound]
            omega)
      have front : frontNode memory.uncalled = .heap first := by
        rw [shape]
        rfl
      rw [front] at searches
      obtain ⟨timer, isTimer, looks⟩ := inOrder.entry_eq isUncalled
      have normalised := Timeval.normalised_sub
        (inOrder.deadline_normalised isUncalled)
        (Timeval.normalised_ofMicros memory.clock.tick.now)
      have micros := Timeval.micros_sub (memory.deadline found)
        (Timeval.ofMicros memory.clock.tick.now)
      rw [Timeval.micros_ofMicros] at micros
      rw [deadline_eq isTimer] at normalised micros
      rw [if_neg Bool.false_ne_true, bind_of_ok (read_apply _ _), isFirst,
        bind_of_ok searches, bind_of_ok looks]
      refine ⟨_, { memory with clock := memory.clock.tick }, rfl,
        ⟨inOrder.list, inOrder.freed, inOrder.once, inOrder.late,
          inOrder.normalised⟩,
        ⟨iff_of_false nofun nonempty, ?_⟩⟩
      rintro tv ⟨rfl⟩
      refine ⟨found, isUncalled, least, ?_⟩
      rw [deadline_eq isTimer]
      obtain ⟨lower, upper⟩ := normalised
      unfold Timeval.micros at micros ⊢
      dsimp only
      split
      · refine ⟨by decide, ?_⟩
        dsimp only
        omega
      · exact ⟨⟨lower, upper⟩, by omega⟩

/-! ## Runs of the watch loop -/

/--
An add appends one timer, which is due the given time after the clock was read
and has the given callback; it waits at the end of the list.
-/
structure Adds
    (timeoutMs : Nat)
    (cb : κ)
    (memory final : TimerMemory κ) : Prop where
  inOrder : final.InOrder
  heap :
    ∃ timer,
      final.heap = memory.heap ++ [timer] ∧
        MadeAt memory.clock.tick.now (timeoutMs, cb) timer
  uncalled : final.uncalled = memory.uncalled ++ [memory.heap.length]
  called : final.called = memory.called
  additions : final.additions = memory.additions

theorem watchTimerAdd_adds
    {memory : TimerMemory κ}
    (inOrder : memory.InOrder)
    (timeoutMs : Nat)
    (cb : κ) :
    ∃ final,
      watchTimerAdd timeoutMs cb memory = .ok () final ∧
        Adds timeoutMs cb memory final := by
  obtain ⟨final, adds, grows⟩ := watchTimerAdd_grows timeoutMs cb memory
  obtain ⟨ordered, uncalled⟩ := inOrder.grows grows
  refine ⟨final, adds,
    { inOrder := ordered
      heap := ?_
      uncalled := uncalled
      called := grows.called
      additions := grows.additions }⟩
  cases adds
  exact ⟨_, rfl, madeAt_add _ timeoutMs cb⟩

theorem step_inOrder
    {memory : TimerMemory κ}
    (inOrder : memory.InOrder)
    (action : Step κ) :
    ∃ final, step action memory = .ok () final ∧ final.InOrder := by
  cases action with
  | add timeoutMs cb =>
      obtain ⟨final, adds, added⟩ := watchTimerAdd_adds inOrder timeoutMs cb
      exact ⟨final, adds, added.inOrder⟩
  | next =>
      obtain ⟨timeout, final, tells, inOrder, _⟩ :=
        watchTimerNext_tells inOrder
      exact ⟨final, bind_of_ok tells _, inOrder⟩
  | invoke =>
      obtain ⟨final, invokes, fires⟩ := watchTimerInvoke_fires inOrder
      exact ⟨final, invokes, fires.inOrder⟩

theorem run_inOrder
    {memory : TimerMemory κ}
    (inOrder : memory.InOrder)
    (steps : List (Step κ)) :
    ∃ final, each step steps memory = .ok () final ∧ final.InOrder := by
  induction steps generalizing memory with
  | nil => exact ⟨memory, rfl, inOrder⟩
  | cons action rest inductionHypothesis =>
      obtain ⟨middle, runs, inOrder⟩ := step_inOrder inOrder action
      obtain ⟨final, runsRest, inOrder⟩ := inductionHypothesis inOrder
      exact ⟨final, (bind_of_ok runs _).trans runsRest, inOrder⟩

/--
Whatever timers are added, inside and outside of callbacks, and whatever the
clock reads: the list holds the uncalled timers in order, none was called
twice or too early, an add appends a timer with its time and its callback, a
pass calls the callbacks of exactly what has expired when it begins, and the
timeout for `select()` is the time until the earliest timer.
-/
theorem timers_fireOnce
    (clock : Clock)
    (additions : List (List (Nat × κ)))
    (steps : List (Step κ)) :
    ∃ memory,
      each step steps (start clock additions) = .ok () memory ∧
        memory.InOrder ∧
        (∀ (timeoutMs : Nat) (cb : κ), ∃ final,
          watchTimerAdd timeoutMs cb memory = .ok () final ∧
            Adds timeoutMs cb memory final) ∧
        (∃ final,
          watchTimerInvoke memory = .ok () final ∧
            Fires memory.clock.tick.now memory final) ∧
        ∃ timeout final,
          watchTimerNext memory = .ok timeout final ∧
            TellsNext memory.clock.tick.now memory timeout := by
  obtain ⟨memory, runs, inOrder⟩ :=
    run_inOrder (start_inOrder clock additions) steps
  obtain ⟨timeout, read, tells, _, isNext⟩ := watchTimerNext_tells inOrder
  exact ⟨memory, runs, inOrder, watchTimerAdd_adds inOrder,
    watchTimerInvoke_fires inOrder, timeout, read, tells, isNext⟩

/-- A timer whose callback adds another one. -/
def chainedSteps : List (Step String) :=
  [.add 0 "tick", .next, .invoke, .next]

/-- The first timer is called, and the one that it adds is waited for. -/
theorem chainedTimers_fireOnce :
    (finalState
        (each step chainedSteps
          (start ⟨0, [3, 0, 1]⟩ [[(5, "tock")]]))).called =
        [⟨0, "tick", ⟨0, 4⟩⟩] ∧
      ∃ memory,
        each step chainedSteps (start ⟨0, [3, 0, 1]⟩ [[(5, "tock")]]) =
            .ok () memory ∧
          memory.InOrder ∧
          (∀ (timeoutMs : Nat) (cb : String), ∃ final,
            watchTimerAdd timeoutMs cb memory = .ok () final ∧
              Adds timeoutMs cb memory final) ∧
          (∃ final,
            watchTimerInvoke memory = .ok () final ∧
              Fires memory.clock.tick.now memory final) ∧
          ∃ timeout final,
            watchTimerNext memory = .ok timeout final ∧
              TellsNext memory.clock.tick.now memory timeout :=
  ⟨by decide, timers_fireOnce _ _ _⟩

end TimerMemory

end Cdba
