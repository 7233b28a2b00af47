import Cdba.IntrusiveList

namespace Cdba

/-!
# Read watches in memory

The descriptor half of `watch.c`.  `watch_main_loop` adds the registered
descriptors to an `fd_set` on its stack, which it neither initialises nor
clears, and looks up every watch in what `select()` leaves there, including
the watches that callbacks register meanwhile.
-/

open Program

/-! ## The program -/

/-- The `list_head` members: the one of the list, and those of the watches. -/
inductive WatchNode where
  | head
  | heap (index : Nat)
  deriving DecidableEq, Repr

/-- Why the main loop does not go on. -/
inductive WatchStop where
  /-- `select()` or a callback failed and the loop returns. -/
  | returned
  /-- The list head is taken for a watch. -/
  | notAWatch
  /-- A bound of the model was hit; the code would still be running. -/
  | diverges
  deriving DecidableEq, Repr

/-- How `select()` ends, and with which descriptors ready. -/
inductive SelectResult where
  | ready (fds : Nat → Bool)
  /-- It fails with `EINTR`. -/
  | interrupted
  | failed

/-- What a callback does: the descriptors it registers, and how it ends. -/
structure CallbackRun where
  registers : List Nat
  quits : Bool
  fails : Bool
  deriving DecidableEq

/-- What one iteration of the main loop meets outside of its callbacks. -/
structure LoopIteration where
  quitCb : Bool
  result : SelectResult
  timers : List CallbackRun

/-- What happens to the watches, and what is asked of `select()`. -/
inductive WatchEvent where
  | register (fd : Nat)
  | select (passed reported : Nat → Bool)
  | call (watch fd : Nat)

/--
`read_watches` and the watches it links, by their allocation, with the local
variables of `watch_main_loop`.  What the callbacks do, call by call, is a
script.  `log` is not part of the program.
-/
structure WatchMemory where
  links : Links WatchNode
  heap : List Nat
  quitInvoked : Bool
  rfds : Nat → Bool
  nfds : Nat
  callbacks : List CallbackRun
  log : List WatchEvent

/-- Programs over the watches. -/
abbrev WatchM :=
  EStateM WatchStop WatchMemory

namespace WatchMemory

/-- `watch_add_readfd` -/
def watchAddReadfd (fd : Nat) : WatchM Unit :=
  update fun memory =>
    { memory with
      heap := memory.heap ++ [fd]
      links := memory.links.listAdd .head (.heap memory.heap.length)
      log := memory.log ++ [.register fd] }

/-- `w->fd` -/
def fdOf (node : WatchNode) : WatchM Nat := do
  let found ← read fun memory =>
    match node with
    | .head => none
    | .heap index => memory.heap[index]?
  match found with
  | some fd => pure fd
  | none => stop .notAWatch

/-- `nfds = MAX(nfds, w->fd); FD_SET(w->fd, &rfds)` -/
def addToSet (node : WatchNode) : WatchM Unit := do
  let fd ← fdOf node
  update fun memory =>
    { memory with
      nfds := max memory.nfds fd
      rfds := fun query => query = fd || memory.rfds query }

/-- Add all registered descriptors to the set. -/
def buildSet : WatchM Unit := do
  update fun memory => { memory with nfds := 0 }
  let fuel ← read fun memory => memory.heap.length + 1
  let first ← read fun memory => memory.links.next .head
  Links.forEachEntry WatchMemory.links .head addToSet .diverges fuel first

/--
`select(nfds + 1, &rfds, ..)`: up to `nfds` it leaves the ready descriptors of
the set, and the bits above alone; when it fails it leaves the whole set alone.
-/
def select (result : SelectResult) : WatchM Unit :=
  update fun memory =>
    match result with
    | .ready fds =>
        { memory with
          rfds := fun fd =>
            memory.rfds fd && (decide (memory.nfds < fd) || fds fd)
          log := memory.log ++
            [.select memory.rfds fun fd =>
              memory.rfds fd && (decide (fd ≤ memory.nfds) && fds fd)] }
    | _ =>
        { memory with
          log := memory.log ++ [.select memory.rfds fun _ => false] }

/-- What a callback does to the watches. -/
def runCallback (run : CallbackRun) : WatchM Unit := do
  each watchAddReadfd run.registers
  onlyIf run.quits
    (update fun memory => { memory with quitInvoked := true })

/-- `w->cb(w->fd, w->data)`, and the return from the loop if it fails. -/
def call (watch fd : Nat) : WatchM Unit := do
  update fun memory => { memory with log := memory.log ++ [.call watch fd] }
  let callbacks ← read WatchMemory.callbacks
  update fun memory => { memory with callbacks := callbacks.tail }
  let run := callbacks.headD ⟨[], false, false⟩
  runCallback run
  if run.fails then stop .returned else pure ()

/-- Call a watch if its descriptor is in the set. -/
def callIfSet (node : WatchNode) : WatchM Unit := do
  let fd ← fdOf node
  let isSet ← read fun memory => memory.rfds fd
  match node with
  | .head => pure ()
  | .heap index => onlyIf isSet (call index fd)

/-- How many watches the callbacks will register. -/
def budget (memory : WatchMemory) : Nat :=
  (memory.callbacks.flatMap CallbackRun.registers).length

/-- Call all watches whose descriptors are in the set. -/
def dispatch : WatchM Unit := do
  let fuel ← read fun memory => memory.heap.length + memory.budget + 1
  let first ← read fun memory => memory.links.next .head
  Links.forEachEntry WatchMemory.links .head callIfSet .diverges fuel first

/-- One iteration of the main loop that is not the last. -/
def iteration (met : LoopIteration) : WatchM Unit := do
  buildSet
  select met.result
  match met.result with
  | .ready _ => do
      each runCallback met.timers
      dispatch
  | .interrupted => pure ()
  | .failed => stop .returned

/-- `watch_main_loop(quit_cb)` -/
def watchMainLoop : List LoopIteration → WatchM Unit
  | [] => pure ()
  | met :: rest => do
      let quitting ← read WatchMemory.quitInvoked
      if quitting || met.quitCb then
        pure ()
      else do
        iteration met
        watchMainLoop rest

/-- Register some descriptors, and then run the main loop. -/
def session (fds : List Nat) (iterations : List LoopIteration) :
    WatchM Unit := do
  each watchAddReadfd fds
  watchMainLoop iterations

/-- No watch is registered; `rfds` is whatever the stack holds. -/
def start (rfds : Nat → Bool) (callbacks : List CallbackRun) :
    WatchMemory where
  links := .init
  heap := []
  quitInvoked := false
  rfds := rfds
  nfds := 0
  callbacks := callbacks
  log := []

/-- What is logged in such a session. -/
def sessionLog
    (rfds : Nat → Bool)
    (fds : List Nat)
    (callbacks : List CallbackRun)
    (iterations : List LoopIteration) :
    List WatchEvent :=
  (finalState (session fds iterations (start rfds callbacks))).log

end WatchMemory

/-! ## What a log says -/

namespace WatchEvent

/-- The descriptor of a registration. -/
def registered? : WatchEvent → Option Nat
  | .register fd => some fd
  | _ => none

/-- What a `select()` has reported. -/
def reported? : WatchEvent → Option (Nat → Bool)
  | .select _ reported => some reported
  | _ => none

end WatchEvent

/-- The descriptors that were registered, by the allocation of their watches. -/
def registeredFds (log : List WatchEvent) : List Nat :=
  log.filterMap WatchEvent.registered?

/-- The last `select()` of a log: what was logged before it, and what it reported. -/
def LastSelect
    (log early : List WatchEvent)
    (reported : Nat → Bool) :
    Prop :=
  ∃ passed later,
    log = early ++ .select passed reported :: later ∧
      ∀ event, event ∈ later → event.reported? = none

/-- Something holds of every event, given the ones before it. -/
def Everywhere
    (holds : List WatchEvent → WatchEvent → Prop)
    (log : List WatchEvent) :
    Prop :=
  ∀ before event after,
    log = before ++ event :: after → holds before event

/-- A `select()` is passed exactly the registered descriptors. -/
def SelectsRegistered (before : List WatchEvent) : WatchEvent → Prop
  | .select passed _ =>
      ∀ fd, passed fd = true ↔ fd ∈ registeredFds before
  | _ => True

/--
A callback runs for a descriptor that the last `select()` has reported, and
its watch was registered before that.
-/
def CallsReported (before : List WatchEvent) : WatchEvent → Prop
  | .call watch fd =>
      ∃ early reported,
        LastSelect before early reported ∧
          reported fd = true ∧
          (registeredFds early)[watch]? = some fd
  | _ => True

/-- No descriptor is registered that the last `select()` has reported. -/
def RegistersUnreported (before : List WatchEvent) : WatchEvent → Prop
  | .register fd =>
      ∀ early reported,
        LastSelect before early reported → reported fd = false
  | _ => True

/-- Every `select()` and every call was in order. -/
structure LogInOrder (log : List WatchEvent) : Prop where
  selects : Everywhere SelectsRegistered log
  calls : Everywhere CallsReported log

theorem everywhere_nil
    (holds : List WatchEvent → WatchEvent → Prop) :
    Everywhere holds [] := by
  intro before event after shape
  simp at shape

theorem everywhere_concat
    {holds : List WatchEvent → WatchEvent → Prop}
    {log : List WatchEvent}
    {event : WatchEvent} :
    Everywhere holds (log ++ [event]) ↔
      Everywhere holds log ∧ holds log event := by
  constructor
  · intro everywhere
    refine ⟨fun before found after shape => ?_, everywhere log event [] rfl⟩
    exact everywhere before found (after ++ [event]) (by
      rw [shape, List.append_assoc, List.cons_append])
  · rintro ⟨everywhere, last⟩ before found after shape
    rcases List.eq_nil_or_concat after with rfl | ⟨front, final, rfl⟩
    · obtain ⟨rfl, same⟩ := List.append_inj' shape rfl
      cases same
      exact last
    · rw [List.concat_eq_append, ← List.cons_append, ← List.append_assoc]
        at shape
      obtain ⟨rfl, _⟩ := List.append_inj' shape rfl
      exact everywhere before found front rfl

/-- The same, from the front. -/
theorem everywhere_cons
    {holds : List WatchEvent → WatchEvent → Prop}
    {log : List WatchEvent}
    {event : WatchEvent} :
    Everywhere holds (event :: log) ↔
      holds [] event ∧
        Everywhere (fun before => holds (event :: before)) log := by
  constructor
  · intro everywhere
    refine ⟨everywhere [] event log rfl, fun before found after shape => ?_⟩
    exact everywhere (event :: before) found after (by rw [shape]; rfl)
  · rintro ⟨first, everywhere⟩ before found after shape
    cases before with
    | nil =>
        cases shape
        exact first
    | cons other before =>
        cases shape
        exact everywhere before found after rfl

/-- The last `select()` is the one found from the end of the log. -/
theorem LastSelect.findSome
    {log early : List WatchEvent}
    {reported : Nat → Bool}
    (lastSelect : LastSelect log early reported) :
    log.reverse.findSome? WatchEvent.reported? = some reported := by
  obtain ⟨passed, later, rfl, noSelect⟩ := lastSelect
  have none : later.reverse.findSome? WatchEvent.reported? = none := by
    rw [List.findSome?_eq_none_iff]
    intro event member
    exact noSelect event (List.mem_reverse.mp member)
  rw [List.reverse_append, List.reverse_cons, List.append_assoc,
    List.findSome?_append, none]
  rfl

theorem LastSelect.concat
    {log early : List WatchEvent}
    {reported : Nat → Bool}
    {event : WatchEvent}
    (lastSelect : LastSelect log early reported)
    (other : event.reported? = none) :
    LastSelect (log ++ [event]) early reported := by
  obtain ⟨passed, later, rfl, noSelect⟩ := lastSelect
  refine ⟨passed, later ++ [event], by simp, ?_⟩
  intro found member
  rcases List.mem_append.mp member with old | new
  · exact noSelect found old
  · rw [List.mem_singleton.mp new]
    exact other

/--
When registrations are unreported, a watch whose descriptor was reported had
been registered before.
-/
theorem LastSelect.registered
    {log early : List WatchEvent}
    {reported : Nat → Bool}
    {watch fd : Nat}
    (lastSelect : LastSelect log early reported)
    (unreported : Everywhere RegistersUnreported log)
    (found : (registeredFds log)[watch]? = some fd)
    (isReported : reported fd = true) :
    (registeredFds early)[watch]? = some fd := by
  obtain ⟨passed, later, rfl, noSelect⟩ := lastSelect
  have split :
      registeredFds (early ++ .select passed reported :: later) =
        registeredFds early ++ registeredFds later := by
    rw [registeredFds, List.filterMap_append]
    rfl
  rw [split] at found
  rcases Nat.lt_or_ge watch (registeredFds early).length with
    inside | outside
  · rwa [List.getElem?_append_left inside] at found
  · rw [List.getElem?_append_right outside] at found
    obtain ⟨event, isLater, isRegistered⟩ :=
      List.mem_filterMap.mp (List.mem_of_getElem? found)
    obtain ⟨between, after, rfl⟩ := List.append_of_mem isLater
    cases event with
    | register other =>
        cases isRegistered
        have notReported := unreported
          (early ++ .select passed reported :: between) (.register fd) after
          (by simp) early reported
          ⟨passed, between, rfl, fun event member =>
            noSelect event (List.mem_append_left _ member)⟩
        rw [isReported] at notReported
        contradiction
    | select passed reported => contradiction
    | call watch fd => contradiction

namespace WatchMemory

/-! ## Between two steps -/

/-- The list holds all watches in the order of their registration. -/
structure Watching (memory : WatchMemory) : Prop where
  list :
    memory.links.Represents .head
      ((List.range memory.heap.length).map .heap)
  heap : registeredFds memory.log = memory.heap
  inOrder :
    Everywhere RegistersUnreported memory.log → LogInOrder memory.log

/-- Between iterations: only registered descriptors are in the set. -/
structure Calm (memory : WatchMemory) : Prop where
  watching : memory.Watching
  registered : ∀ fd, memory.rfds fd = true → fd ∈ memory.heap

/-- Before a `select()`: exactly the registered descriptors are in the set. -/
structure Built (memory : WatchMemory) : Prop where
  watching : memory.Watching
  registered : ∀ fd, memory.rfds fd = true ↔ fd ∈ memory.heap
  bound : ∀ fd, fd ∈ memory.heap → fd ≤ memory.nfds

/-- After a `select()`: only descriptors that it has reported are in the set. -/
structure Reporting
    (early : List WatchEvent)
    (reported : Nat → Bool)
    (memory : WatchMemory) :
    Prop where
  calm : memory.Calm
  reports : ∀ fd, memory.rfds fd = true → reported fd = true
  lastSelect : LastSelect memory.log early reported

/-- However the loop is left, the log is in order. -/
def EndsInOrder (_ : WatchStop) (memory : WatchMemory) : Prop :=
  Everywhere RegistersUnreported memory.log → LogInOrder memory.log

/-! ## Registering watches -/

/-- What registering a watch leads to. -/
def registering (fd : Nat) (memory : WatchMemory) : WatchMemory :=
  { memory with
    heap := memory.heap ++ [fd]
    links := memory.links.listAdd .head (.heap memory.heap.length)
    log := memory.log ++ [.register fd] }

theorem Watching.registering
    {memory : WatchMemory}
    (watching : memory.Watching)
    (fd : Nat) :
    (memory.registering fd).Watching where
  list := by
    have fresh :
        WatchNode.heap memory.heap.length ∉
          WatchNode.head :: (List.range memory.heap.length).map .heap := by
      simp
    change (memory.links.listAdd .head (.heap memory.heap.length)).Represents
      .head ((List.range (memory.heap ++ [fd]).length).map .heap)
    rw [List.length_append, List.length_singleton, List.range_succ,
      List.map_append]
    exact watching.list.listAdd fresh
  heap := by
    simp [WatchMemory.registering, registeredFds, ← watching.heap,
      WatchEvent.registered?]
  inOrder := by
    intro unreported
    have inOrder := watching.inOrder (everywhere_concat.mp unreported).1
    exact
      { selects := everywhere_concat.mpr ⟨inOrder.selects, trivial⟩
        calls := everywhere_concat.mpr ⟨inOrder.calls, trivial⟩ }

theorem Reporting.registering
    {early : List WatchEvent}
    {reported : Nat → Bool}
    {memory : WatchMemory}
    (reporting : Reporting early reported memory)
    (fd : Nat) :
    Reporting early reported (memory.registering fd) where
  calm :=
    { watching := reporting.calm.watching.registering fd
      registered := fun other isSet =>
        List.mem_append_left _ (reporting.calm.registered other isSet) }
  reports := reporting.reports
  lastSelect := reporting.lastSelect.concat rfl

/-- The state after some registrations. -/
def registeringAll (fds : List Nat) (memory : WatchMemory) : WatchMemory :=
  fds.foldl (fun memory fd => memory.registering fd) memory

theorem each_watchAddReadfd
    (fds : List Nat)
    (memory : WatchMemory) :
    each watchAddReadfd fds memory = .ok () (memory.registeringAll fds) := by
  induction fds generalizing memory with
  | nil => rfl
  | cons fd rest inductionHypothesis =>
      exact inductionHypothesis (memory.registering fd)

theorem Watching.registeringAll
    {memory : WatchMemory}
    (watching : memory.Watching)
    (fds : List Nat) :
    (memory.registeringAll fds).Watching := by
  induction fds generalizing memory with
  | nil => exact watching
  | cons fd rest inductionHypothesis =>
      exact inductionHypothesis (watching.registering fd)

theorem Reporting.registeringAll
    {early : List WatchEvent}
    {reported : Nat → Bool}
    {memory : WatchMemory}
    (reporting : Reporting early reported memory)
    (fds : List Nat) :
    Reporting early reported (memory.registeringAll fds) := by
  induction fds generalizing memory with
  | nil => exact reporting
  | cons fd rest inductionHypothesis =>
      exact inductionHypothesis (reporting.registering fd)

/-- Registrations only make the list longer. -/
theorem registeringAll_keeps
    (fds : List Nat)
    (memory : WatchMemory) :
    (memory.registeringAll fds).heap = memory.heap ++ fds ∧
      (memory.registeringAll fds).rfds = memory.rfds ∧
      (memory.registeringAll fds).callbacks = memory.callbacks := by
  induction fds generalizing memory with
  | nil => exact ⟨(List.append_nil _).symm, rfl, rfl⟩
  | cons fd rest inductionHypothesis =>
      obtain ⟨heap, rfds, callbacks⟩ :=
        inductionHypothesis (memory.registering fd)
      refine ⟨heap.trans ?_, rfds, callbacks⟩
      exact List.append_assoc memory.heap [fd] rest

/-- A callback registers its watches, and may ask the loop to end. -/
theorem Reporting.runCallback
    {early : List WatchEvent}
    {reported : Nat → Bool}
    {memory : WatchMemory}
    (reporting : Reporting early reported memory)
    (run : CallbackRun) :
    ∃ final,
      WatchMemory.runCallback run memory = .ok () final ∧
        Reporting early reported final ∧
        final.heap = memory.heap ++ run.registers ∧
        final.callbacks = memory.callbacks := by
  have registered := reporting.registeringAll run.registers
  obtain ⟨heap, _, callbacks⟩ := registeringAll_keeps run.registers memory
  unfold WatchMemory.runCallback
  rw [bind_of_ok (each_watchAddReadfd _ _)]
  cases run.quits with
  | false => exact ⟨_, rfl, registered, heap, callbacks⟩
  | true =>
      have calm := registered.calm
      have quitting :
          Reporting early reported
            { memory.registeringAll run.registers with
              quitInvoked := true } :=
        { calm :=
            { watching :=
                { list := calm.watching.list
                  heap := calm.watching.heap
                  inOrder := calm.watching.inOrder }
              registered := calm.registered }
          reports := registered.reports
          lastSelect := registered.lastSelect }
      exact ⟨_, rfl, quitting, heap, callbacks⟩

/-! ## Building the set -/

theorem fdOf_eq
    {memory : WatchMemory}
    {index fd : Nat}
    (found : memory.heap[index]? = some fd) :
    fdOf (.heap index) memory = .ok fd memory := by
  unfold fdOf
  rw [bind_of_ok (read_apply _ _)]
  simp only [found]
  rfl

/-- While the set is built: the descriptors of the watches passed are in it. -/
structure Building
    (begun : WatchMemory)
    (before items : List WatchNode)
    (memory : WatchMemory) :
    Prop where
  same :
    memory =
      { begun with rfds := memory.rfds, nfds := memory.nfds }
  nodes :
    before ++ items = (List.range begun.heap.length).map .heap
  bits :
    ∀ fd,
      memory.rfds fd = true ↔
        begun.rfds fd = true ∨
          ∃ index,
            .heap index ∈ before ∧ begun.heap[index]? = some fd
  bound :
    ∀ index fd,
      .heap index ∈ before → begun.heap[index]? = some fd →
        fd ≤ memory.nfds

theorem Building.addToSet
    {begun memory : WatchMemory}
    {before rest : List WatchNode}
    {item : WatchNode}
    (building : Building begun before (item :: rest) memory) :
    ∃ final,
      WatchMemory.addToSet item memory = .ok () final ∧
        Building begun (before ++ [item]) rest final := by
  have isNode :
      item ∈ (List.range begun.heap.length).map WatchNode.heap := by
    rw [← building.nodes]
    simp
  obtain ⟨index, member, rfl⟩ := List.mem_map.mp isNode
  obtain ⟨watched, found⟩ :
      ∃ fd, begun.heap[index]? = some fd :=
    ⟨_, List.getElem?_eq_getElem (List.mem_range.mp member)⟩
  have looks :
      fdOf (.heap index) memory = .ok watched memory := by
    rw [building.same]
    exact fdOf_eq found
  refine ⟨_, bind_of_ok looks _,
    { same := ?_, nodes := ?_, bits := ?_, bound := ?_ }⟩
  · rw [building.same]
  · rw [← building.nodes, List.append_assoc, List.singleton_append]
  · intro fd
    simp only [Bool.or_eq_true, decide_eq_true_eq, building.bits fd,
      List.mem_append, List.mem_singleton, WatchNode.heap.injEq]
    constructor
    · rintro (rfl | old | ⟨other, passed, isFd⟩)
      · exact .inr ⟨index, .inr rfl, found⟩
      · exact .inl old
      · exact .inr ⟨other, .inl passed, isFd⟩
    · rintro (old | ⟨other, passed | rfl, isFd⟩)
      · exact .inr (.inl old)
      · exact .inr (.inr ⟨other, passed, isFd⟩)
      · rw [found] at isFd
        cases isFd
        exact .inl rfl
  · intro other fd passed isFd
    rcases List.mem_append.mp passed with old | new
    · apply Nat.le_trans (building.bound other fd old isFd)
      exact Nat.le_max_left _ _
    · cases List.mem_singleton.mp new
      rw [found] at isFd
      cases isFd
      exact Nat.le_max_right _ _

/-- Once all watches are passed, the set holds the registered descriptors. -/
theorem Building.built
    {memory final : WatchMemory}
    {passed : List WatchNode}
    (calm : memory.Calm)
    (building : Building { memory with nfds := 0 } passed [] final) :
    final.Built := by
  have nodes := building.nodes
  rw [List.append_nil] at nodes
  have everyFd :
      ∀ fd,
        fd ∈ memory.heap ↔
          ∃ index, .heap index ∈ passed ∧ memory.heap[index]? = some fd := by
    intro fd
    rw [List.mem_iff_getElem?, nodes]
    constructor
    · rintro ⟨index, isFd⟩
      have inside := (List.getElem?_eq_some_iff.mp isFd).1
      exact ⟨index, by simpa using inside, isFd⟩
    · rintro ⟨index, _, isFd⟩
      exact ⟨index, isFd⟩
  rw [building.same]
  refine
    { watching :=
        { list := calm.watching.list
          heap := calm.watching.heap
          inOrder := calm.watching.inOrder }
      registered := ?_
      bound := ?_ }
  · intro fd
    change final.rfds fd = true ↔ fd ∈ memory.heap
    rw [building.bits fd, ← everyFd fd]
    exact or_iff_right_of_imp (calm.registered fd)
  · intro fd member
    obtain ⟨index, isPassed, isFd⟩ := (everyFd fd).mp member
    exact building.bound index fd isPassed isFd

/-- The set is built from what was in it and all registered descriptors. -/
theorem Calm.buildSet
    {memory : WatchMemory}
    (calm : memory.Calm) :
    KeepsAt Built EndsInOrder WatchMemory.buildSet memory := by
  have nothingYet :
      Building { memory with nfds := 0 } []
        ((List.range memory.heap.length).map .heap)
        { memory with nfds := 0 } :=
    ⟨rfl, rfl, by simp, by simp⟩
  have pass :
      KeepsAt
        (fun final =>
          ∃ passed, Building { memory with nfds := 0 } passed [] final)
        EndsInOrder
        (Links.forEachEntry WatchMemory.links .head WatchMemory.addToSet
          .diverges (memory.heap.length + 1) (memory.links.next .head))
        { memory with nfds := 0 } := by
    refine Links.forEachEntry_pass (Building { memory with nfds := 0 })
      (fun _ => 0) ?_ ?_ nothingYet (by simp) ?_
    · intro before items state building
      rw [building.nodes, building.same]
      exact calm.watching.list
    · intro before item rest state building
      obtain ⟨final, adds, building'⟩ := building.addToSet
      refine .of_ok adds ⟨[], ?_, Nat.le_refl _⟩
      rw [List.append_nil]
      exact building'
    · exact calm.watching.list.chain.next_first
  apply pass.mono
  · rintro final ⟨passed, building⟩
    exact building.built calm
  · intro reason final inOrder
    exact inOrder

/-! ## One iteration -/

/-- The set that is passed holds the registered descriptors. -/
theorem Built.selects
    {memory : WatchMemory}
    {reported : Nat → Bool}
    (built : memory.Built)
    (unreported :
      Everywhere RegistersUnreported
        (memory.log ++ [.select memory.rfds reported])) :
    LogInOrder (memory.log ++ [.select memory.rfds reported]) := by
  have inOrder :=
    built.watching.inOrder (everywhere_concat.mp unreported).1
  have exact :
      SelectsRegistered memory.log (.select memory.rfds reported) := by
    intro fd
    rw [built.watching.heap]
    exact built.registered fd
  exact
    { selects := everywhere_concat.mpr ⟨inOrder.selects, exact⟩
      calls := everywhere_concat.mpr ⟨inOrder.calls, trivial⟩ }

/-- No registered descriptor is above `nfds`, so all non-ready bits go. -/
theorem Built.select_ready
    {memory : WatchMemory}
    (built : memory.Built)
    (fds : Nat → Bool) :
    ∃ reported final,
      select (.ready fds) memory = .ok () final ∧
        Reporting memory.log reported final := by
  refine ⟨_, _, rfl,
    { calm :=
        { watching :=
            { list := built.watching.list
              heap := ?_
              inOrder := built.selects }
          registered := ?_ }
      reports := ?_
      lastSelect := ⟨_, [], rfl, by simp⟩ }⟩
  · change registeredFds (memory.log ++ _) = memory.heap
    rw [← built.watching.heap, registeredFds, List.filterMap_append]
    exact List.append_nil _
  · intro fd isSet
    exact (built.registered fd).mp (Bool.and_eq_true_iff.mp isSet).1
  · intro fd isSet
    obtain ⟨passed, leaves⟩ := Bool.and_eq_true_iff.mp isSet
    have below := built.bound fd ((built.registered fd).mp passed)
    have isReady : fds fd = true := by
      simpa [Nat.not_lt.mpr below] using leaves
    simp [passed, below, isReady]

theorem Built.select_fails
    {memory : WatchMemory}
    {result : SelectResult}
    (built : memory.Built)
    (fails : ∀ fds, result ≠ .ready fds) :
    ∃ final, select result memory = .ok () final ∧ final.Calm := by
  have heap :
      ∀ reported,
        registeredFds (memory.log ++ [.select memory.rfds reported]) =
          memory.heap := by
    intro reported
    rw [← built.watching.heap, registeredFds, List.filterMap_append]
    exact List.append_nil _
  have calm :
      Calm
        { memory with
          log := memory.log ++ [.select memory.rfds fun _ => false] } :=
    { watching :=
        { list := built.watching.list
          heap := heap _
          inOrder := built.selects }
      registered := fun fd => (built.registered fd).mp }
  cases result with
  | ready fds => exact absurd rfl (fails fds)
  | interrupted => exact ⟨_, rfl, calm⟩
  | failed => exact ⟨_, rfl, calm⟩

/-- A watch is called whose descriptor was reported. -/
theorem Reporting.called
    {early : List WatchEvent}
    {reported : Nat → Bool}
    {memory : WatchMemory}
    {index fd : Nat}
    (reporting : Reporting early reported memory)
    (found : memory.heap[index]? = some fd)
    (isSet : memory.rfds fd = true) :
    Reporting early reported
      { memory with
        log := memory.log ++ [.call index fd]
        callbacks := memory.callbacks.tail } where
  calm :=
    { watching :=
        { list := reporting.calm.watching.list
          heap := by
            rw [← reporting.calm.watching.heap, registeredFds,
              List.filterMap_append]
            exact List.append_nil _
          inOrder := by
            intro unreported
            have earlier := (everywhere_concat.mp unreported).1
            have inOrder := reporting.calm.watching.inOrder earlier
            have isReported := reporting.reports fd isSet
            rw [← reporting.calm.watching.heap] at found
            have before :=
              reporting.lastSelect.registered earlier found isReported
            have called : CallsReported memory.log (.call index fd) :=
              ⟨early, reported, reporting.lastSelect, isReported, before⟩
            exact
              { selects := everywhere_concat.mpr ⟨inOrder.selects, trivial⟩
                calls := everywhere_concat.mpr ⟨inOrder.calls, called⟩ } }
      registered := reporting.calm.registered }
  reports := reporting.reports
  lastSelect := reporting.lastSelect.concat rfl

/-- While watches are called: those left are the last ones of the list. -/
structure Dispatching
    (early : List WatchEvent)
    (reported : Nat → Bool)
    (before items : List WatchNode)
    (memory : WatchMemory) :
    Prop where
  reporting : Reporting early reported memory
  nodes :
    before ++ items = (List.range memory.heap.length).map .heap

theorem Dispatching.next
    {early : List WatchEvent}
    {reported : Nat → Bool}
    {before rest : List WatchNode}
    {item : WatchNode}
    {memory final : WatchMemory}
    {registers : List Nat}
    (dispatching : Dispatching early reported before (item :: rest) memory)
    (reporting : Reporting early reported final)
    (heap : final.heap = memory.heap ++ registers) :
    ∃ added,
      added.length = registers.length ∧
        Dispatching early reported (before ++ [item]) (rest ++ added)
          final := by
  refine
    ⟨(List.range' memory.heap.length registers.length).map .heap, ?_,
      { reporting := reporting
        nodes := ?_ }⟩
  · rw [List.length_map, List.length_range']
  · have nodes := dispatching.nodes
    rw [heap, List.length_append, List.range_add, List.map_append, ← nodes,
      List.append_assoc, List.append_assoc, List.singleton_append,
      List.cons_append, List.range'_eq_map_range]

/-- A callback pays for the watches it registers out of the budget. -/
theorem Reporting.call
    {early : List WatchEvent}
    {reported : Nat → Bool}
    {memory : WatchMemory}
    {index fd : Nat}
    (reporting : Reporting early reported memory)
    (found : memory.heap[index]? = some fd)
    (isSet : memory.rfds fd = true) :
    KeepsAt
      (fun final =>
        Reporting early reported final ∧
          ∃ registers,
            final.heap = memory.heap ++ registers ∧
              registers.length + final.budget ≤ memory.budget)
      EndsInOrder (WatchMemory.call index fd) memory := by
  obtain ⟨final, runs, kept, heap, callbacks⟩ :=
    (reporting.called found isSet).runCallback
      (memory.callbacks.headD ⟨[], false, false⟩)
  apply KeepsAt.update
  apply KeepsAt.read
  apply KeepsAt.update
  have ran :
      KeepsAt (fun middle => middle = final) EndsInOrder
        (WatchMemory.runCallback
          (memory.callbacks.headD ⟨[], false, false⟩))
        { memory with
          log := memory.log ++ [.call index fd]
          callbacks := memory.callbacks.tail } :=
    .of_ok runs rfl
  apply ran.seq
  rintro _ middle _ rfl
  cases (memory.callbacks.headD ⟨[], false, false⟩).fails with
  | false =>
      refine ⟨kept, _, heap, ?_⟩
      rw [budget, budget, callbacks]
      cases memory.callbacks with
      | nil => exact Nat.le_refl _
      | cons run later => exact Nat.le_of_eq List.length_append.symm
  | true => exact kept.calm.watching.inOrder

/-- Visiting a watch calls it only if its descriptor was reported. -/
theorem Dispatching.callIfSet
    {early : List WatchEvent}
    {reported : Nat → Bool}
    {before rest : List WatchNode}
    {item : WatchNode}
    {memory : WatchMemory}
    (dispatching : Dispatching early reported before (item :: rest) memory) :
    KeepsAt
      (fun final =>
        ∃ added,
          Dispatching early reported (before ++ [item]) (rest ++ added)
              final ∧
            added.length + final.budget ≤ memory.budget)
      EndsInOrder (WatchMemory.callIfSet item) memory := by
  have isNode :
      item ∈ (List.range memory.heap.length).map WatchNode.heap := by
    rw [← dispatching.nodes]
    simp
  obtain ⟨index, member, rfl⟩ := List.mem_map.mp isNode
  obtain ⟨fd, found⟩ : ∃ fd, memory.heap[index]? = some fd :=
    ⟨_, List.getElem?_eq_getElem (List.mem_range.mp member)⟩
  unfold WatchMemory.callIfSet KeepsAt
  rw [bind_of_ok (fdOf_eq found), bind_of_ok (read_apply _ _)]
  cases isSet : memory.rfds fd with
  | false =>
      obtain ⟨added, none, next⟩ := dispatching.next dispatching.reporting
        (List.append_nil _).symm
      refine ⟨added, next, ?_⟩
      simp only [none, List.length_nil, Nat.zero_add, Nat.le_refl]
  | true =>
      apply (dispatching.reporting.call found isSet).mono
      · rintro final ⟨reporting, registers, heap, paid⟩
        obtain ⟨added, length, next⟩ := dispatching.next reporting heap
        exact ⟨added, next, length ▸ paid⟩
      · intro reason final inOrder
        exact inOrder

/-- Only watches whose descriptors were reported are called. -/
theorem Reporting.dispatch
    {early : List WatchEvent}
    {reported : Nat → Bool}
    {memory : WatchMemory}
    (reporting : Reporting early reported memory) :
    KeepsAt Calm EndsInOrder WatchMemory.dispatch memory := by
  have all :
      Dispatching early reported []
        ((List.range memory.heap.length).map .heap) memory :=
    { reporting := reporting
      nodes := rfl }
  apply KeepsAt.read
  apply KeepsAt.read
  have pass :
      KeepsAt
        (fun final =>
          ∃ passed, Dispatching early reported passed [] final)
        EndsInOrder
        (Links.forEachEntry WatchMemory.links .head WatchMemory.callIfSet
          .diverges (memory.heap.length + memory.budget + 1)
          (memory.links.next .head))
        memory := by
    refine Links.forEachEntry_pass (Dispatching early reported) budget
      ?_ ?_ all ?_ ?_
    · intro before items state dispatching
      rw [dispatching.nodes]
      exact dispatching.reporting.calm.watching.list
    · intro before item rest state dispatching
      exact dispatching.callIfSet
    · rw [List.length_map, List.length_range]
      exact Nat.lt_succ_self _
    · exact reporting.calm.watching.list.chain.next_first
  apply pass.mono
  · rintro final ⟨passed, dispatching⟩
    exact dispatching.reporting.calm
  · intro reason final inOrder
    exact inOrder

/-- The callbacks of timers come between the `select()` and the watches. -/
theorem Reporting.timers
    {early : List WatchEvent}
    {reported : Nat → Bool}
    (timers : List CallbackRun) :
    Keeps (Reporting early reported) EndsInOrder
      (each WatchMemory.runCallback timers) := by
  apply Keeps.each
  intro run memory reporting
  obtain ⟨final, runs, kept, _⟩ := reporting.runCallback run
  exact .of_ok runs kept

theorem Calm.iteration
    (met : LoopIteration) :
    Keeps Calm EndsInOrder (WatchMemory.iteration met) := by
  intro memory calm
  apply calm.buildSet.seq
  intro _ middle _ built
  cases result : met.result with
  | ready fds =>
      obtain ⟨reported, final, selects, reporting⟩ := built.select_ready fds
      apply KeepsAt.seq (.of_ok selects reporting)
      intro _ state _ reporting
      apply (Reporting.timers met.timers state reporting).seq
      intro _ state _ reporting
      exact reporting.dispatch
  | interrupted =>
      obtain ⟨final, selects, calm⟩ :=
        built.select_fails (show ∀ fds, .interrupted ≠ SelectResult.ready fds
          by simp)
      apply KeepsAt.seq (.of_ok selects calm)
      intro _ state _ calm
      exact calm
  | failed =>
      obtain ⟨final, selects, calm⟩ :=
        built.select_fails (show ∀ fds, .failed ≠ SelectResult.ready fds
          by simp)
      apply KeepsAt.seq (.of_ok selects calm)
      intro _ state _ calm
      exact calm.watching.inOrder

theorem Calm.watchMainLoop
    (iterations : List LoopIteration) :
    Keeps Calm EndsInOrder (WatchMemory.watchMainLoop iterations) := by
  induction iterations with
  | nil =>
      exact .pure ()
  | cons met rest inductionHypothesis =>
      intro memory calm
      apply KeepsAt.read
      split
      · exact calm
      · apply (Calm.iteration met memory calm).bind
        intro _ middle _ calm
        exact inductionHypothesis middle calm

theorem Watching.start
    (rfds : Nat → Bool)
    (callbacks : List CallbackRun) :
    (WatchMemory.start rfds callbacks).Watching where
  list := Links.represents_init _
  heap := rfl
  inOrder := fun _ => ⟨everywhere_nil _, everywhere_nil _⟩

end WatchMemory

/-! ## All sessions -/

/--
When the stack holds no bit of another descriptor and no descriptor is
registered that was just reported, each `select()` is asked about the
registered descriptors, and watches run for what it reports.
-/
theorem watchMainLoop_callsReported
    (rfds : Nat → Bool)
    (fds : List Nat)
    (callbacks : List CallbackRun)
    (iterations : List LoopIteration)
    (onlyRegistered : ∀ fd, rfds fd = true → fd ∈ fds)
    (unreported :
      Everywhere RegistersUnreported
        (WatchMemory.sessionLog rfds fds callbacks iterations)) :
    Everywhere SelectsRegistered
        (WatchMemory.sessionLog rfds fds callbacks iterations) ∧
      Everywhere CallsReported
        (WatchMemory.sessionLog rfds fds callbacks iterations) := by
  let begun := (WatchMemory.start rfds callbacks).registeringAll fds
  have watching : begun.Watching :=
    (WatchMemory.Watching.start rfds callbacks).registeringAll fds
  obtain ⟨heap, set, _⟩ :=
    WatchMemory.registeringAll_keeps fds (.start rfds callbacks)
  have calm : begun.Calm :=
    { watching := watching
      registered := by
        rw [heap, set]
        exact onlyRegistered }
  have kept := WatchMemory.Calm.watchMainLoop iterations begun calm
  have ends := kept.mono (fun final calm => calm.watching.inOrder)
    (fun reason final inOrder => inOrder)
  have inOrder := ends.final
    (fun final : WatchMemory =>
      Everywhere RegistersUnreported final.log → LogInOrder final.log)
  have log :
      WatchMemory.sessionLog rfds fds callbacks iterations =
        (finalState (WatchMemory.watchMainLoop iterations begun)).log := by
    rw [WatchMemory.sessionLog, WatchMemory.session,
      bind_of_ok (WatchMemory.each_watchAddReadfd _ _)]
  rw [log] at unreported ⊢
  have kept := inOrder unreported
  exact ⟨kept.selects, kept.calls⟩

/--
With a clean stack the watch of descriptor 5 that the callback of descriptor 0
registers is only called in the next iteration.
-/
theorem laterWatch_callsReported :
    (∃ second passed reported,
      WatchMemory.sessionLog (fun _ => false) [0]
          [⟨[5], false, false⟩]
          [⟨false, .ready fun fd => fd = 0, []⟩,
            ⟨false, .ready fun fd => fd = 5, []⟩] =
        [.register 0, .select passed reported, .call 0 0, .register 5, second,
          .call 1 5]) ∧
      Everywhere SelectsRegistered
        (WatchMemory.sessionLog (fun _ => false) [0]
          [⟨[5], false, false⟩]
          [⟨false, .ready fun fd => fd = 0, []⟩,
            ⟨false, .ready fun fd => fd = 5, []⟩]) ∧
      Everywhere CallsReported
        (WatchMemory.sessionLog (fun _ => false) [0]
          [⟨[5], false, false⟩]
          [⟨false, .ready fun fd => fd = 0, []⟩,
            ⟨false, .ready fun fd => fd = 5, []⟩]) := by
  obtain ⟨second, passed, reported, log, isSelect, unreported⟩ :
      ∃ second passed reported,
        WatchMemory.sessionLog (fun _ => false) [0] [⟨[5], false, false⟩]
            [⟨false, .ready fun fd => fd = 0, []⟩,
              ⟨false, .ready fun fd => fd = 5, []⟩] =
          [.register 0, .select passed reported, .call 0 0, .register 5,
            second, .call 1 5] ∧
          second.registered? = none ∧
          reported 5 = false :=
    ⟨_, _, _, rfl, rfl, rfl⟩
  refine ⟨⟨second, passed, reported, log⟩, ?_⟩
  apply watchMainLoop_callsReported
  · simp
  · rw [log]
    simp only [everywhere_cons, RegistersUnreported, true_and]
    refine ⟨?_, ?_, ?_⟩
    · intro early found lastSelect
      have none := lastSelect.findSome
      contradiction
    · intro early found lastSelect
      cases lastSelect.findSome
      exact unreported
    · cases second with
      | register fd => contradiction
      | select passed reported => exact ⟨trivial, everywhere_nil _⟩
      | call watch fd => exact ⟨trivial, everywhere_nil _⟩

/--
With bit 64 on the stack, which is no registered descriptor, the watch that the
callback of descriptor 0 registers for it is called in the same iteration.
-/
theorem garbageWatch_calledUnreported :
    ¬ Everywhere SelectsRegistered
          (WatchMemory.sessionLog (fun fd => fd = 64) [0]
            [⟨[64], false, false⟩] [⟨false, .ready fun fd => fd = 0, []⟩]) ∧
      ¬ Everywhere CallsReported
          (WatchMemory.sessionLog (fun fd => fd = 64) [0]
            [⟨[64], false, false⟩] [⟨false, .ready fun fd => fd = 0, []⟩]) := by
  obtain ⟨passed, reported, log, isPassed, unreported⟩ :
      ∃ passed reported,
        WatchMemory.sessionLog (fun fd => fd = 64) [0]
            [⟨[64], false, false⟩] [⟨false, .ready fun fd => fd = 0, []⟩] =
          [.register 0, .select passed reported, .call 0 0, .register 64,
            .call 1 64] ∧
          passed 64 = true ∧
          reported 64 = false :=
    ⟨_, _, rfl, rfl, rfl⟩
  rw [log]
  constructor
  · intro selects
    have exact := selects [.register 0] (.select passed reported)
      [.call 0 0, .register 64, .call 1 64] rfl
    have isRegistered := (exact 64).mp isPassed
    simp [registeredFds, WatchEvent.registered?] at isRegistered
  · intro calls
    obtain ⟨early, reported', lastSelect, isReported, _⟩ :=
      calls [.register 0, .select passed reported, .call 0 0, .register 64]
        (.call 1 64) [] rfl
    cases lastSelect.findSome
    rw [unreported] at isReported
    contradiction

end Cdba
