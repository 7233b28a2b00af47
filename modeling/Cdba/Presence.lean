import Cdba.Outgoing

namespace Cdba

/-!
# Fastboot presence

The client is told when the board appears in fastboot mode and when it goes
away.  Devices are added by their serial and removed by their path, and nothing
looks at whether one is there already.  An abstract machine that only knows
which path is present says what is announced; the fastboot object follows it.
-/

open Program

variable {n : Nat}

/-! ## What is present -/

/-- The path of a device that an event adds and that can be opened. -/
def UdevEvent.attached? (serial : CString) : UdevEvent → Option CString
  | .add (some found) node =>
      if found = serial ∧ node.probe.isSome then some node.path else none
  | _ => none

/-- The path that an event removes. -/
def UdevEvent.detached? : UdevEvent → Option CString
  | .remove path => some path
  | _ => none

/-- The path that is present behind an event, and what is announced. -/
def presenceStep
    (serial : CString)
    (present : Option CString)
    (event : UdevEvent) :
    Option CString × List (List UInt8) :=
  match event.attached? serial with
  | some path => (some path, [[1]])
  | none =>
      if present.isSome ∧ event.detached? = present then
        (none, [[0]])
      else
        (present, [])

/-- The path that is present behind events. -/
def presentAfter
    (serial : CString) :
    Option CString → List UdevEvent → Option CString
  | present, [] => present
  | present, event :: rest =>
      presentAfter serial (presenceStep serial present event).1 rest

/-- What events announce. -/
def announced
    (serial : CString) :
    Option CString → List UdevEvent → List (List UInt8)
  | _, [] => []
  | present, event :: rest =>
      (presenceStep serial present event).2 ++
        announced serial (presenceStep serial present event).1 rest

/-- Payloads take turns, beginning with a given byte. -/
def Alternates : UInt8 → List (List UInt8) → Prop
  | _, [] => True
  | next, payload :: rest => payload = [next] ∧ Alternates (1 - next) rest

/-- A device is only attached while none is present. -/
def OneAtATime
    (serial : CString) :
    Option CString → List UdevEvent → Prop
  | _, [] => True
  | present, event :: rest =>
      ((event.attached? serial).isSome → present = none) ∧
        OneAtATime serial (presenceStep serial present event).1 rest

/-- The announcement that is due. -/
def nextAnnouncement (present : Option CString) : UInt8 :=
  if present.isSome then 0 else 1

/-- Announcements take turns exactly when devices come one at a time. -/
theorem alternates_announced_iff
    (serial : CString)
    (present : Option CString)
    (events : List UdevEvent) :
    Alternates (nextAnnouncement present) (announced serial present events) ↔
      OneAtATime serial present events := by
  induction events generalizing present with
  | nil =>
      exact Iff.rfl
  | cons event rest inductionHypothesis =>
      rw [announced, OneAtATime, ← inductionHypothesis]
      cases attached : event.attached? serial with
      | some path =>
          simp only [presenceStep, attached, List.singleton_append, Alternates,
            List.cons.injEq, and_true, Option.isSome_some, forall_const]
          cases present with
          | none => simp [nextAnnouncement]
          | some other => simp [nextAnnouncement]
      | none =>
          simp only [presenceStep, attached, Option.isSome_none,
            Bool.false_eq_true, false_implies, true_and]
          split
          · rename_i leaves
            simp [Alternates, nextAnnouncement, leaves.1]
          · simp

/-- Prefixes of events that come one at a time do too. -/
theorem OneAtATime.left
    {serial : CString}
    {present : Option CString}
    {before after : List UdevEvent}
    (oneAtATime : OneAtATime serial present (before ++ after)) :
    OneAtATime serial present before := by
  induction before generalizing present with
  | nil =>
      trivial
  | cons event rest inductionHypothesis =>
      exact ⟨oneAtATime.1, inductionHypothesis oneAtATime.2⟩

/-- The last announcement says whether a device is present. -/
theorem getLast?_announced
    (serial : CString)
    (present : Option CString)
    (earlier : List (List UInt8))
    (tells : present.isSome = true ↔ earlier.getLast? = some [1])
    (events : List UdevEvent) :
    (presentAfter serial present events).isSome = true ↔
      (earlier ++ announced serial present events).getLast? = some [1] := by
  induction events generalizing present earlier with
  | nil =>
      rw [announced, List.append_nil]
      exact tells
  | cons event rest inductionHypothesis =>
      rw [presentAfter, announced, ← List.append_assoc]
      refine inductionHypothesis _ _ ?_
      unfold presenceStep
      split
      · simp
      · split
        · simp
        · simpa using tells

/-! ## The fastboot object -/

/-- The object has the device at a path open, or none. -/
structure Fastboot.Holds
    (fb : Fastboot)
    (serial : CString)
    (present : Option CString) :
    Prop where
  serial : fb.serial = serial
  devPath : fb.devPath = present
  fd : present.isSome = true ↔ ∃ endpoints, fb.fd = .open endpoints

/-- Adding a device: it is opened and announced, or nothing happens. -/
theorem handleFastbootAdd_follows
    {serial : CString}
    {present : Option CString}
    {index : Nat}
    {hw : Hw n}
    (holds : (hw.fastboots index).Holds serial present)
    (node : UsbNode) :
    let step := presenceStep serial present (.add (some serial) node)
    ∃ final events,
      handleFastbootAdd index node hw = .ok () final ∧
        final.log = hw.log ++ events ∧
        events.map Stamped.value = step.2.map (.send .fastbootPresent) ∧
        (final.fastboots index).Holds serial step.1 := by
  cases probe : node.probe with
  | none =>
      have step :
          presenceStep serial present (.add (some serial) node) =
            (present, []) := by
        cases present <;>
          simp [presenceStep, UdevEvent.attached?, UdevEvent.detached?, probe]
      rw [step, handleFastbootAdd, probe]
      exact ⟨hw, [], rfl, (List.append_nil _).symm, rfl, holds⟩
  | some endpoints =>
      have step :
          presenceStep serial present (.add (some serial) node) =
            (some node.path, [[1]]) := by
        simp [presenceStep, UdevEvent.attached?, probe]
      rw [step, handleFastbootAdd, probe]
      refine ⟨_, [_], rfl, rfl, rfl, ?_⟩
      refine ⟨?_, ?_, ?_⟩
      · simpa [updateFastboot] using holds.serial
      · simp
      · simp

/-- One event does to the object what it does to the abstract machine. -/
theorem handleUdevEvent_follows
    {serial : CString}
    {present : Option CString}
    {index : Nat}
    {hw : Hw n}
    (holds : (hw.fastboots index).Holds serial present)
    (event : UdevEvent) :
    ∃ final events,
      handleUdevEvent index event hw = .ok () final ∧
        final.log = hw.log ++ events ∧
        events.map Stamped.value =
          (presenceStep serial present event).2.map
            (.send .fastbootPresent) ∧
        (final.fastboots index).Holds serial
          (presenceStep serial present event).1 := by
  have ignored :
      ∃ final events,
        (pure () : HwM n Unit) hw = .ok () final ∧
          final.log = hw.log ++ events ∧
          events.map Stamped.value = [] ∧
          (final.fastboots index).Holds serial present :=
    ⟨hw, [], rfl, (List.append_nil _).symm, rfl, holds⟩
  rw [handleUdevEvent, bind_of_ok (read_apply _ hw)]
  cases event with
  | add found node =>
      simp only [holds.serial]
      by_cases same : found = some serial
      · subst same
        simpa [onlyIf] using handleFastbootAdd_follows holds node
      · have step :
            presenceStep serial present (.add found node) = (present, []) := by
          cases present <;> cases found <;>
            simp_all [presenceStep, UdevEvent.attached?, UdevEvent.detached?]
        simpa [onlyIf, same, step] using ignored
  | remove path =>
      simp only [holds.devPath]
      by_cases same : present = some path
      · subst same
        have step :
            presenceStep serial (some path) (.remove path) =
              (none, [[0]]) := by
          simp [presenceStep, UdevEvent.attached?, UdevEvent.detached?]
        rw [step, onlyIf, if_pos (by simp)]
        refine ⟨_, [_], rfl, rfl, rfl, ?_⟩
        refine ⟨?_, ?_, ?_⟩
        · simpa [updateFastboot] using holds.serial
        · simp
        · simp
      · have step :
            presenceStep serial present (.remove path) = (present, []) := by
          have other : some path ≠ present := Ne.symm same
          simp [presenceStep, UdevEvent.attached?, UdevEvent.detached?, other]
        simpa [onlyIf, same, step] using ignored
  | other =>
      have step : presenceStep serial present .other = (present, []) := by
        cases present <;>
          simp [presenceStep, UdevEvent.attached?, UdevEvent.detached?]
      rw [step]
      exact ignored

/-! ## Whole runs -/

/-- Announcements and what is present, over a run in two parts. -/
theorem announced_append
    (serial : CString)
    (present : Option CString)
    (before after : List UdevEvent) :
    announced serial present (before ++ after) =
        announced serial present before ++
          announced serial (presentAfter serial present before) after ∧
      presentAfter serial present (before ++ after) =
        presentAfter serial (presentAfter serial present before) after := by
  induction before generalizing present with
  | nil =>
      exact ⟨rfl, rfl⟩
  | cons event rest inductionHypothesis =>
      obtain ⟨values, path⟩ :=
        inductionHypothesis (presenceStep serial present event).1
      refine ⟨?_, path⟩
      rw [List.cons_append, announced, values, announced, List.append_assoc]
      rfl

/-- A program follows the abstract machine over events. -/
def Follows
    (serial : CString)
    (index : Nat)
    (program : HwM n Unit)
    (events : List UdevEvent) :
    Prop :=
  ∀ hw present,
    (hw.fastboots index).Holds serial present →
    ∃ final done,
      program hw = .ok () final ∧
        final.log = hw.log ++ done ∧
        done.map Stamped.value =
          (announced serial present events).map (.send .fastbootPresent) ∧
        (final.fastboots index).Holds serial
          (presentAfter serial present events)

theorem Follows.each
    {ι : Type}
    {serial : CString}
    {index : Nat}
    {body : ι → HwM n Unit}
    {eventOf : ι → UdevEvent}
    (follows : ∀ item, Follows serial index (body item) [eventOf item])
    (items : List ι) :
    Follows serial index (Program.each body items) (items.map eventOf) := by
  induction items with
  | nil =>
      exact fun hw present holds =>
        ⟨hw, [], rfl, (List.append_nil _).symm, rfl, holds⟩
  | cons item rest inductionHypothesis =>
      intro hw present holds
      obtain ⟨middle, first, ran, log, values, holdsMiddle⟩ :=
        follows item hw present holds
      obtain ⟨final, later, rans, logs, laterValues, holdsFinal⟩ :=
        inductionHypothesis middle _ holdsMiddle
      have does : Does (Program.each body (item :: rest)) hw final _ :=
        Does.cons ⟨ran, first, log, values⟩ ⟨rans, later, logs, laterValues⟩
      obtain ⟨stamped, whole, all⟩ := does.logged
      refine ⟨final, stamped, does.ran, whole, ?_, holdsFinal⟩
      rw [all, ← List.map_append]
      simp [announced, presentAfter]

theorem handleUdevEvent_follow
    (serial : CString)
    (index : Nat)
    (events : List UdevEvent) :
    Follows (n := n) serial index (each (handleUdevEvent index) events)
      events := by
  have single :
      ∀ event, Follows (n := n) serial index (handleUdevEvent index event)
        [id event] := by
    intro event hw present holds
    simpa [announced, presentAfter] using handleUdevEvent_follows holds event
  simpa using Follows.each single events

theorem handleFastbootAdd_follow
    (serial : CString)
    (index : Nat)
    (nodes : List UsbNode) :
    Follows (n := n) serial index (each (handleFastbootAdd index) nodes)
      (nodes.map (.add (some serial))) := by
  refine Follows.each ?_ nodes
  intro node hw present holds
  simpa [announced, presentAfter] using handleFastbootAdd_follows holds node

/--
`fastboot_open`, from where it has its context and memory, and then the events
of its monitor.
-/
def fastbootSession
    (serial : CString)
    (events : List UdevEvent) :
    HwM n Nat := do
  let index ← fastbootEnumerate serial
  each (handleUdevEvent index) events
  pure index

/-- What is enumerated comes before the events of the monitor. -/
def enumerated (hw : Hw n) (serial : CString) : List UdevEvent :=
  (hw.enumerations.headD []).map (.add (some serial))

theorem fastbootSession_run
    (hw : Hw n)
    (serial : CString)
    (events : List UdevEvent) :
    let final := finalState (fastbootSession serial events hw)
    hw.did final =
        (announced serial none (enumerated hw serial ++ events)).map
          (.send .fastbootPresent) ∧
      (final.fastboots hw.fastbootCount).Holds serial
        (presentAfter serial none (enumerated hw serial ++ events)) := by
  let created : Hw n :=
    { hw with
      fastbootCount := hw.fastbootCount + 1
      fastboots := fun query =>
        if query = hw.fastbootCount then
          { serial := serial, fd := .zero, devPath := none, state := .start }
        else
          hw.fastboots query
      enumerations := hw.enumerations.tail }
  have fresh : (created.fastboots hw.fastbootCount).Holds serial none := by
    simp only [created, if_pos]
    exact ⟨rfl, rfl, by simp⟩
  obtain ⟨opened, first, opens, log, values, holdsOpened⟩ :=
    handleFastbootAdd_follow serial hw.fastbootCount
      (hw.enumerations.headD []) created none fresh
  obtain ⟨final, later, handles, logs, laterValues, holdsFinal⟩ :=
    handleUdevEvent_follow serial hw.fastbootCount events opened _ holdsOpened
  have opening :
      fastbootEnumerate serial hw = .ok hw.fastbootCount opened := by
    have start :
        fastbootEnumerate serial hw =
          (each (handleFastbootAdd hw.fastbootCount)
            (hw.enumerations.headD []) >>= fun _ =>
              pure hw.fastbootCount) created :=
      rfl
    rw [start, bind_of_ok opens]
    rfl
  have run :
      fastbootSession serial events hw = .ok hw.fastbootCount final := by
    rw [fastbootSession, bind_of_ok opening, bind_of_ok handles]
    rfl
  obtain ⟨splitValues, splitPresent⟩ :=
    announced_append serial none (enumerated hw serial) events
  have logged : final.log = hw.log ++ (first ++ later) := by
    rw [logs, log, List.append_assoc]
  refine ⟨?_, ?_⟩
  · rw [run, finalState, Hw.did_of_log logged, List.map_append, values,
      laterValues, ← List.map_append, splitValues]
    rfl
  · rw [run, finalState, splitPresent]
    exact holdsFinal

/-! ## What the client is told -/

/-- The `MSG_FASTBOOT_PRESENT` values among events. -/
def presentValues (events : List (Event n)) : List (List UInt8) :=
  events.filterMap fun event =>
    match event with
    | .send .fastbootPresent payload => some payload
    | _ => none

theorem presentValues_map
    (payloads : List (List UInt8)) :
    presentValues
        (payloads.map (.send .fastbootPresent) : List (Event n)) =
      payloads := by
  rw [presentValues, List.filterMap_map]
  exact List.filterMap_some

/--
The values sent take turns, beginning with 1, and the object has a device open
and knows its path if and only if the last value is 1.
-/
structure TellsPresence (start final : Hw n) (index : Nat) : Prop where
  alternates : Alternates 1 (presentValues (start.did final))
  told :
    (∃ endpoints path,
      (final.fastboots index).fd = .open endpoints ∧
        (final.fastboots index).devPath = some path) ↔
      (presentValues (start.did final)).getLast? = some [1]

/-- The abstract machine tells the presence when devices come one at a time. -/
theorem tellsPresence_iff
    (hw : Hw n)
    (serial : CString)
    (events : List UdevEvent) :
    TellsPresence hw (finalState (fastbootSession serial events hw))
        hw.fastbootCount ↔
      OneAtATime serial none (enumerated hw serial ++ events) := by
  obtain ⟨did, holds⟩ := fastbootSession_run hw serial events
  have turns :=
    alternates_announced_iff serial none (enumerated hw serial ++ events)
  have last :=
    getLast?_announced serial none [] (by simp)
      (enumerated hw serial ++ events)
  constructor
  · intro tells
    have alternates := tells.alternates
    rw [did, presentValues_map] at alternates
    exact turns.mp alternates
  · intro oneAtATime
    refine ⟨?_, ?_⟩
    · rw [did, presentValues_map]
      exact turns.mpr oneAtATime
    · rw [did, presentValues_map]
      rw [List.nil_append] at last
      rw [← last, holds.devPath, Option.isSome_iff_exists]
      constructor
      · rintro ⟨_, path, _, present⟩
        exact ⟨path, present⟩
      · rintro ⟨path, present⟩
        obtain ⟨endpoints, opened⟩ := holds.fd.mp (by rw [present]; rfl)
        exact ⟨endpoints, path, opened, present⟩

/--
In every state of a run, the client has been told the presence of the device,
exactly when a device with the serial of the board is only found and opened, by
the enumeration or by an event, while none is present.
-/
theorem fastbootSession_tellsPresence_iff
    (hw : Hw n)
    (serial : CString)
    (events : List UdevEvent) :
    (∀ before after,
      events = before ++ after →
      TellsPresence hw (finalState (fastbootSession serial before hw))
        hw.fastbootCount) ↔
      OneAtATime serial none (enumerated hw serial ++ events) := by
  constructor
  · intro tells
    exact (tellsPresence_iff hw serial events).mp
      (tells events [] (List.append_nil _).symm)
  · rintro oneAtATime before after rfl
    rw [← List.append_assoc] at oneAtATime
    exact (tellsPresence_iff hw serial before).mpr oneAtATime.left

/-- Boards of one serial in fastboot mode, at two ports of a hub. -/
def fastbootNode (port : CString) : UsbNode :=
  ⟨ascii "/devices/usb1/1-1/1-1." ++ port, some ⟨0x81, 0x01⟩⟩

/-- A bench on which the enumeration finds both. -/
def enumeratedBench : Hw 1 :=
  { Hw.initial (fun _ => ftdiBoard) with
    enumerations := [[fastbootNode (ascii "1"), fastbootNode (ascii "2")]] }

/-- Two boards of one serial are enumerated. -/
theorem enumeratedTwice_untold :
    ¬ TellsPresence enumeratedBench
        (finalState
          (fastbootSession (ascii "5350ce01") [] enumeratedBench))
        0 := by
  intro tells
  have alternates := tells.alternates
  have values :
      presentValues
          (enumeratedBench.did
            (finalState
              (fastbootSession (ascii "5350ce01") [] enumeratedBench))) =
        [[1], [1]] := by
    decide +kernel
  rw [values] at alternates
  exact absurd alternates.2.1 (by decide)

end Cdba
