import Mathlib.Data.List.Basic

/-!
# Locks on files

Processes that take exclusive locks without waiting, as with `flock()` and
`LOCK_EX | LOCK_NB`.  Each attempt opens the file anew, so a process is refused
a lock that it holds itself; and it keeps what it was granted until it exits.

A process that works under its locks works under them alone, whatever order the
processes run in.
-/

namespace FileLock

variable {Process Lock Work : Type}

/-- What a process does. -/
inductive Act (Lock Work : Type) where
  | attempt (lock : Lock) (granted : Bool)
  | work (work : Work)
  | exit
  deriving DecidableEq, Repr

/-- The work that an act does. -/
def Act.work? : Act Lock Work → Option Work
  | .work done => some done
  | _ => none

/-- What the processes of a machine have done, in order. -/
abbrev History (Process Lock Work : Type) :=
  List (Process × Act Lock Work)

/-! ## The kernel -/

/-- The locks that are held, and by whom. -/
abbrev Table (Process Lock : Type) :=
  List (Process × Lock)

section Kernel

variable [DecidableEq Process] [DecidableEq Lock]

/-- The table behind an act of a process. -/
def Table.after
    (table : Table Process Lock)
    (process : Process) :
    Act Lock Work → Table Process Lock
  | .attempt lock true => (process, lock) :: table
  | .attempt _ false => table
  | .work _ => table
  | .exit => table.filter fun entry => entry.1 ≠ process

/-- A lock is granted if nobody holds it. -/
def Table.free (table : Table Process Lock) (lock : Lock) : Bool :=
  table.all fun entry => entry.2 ≠ lock

/-- The kernel answers an attempt by its table. -/
def Table.answers (table : Table Process Lock) : Act Lock Work → Bool
  | .attempt lock granted => granted = table.free lock
  | _ => true

/-- A history whose attempts were answered by the kernel. -/
def Table.accepts :
    Table Process Lock → History Process Lock Work → Bool
  | _, [] => true
  | table, (process, act) :: rest =>
      table.answers act && Table.accepts (table.after process act) rest

/-- A process holds a lock it was granted as long as it lives. -/
def Holds
    (history : History Process Lock Work)
    (process : Process)
    (lock : Lock) :
    Prop :=
  (process, .attempt lock true) ∈ history ∧ (process, .exit) ∉ history

omit [DecidableEq Lock] in
/-- Whoever is in the table, or takes a lock, holds it until it exits. -/
theorem mem_after
    {table : Table Process Lock}
    {process other : Process}
    {lock : Lock}
    {act : Act Lock Work}
    (held :
      (other, lock) ∈ table ∨
        (process, act) = (other, .attempt lock true))
    (lives : (process, act) ≠ (other, .exit)) :
    (other, lock) ∈ table.after process act := by
  rcases held with held | taken
  · cases act with
    | attempt asked granted =>
        cases granted with
        | true => exact List.mem_cons_of_mem _ held
        | false => exact held
    | work work => exact held
    | exit =>
        refine List.mem_filter.mpr ⟨held, decide_eq_true ?_⟩
        exact fun same => lives (congrArg (·, Act.exit) same.symm)
  · cases taken
    exact List.mem_cons_self

/-- The kernel only grants a lock that nobody holds. -/
theorem answered_of_accepts
    {table : Table Process Lock}
    {before after : History Process Lock Work}
    {process other : Process}
    {lock : Lock}
    {granted : Bool}
    (accepts :
      table.accepts
        (before ++ (process, .attempt lock granted) :: after) = true)
    (held :
      (other, lock) ∈ table ∨ (other, .attempt lock true) ∈ before)
    (lives : (other, .exit) ∉ before) :
    granted = false := by
  induction before generalizing table with
  | nil =>
      rw [List.nil_append, Table.accepts, Bool.and_eq_true] at accepts
      have answer := of_decide_eq_true accepts.1
      have member : (other, lock) ∈ table := by
        rcases held with held | held
        · exact held
        · cases held
      cases granted with
      | false => rfl
      | true =>
          have differs := List.all_eq_true.mp answer.symm _ member
          exact absurd rfl (of_decide_eq_true differs)
  | cons entry rest inductionHypothesis =>
      rw [List.cons_append, Table.accepts, Bool.and_eq_true] at accepts
      refine inductionHypothesis accepts.2 ?_
        fun member => lives (List.mem_cons_of_mem _ member)
      have goesOn : (entry.1, entry.2) ≠ (other, .exit) :=
        fun same => lives (same ▸ List.mem_cons_self)
      rcases held with held | taken
      · exact .inl (mem_after (.inl held) goesOn)
      · rcases List.mem_cons.mp taken with now | later
        · exact .inl (mem_after (.inr now.symm) goesOn)
        · exact .inr later

end Kernel

/-! ## Processes that work under their locks -/

/-- What one process did, of what all of them did. -/
def ownActs
    [DecidableEq Process]
    (process : Process)
    (history : History Process Lock Work) :
    List (Act Lock Work) :=
  history.filterMap fun entry =>
    if entry.1 = process then some entry.2 else none

/--
A process that was granted the lock of whatever it works on, that does nothing
but try again when it was refused, and that does nothing behind its end.
-/
structure Disciplined
    (lockOf : Work → Lock)
    (acts : List (Act Lock Work)) :
    Prop where
  locks :
    ∀ before work after,
      acts = before ++ .work work :: after →
      .attempt (lockOf work) true ∈ before
  insists :
    ∀ before lock next after,
      acts = before ++ .attempt lock false :: next :: after →
      next = .exit ∨ ∃ granted, next = .attempt lock granted
  ends :
    ∀ before after, acts = before ++ .exit :: after → after = []

theorem Disciplined.nil
    (lockOf : Work → Lock) :
    Disciplined lockOf [] where
  locks := by
    intro before work after shape
    cases before <;> cases shape
  insists := by
    intro before lock next after shape
    cases before <;> cases shape
  ends := by
    intro before after shape
    cases before <;> cases shape

/-- The last item of a list, or one in front of it. -/
theorem concat_split
    {items before after : List α}
    {last item : α}
    (shape : items ++ [last] = before ++ item :: after) :
    (before = items ∧ item = last ∧ after = []) ∨
      ∃ rest, after = rest ++ [last] ∧ items = before ++ item :: rest := by
  rcases List.eq_nil_or_concat after with rfl | ⟨rest, final, rfl⟩
  · obtain ⟨same, sameLast⟩ := List.append_inj' shape rfl
    cases sameLast
    exact .inl ⟨same.symm, rfl, rfl⟩
  · rw [List.concat_eq_append, ← List.cons_append, ← List.append_assoc]
      at shape
    obtain ⟨same, sameLast⟩ := List.append_inj' shape rfl
    cases sameLast
    exact .inr ⟨rest, List.concat_eq_append, same⟩

/-- What a disciplined process may do next. -/
theorem Disciplined.concat
    {lockOf : Work → Lock}
    {acts : List (Act Lock Work)}
    {next : Act Lock Work}
    (disciplined : Disciplined lockOf acts)
    (lives : .exit ∉ acts)
    (locked :
      ∀ work, next = .work work → .attempt (lockOf work) true ∈ acts)
    (insists :
      ∀ before lock, acts = before ++ [.attempt lock false] →
        next = .exit ∨ ∃ granted, next = .attempt lock granted) :
    Disciplined lockOf (acts ++ [next]) where
  locks := by
    intro before work after shape
    rcases concat_split shape with ⟨rfl, isWork, _⟩ | ⟨rest, _, within⟩
    · exact locked work isWork.symm
    · exact disciplined.locks _ _ _ within
  insists := by
    intro before lock follower after shape
    rcases concat_split shape with ⟨_, _, none⟩ | ⟨rest, behind, within⟩
    · cases none
    · cases rest with
      | nil =>
          cases behind
          exact insists before lock within
      | cons first rest =>
          cases behind
          exact disciplined.insists _ _ _ _ within
  ends := by
    intro before after shape
    rcases concat_split shape with ⟨_, _, none⟩ | ⟨rest, _, within⟩
    · exact none
    · exact absurd (within ▸ List.mem_append_right _ List.mem_cons_self)
        lives

/-- The first acts of a disciplined process. -/
theorem Disciplined.begins
    {lockOf : Work → Lock}
    {acts later : List (Act Lock Work)}
    (disciplined : Disciplined lockOf (acts ++ later)) :
    Disciplined lockOf acts where
  locks := by
    rintro before work after rfl
    rw [List.append_assoc] at disciplined
    exact disciplined.locks _ _ _ rfl
  insists := by
    rintro before lock next after rfl
    rw [List.append_assoc] at disciplined
    exact disciplined.insists _ _ _ _ rfl
  ends := by
    rintro before after rfl
    rw [List.append_assoc] at disciplined
    exact (List.append_eq_nil_iff.mp (disciplined.ends _ _ rfl)).1

/-- The last attempt to take a lock was not refused. -/
def Settled (acts : List (Act Lock Work)) : Prop :=
  ∀ before lock, acts ≠ before ++ [.attempt lock false]

/-- Work under locks that were granted. -/
theorem Disciplined.works
    {lockOf : Work → Lock}
    {acts : List (Act Lock Work)}
    (disciplined : Disciplined lockOf acts)
    (lives : .exit ∉ acts)
    (settled : Settled acts)
    {works : List Work}
    (locked :
      ∀ work, work ∈ works → .attempt (lockOf work) true ∈ acts) :
    Disciplined lockOf (acts ++ works.map .work) ∧
      .exit ∉ acts ++ works.map Act.work ∧
      Settled (acts ++ works.map .work) := by
  induction works generalizing acts with
  | nil =>
      rw [List.map_nil, List.append_nil]
      exact ⟨disciplined, lives, settled⟩
  | cons work rest inductionHypothesis =>
      rw [List.map_cons, List.append_cons]
      refine inductionHypothesis
        (disciplined.concat lives ?_ fun before lock last =>
          absurd last (settled before lock)) ?_ ?_ ?_
      · rintro _ ⟨rfl⟩
        exact locked work List.mem_cons_self
      · simpa using lives
      · intro before lock shape
        cases (List.append_inj' shape rfl).2
      · intro other member
        exact List.mem_append_left _
          (locked other (List.mem_cons_of_mem _ member))

/-- A process that is refused a lock each time only tries again. -/
theorem Disciplined.insists_all
    {lockOf : Work → Lock}
    {before after : List (Act Lock Work)}
    {lock : Lock}
    (disciplined :
      Disciplined lockOf (before ++ .attempt lock false :: after))
    (refused :
      ∀ granted, .attempt lock granted ∈ after → granted = false) :
    ∀ act, act ∈ after → act = .exit ∨ act = .attempt lock false := by
  induction after generalizing before with
  | nil =>
      intro act member
      cases member
  | cons next rest inductionHypothesis =>
      intro act member
      rcases disciplined.insists _ _ _ _ rfl with exits | ⟨granted, again⟩
      · rw [exits, List.append_cons] at disciplined
        have nothing := disciplined.ends _ _ rfl
        rw [exits, nothing] at member
        exact .inl (List.mem_singleton.mp member)
      · have vain := refused granted (again ▸ List.mem_cons_self)
        rw [again, vain] at disciplined member
        rcases List.mem_cons.mp member with now | later
        · exact .inr now
        · rw [List.append_cons] at disciplined
          exact inductionHypothesis disciplined
            (fun _ inRest => refused _ (List.mem_cons_of_mem _ inRest))
            act later

section Exclusion

variable [DecidableEq Process]

theorem mem_ownActs
    {process : Process}
    {act : Act Lock Work}
    {history : History Process Lock Work} :
    act ∈ ownActs process history ↔ (process, act) ∈ history := by
  unfold ownActs
  rw [List.mem_filterMap]
  constructor
  · rintro ⟨⟨owner, done⟩, member, same⟩
    split at same
    · rename_i owns
      cases same
      exact owns ▸ member
    · cases same
  · intro member
    exact ⟨_, member, if_pos rfl⟩

/-- A moment of a process within the history is a moment of its own. -/
theorem ownActs_split
    (process : Process)
    (act : Act Lock Work)
    (before after : History Process Lock Work) :
    ownActs process (before ++ (process, act) :: after) =
      ownActs process before ++ act :: ownActs process after := by
  rw [ownActs, List.filterMap_append, List.filterMap_cons, if_pos rfl]
  rfl

/-- Who does something has not exited before. -/
theorem Disciplined.lives
    {lockOf : Work → Lock}
    {process : Process}
    {act : Act Lock Work}
    {before after : History Process Lock Work}
    (disciplined :
      Disciplined lockOf
        (ownActs process (before ++ (process, act) :: after))) :
    (process, .exit) ∉ before := by
  intro exited
  obtain ⟨earlier, later, rfl⟩ := List.append_of_mem exited
  rw [List.append_assoc, List.cons_append, ownActs_split] at disciplined
  have nothing := disciplined.ends _ _ rfl
  rw [ownActs_split] at nothing
  exact absurd nothing (by simp)

/-- Who works on something was granted its lock before. -/
theorem Disciplined.granted
    {lockOf : Work → Lock}
    {process : Process}
    {work : Work}
    {before after : History Process Lock Work}
    (disciplined :
      Disciplined lockOf
        (ownActs process (before ++ (process, .work work) :: after))) :
    (process, .attempt (lockOf work) true) ∈ before := by
  rw [ownActs_split] at disciplined
  exact mem_ownActs.mp (disciplined.locks _ _ _ rfl)

variable [DecidableEq Lock]

/-- At no time do two processes hold a lock. -/
theorem holder_unique
    {history after : History Process Lock Work}
    (accepts : Table.accepts [] (history ++ after) = true)
    {first second : Process}
    {lock : Lock}
    (firstHolds : Holds history first lock)
    (secondHolds : Holds history second lock) :
    first = second := by
  obtain ⟨firstGranted, firstLives⟩ := firstHolds
  obtain ⟨secondGranted, secondLives⟩ := secondHolds
  obtain ⟨before, later, rfl⟩ := List.append_of_mem firstGranted
  rcases List.mem_append.mp secondGranted with earlier | behind
  · rw [List.append_assoc, List.cons_append] at accepts
    have refused := answered_of_accepts accepts (.inr earlier)
      fun exited => secondLives (List.mem_append_left _ exited)
    cases refused
  · rcases List.mem_cons.mp behind with same | behind
    · cases same
      rfl
    · obtain ⟨between, rest, rfl⟩ := List.append_of_mem behind
      rw [← List.cons_append, ← List.append_assoc, List.append_assoc,
        List.cons_append] at accepts
      have refused := answered_of_accepts accepts
        (.inr (List.mem_append_right _ List.mem_cons_self))
        fun exited => firstLives (by
          rw [← List.cons_append, ← List.append_assoc]
          exact List.mem_append_left _ exited)
      cases refused

/--
Two processes of which one works under a lock first and the other one works
under the same lock later: in between, the first one has exited.
-/
theorem exits_between
    {lockOf : Work → Lock}
    {before middle after : History Process Lock Work}
    {first second : Process}
    {work other : Work}
    (accepts :
      Table.accepts []
        (before ++ (first, .work work) ::
          (middle ++ (second, .work other) :: after)) = true)
    (disciplined :
      ∀ process,
        Disciplined lockOf
          (ownActs process
            (before ++ (first, .work work) ::
              (middle ++ (second, .work other) :: after))))
    (sameLock : lockOf work = lockOf other)
    (differ : first ≠ second) :
    (first, .exit) ∈ middle := by
  have firstGranted := (disciplined first).granted
  have firstLived := (disciplined first).lives
  have regroup :
      before ++ (first, .work work) ::
          (middle ++ (second, .work other) :: after) =
        (before ++ (first, .work work) :: middle) ++
          (second, .work other) :: after := by
    simp
  rw [regroup] at accepts disciplined
  have secondGranted := (disciplined second).granted
  have secondLives := (disciplined second).lives
  by_contra stays
  refine differ (holder_unique accepts ⟨?_, ?_⟩
    ⟨secondGranted, secondLives⟩)
  · rw [← sameLock]
    exact List.mem_append_left _ firstGranted
  · intro exited
    rcases List.mem_append.mp exited with early | late
    · exact firstLived early
    · rcases List.mem_cons.mp late with same | late
      · cases same
      · exact stays late

/--
A process that attempts to take a lock that it holds: it is refused, and all it
does from then on is to try again, in vain, until it exits.
-/
theorem waits_forever
    {lockOf : Work → Lock}
    {before after : History Process Lock Work}
    {process : Process}
    {lock : Lock}
    {granted : Bool}
    (accepts :
      Table.accepts []
        (before ++ (process, .attempt lock granted) :: after) = true)
    (disciplined :
      Disciplined lockOf
        (ownActs process
          (before ++ (process, .attempt lock granted) :: after)))
    (holds : Holds before process lock) :
    granted = false ∧
      ∀ act, act ∈ ownActs process after →
        act = .exit ∨ act = .attempt lock false := by
  have vain := answered_of_accepts accepts (.inr holds.1) holds.2
  subst vain
  refine ⟨rfl, ?_⟩
  have refused :
      ∀ granted, .attempt lock granted ∈ ownActs process after →
        granted = false := by
    intro granted again
    obtain ⟨between, rest, rfl⟩ :=
      List.append_of_mem (mem_ownActs.mp again)
    rw [← List.cons_append, ← List.append_assoc] at accepts disciplined
    exact answered_of_accepts accepts
      (.inr (List.mem_append_left _ holds.1)) disciplined.lives
  rw [ownActs_split] at disciplined
  exact disciplined.insists_all refused

end Exclusion

end FileLock
