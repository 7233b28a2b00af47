import Mathlib.Logic.Relation

/-!
# Records that begin with their length

Programs that look at single bytes of a memory and keep a record of the
offsets they examined, and the search for a type among records that each begin
with a byte for their length and a byte for their type.
-/

/-! ## Programs that examine bytes -/

/-- The offsets a program examined, and what it returns or stops with. -/
structure Reading (ε α : Type) where
  examined : List Nat
  outcome : Except ε α

namespace Reading

variable {ε α β : Type}

/-- Put offsets that were examined before in front. -/
def after (offsets : List Nat) (reading : Reading ε α) : Reading ε α :=
  { reading with examined := offsets ++ reading.examined }

/-- Go on with the value of a program, if it returns one. -/
def andThen
    (first : Reading ε α)
    (later : α → Reading ε β) :
    Reading ε β :=
  match first.outcome with
  | .ok value => (later value).after first.examined
  | .error reason => ⟨first.examined, .error reason⟩

instance : Monad (Reading ε) where
  pure := fun value => ⟨[], .ok value⟩
  bind := andThen

/-- Stop for a reason. -/
def stop (reason : ε) : Reading ε α :=
  ⟨[], .error reason⟩

/-- The byte at an offset of the memory. -/
def examine (memory : Nat → UInt8) (offset : Nat) : Reading ε UInt8 :=
  ⟨[offset], .ok (memory offset)⟩

@[simp] theorem after_examined
    (offsets : List Nat)
    (reading : Reading ε α) :
    (reading.after offsets).examined = offsets ++ reading.examined :=
  rfl

@[simp] theorem after_outcome
    (offsets : List Nat)
    (reading : Reading ε α) :
    (reading.after offsets).outcome = reading.outcome :=
  rfl

@[simp] theorem after_after
    (first later : List Nat)
    (reading : Reading ε α) :
    (reading.after later).after first = reading.after (first ++ later) := by
  simp [after]

@[simp] theorem after_nil
    (reading : Reading ε α) :
    reading.after [] = reading :=
  rfl

@[simp] theorem pure_bind
    (value : α)
    (later : α → Reading ε β) :
    (pure value : Reading ε α) >>= later = later value :=
  rfl

@[simp] theorem examine_bind
    (memory : Nat → UInt8)
    (offset : Nat)
    (later : UInt8 → Reading ε β) :
    (examine memory offset : Reading ε UInt8) >>= later =
      (later (memory offset)).after [offset] :=
  rfl

theorem bind_of_ok
    {first : Reading ε α}
    {value : α}
    (returned : first.outcome = .ok value)
    (later : α → Reading ε β) :
    first >>= later = (later value).after first.examined := by
  change andThen first later = _
  rw [andThen, returned]

theorem bind_of_error
    {first : Reading ε α}
    {reason : ε}
    (stopped : first.outcome = .error reason)
    (later : α → Reading ε β) :
    first >>= later = ⟨first.examined, .error reason⟩ := by
  change andThen first later = _
  rw [andThen, stopped]

/-- What the first program examines belongs to the sequence. -/
theorem mem_bind_of_first
    {first : Reading ε α}
    {offset : Nat}
    (examined : offset ∈ first.examined)
    (later : α → Reading ε β) :
    offset ∈ (first >>= later).examined := by
  cases outcome : first.outcome with
  | ok value =>
      rw [bind_of_ok outcome]
      exact List.mem_append_left _ examined
  | error reason =>
      rwa [bind_of_error outcome]

/-! ## What a program examines, and how it ends -/

/-- A program examines only some offsets and ends in some way. -/
structure Within
    (allowed : Nat → Prop)
    (ends : Except ε α → Prop)
    (reading : Reading ε α) : Prop where
  examined : ∀ offset, offset ∈ reading.examined → allowed offset
  outcome : ends reading.outcome

namespace Within

variable
  {allowed : Nat → Prop}
  {ends : Except ε α → Prop}
  {laterEnds : Except ε β → Prop}

theorem pure
    {value : α}
    (returns : ends (.ok value)) :
    Within allowed ends (pure value) :=
  ⟨fun _ member => absurd member List.not_mem_nil, returns⟩

theorem stop
    {reason : ε}
    (stops : ends (.error reason)) :
    Within allowed ends (stop reason) :=
  ⟨fun _ member => absurd member List.not_mem_nil, stops⟩

theorem after
    {reading : Reading ε α}
    {offsets : List Nat}
    (early : ∀ offset, offset ∈ offsets → allowed offset)
    (later : Within allowed ends reading) :
    Within allowed ends (reading.after offsets) := by
  refine ⟨?_, later.outcome⟩
  intro offset member
  rcases List.mem_append.mp member with inOffsets | inReading
  · exact early offset inOffsets
  · exact later.examined offset inReading

theorem examine
    {memory : Nat → UInt8}
    {offset : Nat}
    {later : UInt8 → Reading ε α}
    (first : allowed offset)
    (rest : Within allowed ends (later (memory offset))) :
    Within allowed ends (examine memory offset >>= later) := by
  apply Within.after _ rest
  intro other member
  rwa [List.mem_singleton.mp member]

theorem bind
    {first : Reading ε α}
    {later : α → Reading ε β}
    (isFirst : Within allowed ends first)
    (isLater :
      ∀ value,
        ends (.ok value) →
        Within allowed laterEnds (later value))
    (stops :
      ∀ reason,
        ends (.error reason) →
        laterEnds (.error reason)) :
    Within allowed laterEnds (first >>= later) := by
  have outcome := isFirst.outcome
  cases result : first.outcome with
  | ok value =>
      rw [result] at outcome
      rw [bind_of_ok result]
      exact .after isFirst.examined (isLater value outcome)
  | error reason =>
      rw [result] at outcome
      rw [bind_of_error result]
      exact ⟨isFirst.examined, stops reason outcome⟩

theorem mono
    {allowed' : Nat → Prop}
    {ends' : Except ε α → Prop}
    {reading : Reading ε α}
    (within : Within allowed ends reading)
    (allows : ∀ offset, allowed offset → allowed' offset)
    (weaker : ∀ outcome, ends outcome → ends' outcome) :
    Within allowed' ends' reading :=
  ⟨fun offset member => allows offset (within.examined offset member),
    weaker _ within.outcome⟩

end Within

/-! ## Programs that depend on what they examine -/

/-- Where two memories agree on all that is examined, they are used alike. -/
def Local (program : (Nat → UInt8) → Reading ε α) : Prop :=
  ∀ memory memory',
    (∀ offset,
      offset ∈ (program memory).examined →
      memory' offset = memory offset) →
    program memory' = program memory

namespace Local

theorem const
    (reading : Reading ε α) :
    Local fun _ => reading :=
  fun _ _ _ => rfl

theorem examine
    (offset : Nat) :
    Local (fun memory => examine (ε := ε) memory offset) := by
  intro memory memory' agree
  have same : memory' offset = memory offset :=
    agree offset (List.mem_singleton_self offset)
  simp only [Reading.examine, same]

theorem ite
    {condition : Prop}
    [Decidable condition]
    {first second : (Nat → UInt8) → Reading ε α}
    (isFirst : Local first)
    (isSecond : Local second) :
    Local fun memory =>
      if condition then first memory else second memory := by
  by_cases holds : condition
  · simpa only [if_pos holds] using isFirst
  · simpa only [if_neg holds] using isSecond

theorem bind
    {first : (Nat → UInt8) → Reading ε α}
    {later : α → (Nat → UInt8) → Reading ε β}
    (isFirst : Local first)
    (isLater : ∀ value, Local (later value)) :
    Local fun memory => first memory >>= fun value => later value memory := by
  intro memory memory' agree
  have same : first memory' = first memory := by
    apply isFirst
    intro offset examined
    exact agree offset (mem_bind_of_first examined _)
  dsimp only at agree ⊢
  rw [same]
  cases outcome : (first memory).outcome with
  | error reason =>
      rw [bind_of_error outcome, bind_of_error outcome]
  | ok value =>
      rw [bind_of_ok outcome] at agree
      rw [bind_of_ok outcome, bind_of_ok outcome]
      rw [isLater value memory memory']
      intro offset examined
      exact agree offset (List.mem_append_right _ examined)

end Local

end Reading

/-! ## Searching for a type -/

namespace LengthPrefixed

open Relation (ReflTransGen)

/-- The offset behind the record at an offset. -/
def next (memory : Nat → UInt8) (record : Nat) : Nat :=
  record + (memory record).toNat

/-- The records that follow from an offset on, up to the limit. -/
def Chain (memory : Nat → UInt8) (limit : Nat) : Nat → Nat → Prop :=
  ReflTransGen fun record following =>
    record < limit ∧ following = next memory record

/-- A search passes a record of another type that has a further one behind. -/
structure Passes
    (memory : Nat → UInt8)
    (limit size : Nat)
    (type : UInt8)
    (record following : Nat) : Prop where
  long : size ≤ (memory record).toNat
  follows : following = next memory record
  inside : following < limit
  other : memory (record + 1) ≠ type

/-- A search ends at a record of the type, or at the last record. -/
structure Ends
    (memory : Nat → UInt8)
    (limit size : Nat)
    (type : UInt8)
    (record : Nat) : Prop where
  long : size ≤ (memory record).toNat
  typed : next memory record < limit → memory (record + 1) = type

/-- The record at which a search from an offset ends. -/
def Finds
    (memory : Nat → UInt8)
    (limit size : Nat)
    (type : UInt8)
    (start record : Nat) : Prop :=
  ReflTransGen (Passes memory limit size type) start record ∧
    Ends memory limit size type record

/-- A search from an offset comes to a record that is too short. -/
def Fails
    (memory : Nat → UInt8)
    (limit size : Nat)
    (type : UInt8)
    (start : Nat) : Prop :=
  ∃ record,
    ReflTransGen (Passes memory limit size type) start record ∧
      (memory record).toNat < size

variable
  {memory : Nat → UInt8}
  {limit size : Nat}
  {type : UInt8}
  {start record : Nat}

theorem Passes.unique
    {following following' : Nat}
    (pass : Passes memory limit size type record following)
    (pass' : Passes memory limit size type record following') :
    following = following' := by
  rw [pass.follows, pass'.follows]

/-- A search does not go on where it ends. -/
theorem Ends.not_passes
    {following : Nat}
    (ends : Ends memory limit size type record) :
    ¬ Passes memory limit size type record following := by
  intro pass
  apply pass.other
  apply ends.typed
  rw [← pass.follows]
  exact pass.inside

theorem Ends.finds
    (ends : Ends memory limit size type record) :
    Finds memory limit size type record record :=
  ⟨.refl, ends⟩

/-- A search finds what it finds behind a record that it passes. -/
theorem Passes.finds_iff
    {following : Nat}
    (pass : Passes memory limit size type start following) :
    Finds memory limit size type start record ↔
      Finds memory limit size type following record := by
  constructor
  · rintro ⟨passes, ends⟩
    rcases ReflTransGen.cases_head passes with same | ⟨middle, first, rest⟩
    · subst same
      exact absurd pass ends.not_passes
    · rw [pass.unique first]
      exact ⟨rest, ends⟩
  · rintro ⟨passes, ends⟩
    exact ⟨.head pass passes, ends⟩

theorem Passes.fails
    {following : Nat}
    (pass : Passes memory limit size type start following)
    (fails : Fails memory limit size type following) :
    Fails memory limit size type start := by
  obtain ⟨short, passes, tooShort⟩ := fails
  exact ⟨short, .head pass passes, tooShort⟩

/-- From one offset at most one record is found. -/
theorem Finds.unique
    {record' : Nat}
    (finds : Finds memory limit size type start record)
    (finds' : Finds memory limit size type start record') :
    record = record' := by
  obtain ⟨passes, ends⟩ := finds
  induction passes using ReflTransGen.head_induction_on with
  | refl =>
      rcases ReflTransGen.cases_head finds'.1 with same | ⟨_, pass, _⟩
      · exact same
      · exact absurd pass ends.not_passes
  | head pass _ inductionHypothesis =>
      exact inductionHypothesis (pass.finds_iff.mp finds')

/-- A search that finds a record does not fail. -/
theorem Finds.not_fails
    (finds : Finds memory limit size type start record) :
    ¬ Fails memory limit size type start := by
  rintro ⟨short, passes, tooShort⟩
  induction passes using ReflTransGen.head_induction_on with
  | refl =>
      rcases ReflTransGen.cases_head finds.1 with same | ⟨_, pass, _⟩
      · subst same
        exact absurd finds.2.long (by omega)
      · exact absurd pass.long (by omega)
  | head pass _ inductionHypothesis =>
      exact inductionHypothesis (pass.finds_iff.mp finds)

/-- A search inside the limit stays inside, and never goes back. -/
theorem Finds.bounds
    (finds : Finds memory limit size type start record)
    (inside : start < limit) :
    start ≤ record ∧ record < limit := by
  have passes := finds.1
  clear finds
  induction passes with
  | refl => exact ⟨Nat.le_refl _, inside⟩
  | tail _ pass inductionHypothesis =>
      have follows := pass.follows
      unfold next at follows
      exact ⟨by omega, pass.inside⟩

/-! ## Records in a memory -/

/-- A record of some type; its length byte counts itself and the type. -/
structure Record where
  type : UInt8
  payload : List UInt8
  fits : payload.length + 2 < 256

namespace Record

/-- The value of the length byte. -/
def length (record : Record) : Nat :=
  record.payload.length + 2

def bytes (record : Record) : List UInt8 :=
  UInt8.ofNat record.length :: record.type :: record.payload

theorem bytes_length
    (record : Record) :
    record.bytes.length = record.length :=
  rfl

theorem length_toNat
    (record : Record) :
    (UInt8.ofNat record.length).toNat = record.length := by
  rw [UInt8.toNat_ofNat']
  exact Nat.mod_eq_of_lt record.fits

/-- A record lies in the memory. -/
structure HeldAt
    (memory : Nat → UInt8)
    (start : Nat)
    (record : Record) : Prop where
  length : memory start = UInt8.ofNat record.length
  type : memory (start + 1) = record.type
  payload :
    ∀ index byte,
      record.payload[index]? = some byte →
      memory (start + 2 + index) = byte

theorem HeldAt.next
    {record : Record}
    (held : record.HeldAt memory start) :
    next memory start = start + record.length := by
  unfold LengthPrefixed.next
  rw [held.length, length_toNat]

end Record

/-- From an offset on, up to the limit, the memory holds just these records. -/
def Remains (memory : Nat → UInt8) (limit : Nat) : Nat → List Record → Prop
  | start, [] => start = limit
  | start, record :: rest =>
      record.HeldAt memory start ∧
        Remains memory limit (start + record.length) rest

/-- How many bytes some records take. -/
def recordsLength : List Record → Nat
  | [] => 0
  | record :: rest => record.length + recordsLength rest

theorem Remains.limit_eq
    {records : List Record}
    (remains : Remains memory limit start records) :
    limit = start + recordsLength records := by
  induction records generalizing start with
  | nil => exact remains.symm
  | cons record rest inductionHypothesis =>
      have later := inductionHypothesis remains.2
      simp only [recordsLength] at later ⊢
      omega

/-- Where there is another record, the data has not ended. -/
theorem Remains.inside
    {records : List Record}
    (remains : Remains memory limit start records)
    (more : records ≠ []) :
    start < limit := by
  have eq := remains.limit_eq
  cases records with
  | nil => exact absurd rfl more
  | cons first rest =>
      simp only [recordsLength, Record.length] at eq
      omega

/-- What remains behind some records. -/
theorem Remains.append
    {first later : List Record}
    (remains : Remains memory limit start (first ++ later)) :
    Remains memory limit (start + recordsLength first) later := by
  induction first generalizing start with
  | nil => exact remains
  | cons record rest inductionHypothesis =>
      have behind := inductionHypothesis remains.2
      simp only [recordsLength] at behind ⊢
      rwa [Nat.add_assoc] at behind

/-- Records whose bytes lie in the memory remain up to their end. -/
theorem remains_of_bytes
    (records : List Record)
    (start : Nat)
    (held :
      ∀ index byte,
        (records.flatMap Record.bytes)[index]? = some byte →
        memory (start + index) = byte) :
    Remains memory (start + recordsLength records) start records := by
  induction records generalizing start with
  | nil => rfl
  | cons record rest inductionHypothesis =>
      simp only [List.flatMap_cons] at held
      constructor
      · refine ⟨held 0 _ rfl, held 1 _ rfl, ?_⟩
        intro index byte found
        rw [Nat.add_assoc]
        apply held
        rw [Nat.add_comm 2 index]
        have inside : index < record.payload.length :=
          (List.getElem?_eq_some_iff.mp found).1
        rw [List.getElem?_append_left (by
          rw [record.bytes_length, Record.length]
          omega)]
        exact found
      · have later :=
          inductionHypothesis (start + record.length) fun index byte found => by
            rw [Nat.add_assoc]
            apply held
            rw [← record.bytes_length,
              List.getElem?_append_right (Nat.le_add_right _ _),
              Nat.add_sub_cancel_left]
            exact found
        simp only [recordsLength]
        rw [← Nat.add_assoc]
        exact later

theorem recordsLength_eq
    (records : List Record) :
    recordsLength records = (records.flatMap Record.bytes).length := by
  induction records with
  | nil => rfl
  | cons record rest inductionHypothesis =>
      rw [List.flatMap_cons, List.length_append, ← inductionHypothesis,
        record.bytes_length]
      rfl

/--
A search passes records of other types and finds the first of its type, unless
one of them is too short.
-/
theorem Remains.finds_iff
    {pending rest : List Record}
    {target : Record}
    {found : Nat}
    (remains :
      Remains memory limit start (pending ++ target :: rest))
    (others : ∀ record, record ∈ pending → record.type ≠ type)
    (typed : target.type = type)
    (long : size ≤ target.length) :
    Finds memory limit size type start found ↔
      (∀ record, record ∈ pending → size ≤ record.length) ∧
        found = start + recordsLength pending := by
  induction pending generalizing start with
  | nil =>
      have held := remains.1
      have ends : Ends memory limit size type start :=
        ⟨by rwa [held.length, target.length_toNat],
          fun _ => held.type.trans typed⟩
      constructor
      · intro finds
        exact ⟨by simp, finds.unique ends.finds⟩
      · rintro ⟨_, same⟩
        rw [same]
        exact ends.finds
  | cons record pending inductionHypothesis =>
      have held := remains.1
      by_cases short : record.length < size
      · constructor
        · intro finds
          refine absurd ⟨start, .refl, ?_⟩ finds.not_fails
          rwa [held.length, record.length_toNat]
        · rintro ⟨allLong, _⟩
          exact absurd (allLong record (by simp)) (by omega)
      · have further : start + record.length < limit :=
          Remains.inside remains.2 (by simp)
        have pass :
            Passes memory limit size type start
              (start + record.length) := by
          refine ⟨?_, held.next.symm, further, ?_⟩
          · rw [held.length, record.length_toNat]
            omega
          · rw [held.type]
            exact others record (by simp)
        rw [pass.finds_iff,
          inductionHypothesis remains.2 fun other member =>
            others other (List.mem_cons_of_mem _ member)]
        simp only [List.forall_mem_cons, recordsLength]
        constructor
        · rintro ⟨allLong, same⟩
          exact ⟨⟨by omega, allLong⟩, by omega⟩
        · rintro ⟨⟨_, allLong⟩, same⟩
          exact ⟨allLong, by omega⟩

end LengthPrefixed
