import Cdba.UsbDescriptors

namespace Cdba

/-!
# Where the descriptor walk goes

The walk of `parse_usb_desc` as relations on the bytes: which records its
rounds end at, which ones it takes for the endpoints of an interface, and where
it goes on behind them.  The loops of the function follow these relations.
-/

open Reading LengthPrefixed

section Walk

variable
  (desc : Nat → UInt8)
  (descEnd : Nat)

/-! ## Endpoints -/

/-- The record at an offset has the attributes of a bulk endpoint. -/
def IsBulk (ept : Nat) : Prop :=
  desc (ept + 3) &&& usbEndpointXfertypeMask = usbEndpointXferBulk

instance (ept : Nat) : Decidable (IsBulk desc ept) :=
  inferInstanceAs (Decidable (_ = _))

/-- The record at an offset has the address of an IN endpoint. -/
def IsDirIn (ept : Nat) : Prop :=
  desc (ept + 2) &&& usbDirIn ≠ 0

instance (ept : Nat) : Decidable (IsDirIn desc ept) :=
  inferInstanceAs (Decidable (_ ≠ _))

/-- A record is followed by what looks like a companion descriptor. -/
def HasCompanion (ept : Nat) : Prop :=
  next desc ept < descEnd ∧
    desc (next desc ept + 1) = usbDtSsEndpointComp

instance (ept : Nat) : Decidable (HasCompanion desc descEnd ept) :=
  inferInstanceAs (Decidable (_ ∧ _))

/-- Where the walk goes on behind a record taken for an endpoint. -/
def behindEndpoint (ept : Nat) : Nat :=
  if IsBulk desc ept ∧ HasCompanion desc descEnd ept then
    next desc ept + usbDtSsEpCompSize
  else
    next desc ept

/-- The last bulk records that were taken, by direction. -/
structure LastBulk where
  bulkIn : Option Nat
  bulkOut : Option Nat

/-- No bulk record was taken yet. -/
def LastBulk.none : LastBulk :=
  ⟨.none, .none⟩

/-- Take a record for an endpoint. -/
def LastBulk.take (ept : Nat) (last : LastBulk) : LastBulk :=
  if IsBulk desc ept then
    if IsDirIn desc ept then
      { last with bulkIn := some ept }
    else
      { last with bulkOut := some ept }
  else
    last

/-- `in` or `out` after some records were taken. -/
def bulkAddress : Option Nat → UInt32
  | .none => 0xffffffff
  | some ept => (desc (ept + 2)).toUInt32

/-- `in` and `out` after some records were taken. -/
def LastBulk.endpoints (last : LastBulk) : Endpoints :=
  ⟨bulkAddress desc last.bulkIn, bulkAddress desc last.bulkOut⟩

/-- A search for an endpoint from an offset ends at a record. -/
abbrev FindsEndpoint (ptr ept : Nat) : Prop :=
  Finds desc descEnd usbDtEndpointSize usbDtEndpoint ptr ept

/-- `bNumEndpoints` -/
def bNumEndpoints (ifc : Nat) : Nat :=
  (desc (ifc + 4)).toNat

/-- Where the walk is when it has taken some endpoints of an interface. -/
inductive TakenAt (ifc : Nat) : Nat → Nat → LastBulk → Prop where
  | none : TakenAt ifc 0 (next desc ifc) .none
  | next
      {count ptr ept : Nat}
      {last : LastBulk}
      (taken : TakenAt ifc count ptr last)
      (more : count < bNumEndpoints desc ifc)
      (inside : ptr < descEnd)
      (found : FindsEndpoint desc descEnd ptr ept)
      (further : IsBulk desc ept → next desc ept < descEnd) :
      TakenAt ifc (count + 1) (behindEndpoint desc descEnd ept)
        (last.take desc ept)

/-- The walk takes a record for an endpoint of an interface. -/
def TakesEndpoint (ifc ept : Nat) : Prop :=
  ∃ count ptr last,
    TakenAt desc descEnd ifc count ptr last ∧
      count < bNumEndpoints desc ifc ∧
      ptr < descEnd ∧
      FindsEndpoint desc descEnd ptr ept

/--
Where the walk goes on when the endpoints of an interface are taken: all of
them, or those up to a bulk endpoint at the end of the data.
-/
inductive TakesEndpoints (ifc : Nat) : Nat → LastBulk → Prop where
  | all
      {ptr : Nat}
      {last : LastBulk}
      (taken : TakenAt desc descEnd ifc (bNumEndpoints desc ifc) ptr last) :
      TakesEndpoints ifc ptr last
  | upTo
      {count ptr ept : Nat}
      {last : LastBulk}
      (taken : TakenAt desc descEnd ifc count ptr last)
      (more : count < bNumEndpoints desc ifc)
      (inside : ptr < descEnd)
      (found : FindsEndpoint desc descEnd ptr ept)
      (bulk : IsBulk desc ept)
      (atEnd : descEnd ≤ next desc ept) :
      TakesEndpoints ifc (next desc ept) (last.take desc ept)

/-! ## Interfaces -/

/-- The record at an offset has the class of a fastboot interface. -/
structure IsFastboot (ifc : Nat) : Prop where
  bInterfaceClass : desc (ifc + 5) = 0xff
  bInterfaceSubClass : desc (ifc + 6) = 0x42
  bInterfaceProtocol : desc (ifc + 7) = 0x03

/-- Round `k` claims the interface of a record. -/
def Claims
    (claim : Nat → UInt8 → Bool)
    (k ifc : Nat) :
    Prop :=
  IsFastboot desc ifc ∧ claim k (desc (ifc + 2)) = true

/-- `bNumInterfaces` -/
def bNumInterfaces : Nat :=
  (desc (next desc 0 + 4)).toNat

/-- The device and configuration descriptors are accepted. -/
structure AcceptsHeader : Prop where
  devInside : next desc 0 < descEnd
  devType : desc 1 = usbDtDevice
  cfgInside : next desc (next desc 0) < descEnd
  cfgType : desc (next desc 0 + 1) = usbDtConfig

/-- A search for an interface from an offset ends at a record. -/
abbrev FindsInterface (ptr ifc : Nat) : Prop :=
  Finds desc descEnd usbDtInterfaceSize usbDtInterface ptr ifc

/-- Where the walk is before a round of the outer loop. -/
inductive RoundAt (claim : Nat → UInt8 → Bool) : Nat → Nat → Prop where
  | first
      (header : AcceptsHeader desc descEnd) :
      RoundAt claim 0 (next desc (next desc 0))
  | next
      {k ptr ifc ptr' : Nat}
      {last : LastBulk}
      (round : RoundAt claim k ptr)
      (more : k < bNumInterfaces desc)
      (inside : ptr < descEnd)
      (found : FindsInterface desc descEnd ptr ifc)
      (takes : TakesEndpoints desc descEnd ifc ptr' last)
      (skips : ¬ Claims desc claim k ifc) :
      RoundAt claim (k + 1) ptr'

/-- Round `k` ends at a record taken for an interface. -/
def ReachesInterface
    (claim : Nat → UInt8 → Bool)
    (k ifc : Nat) : Prop :=
  ∃ ptr,
    RoundAt desc descEnd claim k ptr ∧
      k < bNumInterfaces desc ∧
      ptr < descEnd ∧
      FindsInterface desc descEnd ptr ifc

end Walk

variable
  {desc : Nat → UInt8}
  {descEnd size : Nat}
  {type : UInt8}
  {claim : Nat → UInt8 → Bool}

/-! ## The searches follow the records -/

/-- A search ends at a record, or at one that is too short. -/
inductive SearchEnds
    (desc : Nat → UInt8)
    (descEnd size : Nat)
    (type : UInt8)
    (ptr : Nat) :
    Except UsbError FoundDescriptor → Prop where
  | found
      {record : Nat}
      (finds : Finds desc descEnd size type ptr record) :
      SearchEnds desc descEnd size type ptr
        (.ok ⟨record, next desc record⟩)
  | short
      (fails : Fails desc descEnd size type ptr) :
      SearchEnds desc descEnd size type ptr (.error .einval)

theorem searchEnds_of_passes
    {ptr following : Nat}
    (pass : Passes desc descEnd size type ptr following)
    (outcome : Except UsbError FoundDescriptor)
    (ends : SearchEnds desc descEnd size type following outcome) :
    SearchEnds desc descEnd size type ptr outcome := by
  cases ends with
  | found finds => exact .found (pass.finds_iff.mpr finds)
  | short fails => exact .short (pass.fails fails)

/-- A search from inside the data examines nothing beyond it. -/
theorem searchDescriptor_within
    (desc : Nat → UInt8)
    (type : UInt8)
    (two : 2 ≤ size)
    (budget ptr : Nat)
    (inside : ptr < descEnd)
    (enough : descEnd ≤ ptr + budget) :
    Within (· < descEnd) (SearchEnds desc descEnd size type ptr)
      (searchDescriptor desc descEnd size type budget ptr) := by
  induction budget generalizing ptr with
  | zero => omega
  | succ budget inductionHypothesis =>
      unfold searchDescriptor
      refine Within.examine inside ?_
      by_cases short : (desc ptr).toNat < size
      · rw [if_pos short]
        exact .stop (.short ⟨ptr, .refl, short⟩)
      · rw [if_neg short]
        by_cases atEnd : descEnd ≤ ptr + (desc ptr).toNat
        · rw [if_pos atEnd]
          have notFurther : ¬ next desc ptr < descEnd := by
            unfold next
            omega
          have ends : Ends desc descEnd size type ptr :=
            ⟨by omega, fun further => absurd further notFurther⟩
          exact .pure (.found ends.finds)
        · rw [if_neg atEnd]
          refine Within.examine (by omega) ?_
          by_cases typed : desc (ptr + 1) = type
          · rw [if_pos typed]
            have ends : Ends desc descEnd size type ptr :=
              ⟨by omega, fun _ => typed⟩
            exact .pure (.found ends.finds)
          · rw [if_neg typed]
            have pass :
                Passes desc descEnd size type ptr
                  (ptr + (desc ptr).toNat) :=
              ⟨by omega, rfl, by omega, typed⟩
            have later :=
              inductionHypothesis (ptr + (desc ptr).toNat) (by omega)
                (by omega)
            exact later.mono (fun _ => id) (searchEnds_of_passes pass)

/-- The search from an offset inside the data, with enough of a budget. -/
theorem searchDescriptor_spec
    (desc : Nat → UInt8)
    (type : UInt8)
    (two : 2 ≤ size)
    {ptr : Nat}
    (inside : ptr < descEnd) :
    Within (· < descEnd) (SearchEnds desc descEnd size type ptr)
      (searchDescriptor desc descEnd size type descEnd ptr) :=
  searchDescriptor_within desc type two descEnd ptr inside (by omega)

/-- A search that finds a record returns it. -/
theorem searchDescriptor_finds
    (two : 2 ≤ size)
    {ptr record : Nat}
    (inside : ptr < descEnd)
    (finds : Finds desc descEnd size type ptr record) :
    (searchDescriptor desc descEnd size type descEnd ptr).outcome =
      .ok ⟨record, next desc record⟩ := by
  have ends := (searchDescriptor_spec desc type two inside).outcome
  cases outcome :
      (searchDescriptor desc descEnd size type descEnd ptr).outcome with
  | ok found =>
      rw [outcome] at ends
      cases ends with
      | found found' => rw [finds.unique found']
  | error reason =>
      rw [outcome] at ends
      cases ends with
      | short fails => exact absurd fails finds.not_fails

/-! ## The loop over the endpoints -/

section Endpoints

variable
  {ifc count ptr ptr' ept : Nat}
  {last last' : LastBulk}

/-- What the walk examines of a record that it takes for an endpoint. -/
def endpointFields
    (desc : Nat → UInt8)
    (descEnd ept : Nat) :
    List Nat :=
  (ept + 3) ::
    if IsBulk desc ept then
      (ept + 2) ::
        if descEnd ≤ next desc ept then [] else [next desc ept + 1]
    else
      []

theorem LastBulk.take_of_bulk
    (bulk : IsBulk desc ept)
    (last : LastBulk) :
    (last.take desc ept).endpoints desc =
      if desc (ept + 2) &&& usbDirIn ≠ 0 then
        { last.endpoints desc with epIn := (desc (ept + 2)).toUInt32 }
      else
        { last.endpoints desc with epOut := (desc (ept + 2)).toUInt32 } := by
  unfold LastBulk.take
  rw [if_pos bulk]
  by_cases dirIn : IsDirIn desc ept
  · have address : desc (ept + 2) &&& usbDirIn ≠ 0 := dirIn
    rw [if_pos dirIn, if_pos address]
    rfl
  · have address : ¬ desc (ept + 2) &&& usbDirIn ≠ 0 := dirIn
    rw [if_neg dirIn, if_neg address]
    rfl

theorem LastBulk.take_of_not_bulk
    (other : ¬ IsBulk desc ept)
    (last : LastBulk) :
    last.take desc ept = last :=
  if_neg other

theorem behindEndpoint_of_not_bulk
    (other : ¬ IsBulk desc ept) :
    behindEndpoint desc descEnd ept = next desc ept :=
  if_neg fun both => other both.1

theorem behindEndpoint_of_bulk
    (bulk : IsBulk desc ept)
    (inside : next desc ept < descEnd) :
    behindEndpoint desc descEnd ept =
      if desc (next desc ept + 1) = usbDtSsEndpointComp then
        next desc ept + usbDtSsEpCompSize
      else
        next desc ept := by
  simp only [behindEndpoint, HasCompanion, bulk, inside, true_and]

/-- The search for an endpoint. -/
abbrev searchEndpoint
    (desc : Nat → UInt8)
    (descEnd ptr : Nat) :
    Reading UsbError FoundDescriptor :=
  searchDescriptor desc descEnd usbDtEndpointSize usbDtEndpoint descEnd ptr

/-- One round of the loop takes the record that is found. -/
theorem endpointsLoop_step
    (left : Nat)
    (last : LastBulk)
    (inside : ptr < descEnd)
    (found : FindsEndpoint desc descEnd ptr ept) :
    endpointsLoop desc descEnd (left + 1) ptr (last.endpoints desc) =
      (if IsBulk desc ept ∧ descEnd ≤ next desc ept then
        pure ⟨next desc ept, (last.take desc ept).endpoints desc⟩
      else
        endpointsLoop desc descEnd left
          (behindEndpoint desc descEnd ept)
          ((last.take desc ept).endpoints desc)).after
        ((searchEndpoint desc descEnd ptr).examined ++
          endpointFields desc descEnd ept) := by
  rw [endpointsLoop, if_neg (by omega),
    bind_of_ok (searchDescriptor_finds (by decide) inside found),
    examine_bind]
  unfold endpointFields
  by_cases bulk : IsBulk desc ept
  · have attributes :
        ¬ desc (ept + 3) &&& usbEndpointXfertypeMask ≠
          usbEndpointXferBulk :=
      not_not.mpr bulk
    dsimp only
    rw [if_neg attributes, examine_bind, if_pos bulk,
      ← LastBulk.take_of_bulk bulk]
    by_cases atEnd : descEnd ≤ next desc ept
    · rw [if_pos atEnd, if_pos atEnd, if_pos ⟨bulk, atEnd⟩, after_after,
        after_after]
      simp only [List.append_assoc, List.cons_append, List.nil_append]
    · rw [if_neg atEnd, if_neg atEnd, if_neg fun both => atEnd both.2,
        examine_bind, behindEndpoint_of_bulk bulk (by omega), after_after,
        after_after, after_after]
      simp only [List.append_assoc, List.cons_append, List.nil_append]
  · have attributes :
        desc (ept + 3) &&& usbEndpointXfertypeMask ≠
          usbEndpointXferBulk :=
      bulk
    dsimp only
    rw [if_pos attributes, if_neg bulk, if_neg fun both => bulk both.1,
      behindEndpoint_of_not_bulk bulk, LastBulk.take_of_not_bulk bulk,
      after_after]

/-- The loop goes on from where some endpoints are taken. -/
theorem endpointsLoop_of_takenAt
    (taken : TakenAt desc descEnd ifc count ptr last)
    (few : count ≤ bNumEndpoints desc ifc) :
    ∃ offsets,
      endpointsLoop desc descEnd (bNumEndpoints desc ifc) (next desc ifc)
          .unset =
        (endpointsLoop desc descEnd (bNumEndpoints desc ifc - count) ptr
          (last.endpoints desc)).after offsets := by
  induction taken with
  | none =>
      exact ⟨[], rfl⟩
  | next taken more inside found further inductionHypothesis =>
      rename_i count ptr ept last
      obtain ⟨offsets, before⟩ := inductionHypothesis (by omega)
      have step :=
        endpointsLoop_step (bNumEndpoints desc ifc - (count + 1)) last
          inside found
      have left :
          bNumEndpoints desc ifc - count =
            bNumEndpoints desc ifc - (count + 1) + 1 := by
        omega
      rw [if_neg fun both => absurd (further both.1) (by omega)] at step
      rw [before, left, step, after_after]
      exact ⟨_, rfl⟩

/-- The loop takes the record that it finds next. -/
theorem endpointsLoop_taking
    (taken : TakenAt desc descEnd ifc count ptr last)
    (more : count < bNumEndpoints desc ifc)
    (inside : ptr < descEnd)
    (found : FindsEndpoint desc descEnd ptr ept) :
    ∃ offsets,
      endpointsLoop desc descEnd (bNumEndpoints desc ifc) (next desc ifc)
          .unset =
        (if IsBulk desc ept ∧ descEnd ≤ next desc ept then
          pure ⟨next desc ept, (last.take desc ept).endpoints desc⟩
        else
          endpointsLoop desc descEnd (bNumEndpoints desc ifc - (count + 1))
            (behindEndpoint desc descEnd ept)
            ((last.take desc ept).endpoints desc)).after
          (offsets ++ endpointFields desc descEnd ept) := by
  obtain ⟨offsets, loop⟩ := endpointsLoop_of_takenAt taken (by omega)
  have step :=
    endpointsLoop_step (bNumEndpoints desc ifc - (count + 1)) last
      inside found
  have left :
      bNumEndpoints desc ifc - count =
        bNumEndpoints desc ifc - (count + 1) + 1 := by
    omega
  rw [loop, left, step, after_after, ← List.append_assoc]
  exact ⟨_, rfl⟩

/-- The loop returns where the endpoints are taken. -/
theorem endpointsLoop_of_takes
    (takes : TakesEndpoints desc descEnd ifc ptr last) :
    ∃ offsets,
      endpointsLoop desc descEnd (bNumEndpoints desc ifc) (next desc ifc)
          .unset =
        ⟨offsets, .ok ⟨ptr, last.endpoints desc⟩⟩ := by
  cases takes with
  | all taken =>
      obtain ⟨offsets, loop⟩ :=
        endpointsLoop_of_takenAt taken (Nat.le_refl _)
      rw [Nat.sub_self] at loop
      exact ⟨_, loop⟩
  | upTo taken more inside found bulk atEnd =>
      obtain ⟨offsets, loop⟩ := endpointsLoop_taking taken more inside found
      rw [if_pos ⟨bulk, atEnd⟩] at loop
      exact ⟨_, loop⟩

/-- The loop examines the fields of each record that it takes. -/
theorem endpointsLoop_examines
    {offset : Nat}
    (takes : TakesEndpoint desc descEnd ifc ept)
    (field : offset ∈ endpointFields desc descEnd ept) :
    offset ∈
      (endpointsLoop desc descEnd (bNumEndpoints desc ifc)
        (next desc ifc) .unset).examined := by
  obtain ⟨count, ptr, last, taken, more, inside, found⟩ := takes
  obtain ⟨offsets, loop⟩ := endpointsLoop_taking taken more inside found
  rw [loop]
  simp [field]

/-- An offset in the data, or a field of a record taken for an endpoint. -/
def EndpointOffset
    (desc : Nat → UInt8)
    (descEnd ifc offset : Nat) : Prop :=
  offset < descEnd ∨
    ∃ ept,
      TakesEndpoint desc descEnd ifc ept ∧
        offset ∈ endpointFields desc descEnd ept

/-- The loop returns where the endpoints are taken, or stops with an error. -/
inductive EndpointsEnd
    (desc : Nat → UInt8)
    (descEnd ifc : Nat) :
    Except UsbError FoundEndpoints → Prop where
  | taken
      {ptr : Nat}
      {last : LastBulk}
      (takes : TakesEndpoints desc descEnd ifc ptr last) :
      EndpointsEnd desc descEnd ifc (.ok ⟨ptr, last.endpoints desc⟩)
  | einval : EndpointsEnd desc descEnd ifc (.error .einval)

/-- How the loop goes on from where some endpoints are taken. -/
theorem endpointsLoop_spec
    (left : Nat)
    (total : count + left = bNumEndpoints desc ifc)
    (taken : TakenAt desc descEnd ifc count ptr last) :
    Within (EndpointOffset desc descEnd ifc) (EndpointsEnd desc descEnd ifc)
      (endpointsLoop desc descEnd left ptr (last.endpoints desc)) := by
  induction left generalizing count ptr last with
  | zero =>
      have all : count = bNumEndpoints desc ifc := by omega
      subst all
      exact .pure (.taken (.all taken))
  | succ left inductionHypothesis =>
      have more : count < bNumEndpoints desc ifc := by omega
      by_cases past : descEnd ≤ ptr
      · rw [endpointsLoop, if_pos past]
        exact .stop .einval
      · have inside : ptr < descEnd := by omega
        have search :=
          searchDescriptor_spec desc usbDtEndpoint
            (show 2 ≤ usbDtEndpointSize by decide) inside
        cases outcome : (searchEndpoint desc descEnd ptr).outcome with
        | error reason =>
            have ends := search.outcome
            rw [outcome] at ends
            cases ends
            rw [endpointsLoop, if_neg past, bind_of_error outcome]
            exact ⟨fun offset member => .inl (search.examined offset member),
              .einval⟩
        | ok found =>
            have ends := search.outcome
            rw [outcome] at ends
            cases ends with
            | found finds =>
                rename_i ept
                rw [endpointsLoop_step left last inside finds]
                apply Within.after
                · intro offset member
                  exact (List.mem_append.mp member).imp
                    (search.examined offset)
                    fun field =>
                      ⟨ept, ⟨count, ptr, last, taken, more, inside, finds⟩,
                        field⟩
                · by_cases final : IsBulk desc ept ∧ descEnd ≤ next desc ept
                  · rw [if_pos final]
                    exact .pure (.taken
                      (.upTo taken more inside finds final.1 final.2))
                  · rw [if_neg final]
                    have further :
                        IsBulk desc ept → next desc ept < descEnd := by
                      intro bulk
                      exact Nat.lt_of_not_le fun atEnd =>
                        final ⟨bulk, atEnd⟩
                    exact inductionHypothesis (by omega)
                      (.next taken more inside finds further)

/-- Endpoints are only looked for inside the data. -/
theorem takenAt_inside
    (taken : TakenAt desc descEnd ifc count ptr last)
    (positive : 0 < count) :
    next desc ifc < descEnd := by
  induction taken with
  | none => omega
  | next taken more inside found further inductionHypothesis =>
      rename_i count ptr ept last
      rcases Nat.eq_zero_or_pos count with zero | earlier
      · subst zero
        cases taken
        exact inside
      · exact inductionHypothesis earlier

theorem takesEndpoints_inside
    (takes : TakesEndpoints desc descEnd ifc ptr last)
    (positive : 0 < bNumEndpoints desc ifc) :
    next desc ifc < descEnd := by
  cases takes with
  | all taken => exact takenAt_inside taken positive
  | upTo taken more inside found bulk atEnd =>
      rename_i count ptr ept last
      rcases Nat.eq_zero_or_pos count with zero | earlier
      · subst zero
        cases taken
        exact inside
      · exact takenAt_inside taken earlier

end Endpoints

/-! ## The loop over the interfaces -/

section Interfaces

variable
  {k ifc ptr ptr' : Nat}
  {last : LastBulk}

/-- What the walk examines of the class of a record, and then of its number. -/
def classFields (desc : Nat → UInt8) (ifc : Nat) : List Nat :=
  (ifc + 5) ::
    if desc (ifc + 5) = 0xff then
      (ifc + 6) ::
        if desc (ifc + 6) = 0x42 then
          (ifc + 7) :: if desc (ifc + 7) = 0x03 then [ifc + 2] else []
        else
          []
    else
      []

theorem claimInterface_claims
    (claims : Claims desc claim k ifc) :
    claimInterface desc (claim k) ifc =
      ⟨classFields desc ifc, .ok (some (desc (ifc + 2)))⟩ := by
  obtain ⟨⟨cls, sub, proto⟩, claimed⟩ := claims
  simp [claimInterface, classFields, cls, sub, proto, claimed]
  rfl

theorem claimInterface_skips
    (skips : ¬ Claims desc claim k ifc) :
    claimInterface desc (claim k) ifc =
      ⟨classFields desc ifc, .ok none⟩ := by
  unfold claimInterface classFields
  rw [examine_bind]
  by_cases cls : desc (ifc + 5) = 0xff
  · rw [if_neg (not_not.mpr cls), if_pos cls, examine_bind]
    by_cases sub : desc (ifc + 6) = 0x42
    · rw [if_neg (not_not.mpr sub), if_pos sub, examine_bind]
      by_cases proto : desc (ifc + 7) = 0x03
      · rw [if_neg (not_not.mpr proto), if_pos proto, examine_bind,
          if_neg fun claimed => skips ⟨⟨cls, sub, proto⟩, claimed⟩]
        rfl
      · rw [if_pos proto, if_neg proto]
        rfl
    · rw [if_pos sub, if_neg sub]
      rfl
  · rw [if_pos cls, if_neg cls]
    rfl

/-- A field of a record that the walk reaches. -/
inductive ReachesField
    (desc : Nat → UInt8)
    (descEnd : Nat)
    (claim : Nat → UInt8 → Bool) :
    Nat → Prop where
  | count
      {k ifc : Nat}
      (reaches : ReachesInterface desc descEnd claim k ifc) :
      ReachesField desc descEnd claim (ifc + 4)
  | endpoint
      {k ifc ept offset : Nat}
      (reaches : ReachesInterface desc descEnd claim k ifc)
      (takes : TakesEndpoint desc descEnd ifc ept)
      (field : offset ∈ endpointFields desc descEnd ept) :
      ReachesField desc descEnd claim offset
  | cls
      {k ifc ptr offset : Nat}
      {last : LastBulk}
      (reaches : ReachesInterface desc descEnd claim k ifc)
      (takes : TakesEndpoints desc descEnd ifc ptr last)
      (field : offset ∈ classFields desc ifc) :
      ReachesField desc descEnd claim offset

/-- What becomes of an interface when its endpoints are taken. -/
def settleInterface
    (desc : Nat → UInt8)
    (descEnd : Nat)
    (claim : Nat → UInt8 → Bool)
    (left k ifc : Nat)
    (found : FoundEndpoints) :
    Reading UsbError ClaimedInterface := do
  let claimed ← claimInterface desc (claim k) ifc
  match claimed with
  | some id => pure ⟨ifc, id, found.endpoints⟩
  | none => interfacesLoop desc descEnd claim left (k + 1) found.ptr

/-- The search for an interface. -/
abbrev searchInterface
    (desc : Nat → UInt8)
    (descEnd ptr : Nat) :
    Reading UsbError FoundDescriptor :=
  searchDescriptor desc descEnd usbDtInterfaceSize usbDtInterface descEnd ptr

/-- One round of the loop takes the endpoints of the interface it finds. -/
theorem interfacesLoop_step
    (claim : Nat → UInt8 → Bool)
    (left k : Nat)
    (inside : ptr < descEnd)
    (found : FindsInterface desc descEnd ptr ifc) :
    interfacesLoop desc descEnd claim (left + 1) k ptr =
      (endpointsLoop desc descEnd (bNumEndpoints desc ifc)
          (next desc ifc) .unset >>=
        settleInterface desc descEnd claim left k ifc).after
        ((searchInterface desc descEnd ptr).examined ++ [ifc + 4]) := by
  rw [interfacesLoop, if_neg (by omega),
    bind_of_ok (searchDescriptor_finds (by decide) inside found),
    examine_bind, after_after]
  rfl

theorem settleInterface_claims
    (claims : Claims desc claim k ifc)
    (left : Nat)
    (found : FoundEndpoints) :
    settleInterface desc descEnd claim left k ifc found =
      ⟨classFields desc ifc,
        .ok ⟨ifc, desc (ifc + 2), found.endpoints⟩⟩ := by
  rw [settleInterface, claimInterface_claims claims, bind_of_ok rfl]
  simp only [after, pure, List.append_nil]

theorem settleInterface_skips
    (skips : ¬ Claims desc claim k ifc)
    (left : Nat)
    (found : FoundEndpoints) :
    settleInterface desc descEnd claim left k ifc found =
      (interfacesLoop desc descEnd claim left (k + 1) found.ptr).after
        (classFields desc ifc) := by
  rw [settleInterface, claimInterface_skips skips, bind_of_ok rfl]

/-! ## The whole walk -/

/-- The walk enters the loop behind accepted descriptors. -/
theorem walkDescriptors_of_header
    (claim : Nat → UInt8 → Bool)
    (header : AcceptsHeader desc descEnd) :
    walkDescriptors desc descEnd claim =
      (interfacesLoop desc descEnd claim (bNumInterfaces desc) 0
        (next desc (next desc 0))).after
        [0, 1, next desc 0, next desc 0 + 1, next desc 0 + 4] := by
  obtain ⟨devInside, devType, cfgInside, cfgType⟩ := header
  have dev : next desc 0 = (desc 0).toNat := Nat.zero_add _
  rw [dev] at devInside cfgInside cfgType ⊢
  unfold next at cfgInside
  unfold walkDescriptors
  rw [examine_bind, if_neg (by omega), examine_bind,
    if_neg (not_not.mpr devType), examine_bind]
  dsimp only
  rw [if_neg (by omega), examine_bind, if_neg (not_not.mpr cfgType),
    examine_bind, after_after, after_after, after_after, after_after,
    bNumInterfaces, dev]
  rfl

/-- The walk is in the loop where a round begins. -/
theorem walkDescriptors_of_roundAt
    (round : RoundAt desc descEnd claim k ptr)
    (few : k ≤ bNumInterfaces desc) :
    ∃ offsets,
      walkDescriptors desc descEnd claim =
        (interfacesLoop desc descEnd claim (bNumInterfaces desc - k) k
          ptr).after offsets := by
  induction round with
  | first header =>
      exact ⟨_, walkDescriptors_of_header claim header⟩
  | next round more inside found takes skips inductionHypothesis =>
      rename_i k ptr ifc ptr' last
      obtain ⟨offsets, before⟩ := inductionHypothesis (by omega)
      have step :=
        interfacesLoop_step claim (bNumInterfaces desc - (k + 1)) k inside
          found
      obtain ⟨taken, loop⟩ := endpointsLoop_of_takes takes
      have left :
          bNumInterfaces desc - k =
            bNumInterfaces desc - (k + 1) + 1 := by
        omega
      rw [loop, bind_of_ok rfl, settleInterface_skips skips] at step
      rw [before, left, step, after_after, after_after, after_after]
      exact ⟨_, rfl⟩

/-- The walk settles each interface that it reaches. -/
theorem walkDescriptors_of_reaches
    (reaches : ReachesInterface desc descEnd claim k ifc) :
    ∃ offsets,
      ifc + 4 ∈ offsets ∧
        walkDescriptors desc descEnd claim =
          (endpointsLoop desc descEnd (bNumEndpoints desc ifc)
              (next desc ifc) .unset >>=
            settleInterface desc descEnd claim
              (bNumInterfaces desc - (k + 1)) k ifc).after offsets := by
  obtain ⟨ptr, round, more, inside, found⟩ := reaches
  obtain ⟨offsets, before⟩ := walkDescriptors_of_roundAt round (by omega)
  have step :=
    interfacesLoop_step claim (bNumInterfaces desc - (k + 1)) k inside found
  have left :
      bNumInterfaces desc - k = bNumInterfaces desc - (k + 1) + 1 := by
    omega
  rw [before, left, step, after_after]
  exact ⟨_, by simp, rfl⟩

/-- The walk returns an interface that it reaches and claims. -/
theorem walkDescriptors_claims
    (reaches : ReachesInterface desc descEnd claim k ifc)
    (takes : TakesEndpoints desc descEnd ifc ptr last)
    (claims : Claims desc claim k ifc) :
    (walkDescriptors desc descEnd claim).outcome =
      .ok ⟨ifc, desc (ifc + 2), last.endpoints desc⟩ := by
  obtain ⟨offsets, _, walk⟩ := walkDescriptors_of_reaches reaches
  obtain ⟨taken, loop⟩ := endpointsLoop_of_takes takes
  rw [walk, loop, bind_of_ok rfl, settleInterface_claims claims]
  rfl

/-- The walk examines each field of a record that it reaches. -/
theorem walkDescriptors_examines
    {offset : Nat}
    (field : ReachesField desc descEnd claim offset) :
    offset ∈ (walkDescriptors desc descEnd claim).examined := by
  cases field with
  | count reaches =>
      obtain ⟨offsets, member, walk⟩ := walkDescriptors_of_reaches reaches
      rw [walk]
      exact List.mem_append_left _ member
  | endpoint reaches takes field =>
      obtain ⟨offsets, _, walk⟩ := walkDescriptors_of_reaches reaches
      rw [walk]
      apply List.mem_append_right
      apply mem_bind_of_first
      exact endpointsLoop_examines takes field
  | cls reaches takes field =>
      rename_i k ifc ptr last
      obtain ⟨offsets, _, walk⟩ := walkDescriptors_of_reaches reaches
      obtain ⟨taken, loop⟩ := endpointsLoop_of_takes takes
      rw [walk, loop, bind_of_ok rfl]
      by_cases claims : Claims desc claim k ifc
      · rw [settleInterface_claims claims]
        simp [field]
      · rw [settleInterface_skips claims]
        simp [field]

/-- How the walk may end. -/
inductive Settles
    (desc : Nat → UInt8)
    (descEnd : Nat)
    (claim : Nat → UInt8 → Bool) :
    Except UsbError ClaimedInterface → Prop where
  | claimed
      {k ifc ptr : Nat}
      {last : LastBulk}
      (reaches : ReachesInterface desc descEnd claim k ifc)
      (takes : TakesEndpoints desc descEnd ifc ptr last)
      (claims : Claims desc claim k ifc) :
      Settles desc descEnd claim
        (.ok ⟨ifc, desc (ifc + 2), last.endpoints desc⟩)
  | einval : Settles desc descEnd claim (.error .einval)
  | enoent : Settles desc descEnd claim (.error .enoent)

/-- An offset in the data, or a field of a record that the walk reaches. -/
def ReachedOffset
    (desc : Nat → UInt8)
    (descEnd : Nat)
    (claim : Nat → UInt8 → Bool)
    (offset : Nat) : Prop :=
  offset < descEnd ∨ ReachesField desc descEnd claim offset

/-- How the loop goes on from where a round begins. -/
theorem interfacesLoop_spec
    (left : Nat)
    (total : k + left = bNumInterfaces desc)
    (round : RoundAt desc descEnd claim k ptr) :
    Within (ReachedOffset desc descEnd claim) (Settles desc descEnd claim)
      (interfacesLoop desc descEnd claim left k ptr) := by
  induction left generalizing k ptr with
  | zero => exact .stop .enoent
  | succ left inductionHypothesis =>
      have more : k < bNumInterfaces desc := by omega
      by_cases past : descEnd ≤ ptr
      · rw [interfacesLoop, if_pos past]
        exact .stop .einval
      · have inside : ptr < descEnd := by omega
        have search :=
          searchDescriptor_spec desc usbDtInterface
            (show 2 ≤ usbDtInterfaceSize by decide) inside
        cases outcome : (searchInterface desc descEnd ptr).outcome with
        | error reason =>
            have ends := search.outcome
            rw [outcome] at ends
            cases ends
            rw [interfacesLoop, if_neg past, bind_of_error outcome]
            exact ⟨fun offset member => .inl (search.examined offset member),
              .einval⟩
        | ok found =>
            have ends := search.outcome
            rw [outcome] at ends
            cases ends with
            | found finds =>
                rename_i ifc
                have reaches : ReachesInterface desc descEnd claim k ifc :=
                  ⟨ptr, round, more, inside, finds⟩
                have untaken :
                    TakenAt desc descEnd ifc 0 (next desc ifc) .none :=
                  .none
                have endpoints :
                    Within (ReachedOffset desc descEnd claim)
                      (EndpointsEnd desc descEnd ifc)
                      (endpointsLoop desc descEnd (bNumEndpoints desc ifc)
                        (next desc ifc) .unset) := by
                  apply (endpointsLoop_spec _ (Nat.zero_add _) untaken).mono
                  · rintro offset (inData | ⟨ept, takes, field⟩)
                    · exact .inl inData
                    · exact .inr (.endpoint reaches takes field)
                  · exact fun _ => id
                rw [interfacesLoop_step claim left k inside finds]
                apply Within.after
                · intro offset member
                  rcases List.mem_append.mp member with searched | count
                  · exact .inl (search.examined offset searched)
                  · rw [List.mem_singleton.mp count]
                    exact .inr (.count reaches)
                · apply endpoints.bind
                  · intro value taken
                    cases taken with
                    | taken takes =>
                        rename_i ptr' last
                        have fields :
                            ∀ offset,
                              offset ∈ classFields desc ifc →
                              ReachedOffset desc descEnd claim offset :=
                          fun offset field => .inr (.cls reaches takes field)
                        by_cases claims : Claims desc claim k ifc
                        · rw [settleInterface_claims claims]
                          exact ⟨fields, .claimed reaches takes claims⟩
                        · rw [settleInterface_skips claims]
                          exact .after fields
                            (inductionHypothesis (by omega)
                              (.next round more inside finds takes claims))
                  · intro reason stops
                    cases stops
                    exact .einval

/-- What the walk examines of the device and configuration descriptors. -/
def headerFields (desc : Nat → UInt8) (descEnd : Nat) : List Nat :=
  0 ::
    if next desc 0 < descEnd then
      1 ::
        if desc 1 = usbDtDevice then
          next desc 0 ::
            if next desc (next desc 0) < descEnd then
              (next desc 0 + 1) ::
                if desc (next desc 0 + 1) = usbDtConfig then
                  [next desc 0 + 4]
                else
                  []
            else
              []
        else
          []
    else
      []

/-- Without accepted descriptors the walk ends in front of the loop. -/
theorem walkDescriptors_rejects
    (claim : Nat → UInt8 → Bool)
    (rejects : ¬ AcceptsHeader desc descEnd) :
    walkDescriptors desc descEnd claim =
      ⟨headerFields desc descEnd, .error .einval⟩ := by
  have dev : next desc 0 = (desc 0).toNat := Nat.zero_add _
  have cfg :
      next desc (next desc 0) =
        (desc 0).toNat + (desc (desc 0).toNat).toNat := by
    rw [dev, next]
  unfold walkDescriptors headerFields
  rw [examine_bind, cfg, dev]
  by_cases devInside : (desc 0).toNat < descEnd
  · rw [if_neg (by omega), if_pos devInside, examine_bind]
    by_cases devType : desc 1 = usbDtDevice
    · rw [if_neg (not_not.mpr devType), if_pos devType, examine_bind]
      dsimp only
      by_cases cfgInside :
          (desc 0).toNat + (desc (desc 0).toNat).toNat < descEnd
      · rw [if_neg (by omega), if_pos cfgInside, examine_bind]
        by_cases cfgType : desc ((desc 0).toNat + 1) = usbDtConfig
        · refine absurd ?_ rejects
          exact ⟨by omega, devType, by omega, by rwa [dev]⟩
        · rw [if_pos cfgType, if_neg cfgType]
          rfl
      · rw [if_pos (by omega), if_neg cfgInside]
        rfl
    · rw [if_pos devType, if_neg devType]
      rfl
  · rw [if_pos (by omega), if_neg devInside]
    rfl

theorem headerFields_of_header
    (header : AcceptsHeader desc descEnd) :
    headerFields desc descEnd =
      [0, 1, next desc 0, next desc 0 + 1, next desc 0 + 4] := by
  simp [headerFields, header.devInside, header.devType, header.cfgInside,
    header.cfgType]

/--
The walk examines the data, the header and the fields of the records that it
reaches, and ends with one of these that it claims or with an error.
-/
theorem walkDescriptors_spec
    (desc : Nat → UInt8)
    (descEnd : Nat)
    (claim : Nat → UInt8 → Bool) :
    (∀ offset,
      offset ∈ (walkDescriptors desc descEnd claim).examined →
      offset < descEnd ∨
        offset ∈ headerFields desc descEnd ∨
        ReachesField desc descEnd claim offset) ∧
      (∀ offset,
        offset ∈ headerFields desc descEnd →
        offset ∈ (walkDescriptors desc descEnd claim).examined) ∧
      Settles desc descEnd claim
        (walkDescriptors desc descEnd claim).outcome := by
  by_cases header : AcceptsHeader desc descEnd
  · have loop :
        Within (ReachedOffset desc descEnd claim) (Settles desc descEnd claim)
          (interfacesLoop desc descEnd claim (bNumInterfaces desc) 0
            (next desc (next desc 0))) :=
      interfacesLoop_spec _ (Nat.zero_add _) (.first header)
    rw [walkDescriptors_of_header claim header,
      ← headerFields_of_header header]
    refine ⟨?_, fun offset => List.mem_append_left _, loop.outcome⟩
    intro offset member
    rcases List.mem_append.mp member with early | late
    · exact .inr (.inl early)
    · exact (loop.examined offset late).imp_right .inr
  · rw [walkDescriptors_rejects claim header]
    exact ⟨fun offset member => .inr (.inl member), fun _ => id, .einval⟩

/-- The walk of `parse_usb_desc` ends, with an interface or with an error. -/
theorem parseUsbDesc_returns
    (contents : Except Int (List UInt8))
    (beyond : Nat → UInt8)
    (claim : Nat → UInt8 → Bool) :
    (parseUsbDesc contents beyond claim).outcome ≠ .error .stuck := by
  cases contents with
  | error status => simp [parseUsbDesc, stop]
  | ok bytes =>
      have settles :=
        (walkDescriptors_spec (memoryAt (bytes.take descSize) beyond)
          (bytes.take descSize).length claim).2.2
      intro stuck
      rw [parseUsbDesc] at stuck
      rw [stuck] at settles
      cases settles

end Interfaces

end Cdba
