import Cdba.UsbBounds

namespace Cdba

/-!
# The endpoints that the descriptor walk returns

An endpoint is real if it belongs to a bulk ENDPOINT descriptor of the claimed
interface: one that stands on the chain of lengths behind it, in front of the
next INTERFACE descriptor.  Each of the `bNumEndpoints` rounds for an interface
stops at some record, and the last bulk one of a direction counts.
-/

open Reading LengthPrefixed

/-- The data has a descriptor of a fastboot interface at an offset. -/
structure FastbootInterface
    (desc : Nat → UInt8)
    (descEnd ifc : Nat) : Prop where
  chained : Chain desc descEnd 0 ifc
  inside : ifc + 7 < descEnd
  bDescriptorType : desc (ifc + 1) = usbDtInterface
  fastboot : IsFastboot desc ifc

/-- The data has a descriptor of a bulk endpoint of an interface. -/
structure BulkEndpointOf
    (desc : Nat → UInt8)
    (descEnd ifc ept : Nat) : Prop where
  chained : Chain desc descEnd (next desc ifc) ept
  inside : ept + 3 < descEnd
  bDescriptorType : desc (ept + 1) = usbDtEndpoint
  bulk : IsBulk desc ept
  /-- no other interface begins in between -/
  own :
    ∀ other,
      Chain desc descEnd (next desc ifc) other →
      Chain desc descEnd other ept →
      desc (other + 1) ≠ usbDtInterface

/-- An address is that of a bulk IN endpoint of an interface. -/
def HasBulkIn
    (desc : Nat → UInt8)
    (descEnd ifc : Nat)
    (address : UInt8) :
    Prop :=
  ∃ ept,
    BulkEndpointOf desc descEnd ifc ept ∧
      IsDirIn desc ept ∧
      desc (ept + 2) = address

/-- An address is that of a bulk OUT endpoint of an interface. -/
def HasBulkOut
    (desc : Nat → UInt8)
    (descEnd ifc : Nat)
    (address : UInt8) :
    Prop :=
  ∃ ept,
    BulkEndpointOf desc descEnd ifc ept ∧
      ¬ IsDirIn desc ept ∧
      desc (ept + 2) = address

/-- What was claimed is an interface of the data, with endpoints of its own. -/
structure RealEndpoints
    (desc : Nat → UInt8)
    (descEnd : Nat)
    (claimed : ClaimedInterface) : Prop where
  interface : FastbootInterface desc descEnd claimed.ifc
  id : claimed.id = desc (claimed.ifc + 2)
  epIn :
    ∃ address,
      HasBulkIn desc descEnd claimed.ifc address ∧
        claimed.endpoints.epIn = address.toUInt32
  epOut :
    ∃ address,
      HasBulkOut desc descEnd claimed.ifc address ∧
        claimed.endpoints.epOut = address.toUInt32

/-- A round of the loop over the endpoints of an interface stops at a record. -/
inductive StopsAt
    (desc : Nat → UInt8)
    (descEnd ifc : Nat) :
    Nat → Nat → Prop where
  | first
      {ept : Nat}
      (more : 0 < bNumEndpoints desc ifc)
      (inside : next desc ifc < descEnd)
      (found : FindsEndpoint desc descEnd (next desc ifc) ept) :
      StopsAt desc descEnd ifc 0 ept
  | next
      {round ept following : Nat}
      (stops : StopsAt desc descEnd ifc round ept)
      (further : IsBulk desc ept → next desc ept < descEnd)
      (more : round + 1 < bNumEndpoints desc ifc)
      (inside : behindEndpoint desc descEnd ept < descEnd)
      (found :
        FindsEndpoint desc descEnd (behindEndpoint desc descEnd ept)
          following) :
      StopsAt desc descEnd ifc (round + 1) following

/-- None of the rounds for an interface runs into the end of the data. -/
def FinishesRounds
    (desc : Nat → UInt8)
    (descEnd ifc : Nat) :
    Prop :=
  ∃ ptr last, TakesEndpoints desc descEnd ifc ptr last

/-- The record at an offset is bulk and of a direction. -/
def IsBulkOf (desc : Nat → UInt8) (isIn : Bool) (ept : Nat) : Prop :=
  IsBulk desc ept ∧ decide (IsDirIn desc ept) = isIn

/--
A round stops at a bulk record with the address of an endpoint that the
interface has in a direction, and no later round at a bulk record of this
direction with another address.
-/
structure SettlesOn
    (desc : Nat → UInt8)
    (descEnd ifc : Nat)
    (isIn : Bool)
    (own round ept : Nat) : Prop where
  isOwn : BulkEndpointOf desc descEnd ifc own
  direction : IsBulkOf desc isIn own
  stops : StopsAt desc descEnd ifc round ept
  bulk : IsBulk desc ept
  address : desc (ept + 2) = desc (own + 2)
  later :
    ∀ round' stray,
      round < round' →
      StopsAt desc descEnd ifc round' stray →
      IsBulkOf desc isIn stray →
      desc (stray + 2) = desc (own + 2)

/--
The record of an interface stands on the chain, and the rounds for its
endpoints settle on one of its own in each direction.
-/
structure KeepsToOwn
    (desc : Nat → UInt8)
    (descEnd ifc : Nat) : Prop where
  inStep : Chain desc descEnd 0 ifc
  settles :
    ∀ isIn, ∃ own round ept,
      SettlesOn desc descEnd ifc isIn own round ept

variable
  {desc : Nat → UInt8}
  {descEnd k ifc ptr : Nat}
  {last : LastBulk}
  {claim : Nat → UInt8 → Bool}

/-- The address of a taken record is a byte, and no byte is -1. -/
theorem bulkAddress_eq_iff
    (desc : Nat → UInt8)
    (taken? : Option Nat)
    (address : UInt8) :
    bulkAddress desc taken? = address.toUInt32 ↔
      ∃ taken, taken? = some taken ∧ desc (taken + 2) = address := by
  have byte : ∀ byte : UInt8, byte.toUInt32.toNat < 256 := by
    intro byte
    rw [UInt8.toNat_toUInt32]
    exact byte.toNat_lt
  cases taken? with
  | none =>
      constructor
      · intro minusOne
        have bound := byte address
        rw [← minusOne, bulkAddress] at bound
        exact absurd bound (by decide)
      · rintro ⟨taken, none, _⟩
        cases none
  | some taken =>
      constructor
      · intro same
        refine ⟨taken, rfl, ?_⟩
        have values := congrArg UInt32.toNat same
        rw [bulkAddress, UInt8.toNat_toUInt32, UInt8.toNat_toUInt32] at values
        exact UInt8.toNat_inj.mp values
      · rintro ⟨_, same, address⟩
        cases same
        rw [bulkAddress, address]

/-! ## The rounds for an interface -/

/-- Each round stops at one record at most. -/
theorem StopsAt.unique
    {round ept other : Nat}
    (stops : StopsAt desc descEnd ifc round ept)
    (stops' : StopsAt desc descEnd ifc round other) :
    ept = other := by
  induction stops generalizing other with
  | first more inside found =>
      cases stops' with
      | first more' inside' found' => exact found.unique found'
  | next stops further more inside found inductionHypothesis =>
      cases stops' with
      | next earlier further' more' inside' found' =>
          cases inductionHypothesis earlier
          exact found.unique found'

theorem StopsAt.round_lt
    {round ept : Nat}
    (stops : StopsAt desc descEnd ifc round ept) :
    round < bNumEndpoints desc ifc := by
  cases stops with
  | first more inside found => exact more
  | next stops further more inside found => exact more

/-- Behind a bulk record at the end of the data there is no round. -/
theorem StopsAt.further
    {round round' ept stray : Nat}
    (stops : StopsAt desc descEnd ifc round ept)
    (later : StopsAt desc descEnd ifc round' stray)
    (behind : round < round')
    (bulk : IsBulk desc ept) :
    LengthPrefixed.next desc ept < descEnd := by
  induction later with
  | first more inside found => omega
  | next earlier further more inside found inductionHypothesis =>
      rename_i round' between following
      rcases Nat.lt_or_eq_of_le (Nat.le_of_lt_succ behind) with
        before | same
      · exact inductionHypothesis before
      · subst same
        cases stops.unique earlier
        exact further bulk

/-- Where the walk is when it has taken some endpoints, the next round begins. -/
theorem TakenAt.stopsAt
    {count ept : Nat}
    (taken : TakenAt desc descEnd ifc count ptr last)
    (more : count < bNumEndpoints desc ifc)
    (inside : ptr < descEnd)
    (found : FindsEndpoint desc descEnd ptr ept) :
    StopsAt desc descEnd ifc count ept := by
  induction taken generalizing ept with
  | none => exact .first more inside found
  | next taken more' inside' found' further inductionHypothesis =>
      exact .next (inductionHypothesis more' inside' found') further more
        inside found

/-- The record of one direction. -/
def LastBulk.of (last : LastBulk) (isIn : Bool) : Option Nat :=
  if isIn then last.bulkIn else last.bulkOut

theorem LastBulk.take_of
    (last : LastBulk)
    (ept : Nat)
    (isIn : Bool) :
    (IsBulkOf desc isIn ept ∧ (last.take desc ept).of isIn = some ept) ∨
      (¬ IsBulkOf desc isIn ept ∧
        (last.take desc ept).of isIn = last.of isIn) := by
  unfold IsBulkOf LastBulk.take LastBulk.of
  by_cases bulk : IsBulk desc ept
  · by_cases dirIn : IsDirIn desc ept
    · cases isIn <;> simp [bulk, dirIn]
    · cases isIn <;> simp [bulk, dirIn]
  · simp [bulk]

/-- The bulk record of a direction at which the last of some rounds stopped. -/
inductive RemembersLast
    (desc : Nat → UInt8)
    (descEnd ifc count : Nat)
    (isIn : Bool) :
    Option Nat → Prop where
  | nowhere
      (others :
        ∀ round ept,
          round < count →
          StopsAt desc descEnd ifc round ept →
          ¬ IsBulkOf desc isIn ept) :
      RemembersLast desc descEnd ifc count isIn none
  | record
      {round ept : Nat}
      (before : round < count)
      (stops : StopsAt desc descEnd ifc round ept)
      (bulk : IsBulkOf desc isIn ept)
      (others :
        ∀ round' stray,
          round < round' →
          round' < count →
          StopsAt desc descEnd ifc round' stray →
          ¬ IsBulkOf desc isIn stray) :
      RemembersLast desc descEnd ifc count isIn (some ept)

/-- One more round. -/
theorem RemembersLast.take
    {count ept : Nat}
    {isIn : Bool}
    (remembers :
      RemembersLast desc descEnd ifc count isIn (last.of isIn))
    (stops : StopsAt desc descEnd ifc count ept) :
    RemembersLast desc descEnd ifc (count + 1) isIn
      ((last.take desc ept).of isIn) := by
  rcases last.take_of ept isIn with ⟨bulk, taken⟩ | ⟨other, taken⟩
  · rw [taken]
    exact .record (Nat.lt_succ_self _) stops bulk
      fun _ _ behind inside => absurd behind (by omega)
  · have notThis :
        ∀ round stray,
          round = count →
          StopsAt desc descEnd ifc round stray →
          ¬ IsBulkOf desc isIn stray := by
      rintro round stray rfl here bulk
      exact other (stops.unique here ▸ bulk)
    rw [taken]
    cases found : last.of isIn with
    | none =>
        rw [found] at remembers
        cases remembers with
        | nowhere others =>
            refine .nowhere fun round stray inside here => ?_
            rcases Nat.lt_or_eq_of_le (Nat.le_of_lt_succ inside) with
              before | same
            · exact others round stray before here
            · exact notThis round stray same here
    | some record =>
        rw [found] at remembers
        cases remembers with
        | record before stopped bulk others =>
            refine .record (Nat.lt_succ_of_lt before) stopped bulk
              fun round stray behind inside here => ?_
            rcases Nat.lt_or_eq_of_le (Nat.le_of_lt_succ inside) with
              earlier | same
            · exact others round stray behind earlier here
            · exact notThis round stray same here

theorem TakenAt.remembersLast
    {count : Nat}
    (taken : TakenAt desc descEnd ifc count ptr last)
    (isIn : Bool) :
    RemembersLast desc descEnd ifc count isIn (last.of isIn) := by
  induction taken with
  | none =>
      have nothing : LastBulk.none.of isIn = Option.none := by
        cases isIn <;> rfl
      rw [nothing]
      exact .nowhere fun _ _ before => absurd before (Nat.not_lt_zero _)
  | next taken more inside found further inductionHypothesis =>
      exact inductionHypothesis.take (taken.stopsAt more inside found)

/-- What is returned of a direction is the last record of all rounds. -/
theorem TakesEndpoints.remembersLast
    (takes : TakesEndpoints desc descEnd ifc ptr last)
    (isIn : Bool) :
    ∃ count,
      RemembersLast desc descEnd ifc count isIn (last.of isIn) ∧
        ∀ round ept,
          StopsAt desc descEnd ifc round ept → round < count := by
  cases takes with
  | all taken =>
      exact ⟨_, taken.remembersLast isIn, fun _ _ stops => stops.round_lt⟩
  | upTo taken more inside found bulk atEnd =>
      have stops := taken.stopsAt more inside found
      refine ⟨_, (taken.remembersLast isIn).take stops,
        fun round stray later => ?_⟩
      refine Nat.lt_succ_of_le (Nat.le_of_not_lt fun behind => ?_)
      exact absurd (stops.further later behind bulk) (Nat.not_lt.mpr atEnd)

/-! ## Real endpoints -/

/-- The direction of a bulk record is a bit of its address. -/
theorem IsBulkOf.of_address
    {isIn : Bool}
    {own ept : Nat}
    (of : IsBulkOf desc isIn own)
    (bulk : IsBulk desc ept)
    (address : desc (ept + 2) = desc (own + 2)) :
    IsBulkOf desc isIn ept := by
  have sameDirection : IsDirIn desc ept ↔ IsDirIn desc own := by
    unfold IsDirIn
    rw [address]
  exact ⟨bulk, (decide_eq_decide.mpr sameDirection).trans of.2⟩

/-- The last record has the address of an own endpoint just if rounds settle. -/
theorem settles_iff
    (takes : TakesEndpoints desc descEnd ifc ptr last)
    (isIn : Bool) :
    (∃ own record,
      BulkEndpointOf desc descEnd ifc own ∧
        IsBulkOf desc isIn own ∧
        last.of isIn = some record ∧
        desc (record + 2) = desc (own + 2)) ↔
      ∃ own round ept, SettlesOn desc descEnd ifc isIn own round ept := by
  obtain ⟨count, remembers, all⟩ := takes.remembersLast isIn
  constructor
  · rintro ⟨own, record, isOwn, direction, found, address⟩
    rw [found] at remembers
    cases remembers with
    | record before stops bulk others =>
        exact ⟨own, _, record,
          { isOwn := isOwn
            direction := direction
            stops := stops
            bulk := bulk.1
            address := address
            later := fun round' stray behind here isBulk =>
              absurd isBulk
                (others round' stray behind (all _ _ here) here) }⟩
  · rintro ⟨own, round, ept, settles⟩
    have ofEpt :=
      settles.direction.of_address settles.bulk settles.address
    cases found : last.of isIn with
    | none =>
        rw [found] at remembers
        cases remembers with
        | nowhere others =>
            exact absurd ofEpt
              (others round ept (all _ _ settles.stops) settles.stops)
    | some record =>
        refine ⟨own, record, settles.isOwn, settles.direction, rfl, ?_⟩
        rw [found] at remembers
        cases remembers with
        | record before stops bulk others =>
            rename_i lastRound
            rcases Nat.lt_trichotomy round lastRound with
              behind | same | ahead
            · exact settles.later _ _ behind stops bulk
            · subst same
              rw [stops.unique settles.stops]
              exact settles.address
            · exact absurd ofEpt
                (others round ept ahead (all _ _ settles.stops)
                  settles.stops)

/-- Endpoints were only taken for an INTERFACE descriptor inside the data. -/
theorem ReachesInterface.typed
    {round ept : Nat}
    (reaches : ReachesInterface desc descEnd claim k ifc)
    (takes : TakesEndpoints desc descEnd ifc ptr last)
    (stops : StopsAt desc descEnd ifc round ept) :
    ifc + 7 < descEnd ∧ desc (ifc + 1) = usbDtInterface := by
  have inside := takesEndpoints_inside takes
    (Nat.lt_of_le_of_lt (Nat.zero_le _) stops.round_lt)
  obtain ⟨_, _, _, _, found⟩ := reaches
  refine ⟨?_, found.2.typed inside⟩
  have long := found.2.long
  unfold next at inside
  unfold usbDtInterfaceSize at long
  omega

/-- A claimed interface is real if and only if the walk keeps to its own. -/
theorem realEndpoints_iff
    (reaches : ReachesInterface desc descEnd claim k ifc)
    (takes : TakesEndpoints desc descEnd ifc ptr last)
    (claims : Claims desc claim k ifc) :
    RealEndpoints desc descEnd
        ⟨ifc, desc (ifc + 2), last.endpoints desc⟩ ↔
      KeepsToOwn desc descEnd ifc := by
  constructor
  · rintro ⟨interface, _, ⟨addressIn, hasIn, epIn⟩,
      ⟨addressOut, hasOut, epOut⟩⟩
    refine ⟨interface.chained, fun isIn =>
      (settles_iff takes isIn).mp ?_⟩
    cases isIn with
    | true =>
        obtain ⟨record, found, same⟩ := (bulkAddress_eq_iff _ _ _).mp epIn
        obtain ⟨own, isOwn, dirIn, address⟩ := hasIn
        exact ⟨own, record, isOwn, ⟨isOwn.bulk, decide_eq_true dirIn⟩,
          found, same.trans address.symm⟩
    | false =>
        obtain ⟨record, found, same⟩ := (bulkAddress_eq_iff _ _ _).mp epOut
        obtain ⟨own, isOwn, dirOut, address⟩ := hasOut
        exact ⟨own, record, isOwn, ⟨isOwn.bulk, decide_eq_false dirOut⟩,
          found, same.trans address.symm⟩
  · rintro ⟨inStep, settles⟩
    obtain ⟨_, _, _, settled⟩ := settles true
    obtain ⟨inside, typed⟩ := reaches.typed takes settled.stops
    obtain ⟨ownIn, recordIn, isOwnIn, ⟨_, dirIn⟩, foundIn, sameIn⟩ :=
      (settles_iff takes true).mpr (settles true)
    obtain ⟨ownOut, recordOut, isOwnOut, ⟨_, dirOut⟩, foundOut, sameOut⟩ :=
      (settles_iff takes false).mpr (settles false)
    exact
      { interface := ⟨inStep, inside, typed, claims.1⟩
        id := rfl
        epIn :=
          ⟨desc (ownIn + 2), ⟨ownIn, isOwnIn, of_decide_eq_true dirIn, rfl⟩,
            (bulkAddress_eq_iff _ _ _).mpr ⟨recordIn, foundIn, sameIn⟩⟩
        epOut :=
          ⟨desc (ownOut + 2),
            ⟨ownOut, isOwnOut, of_decide_eq_false dirOut, rfl⟩,
            (bulkAddress_eq_iff _ _ _).mpr
              ⟨recordOut, foundOut, sameOut⟩⟩ }

/--
Whenever `parse_usb_desc` returns an interface it returns real endpoints, if
and only if the record of an interface that is claimed stands on the chain of
lengths, and its rounds settle on an endpoint of its own in each direction.
-/
theorem parseUsbDesc_real_iff
    (bytes : List UInt8)
    (beyond : Nat → UInt8)
    (claim : Nat → UInt8 → Bool) :
    (∀ claimed,
      (parseUsbDesc (.ok bytes) beyond claim).outcome = .ok claimed →
      RealEndpoints (memoryAt (bytes.take descSize) beyond)
        (bytes.take descSize).length claimed) ↔
      ∀ k ifc,
        ReachesInterface (memoryAt (bytes.take descSize) beyond)
          (bytes.take descSize).length claim k ifc →
        Claims (memoryAt (bytes.take descSize) beyond) claim k ifc →
        FinishesRounds (memoryAt (bytes.take descSize) beyond)
          (bytes.take descSize).length ifc →
        KeepsToOwn (memoryAt (bytes.take descSize) beyond)
          (bytes.take descSize).length ifc := by
  constructor
  · rintro real k ifc reaches claims ⟨ptr, last, takes⟩
    apply (realEndpoints_iff reaches takes claims).mp
    exact real _ (walkDescriptors_claims reaches takes claims)
  · intro own claimed returned
    have settles :=
      (walkDescriptors_spec (memoryAt (bytes.take descSize) beyond)
        (bytes.take descSize).length claim).2.2
    rw [parseUsbDesc] at returned
    rw [returned] at settles
    cases settles with
    | claimed reaches takes claims =>
        exact (realEndpoints_iff reaches takes claims).mpr
          (own _ _ reaches claims ⟨_, _, takes⟩)

/-- A fastboot interface that has no endpoint. -/
def noEndpointDescriptors : List UInt8 :=
  [18, 1] ++ List.replicate 16 0 ++
    [9, 2, 18, 0, 1, 1, 0, 0, 0] ++
    [9, 4, 0, 0, 0, 0xff, 0x42, 0x03, 0]

/-- An interface without endpoints is claimed and returned all the same. -/
theorem noEndpoint_returned :
    ¬ ∀ claimed,
      (parseUsbDesc (.ok noEndpointDescriptors) (fun _ => 0)
          fun _ _ => true).outcome =
        .ok claimed →
      RealEndpoints
        (memoryAt (noEndpointDescriptors.take descSize) fun _ => 0)
        (noEndpointDescriptors.take descSize).length claimed := by
  intro real
  have returned :
      (parseUsbDesc (.ok noEndpointDescriptors) (fun _ => 0)
          fun _ _ => true).outcome =
        .ok ⟨27, 0, .unset⟩ := by
    rfl
  obtain ⟨address, _, minusOne⟩ := (real _ returned).epIn
  obtain ⟨taken, none, _⟩ :=
    (bulkAddress_eq_iff (fun _ => 0) none address).mp minusOne
  cases none

end Cdba
