import Cdba.UsbWalk

namespace Cdba

/-!
# The bounds of the descriptor walk

The checks of `parse_usb_desc` compare where a descriptor begins with the end
of the data, and then several bytes of it are read.  The walk stays inside the
data exactly if none of the descriptors that it reaches is cut off in front of
a byte that is read.
-/

open Reading LengthPrefixed

/-- The device and configuration descriptors are not cut off. -/
structure WholeHeader
    (desc : Nat → UInt8)
    (descEnd : Nat) : Prop where
  /-- there is data at all -/
  devLength : 0 < descEnd
  /-- a device descriptor of length 0 is not the last byte -/
  devType : desc 0 = 0 → 1 < descEnd
  /-- a configuration descriptor of length 0 is not the last byte -/
  cfgType :
    next desc 0 < descEnd →
    desc 1 = usbDtDevice →
    desc (next desc 0) = 0 →
    next desc 0 + 1 < descEnd
  /-- the data goes on as far as `bNumInterfaces` -/
  bNumInterfaces :
    AcceptsHeader desc descEnd →
    next desc 0 + 4 < descEnd

/-- A record taken for an interface is not cut off. -/
structure WholeInterface
    (desc : Nat → UInt8)
    (descEnd ifc : Nat) : Prop where
  /-- the data goes on as far as `bNumEndpoints` -/
  bNumEndpoints : ifc + 4 < descEnd
  /-- without endpoints the data goes on as far as the class is compared -/
  bInterfaceClass :
    desc (ifc + 4) = 0 →
    ifc + 5 < descEnd
  bInterfaceSubClass :
    desc (ifc + 4) = 0 →
    desc (ifc + 5) = 0xff →
    ifc + 6 < descEnd
  bInterfaceProtocol :
    desc (ifc + 4) = 0 →
    desc (ifc + 5) = 0xff →
    desc (ifc + 6) = 0x42 →
    ifc + 7 < descEnd

/-- A record taken for an endpoint is not cut off. -/
structure WholeEndpoint
    (desc : Nat → UInt8)
    (descEnd ept : Nat) : Prop where
  /-- the data goes on as far as `bmAttributes` -/
  bmAttributes : ept + 3 < descEnd
  /-- behind a bulk endpoint there is not just one byte -/
  behind : IsBulk desc ept → next desc ept + 1 ≠ descEnd

/-- No descriptor that the walk reaches is cut off. -/
structure WholeDescriptors
    (desc : Nat → UInt8)
    (descEnd : Nat)
    (claim : Nat → UInt8 → Bool) : Prop where
  header : WholeHeader desc descEnd
  interface :
    ∀ k ifc,
      ReachesInterface desc descEnd claim k ifc →
      WholeInterface desc descEnd ifc
  endpoint :
    ∀ k ifc ept,
      ReachesInterface desc descEnd claim k ifc →
      TakesEndpoint desc descEnd ifc ept →
      WholeEndpoint desc descEnd ept

variable
  {desc : Nat → UInt8}
  {descEnd k ifc ept count ptr offset : Nat}
  {last : LastBulk}
  {claim : Nat → UInt8 → Bool}

/-! ## The fields of whole descriptors -/

theorem lt_next
    (nonzero : desc offset ≠ 0) :
    offset < next desc offset := by
  have length : (desc offset).toNat ≠ 0 := by
    intro zero
    exact nonzero (UInt8.toNat_inj.mp zero)
  unfold next
  omega

/-- The fields of the header are inside the data if the header is whole. -/
theorem headerFields_inside_iff :
    (∀ offset, offset ∈ headerFields desc descEnd → offset < descEnd) ↔
      WholeHeader desc descEnd := by
  have dev : next desc 0 = (desc 0).toNat := Nat.zero_add _
  constructor
  · intro inside
    unfold headerFields at inside
    refine ⟨inside 0 (by simp), ?_, ?_, ?_⟩
    · intro zero
      have length : next desc 0 = 0 := by
        rw [dev, zero]
        rfl
      have started : next desc 0 < descEnd := by
        rw [length]
        exact inside 0 (by simp)
      apply inside 1
      simp [started]
    · intro devInside devType zero
      have length : next desc (next desc 0) = next desc 0 := by
        unfold next at zero ⊢
        rw [zero]
        rfl
      apply inside (next desc 0 + 1)
      simp [devInside, devType, length]
    · intro header
      apply inside (next desc 0 + 4)
      simp [header.devInside, header.devType, header.cfgInside,
        header.cfgType]
  · intro whole offset member
    simp only [headerFields, List.mem_cons, List.mem_ite_nil_right,
      List.not_mem_nil, or_false] at member
    rcases member with
      first | ⟨devInside, second |
        ⟨devType, cfg | ⟨cfgInside, third | ⟨cfgType, fourth⟩⟩⟩⟩
    · rw [first]
      exact whole.devLength
    · by_cases zero : desc 0 = 0
      · rw [second]
        exact whole.devType zero
      · have behind := lt_next zero
        omega
    · rw [cfg]
      exact devInside
    · by_cases zero : desc (next desc 0) = 0
      · rw [third]
        exact whole.cfgType devInside devType zero
      · have behind := lt_next zero
        omega
    · rw [fourth]
      exact whole.bNumInterfaces ⟨devInside, devType, cfgInside, cfgType⟩

/-- The fields of a record taken for an endpoint, if it is whole. -/
theorem endpointFields_inside_iff :
    (∀ offset, offset ∈ endpointFields desc descEnd ept → offset < descEnd) ↔
      WholeEndpoint desc descEnd ept := by
  constructor
  · intro inside
    unfold endpointFields at inside
    refine ⟨inside (ept + 3) (by simp), ?_⟩
    intro bulk atEnd
    have further : ¬ descEnd ≤ next desc ept := by omega
    have behind : next desc ept + 1 < descEnd := by
      apply inside
      simp [bulk, further]
    omega
  · rintro ⟨attributes, behind⟩ offset member
    unfold endpointFields at member
    rw [List.mem_cons, List.mem_ite_nil_right, List.mem_cons,
      List.mem_ite_nil_left, List.mem_singleton] at member
    rcases member with first | ⟨bulk, second | ⟨atEnd, third⟩⟩
    · omega
    · omega
    · have notLast := behind bulk
      omega

theorem bNumEndpoints_eq_zero_iff :
    bNumEndpoints desc ifc = 0 ↔ desc (ifc + 4) = 0 := by
  unfold bNumEndpoints
  exact UInt8.toNat_inj (b := 0)

/-- The bytes that are read of a record for its class. -/
theorem mem_classFields :
    offset ∈ classFields desc ifc ↔
      offset = ifc + 5 ∨
        desc (ifc + 5) = 0xff ∧
          (offset = ifc + 6 ∨
            desc (ifc + 6) = 0x42 ∧
              (offset = ifc + 7 ∨
                desc (ifc + 7) = 0x03 ∧ offset = ifc + 2)) := by
  simp only [classFields, List.mem_cons, List.mem_ite_nil_right,
    List.not_mem_nil, or_false]

theorem classFields_bound
    (field : offset ∈ classFields desc ifc) :
    offset ≤ ifc + 7 := by
  rw [mem_classFields] at field
  omega

/-- Without endpoints, the class of a whole record is inside the data. -/
theorem WholeInterface.classFields_inside
    (whole : WholeInterface desc descEnd ifc)
    (none : desc (ifc + 4) = 0)
    (field : offset ∈ classFields desc ifc) :
    offset < descEnd := by
  rcases mem_classFields.mp field with
    first | ⟨cls, second | ⟨sub, third | ⟨_, number⟩⟩⟩
  · rw [first]
    exact whole.bInterfaceClass none
  · rw [second]
    exact whole.bInterfaceSubClass none cls
  · rw [third]
    exact whole.bInterfaceProtocol none cls sub
  · have count := whole.bNumEndpoints
    omega

/-! ## The fields that the walk reaches -/

theorem WholeDescriptors.inside
    (whole : WholeDescriptors desc descEnd claim)
    (field : ReachesField desc descEnd claim offset) :
    offset < descEnd := by
  cases field with
  | count reaches =>
      exact (whole.interface _ _ reaches).bNumEndpoints
  | endpoint reaches takes field =>
      exact endpointFields_inside_iff.mpr
        (whole.endpoint _ _ _ reaches takes) offset field
  | cls reaches takes field =>
      rename_i k ifc ptr last
      by_cases none : desc (ifc + 4) = 0
      · exact (whole.interface k ifc reaches).classFields_inside none field
      · have some : 0 < bNumEndpoints desc ifc :=
          Nat.pos_of_ne_zero fun zero =>
            none (bNumEndpoints_eq_zero_iff.mp zero)
        have inside := takesEndpoints_inside takes some
        obtain ⟨_, _, _, _, found⟩ := reaches
        have long := found.2.long
        have bound := classFields_bound field
        unfold next at inside
        unfold usbDtInterfaceSize at long
        omega

/-- The class of an interface without endpoints is examined. -/
theorem ReachesInterface.class_examined
    (reaches : ReachesInterface desc descEnd claim k ifc)
    (none : desc (ifc + 4) = 0)
    (field : offset ∈ classFields desc ifc) :
    ReachesField desc descEnd claim offset := by
  have taken :
      TakenAt desc descEnd ifc (bNumEndpoints desc ifc) (next desc ifc)
        .none := by
    rw [bNumEndpoints_eq_zero_iff.mpr none]
    exact .none
  exact .cls reaches (.all taken) field

theorem wholeDescriptors_of_inside
    (inside :
      ∀ offset,
        offset ∈ (walkDescriptors desc descEnd claim).examined →
        offset < descEnd) :
    WholeDescriptors desc descEnd claim where
  header := by
    apply headerFields_inside_iff.mp
    intro offset field
    exact inside offset
      ((walkDescriptors_spec desc descEnd claim).2.1 offset field)
  interface := by
    intro k ifc reaches
    have reached :
        ∀ offset,
          ReachesField desc descEnd claim offset →
          offset < descEnd :=
      fun offset field => inside offset (walkDescriptors_examines field)
    refine ⟨reached _ (.count reaches), ?_, ?_, ?_⟩
    · intro none
      apply reached
      apply reaches.class_examined none
      simp [mem_classFields]
    · intro none cls
      apply reached
      apply reaches.class_examined none
      simp [mem_classFields, cls]
    · intro none cls sub
      apply reached
      apply reaches.class_examined none
      simp [mem_classFields, cls, sub]
  endpoint := by
    intro k ifc ept reaches takes
    apply endpointFields_inside_iff.mp
    intro offset field
    exact inside offset
      (walkDescriptors_examines (.endpoint reaches takes field))

/-! ## What lies behind the data -/

theorem searchDescriptor_local
    (descEnd size : Nat)
    (type : UInt8)
    (budget ptr : Nat) :
    Local fun desc =>
      searchDescriptor desc descEnd size type budget ptr := by
  induction budget generalizing ptr with
  | zero => exact .const _
  | succ budget inductionHypothesis =>
      unfold searchDescriptor
      refine .bind (.examine ptr) fun length => ?_
      refine .ite (.const _) (.ite (.const _) ?_)
      refine .bind (.examine (ptr + 1)) fun type => ?_
      exact .ite (.const _) (inductionHypothesis _)

theorem endpointsLoop_local
    (descEnd left ptr : Nat)
    (endpoints : Endpoints) :
    Local fun desc => endpointsLoop desc descEnd left ptr endpoints := by
  induction left generalizing ptr endpoints with
  | zero => exact .const _
  | succ left inductionHypothesis =>
      unfold endpointsLoop
      refine .ite (.const _) ?_
      refine .bind (searchDescriptor_local _ _ _ _ _) fun ept => ?_
      refine .bind (.examine _) fun attributes => ?_
      refine .ite (inductionHypothesis _ _) ?_
      refine .bind (.examine _) fun address => ?_
      refine .ite (.const _) ?_
      exact .bind (.examine _) fun type => inductionHypothesis _ _

theorem claimInterface_local
    (claim : UInt8 → Bool)
    (ifc : Nat) :
    Local fun desc => claimInterface desc claim ifc := by
  unfold claimInterface
  refine .bind (.examine _) fun cls => ?_
  refine .ite (.const _) ?_
  refine .bind (.examine _) fun sub => ?_
  refine .ite (.const _) ?_
  refine .bind (.examine _) fun proto => ?_
  refine .ite (.const _) ?_
  exact .bind (.examine _) fun id => .ite (.const _) (.const _)

theorem interfacesLoop_local
    (descEnd : Nat)
    (claim : Nat → UInt8 → Bool)
    (left k ptr : Nat) :
    Local fun desc => interfacesLoop desc descEnd claim left k ptr := by
  induction left generalizing k ptr with
  | zero => exact .const _
  | succ left inductionHypothesis =>
      unfold interfacesLoop
      refine .ite (.const _) ?_
      refine .bind (searchDescriptor_local _ _ _ _ _) fun ifc => ?_
      refine .bind (.examine _) fun count => ?_
      refine .bind (endpointsLoop_local _ _ _ _) fun found => ?_
      refine .bind (claimInterface_local _ _) fun claimed => ?_
      cases claimed with
      | none => exact inductionHypothesis _ _
      | some id => exact .const _

/-- The walk depends on the bytes that it examines. -/
theorem walkDescriptors_local
    (descEnd : Nat)
    (claim : Nat → UInt8 → Bool) :
    Local fun desc => walkDescriptors desc descEnd claim := by
  unfold walkDescriptors
  refine .bind (.examine _) fun devLength => ?_
  refine .ite (.const _) ?_
  refine .bind (.examine _) fun devType => ?_
  refine .ite (.const _) ?_
  refine .bind (.examine _) fun cfgLength => ?_
  refine .ite (.const _) ?_
  refine .bind (.examine _) fun cfgType => ?_
  refine .ite (.const _) ?_
  exact .bind (.examine _) fun count => interfacesLoop_local _ _ _ _ _

/-! ## The bounds of the walk -/

/-- The walk stays inside the data if and only if no descriptor is cut off. -/
theorem walkDescriptors_inside_iff :
    (∀ offset,
      offset ∈ (walkDescriptors desc descEnd claim).examined →
      offset < descEnd) ↔
      WholeDescriptors desc descEnd claim := by
  constructor
  · exact wholeDescriptors_of_inside
  · intro whole offset examined
    rcases (walkDescriptors_spec _ _ claim).1 offset examined with
      inData | header | field
    · exact inData
    · exact headerFields_inside_iff.mpr whole.header offset header
    · exact whole.inside field

/-- Whether a descriptor is cut off does not depend on what lies behind. -/
theorem WholeDescriptors.congr
    {desc' : Nat → UInt8}
    (whole : WholeDescriptors desc descEnd claim)
    (agree : ∀ offset, offset < descEnd → desc' offset = desc offset) :
    WholeDescriptors desc' descEnd claim := by
  have inside := walkDescriptors_inside_iff.mpr whole
  have same :
      walkDescriptors desc' descEnd claim =
        walkDescriptors desc descEnd claim := by
    apply walkDescriptors_local
    intro offset examined
    exact agree offset (inside offset examined)
  apply walkDescriptors_inside_iff.mp
  rwa [same]

theorem memoryAt_agree
    (data : List UInt8)
    (beyond beyond' : Nat → UInt8)
    (inside : offset < data.length) :
    memoryAt data beyond' offset = memoryAt data beyond offset := by
  simp [memoryAt, inside]

/-- No descriptor that the walk reaches is cut off by the end of the data. -/
def NothingCutOff
    (data : List UInt8)
    (claim : Nat → UInt8 → Bool) :
    Prop :=
  WholeDescriptors (memoryAt data fun _ => 0) data.length claim

/--
`parse_usb_desc` ends and examines no byte behind those that it has read, if
and only if no descriptor that its walk reaches is cut off.
-/
theorem parseUsbDesc_bounded_iff
    (bytes : List UInt8)
    (beyond : Nat → UInt8)
    (claim : Nat → UInt8 → Bool) :
    ((parseUsbDesc (.ok bytes) beyond claim).outcome ≠ .error .stuck ∧
        ∀ offset,
          offset ∈ (parseUsbDesc (.ok bytes) beyond claim).examined →
          offset < (bytes.take descSize).length) ↔
      NothingCutOff (bytes.take descSize) claim := by
  constructor
  · rintro ⟨_, inside⟩
    apply (walkDescriptors_inside_iff.mp inside).congr
    intro offset inData
    exact memoryAt_agree _ _ _ inData
  · intro whole
    refine ⟨parseUsbDesc_returns _ beyond claim, ?_⟩
    apply walkDescriptors_inside_iff.mpr
    apply whole.congr
    intro offset inData
    exact memoryAt_agree _ _ _ inData

/-- A fastboot interface whose bulk endpoint is followed by a single byte. -/
def strayByteDescriptors : List UInt8 :=
  [18, 1] ++ List.replicate 16 0 ++
    [9, 2, 35, 0, 1, 1, 0, 0, 0] ++
    [9, 4, 0, 0, 1, 0xff, 0x42, 0x03, 0] ++
    [7, 5, 0x81, 2, 0, 2, 0] ++
    [9]

/-- Behind a bulk endpoint the byte after the last one is examined. -/
theorem strayByte_examinedBeyond :
    ¬ ((parseUsbDesc (.ok strayByteDescriptors) (fun _ => 0)
            fun _ _ => true).outcome ≠
          .error .stuck ∧
        ∀ offset,
          offset ∈
              (parseUsbDesc (.ok strayByteDescriptors) (fun _ => 0)
                fun _ _ => true).examined →
          offset < (strayByteDescriptors.take descSize).length) := by
  rintro ⟨_, inside⟩
  exact absurd (inside 44 (by decide +kernel)) (by decide)

end Cdba
