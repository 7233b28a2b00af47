import Mathlib.Data.List.Dedup
import Mathlib.Data.List.Induction
import Cdba.UsbWalk

namespace Cdba

/-!
# Well-formed descriptors

A device descriptor and a configuration descriptor with its interfaces, each
with alternate settings, endpoints and whatever class-specific descriptors
stand between them, and how the walk of `parse_usb_desc` takes the endpoints of
one setting.
-/

open LengthPrefixed

/-! ## Descriptors -/

/-- An interface association or class-specific descriptor. -/
structure OtherDescriptor where
  record : Record
  notInterface : record.type ≠ usbDtInterface
  notEndpoint : record.type ≠ usbDtEndpoint
  notCompanion : record.type ≠ usbDtSsEndpointComp

/-- `struct usb_ss_ep_comp_descriptor` -/
structure SsCompanion where
  bMaxBurst : UInt8
  bmAttributes : UInt8
  wBytesPerInterval : UInt8 × UInt8

def SsCompanion.record (companion : SsCompanion) : Record where
  type := usbDtSsEndpointComp
  payload :=
    [companion.bMaxBurst, companion.bmAttributes,
      companion.wBytesPerInterval.1, companion.wBytesPerInterval.2]
  fits := by simp

/--
`struct usb_endpoint_descriptor`, with the descriptors in front of it and its
companion; `rest` holds the packet size, the interval and what may follow.
-/
structure EndpointDescriptor where
  before : List OtherDescriptor
  bEndpointAddress : UInt8
  bmAttributes : UInt8
  rest : List UInt8
  whole : 3 ≤ rest.length
  fits : rest.length + 4 < 256
  companion : Option SsCompanion

/--
`struct usb_interface_descriptor` for one setting of an interface, with the
descriptors in front of it and its endpoints.
-/
structure InterfaceSetting where
  before : List OtherDescriptor
  bInterfaceNumber : UInt8
  bAlternateSetting : UInt8
  bInterfaceClass : UInt8
  bInterfaceSubClass : UInt8
  bInterfaceProtocol : UInt8
  iInterface : UInt8
  endpoints : List EndpointDescriptor
  few : endpoints.length < 256

/--
A device descriptor and a configuration descriptor, whose `bNumInterfaces`
counts the interfaces and not their settings.
-/
structure DescriptorBlob where
  device : List UInt8
  deviceSize : device.length = 16
  wTotalLength : UInt8 × UInt8
  bNumInterfaces : UInt8
  configuration : List UInt8
  configurationSize : configuration.length = 4
  settings : List InterfaceSetting
  trailing : List OtherDescriptor
  counts :
    bNumInterfaces.toNat =
      (settings.map InterfaceSetting.bInterfaceNumber).dedup.length

namespace EndpointDescriptor

/-- The descriptor itself. -/
def record (ept : EndpointDescriptor) : Record where
  type := usbDtEndpoint
  payload := ept.bEndpointAddress :: ept.bmAttributes :: ept.rest
  fits := by
    have fits := ept.fits
    simp only [List.length_cons]
    omega

/-- The companion descriptor, if there is one. -/
def companions (ept : EndpointDescriptor) : List Record :=
  (ept.companion.map SsCompanion.record).toList

def records (ept : EndpointDescriptor) : List Record :=
  ept.before.map OtherDescriptor.record ++ ept.record :: ept.companions

/-- The endpoint is a bulk endpoint. -/
def Bulk (ept : EndpointDescriptor) : Prop :=
  ept.bmAttributes &&& usbEndpointXfertypeMask = usbEndpointXferBulk

instance (ept : EndpointDescriptor) : Decidable ept.Bulk :=
  inferInstanceAs (Decidable (_ = _))

/-- The endpoint is an IN endpoint. -/
def DirIn (ept : EndpointDescriptor) : Prop :=
  ept.bEndpointAddress &&& usbDirIn ≠ 0

instance (ept : EndpointDescriptor) : Decidable ept.DirIn :=
  inferInstanceAs (Decidable (_ ≠ _))

/-- Companions are only skipped behind bulk endpoints. -/
def stray (ept : EndpointDescriptor) : List Record :=
  if ept.Bulk then [] else ept.companions

end EndpointDescriptor

namespace InterfaceSetting

/-- The descriptor itself. -/
def record (setting : InterfaceSetting) : Record where
  type := usbDtInterface
  payload :=
    [setting.bInterfaceNumber, setting.bAlternateSetting,
      UInt8.ofNat setting.endpoints.length, setting.bInterfaceClass,
      setting.bInterfaceSubClass, setting.bInterfaceProtocol,
      setting.iInterface]
  fits := by simp

def records (setting : InterfaceSetting) : List Record :=
  setting.before.map OtherDescriptor.record ++
    setting.record :: setting.endpoints.flatMap EndpointDescriptor.records

end InterfaceSetting

namespace DescriptorBlob

/-- The device descriptor. -/
def deviceRecord (blob : DescriptorBlob) : Record where
  type := usbDtDevice
  payload := blob.device
  fits := by
    rw [blob.deviceSize]
    decide

/-- The configuration descriptor. -/
def configRecord (blob : DescriptorBlob) : Record where
  type := usbDtConfig
  payload :=
    blob.wTotalLength.1 :: blob.wTotalLength.2 :: blob.bNumInterfaces ::
      blob.configuration
  fits := by
    simp only [List.length_cons, blob.configurationSize]
    decide

/-- What follows the configuration descriptor. -/
def body (blob : DescriptorBlob) : List Record :=
  blob.settings.flatMap InterfaceSetting.records ++
    blob.trailing.map OtherDescriptor.record

def bytes (blob : DescriptorBlob) : List UInt8 :=
  (blob.deviceRecord :: blob.configRecord :: blob.body).flatMap Record.bytes

end DescriptorBlob

/-! ## Taking the endpoints of a setting -/

/-- What the last of some items leaves behind. -/
def leftBehind (behind : α → List β) (items : List α) : List β :=
  (items.getLast?.map behind).getD []

/-- What the endpoints that were taken leave unskipped. -/
def strayOf (endpoints : List EndpointDescriptor) : List Record :=
  leftBehind EndpointDescriptor.stray endpoints

/-- The endpoints can be found one after the other. -/
structure EndpointsPlain (endpoints : List EndpointDescriptor) : Prop where
  before :
    ∀ ept,
      ept ∈ endpoints →
      ∀ other,
        other ∈ ept.before →
        usbDtEndpointSize ≤ other.record.length
  companions :
    ∀ ept,
      ept ∈ endpoints.dropLast →
      ept.stray = []

/-- `in` and `out` after an endpoint is taken. -/
def takeEndpoint
    (endpoints : Endpoints)
    (ept : EndpointDescriptor) :
    Endpoints :=
  if ept.Bulk then
    if ept.DirIn then
      { endpoints with epIn := ept.bEndpointAddress.toUInt32 }
    else
      { endpoints with epOut := ept.bEndpointAddress.toUInt32 }
  else
    endpoints

/-- `in` and `out` after some endpoints are taken. -/
def foundEndpoints (endpoints : List EndpointDescriptor) : Endpoints :=
  endpoints.foldl takeEndpoint .unset

theorem leftBehind_concat
    (behind : α → List β)
    (items : List α)
    (item : α) :
    leftBehind behind (items ++ [item]) = behind item := by
  simp [leftBehind]

theorem mem_leftBehind
    {behind : α → List β}
    {items : List α}
    {found : β}
    (member : found ∈ leftBehind behind items) :
    ∃ item, item ∈ items ∧ found ∈ behind item := by
  rcases List.eq_nil_or_concat items with nil | ⟨first, final, shape⟩
  · rw [nil] at member
    cases member
  · rw [shape, List.concat_eq_append, leftBehind_concat] at member
    exact ⟨final, by simp [shape], member⟩

/-- No item leaves anything behind: those before the last, and the last. -/
theorem forall_behind_iff
    (behind : α → List β)
    (items : List α) :
    (∀ item, item ∈ items → behind item = []) ↔
      (∀ item, item ∈ items.dropLast → behind item = []) ∧
        leftBehind behind items = [] := by
  rcases List.eq_nil_or_concat items with nil | ⟨first, final, shape⟩
  · rw [nil]
    simp [leftBehind]
  · rw [shape, List.concat_eq_append, leftBehind_concat,
      List.dropLast_concat]
    constructor
    · intro all
      exact ⟨fun item member => all item (by simp [member]),
        all final (by simp)⟩
    · rintro ⟨early, late⟩ item member
      rcases List.mem_append.mp member with inFirst | isFinal
      · exact early item inFirst
      · rwa [List.mem_singleton.mp isFinal]

/-- Some records do not begin with a companion descriptor. -/
def NoCompanionFirst (records : List Record) : Prop :=
  ∀ record rest,
    records = record :: rest →
    record.type ≠ usbDtSsEndpointComp

variable
  {desc : Nat → UInt8}
  {descEnd ifc ptr start count ept : Nat}
  {last : LastBulk}
  {endpoint : EndpointDescriptor}
  {setting : InterfaceSetting}
  {tail : List Record}

theorem noCompanionFirst_before
    (before : List OtherDescriptor)
    {record : Record}
    (noCompanion : record.type ≠ usbDtSsEndpointComp)
    (rest : List Record) :
    NoCompanionFirst
      (before.map OtherDescriptor.record ++ record :: rest) := by
  intro first later shape
  cases before with
  | nil =>
      cases shape
      exact noCompanion
  | cons other before =>
      cases shape
      exact other.notCompanion

theorem noCompanionFirst_endpoints
    (noCompanion : NoCompanionFirst tail)
    (endpoints : List EndpointDescriptor) :
    NoCompanionFirst
      (endpoints.flatMap EndpointDescriptor.records ++ tail) := by
  cases endpoints with
  | nil => exact noCompanion
  | cons first rest =>
      rw [List.flatMap_cons, EndpointDescriptor.records,
        List.append_assoc, List.append_assoc, List.cons_append]
      apply noCompanionFirst_before
      change usbDtEndpoint ≠ usbDtSsEndpointComp
      decide

/-- A setting in the memory shows its fields. -/
theorem setting_fields
    (held : setting.record.HeldAt desc ifc) :
    desc (ifc + 2) = setting.bInterfaceNumber ∧
      bNumEndpoints desc ifc = setting.endpoints.length ∧
      desc (ifc + 5) = setting.bInterfaceClass ∧
      desc (ifc + 6) = setting.bInterfaceSubClass ∧
      desc (ifc + 7) = setting.bInterfaceProtocol := by
  refine ⟨held.payload 0 _ rfl, ?_, held.payload 3 _ rfl,
    held.payload 4 _ rfl, held.payload 5 _ rfl⟩
  have count : desc (ifc + 4) = UInt8.ofNat setting.endpoints.length :=
    held.payload 2 _ rfl
  rw [bNumEndpoints, count, UInt8.toNat_ofNat']
  exact Nat.mod_eq_of_lt setting.few

/-- An endpoint in the memory shows its fields. -/
theorem endpoint_fields
    (held : endpoint.record.HeldAt desc ept) :
    desc (ept + 2) = endpoint.bEndpointAddress ∧
      desc (ept + 3) = endpoint.bmAttributes :=
  ⟨held.payload 0 _ rfl, held.payload 1 _ rfl⟩

theorem isBulk_iff
    (held : endpoint.record.HeldAt desc ept) :
    IsBulk desc ept ↔ endpoint.Bulk := by
  rw [IsBulk, EndpointDescriptor.Bulk, (endpoint_fields held).2]

/-- Taking a descriptor takes the endpoint that it describes. -/
theorem take_endpoints
    (held : endpoint.record.HeldAt desc ept)
    (last : LastBulk) :
    (last.take desc ept).endpoints desc =
      takeEndpoint (last.endpoints desc) endpoint := by
  unfold takeEndpoint
  by_cases bulk : endpoint.Bulk
  · rw [LastBulk.take_of_bulk ((isBulk_iff held).mpr bulk), if_pos bulk,
      (endpoint_fields held).1]
    rfl
  · rw [LastBulk.take_of_not_bulk fun isBulk =>
      bulk ((isBulk_iff held).mp isBulk), if_neg bulk]

/-- Behind an endpoint its companion is skipped, if it is a bulk endpoint. -/
theorem remains_behindEndpoint
    (remains :
      Remains desc descEnd ept
        (endpoint.record :: (endpoint.companions ++ tail)))
    (noCompanion : NoCompanionFirst tail) :
    Remains desc descEnd (behindEndpoint desc descEnd ept)
      (endpoint.stray ++ tail) := by
  have held := remains.1
  have behind :
      Remains desc descEnd (next desc ept)
        (endpoint.companions ++ tail) := by
    rw [held.next]
    exact remains.2
  unfold behindEndpoint EndpointDescriptor.stray
  by_cases bulk : endpoint.Bulk
  · rw [if_pos bulk]
    have isBulk := (isBulk_iff held).mpr bulk
    unfold EndpointDescriptor.companions at behind
    cases companion : endpoint.companion with
    | none =>
        rw [companion] at behind
        rw [if_neg]
        · exact behind
        · rintro ⟨_, inside, type⟩
          cases tail with
          | nil =>
              have atEnd : next desc ept = descEnd := behind
              omega
          | cons record rest =>
              have recordType := behind.1.type
              exact noCompanion record rest rfl
                (recordType.symm.trans type)
    | some companion' =>
        rw [companion] at behind
        rw [if_pos ⟨isBulk, behind.inside (by simp), behind.1.type⟩]
        exact behind.2
  · rw [if_neg bulk, if_neg fun both => bulk ((isBulk_iff held).mp both.1)]
    exact behind

theorem stray_types
    (record : Record)
    (member : record ∈ endpoint.stray) :
    record.type = usbDtSsEndpointComp ∧
      record.length = usbDtSsEpCompSize := by
  unfold EndpointDescriptor.stray EndpointDescriptor.companions at member
  split at member
  · cases member
  · cases companion : endpoint.companion with
    | none =>
        rw [companion] at member
        cases member
    | some companion' =>
        rw [companion] at member
        rw [List.mem_singleton.mp member]
        exact ⟨rfl, rfl⟩

theorem strayOf_types
    (endpoints : List EndpointDescriptor)
    (record : Record)
    (member : record ∈ strayOf endpoints) :
    record.type = usbDtSsEndpointComp ∧
      record.length = usbDtSsEpCompSize := by
  obtain ⟨endpoint, _, stray⟩ := mem_leftBehind member
  exact stray_types record stray

/--
A search behind some companions and other descriptors finds its descriptor if
no companion is left, as these are too short, and no other one is too short.
-/
theorem finds_behind_iff
    {size found : Nat}
    {type : UInt8}
    {companions rest : List Record}
    {before : List OtherDescriptor}
    {target : Record}
    (areCompanions :
      ∀ record,
        record ∈ companions →
        record.type = usbDtSsEndpointComp ∧
          record.length = usbDtSsEpCompSize)
    (remains :
      Remains desc descEnd ptr
        ((companions ++ before.map OtherDescriptor.record) ++
          target :: rest))
    (typed : target.type = type)
    (long : size ≤ target.length)
    (notOther : ∀ other : OtherDescriptor, other.record.type ≠ type)
    (notCompanion : usbDtSsEndpointComp ≠ type)
    (large : usbDtSsEpCompSize < size) :
    Finds desc descEnd size type ptr found ↔
      (companions = [] ∧
        ∀ other, other ∈ before → size ≤ other.record.length) ∧
        found =
          ptr +
            recordsLength
              (companions ++ before.map OtherDescriptor.record) := by
  have others :
      ∀ record,
        record ∈ companions ++ before.map OtherDescriptor.record →
        record.type ≠ type := by
    intro record member
    rcases List.mem_append.mp member with companion | inBefore
    · rw [(areCompanions record companion).1]
      exact notCompanion
    · obtain ⟨other, _, same⟩ := List.mem_map.mp inBefore
      rw [← same]
      exact notOther other
  rw [remains.finds_iff others typed long]
  constructor
  · rintro ⟨allLong, same⟩
    refine ⟨⟨?_, ?_⟩, same⟩
    · apply List.eq_nil_iff_forall_not_mem.mpr
      intro record member
      have enough := allLong record (by simp [member])
      rw [(areCompanions record member).2] at enough
      omega
    · intro other member
      apply allLong
      exact List.mem_append_right _ (List.mem_map_of_mem member)
  · rintro ⟨⟨none, allLong⟩, same⟩
    refine ⟨?_, same⟩
    rw [none, List.nil_append]
    intro record member
    obtain ⟨other, inBefore, isRecord⟩ := List.mem_map.mp member
    rw [← isRecord]
    exact allLong other inBefore

theorem foundEndpoints_concat
    (endpoints : List EndpointDescriptor)
    (endpoint : EndpointDescriptor) :
    foundEndpoints (endpoints ++ [endpoint]) =
      takeEndpoint (foundEndpoints endpoints) endpoint := by
  simp [foundEndpoints]

/-- One more endpoint can be found if nothing short lies in front of it. -/
theorem endpointsPlain_concat
    (endpoints : List EndpointDescriptor)
    (endpoint : EndpointDescriptor) :
    EndpointsPlain (endpoints ++ [endpoint]) ↔
      EndpointsPlain endpoints ∧
        strayOf endpoints = [] ∧
        ∀ other,
          other ∈ endpoint.before →
          usbDtEndpointSize ≤ other.record.length := by
  have companions := forall_behind_iff EndpointDescriptor.stray endpoints
  constructor
  · rintro ⟨before, noStray⟩
    rw [List.dropLast_concat] at noStray
    obtain ⟨early, none⟩ := companions.mp noStray
    exact ⟨⟨fun ept member => before ept (by simp [member]), early⟩, none,
      before endpoint (by simp)⟩
  · rintro ⟨plain, none, before⟩
    refine ⟨?_, ?_⟩
    · intro ept member
      rcases List.mem_append.mp member with early | late
      · exact plain.before ept early
      · rwa [List.mem_singleton.mp late]
    · rw [List.dropLast_concat]
      exact companions.mpr ⟨plain.companions, none⟩

/--
Where the walk may be between the endpoints of a setting that is followed by
other records.
-/
structure EndpointsTaken
    (desc : Nat → UInt8)
    (descEnd : Nat)
    (tail : List Record)
    (taken left : List EndpointDescriptor)
    (ptr : Nat)
    (last : LastBulk) : Prop where
  plain : EndpointsPlain taken
  remains :
    Remains desc descEnd ptr
      (strayOf taken ++
        (left.flatMap EndpointDescriptor.records ++ tail))
  endpoints : last.endpoints desc = foundEndpoints taken

section Step

variable {taken left : List EndpointDescriptor}

/-- What lies in front of the next endpoint, and behind its descriptor. -/
theorem EndpointsTaken.pending
    (between :
      EndpointsTaken desc descEnd tail taken (endpoint :: left) ptr last) :
    Remains desc descEnd ptr
      ((strayOf taken ++ endpoint.before.map OtherDescriptor.record) ++
        endpoint.record ::
          (endpoint.companions ++
            (left.flatMap EndpointDescriptor.records ++ tail))) := by
  simpa only [List.flatMap_cons, EndpointDescriptor.records,
    List.append_assoc, List.cons_append] using between.remains

/-- The search for the next endpoint finds it, if nothing short is before it. -/
theorem EndpointsTaken.finds_iff
    (between :
      EndpointsTaken desc descEnd tail taken (endpoint :: left) ptr last) :
    FindsEndpoint desc descEnd ptr ept ↔
      EndpointsPlain (taken ++ [endpoint]) ∧
        ept =
          ptr +
            recordsLength
              (strayOf taken ++
                endpoint.before.map OtherDescriptor.record) := by
  have long : usbDtEndpointSize ≤ endpoint.record.length := by
    have whole := endpoint.whole
    simp only [EndpointDescriptor.record, Record.length, List.length_cons,
      usbDtEndpointSize]
    omega
  have typed : endpoint.record.type = usbDtEndpoint := rfl
  rw [FindsEndpoint,
    finds_behind_iff (strayOf_types taken) between.pending typed long
      OtherDescriptor.notEndpoint (by decide) (by decide),
    endpointsPlain_concat]
  simp only [between.plain, true_and]

/-- Where an endpoint is found its descriptor is in the memory. -/
theorem EndpointsTaken.found
    (between :
      EndpointsTaken desc descEnd tail taken (endpoint :: left) ptr last)
    (finds : FindsEndpoint desc descEnd ptr ept) :
    Remains desc descEnd ept
      (endpoint.record ::
        (endpoint.companions ++
          (left.flatMap EndpointDescriptor.records ++ tail))) := by
  rw [(between.finds_iff.mp finds).2]
  exact between.pending.append

/-- In front of another endpoint the data has not ended. -/
theorem EndpointsTaken.inside
    (between :
      EndpointsTaken desc descEnd tail taken (endpoint :: left) ptr last) :
    ptr < descEnd :=
  between.pending.inside (by simp)

theorem EndpointsTaken.further
    {second : EndpointDescriptor}
    (between :
      EndpointsTaken desc descEnd tail taken (endpoint :: second :: left) ptr
        last)
    (finds : FindsEndpoint desc descEnd ptr ept) :
    LengthPrefixed.next desc ept < descEnd := by
  have found := between.found finds
  rw [found.1.next]
  exact Remains.inside found.2 (by simp [EndpointDescriptor.records])

/-- Taking the endpoint that is found. -/
theorem EndpointsTaken.next
    (between :
      EndpointsTaken desc descEnd tail taken (endpoint :: left) ptr last)
    (noCompanion : NoCompanionFirst tail)
    (finds : FindsEndpoint desc descEnd ptr ept) :
    EndpointsTaken desc descEnd tail (taken ++ [endpoint]) left
      (behindEndpoint desc descEnd ept) (last.take desc ept) := by
  have found := between.found finds
  refine ⟨(between.finds_iff.mp finds).1, ?_, ?_⟩
  · rw [strayOf, leftBehind_concat]
    exact remains_behindEndpoint found
      (noCompanionFirst_endpoints noCompanion left)
  · rw [take_endpoints found.1, between.endpoints, foundEndpoints_concat]

end Step

/-! ## All endpoints of a setting -/

/-- The walk begins with the endpoints behind the interface descriptor. -/
theorem endpointsTaken_none
    (remains :
      Remains desc descEnd ifc
        (setting.record ::
          (setting.endpoints.flatMap EndpointDescriptor.records ++ tail))) :
    EndpointsTaken desc descEnd tail [] setting.endpoints (next desc ifc)
      .none where
  plain := ⟨by simp, by simp⟩
  remains := by
    rw [remains.1.next]
    exact remains.2
  endpoints := rfl

/-- The walk takes the endpoints of a setting in their order. -/
theorem takenAt_shape
    (remains :
      Remains desc descEnd ifc
        (setting.record ::
          (setting.endpoints.flatMap EndpointDescriptor.records ++ tail)))
    (noCompanion : NoCompanionFirst tail)
    (takenAt : TakenAt desc descEnd ifc count ptr last) :
    ∃ taken left,
      setting.endpoints = taken ++ left ∧
        taken.length = count ∧
        EndpointsTaken desc descEnd tail taken left ptr last := by
  have counted := (setting_fields remains.1).2.1
  induction takenAt with
  | none =>
      exact ⟨[], setting.endpoints, rfl, rfl, endpointsTaken_none remains⟩
  | next takenAt more inside found further inductionHypothesis =>
      obtain ⟨taken, left, shape, length, between⟩ := inductionHypothesis
      cases left with
      | nil =>
          rw [counted, shape, List.append_nil, length] at more
          exact absurd more (Nat.lt_irrefl _)
      | cons endpoint left =>
          refine ⟨taken ++ [endpoint], left, ?_, ?_,
            between.next noCompanion found⟩
          · rw [shape, List.append_assoc, List.singleton_append]
          · rw [List.length_append, length, List.length_singleton]

/-- When the endpoints are taken, all those of the setting are. -/
theorem takesEndpoints_shape
    (remains :
      Remains desc descEnd ifc
        (setting.record ::
          (setting.endpoints.flatMap EndpointDescriptor.records ++ tail)))
    (noCompanion : NoCompanionFirst tail)
    (takes : TakesEndpoints desc descEnd ifc ptr last) :
    EndpointsTaken desc descEnd tail setting.endpoints [] ptr last := by
  have counted := (setting_fields remains.1).2.1
  cases takes with
  | all takenAt =>
      obtain ⟨taken, left, shape, length, between⟩ :=
        takenAt_shape remains noCompanion takenAt
      have none : left = [] := by
        apply List.eq_nil_of_length_eq_zero
        have total := congrArg List.length shape
        rw [List.length_append] at total
        omega
      rw [none, List.append_nil] at shape
      rw [shape]
      rwa [none] at between
  | upTo takenAt more inside found bulk atEnd =>
      rename_i count ptr ept last
      obtain ⟨taken, left, shape, length, between⟩ :=
        takenAt_shape remains noCompanion takenAt
      cases left with
      | nil =>
          rw [counted, shape, List.append_nil, length] at more
          exact absurd more (Nat.lt_irrefl _)
      | cons endpoint left =>
          have behind : behindEndpoint desc descEnd ept = next desc ept :=
            if_neg fun both => absurd both.2.1 (by omega)
          have following := between.next noCompanion found
          rw [behind] at following
          cases left with
          | nil => rwa [shape]
          | cons second left =>
              have further := between.further found
              omega

theorem EndpointsPlain.of_append
    {first later : List EndpointDescriptor}
    (plain : EndpointsPlain (first ++ later)) :
    EndpointsPlain first := by
  induction later using List.reverseRecOn with
  | nil => rwa [List.append_nil] at plain
  | append_singleton later final inductionHypothesis =>
      rw [← List.append_assoc, endpointsPlain_concat] at plain
      exact inductionHypothesis plain.1

/-- The walk comes to each endpoint if nothing short is in front of it. -/
theorem takenAt_of_plain
    (remains :
      Remains desc descEnd ifc
        (setting.record ::
          (setting.endpoints.flatMap EndpointDescriptor.records ++ tail)))
    (noCompanion : NoCompanionFirst tail)
    (plain : EndpointsPlain setting.endpoints)
    (taken left : List EndpointDescriptor)
    (endpoint : EndpointDescriptor)
    (shape : setting.endpoints = taken ++ endpoint :: left) :
    ∃ ptr last,
      TakenAt desc descEnd ifc taken.length ptr last ∧
        EndpointsTaken desc descEnd tail taken (endpoint :: left) ptr
          last := by
  induction taken using List.reverseRecOn generalizing endpoint left with
  | nil =>
      have none := endpointsTaken_none remains
      rw [shape] at none
      exact ⟨_, _, .none, none⟩
  | append_singleton taken final inductionHypothesis =>
      rw [List.append_assoc, List.singleton_append] at shape
      obtain ⟨ptr, last, takenAt, between⟩ :=
        inductionHypothesis (endpoint :: left) final shape
      have plain' : EndpointsPlain (taken ++ [final]) := by
        rw [shape, ← List.singleton_append, ← List.append_assoc] at plain
        exact plain.of_append
      have found := between.finds_iff.mpr ⟨plain', rfl⟩
      have more : taken.length < bNumEndpoints desc ifc := by
        rw [(setting_fields remains.1).2.1, shape]
        simp
      have next := between.next noCompanion found
      rw [List.length_append, List.length_singleton]
      exact ⟨_, _,
        .next takenAt more between.inside found fun _ =>
          between.further found,
        next⟩

/-- The endpoints of a setting are taken if nothing short is between them. -/
theorem takesEndpoints_of_plain
    (remains :
      Remains desc descEnd ifc
        (setting.record ::
          (setting.endpoints.flatMap EndpointDescriptor.records ++ tail)))
    (noCompanion : NoCompanionFirst tail)
    (plain : EndpointsPlain setting.endpoints) :
    ∃ ptr last, TakesEndpoints desc descEnd ifc ptr last := by
  have counted := (setting_fields remains.1).2.1
  rcases List.eq_nil_or_concat setting.endpoints with
    nil | ⟨taken, final, shape⟩
  · rw [nil, List.length_nil] at counted
    refine ⟨next desc ifc, .none, .all ?_⟩
    rw [counted]
    exact .none
  · rw [List.concat_eq_append] at shape
    obtain ⟨ptr, last, takenAt, between⟩ :=
      takenAt_of_plain remains noCompanion plain taken [] final shape
    obtain ⟨ept, found⟩ : ∃ ept, FindsEndpoint desc descEnd ptr ept :=
      ⟨_, between.finds_iff.mpr ⟨by rwa [← shape], rfl⟩⟩
    have total : bNumEndpoints desc ifc = taken.length + 1 := by
      rw [counted, shape, List.length_append, List.length_singleton]
    have more : taken.length < bNumEndpoints desc ifc := by omega
    by_cases atEnd : IsBulk desc ept ∧ descEnd ≤ next desc ept
    · exact ⟨_, _,
        .upTo takenAt more between.inside found atEnd.1 atEnd.2⟩
    · refine
        ⟨behindEndpoint desc descEnd ept, last.take desc ept, .all ?_⟩
      rw [total]
      exact .next takenAt more between.inside found fun bulk =>
        Nat.lt_of_not_le fun past => atEnd ⟨bulk, past⟩

end Cdba
