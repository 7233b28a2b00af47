import Cdba.Device
import Cdba.UsbEndpoints
import Cdba.UsbLayout

namespace Cdba

/-!
# Finding the fastboot interface

On well-formed descriptors the walk of `parse_usb_desc` goes from setting to
setting, as long as no descriptor that it has to pass is too short for its
search.  So it finds the first fastboot interface only if nothing short stands
in front of its endpoints and if it comes before the rounds are used up.
-/

open LengthPrefixed

/-! ## Settings -/

namespace InterfaceSetting

/-- Class, subclass and protocol are those of a fastboot interface. -/
structure HasFastbootClass (setting : InterfaceSetting) : Prop where
  bInterfaceClass : setting.bInterfaceClass = 0xff
  bInterfaceSubClass : setting.bInterfaceSubClass = 0x42
  bInterfaceProtocol : setting.bInterfaceProtocol = 0x03

/-- A fastboot interface has a bulk endpoint in each direction. -/
structure IsFastboot (setting : InterfaceSetting) : Prop where
  cls : setting.HasFastbootClass
  bulkIn : ∃ ept, ept ∈ setting.endpoints ∧ ept.Bulk ∧ ept.DirIn
  bulkOut : ∃ ept, ept ∈ setting.endpoints ∧ ept.Bulk ∧ ¬ ept.DirIn

/-- The setting and its endpoints can be found one after the other. -/
structure Plain (setting : InterfaceSetting) : Prop where
  before :
    ∀ other,
      other ∈ setting.before →
      usbDtInterfaceSize ≤ other.record.length
  endpoints : EndpointsPlain setting.endpoints

end InterfaceSetting

/-- What the settings that were passed leave unskipped. -/
def strayBehind (settings : List InterfaceSetting) : List Record :=
  leftBehind (fun setting => strayOf setting.endpoints) settings

/-- The rounds pass these settings and claim none of them. -/
structure SettingsPassed
    (claim : Nat → UInt8 → Bool)
    (passed : List InterfaceSetting) : Prop where
  plain : ∀ setting, setting ∈ passed → setting.Plain
  companions :
    ∀ setting,
      setting ∈ passed.dropLast →
      strayOf setting.endpoints = []
  unclaimed :
    ∀ index setting,
      passed[index]? = some setting →
      setting.HasFastbootClass →
      claim index setting.bInterfaceNumber = false

variable
  {desc : Nat → UInt8}
  {descEnd ifc ptr ptr' k : Nat}
  {claim : Nat → UInt8 → Bool}
  {last : LastBulk}
  {setting : InterfaceSetting}
  {passed left : List InterfaceSetting}
  {trailing : List OtherDescriptor}

theorem strayBehind_types
    (passed : List InterfaceSetting)
    (record : Record)
    (member : record ∈ strayBehind passed) :
    record.type = usbDtSsEndpointComp ∧
      record.length = usbDtSsEpCompSize := by
  obtain ⟨setting, _, stray⟩ := mem_leftBehind member
  exact strayOf_types setting.endpoints record stray

/-- One more setting is passed if nothing short lies in front of it. -/
theorem settingsPassed_concat
    (passed : List InterfaceSetting)
    (setting : InterfaceSetting) :
    SettingsPassed claim (passed ++ [setting]) ↔
      SettingsPassed claim passed ∧
        strayBehind passed = [] ∧
        setting.Plain ∧
        (setting.HasFastbootClass →
          claim passed.length setting.bInterfaceNumber = false) := by
  have companions :=
    forall_behind_iff
      (fun setting : InterfaceSetting => strayOf setting.endpoints) passed
  constructor
  · rintro ⟨plain, noStray, unclaimed⟩
    rw [List.dropLast_concat] at noStray
    obtain ⟨early, none⟩ := companions.mp noStray
    refine ⟨⟨fun other member => plain other (by simp [member]), early, ?_⟩,
      none, plain setting (by simp),
      unclaimed passed.length setting (by simp)⟩
    intro index other found
    apply unclaimed index other
    rwa [List.getElem?_append_left
      (List.getElem?_eq_some_iff.mp found).1]
  · rintro ⟨earlier, none, plain, unclaimed⟩
    refine ⟨?_, ?_, ?_⟩
    · intro other member
      rcases List.mem_append.mp member with early | late
      · exact earlier.plain other early
      · rwa [List.mem_singleton.mp late]
    · rw [List.dropLast_concat]
      exact companions.mpr ⟨earlier.companions, none⟩
    · intro index other found
      rcases Nat.lt_or_ge index passed.length with early | late
      · rw [List.getElem?_append_left early] at found
        exact earlier.unclaimed index other found
      · rw [List.getElem?_append_right late,
          List.getElem?_singleton] at found
        split at found
        · rename_i zero
          have same : index = passed.length := by omega
          cases found
          rwa [same]
        · cases found

/-- Where the walk may be between two settings. -/
structure SettingsTaken
    (desc : Nat → UInt8)
    (descEnd : Nat)
    (claim : Nat → UInt8 → Bool)
    (trailing : List OtherDescriptor)
    (passed left : List InterfaceSetting)
    (ptr : Nat) : Prop where
  plain : SettingsPassed claim passed
  remains :
    Remains desc descEnd ptr
      (strayBehind passed ++
        (left.flatMap InterfaceSetting.records ++
          trailing.map OtherDescriptor.record))

/-- What lies in front of the next setting, and behind its descriptor. -/
theorem SettingsTaken.pending
    (between :
      SettingsTaken desc descEnd claim trailing passed (setting :: left)
        ptr) :
    Remains desc descEnd ptr
      ((strayBehind passed ++
          setting.before.map OtherDescriptor.record) ++
        setting.record ::
          (setting.endpoints.flatMap EndpointDescriptor.records ++
            (left.flatMap InterfaceSetting.records ++
              trailing.map OtherDescriptor.record))) := by
  simpa only [List.flatMap_cons, InterfaceSetting.records,
    List.append_assoc, List.cons_append] using between.remains

/-- What follows a setting does not begin with a companion descriptor. -/
theorem noCompanionFirst_settings
    (settings : List InterfaceSetting)
    (trailing : List OtherDescriptor) :
    NoCompanionFirst
      (settings.flatMap InterfaceSetting.records ++
        trailing.map OtherDescriptor.record) := by
  cases settings with
  | nil =>
      intro first later shape
      cases trailing with
      | nil => cases shape
      | cons other trailing =>
          cases shape
          exact other.notCompanion
  | cons setting settings =>
      rw [List.flatMap_cons, InterfaceSetting.records, List.append_assoc,
        List.append_assoc, List.cons_append]
      apply noCompanionFirst_before
      change usbDtInterface ≠ usbDtSsEndpointComp
      decide

/-- The search for the next setting finds it, if nothing short is before it. -/
theorem SettingsTaken.finds_iff
    (between :
      SettingsTaken desc descEnd claim trailing passed (setting :: left)
        ptr) :
    FindsInterface desc descEnd ptr ifc ↔
      (strayBehind passed = [] ∧
        ∀ other,
          other ∈ setting.before →
          usbDtInterfaceSize ≤ other.record.length) ∧
        ifc =
          ptr +
            recordsLength
              (strayBehind passed ++
                setting.before.map OtherDescriptor.record) := by
  have long : usbDtInterfaceSize ≤ setting.record.length := Nat.le_refl 9
  have typed : setting.record.type = usbDtInterface := rfl
  rw [FindsInterface,
    finds_behind_iff (strayBehind_types passed) between.pending typed long
      OtherDescriptor.notInterface (by decide) (by decide)]

/-- Where a setting is found its descriptor is in the memory. -/
theorem SettingsTaken.found
    (between :
      SettingsTaken desc descEnd claim trailing passed (setting :: left) ptr)
    (finds : FindsInterface desc descEnd ptr ifc) :
    Remains desc descEnd ifc
      (setting.record ::
        (setting.endpoints.flatMap EndpointDescriptor.records ++
          (left.flatMap InterfaceSetting.records ++
            trailing.map OtherDescriptor.record))) := by
  rw [(between.finds_iff.mp finds).2]
  exact between.pending.append

/-- Whether a round claims a setting that is in the memory. -/
theorem claims_iff
    (held : setting.record.HeldAt desc ifc) :
    Claims desc claim k ifc ↔
      setting.HasFastbootClass ∧
        claim k setting.bInterfaceNumber = true := by
  obtain ⟨number, _, cls, sub, proto⟩ := setting_fields held
  constructor
  · rintro ⟨⟨isCls, isSub, isProto⟩, claimed⟩
    exact ⟨⟨cls.symm.trans isCls, sub.symm.trans isSub,
      proto.symm.trans isProto⟩, number ▸ claimed⟩
  · rintro ⟨⟨isCls, isSub, isProto⟩, claimed⟩
    exact ⟨⟨cls.trans isCls, sub.trans isSub, proto.trans isProto⟩,
      number ▸ claimed⟩

/-- Passing the setting that is found. -/
theorem SettingsTaken.next
    (between :
      SettingsTaken desc descEnd claim trailing passed (setting :: left) ptr)
    (finds : FindsInterface desc descEnd ptr ifc)
    (takes : TakesEndpoints desc descEnd ifc ptr' last)
    (skips : ¬ Claims desc claim passed.length ifc) :
    SettingsTaken desc descEnd claim trailing (passed ++ [setting]) left
      ptr' := by
  have found := between.found finds
  have shape :=
    takesEndpoints_shape found (noCompanionFirst_settings left trailing) takes
  obtain ⟨⟨none, before⟩, _⟩ := between.finds_iff.mp finds
  constructor
  · apply (settingsPassed_concat passed setting).mpr
    refine ⟨between.plain, none, ⟨before, shape.plain⟩, ?_⟩
    intro cls
    apply Bool.eq_false_iff.mpr
    intro claimed
    exact skips ((claims_iff found.1).mpr ⟨cls, claimed⟩)
  · rw [strayBehind, leftBehind_concat]
    exact shape.remains

/-! ## The rounds on well-formed descriptors -/

section Blob

variable {blob : DescriptorBlob}

/-- The memory holds the descriptors and the data ends with them. -/
abbrev BlobInMemory
    (blob : DescriptorBlob)
    (desc : Nat → UInt8)
    (descEnd : Nat) : Prop :=
  Remains desc descEnd 0 (blob.deviceRecord :: blob.configRecord :: blob.body)

theorem blobInMemory
    (blob : DescriptorBlob)
    (beyond : Nat → UInt8) :
    BlobInMemory blob (memoryAt blob.bytes beyond) blob.bytes.length := by
  have held :
      ∀ index byte,
        blob.bytes[index]? = some byte →
        memoryAt blob.bytes beyond (0 + index) = byte := by
    intro index byte found
    rw [Nat.zero_add, memoryAt, found]
    rfl
  have remains := remains_of_bytes _ 0 held
  rwa [Nat.zero_add, recordsLength_eq] at remains

/-- There are at least as many settings as interfaces, so as rounds. -/
theorem rounds_le (blob : DescriptorBlob) :
    blob.bNumInterfaces.toNat ≤ blob.settings.length := by
  rw [blob.counts]
  have fewer :=
    (List.dedup_sublist
      (blob.settings.map InterfaceSetting.bInterfaceNumber)).length_le
  rwa [List.length_map] at fewer

theorem deviceRecord_length (blob : DescriptorBlob) :
    blob.deviceRecord.length = 18 := by
  rw [Record.length, DescriptorBlob.deviceRecord, blob.deviceSize]

theorem configRecord_length (blob : DescriptorBlob) :
    blob.configRecord.length = 9 := by
  simp only [Record.length, DescriptorBlob.configRecord, List.length_cons,
    blob.configurationSize]

/-- The walk accepts the header and reads the number of interfaces. -/
theorem blob_header
    (inMemory : BlobInMemory blob desc descEnd)
    (some : blob.settings ≠ []) :
    AcceptsHeader desc descEnd ∧
      bNumInterfaces desc = blob.bNumInterfaces.toNat ∧
      Remains desc descEnd (next desc (next desc 0)) blob.body := by
  have device := inMemory.1
  have config := inMemory.2.1
  have body := inMemory.2.2
  rw [deviceRecord_length] at config body
  rw [configRecord_length] at body
  have afterDevice : next desc 0 = 18 := by
    rw [device.next, deviceRecord_length]
  have afterConfig : next desc 18 = 27 := by
    rw [config.next, configRecord_length]
  have nonempty : blob.body ≠ [] := by
    obtain ⟨setting, settings, shape⟩ := List.exists_cons_of_ne_nil some
    rw [DescriptorBlob.body, shape]
    simp [InterfaceSetting.records]
  have inside := body.inside nonempty
  rw [afterDevice, afterConfig]
  refine ⟨⟨?_, device.type, ?_, ?_⟩, ?_, body⟩
  · omega
  · rw [afterDevice]
    omega
  · rw [afterDevice]
    exact config.type
  · rw [bNumInterfaces, afterDevice]
    exact congrArg UInt8.toNat (config.payload 2 _ rfl)

/-- In front of the first round no setting is passed. -/
theorem settingsTaken_none
    (inMemory : BlobInMemory blob desc descEnd)
    (some : blob.settings ≠ []) :
    SettingsTaken desc descEnd claim blob.trailing [] blob.settings
      (next desc (next desc 0)) where
  plain :=
    { plain := by simp
      companions := by simp
      unclaimed := by simp }
  remains := (blob_header inMemory some).2.2

/-- As long as there are rounds there are settings. -/
theorem setting_of_round
    (inMemory : BlobInMemory blob desc descEnd)
    (some : blob.settings ≠ [])
    (shape : blob.settings = passed ++ left)
    (more : passed.length < bNumInterfaces desc) :
    ∃ setting rest, left = setting :: rest := by
  apply List.exists_cons_of_ne_nil
  intro none
  have enough := rounds_le blob
  rw [shape, none, List.append_nil] at enough
  rw [(blob_header inMemory some).2.1] at more
  omega

/-- The rounds go from setting to setting. -/
theorem roundAt_shape
    (inMemory : BlobInMemory blob desc descEnd)
    (some : blob.settings ≠ [])
    (round : RoundAt desc descEnd claim k ptr) :
    ∃ passed left,
      blob.settings = passed ++ left ∧
        passed.length = k ∧
        SettingsTaken desc descEnd claim blob.trailing passed left ptr := by
  induction round with
  | first header =>
      exact ⟨[], blob.settings, rfl, rfl,
        settingsTaken_none inMemory some⟩
  | next round more inside found takes skips inductionHypothesis =>
      obtain ⟨passed, left, shape, length, between⟩ := inductionHypothesis
      rw [← length] at skips more
      obtain ⟨setting, rest, isCons⟩ :=
        setting_of_round inMemory some shape more
      subst isCons
      refine ⟨passed ++ [setting], rest, ?_, ?_,
        between.next found takes skips⟩
      · rw [shape, List.append_assoc, List.singleton_append]
      · rw [List.length_append, length, List.length_singleton]

/-- The rounds come to each setting if nothing short is in front of it. -/
theorem roundAt_of_passed
    (inMemory : BlobInMemory blob desc descEnd)
    (some : blob.settings ≠ [])
    (shape : blob.settings = passed ++ left)
    (plain : SettingsPassed claim passed)
    (few : passed.length ≤ bNumInterfaces desc) :
    ∃ ptr,
      RoundAt desc descEnd claim passed.length ptr ∧
        SettingsTaken desc descEnd claim blob.trailing passed left ptr := by
  induction passed using List.reverseRecOn generalizing left with
  | nil =>
      have none :
          SettingsTaken desc descEnd claim blob.trailing [] blob.settings
            (next desc (next desc 0)) :=
        settingsTaken_none inMemory some
      rw [shape] at none
      exact ⟨_, .first (blob_header inMemory some).1, none⟩
  | append_singleton passed setting inductionHypothesis =>
      rw [List.append_assoc, List.singleton_append] at shape
      rw [List.length_append, List.length_singleton] at few ⊢
      obtain ⟨earlier, none, plain, unclaimed⟩ :=
        (settingsPassed_concat passed setting).mp plain
      obtain ⟨ptr, round, between⟩ :=
        inductionHypothesis shape earlier (by omega)
      obtain ⟨ifc, found⟩ : ∃ ifc, FindsInterface desc descEnd ptr ifc :=
        ⟨_, between.finds_iff.mpr ⟨⟨none, plain.before⟩, rfl⟩⟩
      have remains := between.found found
      have noCompanion := noCompanionFirst_settings left blob.trailing
      obtain ⟨ptr', last, takes⟩ :=
        takesEndpoints_of_plain remains noCompanion plain.endpoints
      have skips : ¬ Claims desc claim passed.length ifc := by
        intro claims
        obtain ⟨cls, claimed⟩ := (claims_iff remains.1).mp claims
        rw [unclaimed cls] at claimed
        cases claimed
      have inside := between.pending.inside (by simp)
      exact ⟨ptr', .next round (by omega) inside found takes skips,
        between.next found takes skips⟩

end Blob

/-! ## The endpoints that are found -/

/-- A field that some items overwrite has the value of the last of them. -/
theorem foldl_overwrite
    {σ α β : Type}
    {step : σ → α → σ}
    {field : σ → β}
    {value : α → β}
    {writes : α → Prop}
    [DecidablePred writes]
    (written :
      ∀ state item,
        writes item →
        field (step state item) = value item)
    (kept :
      ∀ state item,
        ¬ writes item →
        field (step state item) = field state)
    (items : List α)
    (state : σ) :
    (∃ item,
      item ∈ items ∧
        writes item ∧
        field (items.foldl step state) = value item) ∨
      (∀ item, item ∈ items → ¬ writes item) ∧
        field (items.foldl step state) = field state := by
  induction items using List.reverseRecOn with
  | nil => exact .inr ⟨by simp, rfl⟩
  | append_singleton items final inductionHypothesis =>
      rw [List.foldl_append, List.foldl_cons, List.foldl_nil]
      by_cases last : writes final
      · exact .inl ⟨final, by simp, last, written _ final last⟩
      · rw [kept _ final last]
        rcases inductionHypothesis with
          ⟨item, member, wrote, same⟩ | ⟨none, same⟩
        · exact .inl ⟨item, by simp [member], wrote, same⟩
        · refine .inr ⟨?_, same⟩
          intro item member
          rcases List.mem_append.mp member with early | late
          · exact none item early
          · rwa [List.mem_singleton.mp late]

theorem foundEndpoints_epIn
    (endpoints : List EndpointDescriptor) :
    (∃ ept,
      ept ∈ endpoints ∧
        (ept.Bulk ∧ ept.DirIn) ∧
        (foundEndpoints endpoints).epIn = ept.bEndpointAddress.toUInt32) ∨
      (∀ ept, ept ∈ endpoints → ¬ (ept.Bulk ∧ ept.DirIn)) ∧
        (foundEndpoints endpoints).epIn = 0xffffffff := by
  apply foldl_overwrite
  · rintro found ept ⟨bulk, dirIn⟩
    rw [takeEndpoint, if_pos bulk, if_pos dirIn]
  · intro found ept other
    unfold takeEndpoint
    split
    · rename_i bulk
      rw [if_neg fun dirIn => other ⟨bulk, dirIn⟩]
    · rfl

theorem foundEndpoints_epOut
    (endpoints : List EndpointDescriptor) :
    (∃ ept,
      ept ∈ endpoints ∧
        (ept.Bulk ∧ ¬ ept.DirIn) ∧
        (foundEndpoints endpoints).epOut = ept.bEndpointAddress.toUInt32) ∨
      (∀ ept, ept ∈ endpoints → ¬ (ept.Bulk ∧ ¬ ept.DirIn)) ∧
        (foundEndpoints endpoints).epOut = 0xffffffff := by
  apply foldl_overwrite
  · rintro found ept ⟨bulk, dirOut⟩
    rw [takeEndpoint, if_pos bulk, if_neg dirOut]
  · intro found ept other
    unfold takeEndpoint
    split
    · rename_i bulk
      rw [if_pos (Decidable.not_not.mp fun dirOut => other ⟨bulk, dirOut⟩)]
    · rfl

/-- The endpoints that were returned belong to a setting. -/
structure EndpointsOf
    (setting : InterfaceSetting)
    (endpoints : Endpoints) : Prop where
  epIn :
    ∃ ept,
      ept ∈ setting.endpoints ∧
        (ept.Bulk ∧ ept.DirIn) ∧
        endpoints.epIn = ept.bEndpointAddress.toUInt32
  epOut :
    ∃ ept,
      ept ∈ setting.endpoints ∧
        (ept.Bulk ∧ ¬ ept.DirIn) ∧
        endpoints.epOut = ept.bEndpointAddress.toUInt32

/-- The endpoints that are found are bytes only if there are both. -/
theorem foundEndpoints_isFastboot
    {other : InterfaceSetting}
    (cls : setting.HasFastbootClass)
    (belong : EndpointsOf other (foundEndpoints setting.endpoints)) :
    setting.IsFastboot := by
  have byte : ∀ byte : UInt8, byte.toUInt32 ≠ 0xffffffff := by
    intro byte minusOne
    have value := congrArg UInt32.toNat minusOne
    rw [UInt8.toNat_toUInt32] at value
    have bound := byte.toNat_lt
    rw [value] at bound
    exact absurd bound (by decide)
  obtain ⟨⟨eptIn, _, _, epIn⟩, ⟨eptOut, _, _, epOut⟩⟩ := belong
  refine ⟨cls, ?_, ?_⟩
  · rcases foundEndpoints_epIn setting.endpoints with
      ⟨ept, member, isIn, _⟩ | ⟨_, unset⟩
    · exact ⟨ept, member, isIn⟩
    · exact absurd (epIn.symm.trans unset) (byte _)
  · rcases foundEndpoints_epOut setting.endpoints with
      ⟨ept, member, isOut, _⟩ | ⟨_, unset⟩
    · exact ⟨ept, member, isOut⟩
    · exact absurd (epOut.symm.trans unset) (byte _)

theorem InterfaceSetting.IsFastboot.found
    (fastboot : setting.IsFastboot) :
    EndpointsOf setting (foundEndpoints setting.endpoints) := by
  obtain ⟨_, ⟨eptIn, memberIn, isIn⟩, ⟨eptOut, memberOut, isOut⟩⟩ := fastboot
  constructor
  · rcases foundEndpoints_epIn setting.endpoints with found | ⟨none, _⟩
    · exact found
    · exact absurd isIn (none eptIn memberIn)
  · rcases foundEndpoints_epOut setting.endpoints with found | ⟨none, _⟩
    · exact found
    · exact absurd isOut (none eptOut memberOut)

/-! ## The first fastboot interface -/

/--
The walk comes to a setting behind some others: they take fewer rounds than
there are interfaces, none of them is claimed, no descriptor is too short for
the search that has to pass it, and no companion stands behind an endpoint that
is no bulk endpoint, up to the last endpoint of the setting.
-/
structure FoundInOrder
    (claim : Nat → UInt8 → Bool)
    (bNumInterfaces : UInt8)
    (before : List InterfaceSetting)
    (setting : InterfaceSetting) : Prop where
  counted : before.length < bNumInterfaces.toNat
  unclaimed :
    ∀ index earlier,
      before[index]? = some earlier →
      earlier.HasFastbootClass →
      claim index earlier.bInterfaceNumber = false
  beforeInterfaces :
    ∀ passed,
      passed ∈ before ++ [setting] →
      ∀ other,
        other ∈ passed.before →
        usbDtInterfaceSize ≤ other.record.length
  beforeEndpoints :
    ∀ passed,
      passed ∈ before ++ [setting] →
      ∀ ept,
        ept ∈ passed.endpoints →
        ∀ other,
          other ∈ ept.before →
          usbDtEndpointSize ≤ other.record.length
  companions :
    ∀ ept,
      ept ∈
          before.flatMap InterfaceSetting.endpoints ++
            setting.endpoints.dropLast →
      ept.Bulk ∨ ept.companion = none

theorem stray_eq_nil_iff
    (ept : EndpointDescriptor) :
    ept.stray = [] ↔ ept.Bulk ∨ ept.companion = none := by
  unfold EndpointDescriptor.stray EndpointDescriptor.companions
  by_cases bulk : ept.Bulk
  · simp [bulk]
  · simp [bulk]

/-- Coming to a setting is passing those before it and taking its endpoints. -/
theorem foundInOrder_iff
    (bNumInterfaces : UInt8)
    (before : List InterfaceSetting)
    (setting : InterfaceSetting) :
    FoundInOrder claim bNumInterfaces before setting ↔
      before.length < bNumInterfaces.toNat ∧
        SettingsPassed claim before ∧
        strayBehind before = [] ∧
        setting.Plain := by
  have behind :=
    forall_behind_iff
      (fun setting : InterfaceSetting => strayOf setting.endpoints) before
  have within :
      ∀ setting : InterfaceSetting,
        (∀ ept, ept ∈ setting.endpoints → ept.stray = []) ↔
          (∀ ept, ept ∈ setting.endpoints.dropLast → ept.stray = []) ∧
            strayOf setting.endpoints = [] :=
    fun setting =>
      forall_behind_iff EndpointDescriptor.stray setting.endpoints
  constructor
  · rintro ⟨counted, unclaimed, interfaces, endpoints, companions⟩
    have noStray :
        ∀ passed,
          passed ∈ before →
          ∀ ept, ept ∈ passed.endpoints → ept.stray = [] := by
      intro passed member ept endpoint
      apply (stray_eq_nil_iff ept).mpr
      apply companions
      apply List.mem_append_left
      exact List.mem_flatMap.mpr ⟨passed, member, endpoint⟩
    obtain ⟨early, none⟩ :=
      behind.mp fun passed member =>
        ((within passed).mp (noStray passed member)).2
    refine ⟨counted, ⟨?_, early, unclaimed⟩, none, ?_, ?_, ?_⟩
    · intro passed member
      exact ⟨interfaces passed (by simp [member]),
        endpoints passed (by simp [member]),
        ((within passed).mp (noStray passed member)).1⟩
    · exact interfaces setting (by simp)
    · exact endpoints setting (by simp)
    · intro ept member
      apply (stray_eq_nil_iff ept).mpr
      exact companions ept (List.mem_append_right _ member)
  · rintro ⟨counted, ⟨plain, early, unclaimed⟩, none, isPlain⟩
    have all :
        ∀ passed, passed ∈ before ++ [setting] → passed.Plain := by
      intro passed member
      rcases List.mem_append.mp member with inBefore | isSetting
      · exact plain passed inBefore
      · rwa [List.mem_singleton.mp isSetting]
    refine ⟨counted, unclaimed, fun passed member => (all passed member).before,
      fun passed member => (all passed member).endpoints.before, ?_⟩
    intro ept member
    apply (stray_eq_nil_iff ept).mp
    rcases List.mem_append.mp member with inBefore | inSetting
    · obtain ⟨passed, inBefore, endpoint⟩ := List.mem_flatMap.mp inBefore
      exact (within passed).mpr
        ⟨(plain passed inBefore).endpoints.companions,
          behind.mpr ⟨early, none⟩ passed inBefore⟩ ept endpoint
    · exact isPlain.endpoints.companions ept inSetting

/-- The walk returns the endpoints of a fastboot interface it comes to. -/
theorem parseUsbDesc_of_inOrder
    {blob : DescriptorBlob}
    {before after : List InterfaceSetting}
    (beyond : Nat → UInt8)
    (small : blob.bytes.length ≤ descSize)
    (split : blob.settings = before ++ setting :: after)
    (fastboot : setting.IsFastboot)
    (claimed : claim before.length setting.bInterfaceNumber = true)
    (inOrder : FoundInOrder claim blob.bNumInterfaces before setting) :
    ∃ found,
      (parseUsbDesc (.ok blob.bytes) beyond claim).outcome = .ok found ∧
        EndpointsOf setting found.endpoints := by
  have some : blob.settings ≠ [] := by
    rw [split]
    simp
  have inMemory := blobInMemory blob beyond
  have counts := (blob_header inMemory some).2.1
  obtain ⟨counted, passed, none, plain⟩ :=
    (foundInOrder_iff blob.bNumInterfaces before setting).mp inOrder
  obtain ⟨ptr, round, between⟩ :=
    roundAt_of_passed inMemory some split passed (by omega)
  obtain ⟨ifc, finds⟩ :
      ∃ ifc, FindsInterface _ blob.bytes.length ptr ifc :=
    ⟨_, between.finds_iff.mpr ⟨⟨none, plain.before⟩, rfl⟩⟩
  have remains := between.found finds
  have noCompanion := noCompanionFirst_settings after blob.trailing
  obtain ⟨ptr', last, takes⟩ :=
    takesEndpoints_of_plain remains noCompanion plain.endpoints
  have taken := takesEndpoints_shape remains noCompanion takes
  have claims := (claims_iff remains.1).mpr ⟨fastboot.cls, claimed⟩
  have inside := between.pending.inside (by simp)
  rw [parseUsbDesc, List.take_of_length_le small]
  refine ⟨_, walkDescriptors_claims
    ⟨ptr, round, by omega, inside, finds⟩ takes claims, ?_⟩
  rw [taken.endpoints]
  exact fastboot.found

/-- The setting that is claimed is the first that can be. -/
theorem inOrder_of_parseUsbDesc
    {blob : DescriptorBlob}
    {before after : List InterfaceSetting}
    {beyond : Nat → UInt8}
    {found : ClaimedInterface}
    (small : blob.bytes.length ≤ descSize)
    (split : blob.settings = before ++ setting :: after)
    (fastboot : setting.IsFastboot)
    (claimed : claim before.length setting.bInterfaceNumber = true)
    (first :
      ∀ index earlier,
        before[index]? = some earlier →
        earlier.IsFastboot →
        claim index earlier.bInterfaceNumber = false)
    (returned :
      (parseUsbDesc (.ok blob.bytes) beyond claim).outcome = .ok found)
    (belong : EndpointsOf setting found.endpoints) :
    FoundInOrder claim blob.bNumInterfaces before setting := by
  have some : blob.settings ≠ [] := by
    rw [split]
    simp
  have inMemory := blobInMemory blob beyond
  have counts := (blob_header inMemory some).2.1
  have settles :=
    (walkDescriptors_spec (memoryAt blob.bytes beyond) blob.bytes.length
      claim).2.2
  rw [parseUsbDesc, List.take_of_length_le small] at returned
  rw [returned] at settles
  rw [foundInOrder_iff]
  cases settles with
  | claimed reaches takes claims =>
      obtain ⟨ptr, round, more, inside, finds⟩ := reaches
      obtain ⟨passed, left, shape, length, between⟩ :=
        roundAt_shape inMemory some round
      rw [← length] at more claims
      obtain ⟨other, rest, isCons⟩ :=
        setting_of_round inMemory some shape more
      subst isCons
      have remains := between.found finds
      have taken :=
        takesEndpoints_shape remains
          (noCompanionFirst_settings rest blob.trailing) takes
      obtain ⟨cls, isClaimed⟩ := (claims_iff remains.1).mp claims
      dsimp only at belong
      rw [taken.endpoints] at belong
      have isFastboot := foundEndpoints_isFastboot cls belong
      have same := split.symm.trans shape
      -- one that is claimed earlier would be a fastboot interface as well
      rcases Nat.lt_trichotomy passed.length before.length with
        early | equal | late
      · have atOther : before[passed.length]? = Option.some other := by
          rw [← List.getElem?_append_left early, same]
          simp
        rw [first _ other atOther isFastboot] at isClaimed
        cases isClaimed
      · obtain ⟨samePassed, sameSettings⟩ := List.append_inj same equal.symm
        cases sameSettings
        subst samePassed
        obtain ⟨⟨none, inFront⟩, _⟩ := between.finds_iff.mp finds
        rw [counts] at more
        exact ⟨more, between.plain, none, ⟨inFront, taken.plain⟩⟩
      · have atSetting : passed[before.length]? = Option.some setting := by
          rw [← List.getElem?_append_left late, ← same]
          simp
        rw [between.plain.unclaimed _ setting atSetting fastboot.cls]
          at claimed
        cases claimed

/--
On well-formed descriptors of at most 1024 bytes `parse_usb_desc` returns the
endpoints of the first fastboot interface that can be claimed, if and only if
its walk comes to that interface.
-/
theorem parseUsbDesc_findsFastboot_iff
    (blob : DescriptorBlob)
    (beyond : Nat → UInt8)
    (claim : Nat → UInt8 → Bool)
    (before after : List InterfaceSetting)
    (setting : InterfaceSetting)
    (small : blob.bytes.length ≤ descSize)
    (split : blob.settings = before ++ setting :: after)
    (fastboot : setting.IsFastboot)
    (claimed : claim before.length setting.bInterfaceNumber = true)
    (first :
      ∀ index earlier,
        before[index]? = some earlier →
        earlier.IsFastboot →
        claim index earlier.bInterfaceNumber = false) :
    (∃ found,
      (parseUsbDesc (.ok blob.bytes) beyond claim).outcome = .ok found ∧
        EndpointsOf setting found.endpoints) ↔
      FoundInOrder claim blob.bNumInterfaces before setting := by
  constructor
  · rintro ⟨found, returned, belong⟩
    exact inOrder_of_parseUsbDesc small split fastboot claimed first returned
      belong
  · intro inOrder
    exact parseUsbDesc_of_inOrder beyond small split fastboot claimed inOrder

/-- A bulk endpoint without a companion. -/
def bulkEndpoint (bEndpointAddress : UInt8) : EndpointDescriptor where
  before := []
  bEndpointAddress := bEndpointAddress
  bmAttributes := 0x02
  rest := [0, 2, 0]
  whole := by decide
  fits := by decide
  companion := none

/-- A fastboot interface behind some other descriptors. -/
def fastbootSetting (before : List OtherDescriptor) : InterfaceSetting where
  before := before
  bInterfaceNumber := 0
  bAlternateSetting := 0
  bInterfaceClass := 0xff
  bInterfaceSubClass := 0x42
  bInterfaceProtocol := 0x03
  iInterface := 0
  endpoints := [bulkEndpoint 0x81, bulkEndpoint 0x01]
  few := by simp

/-- The descriptors of a device with one interface. -/
def singleInterface (setting : InterfaceSetting) : DescriptorBlob where
  device := List.replicate 16 0
  deviceSize := by decide
  wTotalLength := (32, 0)
  bNumInterfaces := 1
  configuration := [1, 0, 0, 0]
  configurationSize := by decide
  settings := [setting]
  trailing := []
  counts := by simp

theorem fastbootSetting_isFastboot
    (before : List OtherDescriptor) :
    (fastbootSetting before).IsFastboot where
  cls := ⟨rfl, rfl, rfl⟩
  bulkIn := ⟨bulkEndpoint 0x81, by simp [fastbootSetting], by decide⟩
  bulkOut := ⟨bulkEndpoint 0x01, by simp [fastbootSetting], by decide⟩

/-- A fastboot interface right behind the header is found. -/
theorem singleFastboot_found :
    ∃ found,
      (parseUsbDesc (.ok (singleInterface (fastbootSetting [])).bytes)
          (fun _ => 0) fun _ _ => true).outcome =
        .ok found ∧
        EndpointsOf (fastbootSetting []) found.endpoints := by
  apply (parseUsbDesc_findsFastboot_iff
    (singleInterface (fastbootSetting [])) (fun _ => 0) (fun _ _ => true) []
    [] (fastbootSetting []) (by decide) rfl (fastbootSetting_isFastboot [])
    rfl (by simp)).mpr
  refine ⟨by decide, by simp, ?_, ?_, ?_⟩
  · simp [fastbootSetting]
  · simp [fastbootSetting, bulkEndpoint]
  · simp [fastbootSetting, bulkEndpoint]

/-- An interface association descriptor, which is 8 bytes long. -/
def interfaceAssociation : OtherDescriptor where
  record := ⟨0x0b, [0, 1, 0xff, 0x42, 0x03, 0], by decide⟩
  notInterface := by decide
  notEndpoint := by decide
  notCompanion := by decide

/-- Behind an association descriptor the fastboot interface is not found. -/
theorem associatedFastboot_missed :
    (singleInterface
        (fastbootSetting [interfaceAssociation])).bytes.length ≤
      descSize ∧
      (fastbootSetting [interfaceAssociation]).IsFastboot ∧
      ¬ ∃ found,
        (parseUsbDesc
            (.ok (singleInterface
              (fastbootSetting [interfaceAssociation])).bytes)
            (fun _ => 0) fun _ _ => true).outcome =
          .ok found ∧
          EndpointsOf (fastbootSetting [interfaceAssociation])
            found.endpoints := by
  refine ⟨by decide, fastbootSetting_isFastboot _, ?_⟩
  rintro ⟨found, returned, _⟩
  have rejected :
      (parseUsbDesc
          (.ok (singleInterface
            (fastbootSetting [interfaceAssociation])).bytes)
          (fun _ => 0) fun _ _ => true).outcome =
        .error .einval := by
    rfl
  rw [rejected] at returned
  cases returned

/-! ## What the server gets to know -/

/-- Adding a device whose interface is found opens it with its endpoints. -/
theorem handleFastbootAdd_opens
    {n : Nat}
    {blob : DescriptorBlob}
    {before after : List InterfaceSetting}
    (index : Nat)
    (path : CString)
    (beyond : Nat → UInt8)
    (hw : Hw n)
    (small : blob.bytes.length ≤ descSize)
    (split : blob.settings = before ++ setting :: after)
    (fastboot : setting.IsFastboot)
    (claimed : claim before.length setting.bInterfaceNumber = true)
    (inOrder : FoundInOrder claim blob.bNumInterfaces before setting) :
    ∃ endpoints final,
      handleFastbootAdd index
          (UsbNode.ofDescriptors path (.ok blob.bytes) beyond claim) hw =
        .ok () final ∧
        (final.fastboots index).fd = .open endpoints ∧
        EndpointsOf setting endpoints := by
  obtain ⟨found, returned, belong⟩ :=
    parseUsbDesc_of_inOrder beyond small split fastboot claimed inOrder
  have probe :
      (UsbNode.ofDescriptors path (.ok blob.bytes) beyond claim).probe =
        some found.endpoints := by
    simp only [UsbNode.ofDescriptors, returned]
  unfold handleFastbootAdd
  rw [probe]
  refine ⟨found.endpoints, _, rfl, ?_, belong⟩
  simp

end Cdba
