import Cdba.SchemaBoards

namespace Cdba

/-!
# The schema against the parser

When the parser accepts the configurations that are valid under the schema, and
when an option that is `false` means what a missing one does.
-/

open Program
open DeviceParser
open JsonSchema

/-! ## Configurations -/

/-- The configuration with some boards. -/
def configOf (entries : List (List (List UInt8 × Datum))) : Datum :=
  .object [(ascii "devices", .array (entries.map .object))]

/-- The mappings in the lists of a configuration. -/
def boardEntries : Datum → List (List (List UInt8 × Datum))
  | .object members =>
      members.flatMap fun member =>
        match member.2 with
        | .array boards =>
            boards.filterMap fun board =>
              match board with
              | .object entry => some entry
              | _ => none
        | _ => []
  | _ => []

/--
A configuration that `validate.py` lets pass, and whose boards have the keys that
the parser requires, and not two drivers of a kind.
-/
structure Checked (config : Datum) : Prop where
  valid : configurationSchema.accepts config = true
  distinct : datumDistinct config = true
  served : ∀ entry ∈ boardEntries config, Served entry

/-- The keys of a board with booleans behind them. -/
def switchWords : List (List UInt8) :=
  [ascii "fastboot_set_active", ascii "broken_fastboot_boot",
    ascii "usb_always_on"]

/-- A board from which an option that is `false` is left out. -/
inductive LeavesOutFalse :
    List (List UInt8 × Datum) → List (List UInt8 × Datum) → Prop where
  | switch
      (front back : List (List UInt8 × Datum))
      (name : List UInt8)
      (isSwitch : name ∈ switchWords) :
      LeavesOutFalse (front ++ (name, .boolean false) :: back) (front ++ back)
  | activeLow
      (front back before after first last : List (List UInt8 × Datum))
      (driver gpio : List UInt8)
      (isDriver : driver ∈ [ascii "ftdi_gpio", ascii "local_gpio"]) :
      LeavesOutFalse
        (front ++
          (driver,
            .object
              (before ++
                (gpio,
                  .object
                    (first ++ (ascii "active_low", .boolean false) :: last)) ::
                after)) ::
          back)
        (front ++
          (driver, .object (before ++ (gpio, .object (first ++ last)) :: after)) ::
          back)

/--
The parser accepts a configuration, and takes an option that is `false` for one
that is missing.
-/
structure Agrees (config : Datum) : Prop where
  accepts :
    ∀ parser : DeviceParser DeviceConfig,
      Accepts parser (streamEvents [datumNode config])
  falseIsAbsent :
    ∀ before entry after other,
      boardEntries config = before ++ entry :: after →
      LeavesOutFalse entry other →
      SameDevices (streamEvents [datumNode config])
        (streamEvents [datumNode (configOf (before ++ other :: after))])

/-- What the parser asks of a board beyond the schema. -/
structure EntryRead (entry : List (List UInt8 × Datum)) : Prop where
  setActive : (ascii "fastboot_set_active", Datum.boolean false) ∉ entry
  sections : SectionsRead entry

theorem boardEntries_configOf
    (entries : List (List (List UInt8 × Datum))) :
    boardEntries (configOf entries) = entries := by
  simp [boardEntries, configOf, List.filterMap_map]

/-- Valid boards are mappings. -/
theorem exists_boardEntries
    {boards : List Datum}
    (valid : ∀ board ∈ boards, boardSchema.accepts board = true) :
    ∃ entries : List (List (List UInt8 × Datum)),
      boards = entries.map .object ∧ ∀ entry ∈ entries, ValidBoard entry := by
  induction boards with
  | nil =>
      exact ⟨[], rfl, nofun⟩
  | cons board boards inductionHypothesis =>
      rw [List.forall_mem_cons] at valid
      obtain ⟨entry, rfl, isValid⟩ := exists_of_accepts_object valid.1
      obtain ⟨entries, rfl, areValid⟩ := inductionHypothesis valid.2
      exact ⟨entry :: entries, rfl, List.forall_mem_cons.mpr ⟨isValid, areValid⟩⟩

/-- A valid configuration has one key, with its boards behind it. -/
theorem eq_configOf
    {config : Datum}
    (valid : configurationSchema.accepts config = true)
    (distinct : datumDistinct config = true) :
    config = configOf (boardEntries config) ∧
      ∀ entry ∈ boardEntries config, ValidBoard entry := by
  obtain ⟨members, rfl, validMembers⟩ := exists_of_accepts_object valid
  rw [datumDistinct, Bool.and_eq_true, decide_eq_true_iff] at distinct
  have only : ∀ member ∈ members, member.1 = ascii "devices" := by
    intro member isMember
    rcases validMembers.known rfl member isMember with
      ⟨property, isProperty, isName⟩ | ⟨pattern, isPattern, _⟩
    · rw [List.mem_singleton] at isProperty
      rw [← isName, isProperty]
    · cases isPattern
  have isThere := validMembers.required _ List.mem_cons_self
  rcases members with _ | ⟨⟨name, devices⟩, _ | ⟨⟨other, datum⟩, members⟩⟩
  · cases isThere
  · obtain rfl : name = ascii "devices" := only _ List.mem_cons_self
    obtain ⟨boards, rfl, areValid⟩ :=
      exists_of_accepts_array
        (validMembers.property _ List.mem_cons_self _ List.mem_cons_self rfl)
    obtain ⟨entries, rfl, validEntries⟩ := exists_boardEntries areValid
    change configOf entries = configOf (boardEntries (configOf entries)) ∧
      ∀ entry ∈ boardEntries (configOf entries), ValidBoard entry
    rw [boardEntries_configOf]
    exact ⟨rfl, validEntries⟩
  · have same : name = other :=
      (only _ List.mem_cons_self).trans
        (only _ (List.mem_cons_of_mem _ List.mem_cons_self)).symm
    have apart : name ∉ other :: members.map Prod.fst :=
      (List.nodup_cons.mp distinct.1).1
    exact absurd (same ▸ List.mem_cons_self) apart

theorem nodup_of_itemsDistinct
    {entries : List (List (List UInt8 × Datum))}
    (distinct : itemsDistinct (entries.map .object) = true)
    {entry : List (List UInt8 × Datum)}
    (isEntry : entry ∈ entries) :
    (entry.map Prod.fst).Nodup := by
  induction entries with
  | nil =>
      cases isEntry
  | cons first entries inductionHypothesis =>
      rw [List.map_cons, itemsDistinct, Bool.and_eq_true, datumDistinct,
        Bool.and_eq_true, decide_eq_true_iff] at distinct
      rcases List.mem_cons.mp isEntry with rfl | isLater
      · exact distinct.1.1
      · exact inductionHypothesis distinct.2 isLater

/-- The keys of a board are distinct. -/
theorem Checked.nodup
    {config : Datum}
    (checked : Checked config)
    {entry : List (List UInt8 × Datum)}
    (isEntry : entry ∈ boardEntries config) :
    (entry.map Prod.fst).Nodup := by
  have distinct := checked.distinct
  rw [(eq_configOf checked.valid checked.distinct).1, configOf, datumDistinct,
    Bool.and_eq_true, membersDistinct, Bool.and_eq_true, datumDistinct]
    at distinct
  exact nodup_of_itemsDistinct distinct.2.1 isEntry

/-! ## Devices of a configuration -/

/-- The devices of a configuration are those of its boards. -/
theorem streamDevices?_configOf
    (entries : List (List (List UInt8 × Datum))) :
    streamDevices? [datumNode (configOf entries)] =
      entries.mapM fun entry => boardDevice? (memberPairs entry) := by
  change boardsDevices? (datumNodes (entries.map .object)) = _
  rw [boardsDevices?, datumNodes_eq, List.map_map, List.mapM_map]
  rfl

theorem accepts_iff
    (parser : DeviceParser DeviceConfig)
    (documents : List YamlNode) :
    Accepts parser (streamEvents documents) ↔
      (streamDevices? documents).isSome := by
  rw [Option.isSome_iff_exists]
  constructor
  · rintro ⟨last, returns⟩
    exact deviceParser_ok returns
  · rintro ⟨devices, means⟩
    exact (deviceParser_means means parser).accepts

/-- Streams that mean the same devices. -/
theorem sameDevices_iff
    (first second : List YamlNode) :
    SameDevices (streamEvents first) (streamEvents second) ↔
      streamDevices? first = streamDevices? second := by
  constructor
  · intro same
    refine Option.ext fun devices => ?_
    rw [← deviceParser_adds_iff freshParser, same.adds _ freshParser,
      deviceParser_adds_iff]
  · intro same
    refine ⟨fun parser other => ?_, fun parser other devices => ?_⟩
    · rw [accepts_iff, accepts_iff, same]
    · rw [deviceParser_adds_iff, deviceParser_adds_iff, same]

/-- The values of a list around one of its elements. -/
theorem exists_of_mapM_middle
    {α β : Type}
    {view : α → Option β}
    {before after : List α}
    {item : α}
    {values : List β}
    (areValues : (before ++ item :: after).mapM view = some values) :
    ∃ first value last,
      before.mapM view = some first ∧ view item = some value ∧
        after.mapM view = some last ∧ values = first ++ value :: last := by
  rw [List.mapM_append, List.mapM_cons] at areValues
  obtain ⟨first, areFirst, later⟩ := Option.bind_eq_some_iff.mp areValues
  obtain ⟨behind, areBehind, isAll⟩ := Option.bind_eq_some_iff.mp later
  cases isAll
  obtain ⟨value, isValue, later⟩ := Option.bind_eq_some_iff.mp areBehind
  obtain ⟨last, areLast, isAll⟩ := Option.bind_eq_some_iff.mp later
  cases isAll
  exact ⟨first, value, last, areFirst, isValue, areLast, rfl⟩

/-- Lists that differ in one place and have the same values have them there. -/
theorem eq_of_mapM_eq
    {α β : Type}
    {view : α → Option β}
    {before after : List α}
    {item other : α}
    (isSome : ((before ++ item :: after).mapM view).isSome)
    (same :
      (before ++ item :: after).mapM view =
        (before ++ other :: after).mapM view) :
    view item = view other := by
  obtain ⟨values, areValues⟩ := Option.isSome_iff_exists.mp isSome
  rw [areValues] at same
  obtain ⟨first, value, last, areFirst, isValue, areLast, rfl⟩ :=
    exists_of_mapM_middle areValues
  obtain ⟨front, found, back, areFront, isFound, areBack, split⟩ :=
    exists_of_mapM_middle same.symm
  obtain rfl := Option.some.inj (areFirst.symm.trans areFront)
  obtain rfl := Option.some.inj (areLast.symm.trans areBack)
  rw [List.append_cancel_left_eq, List.cons_eq_cons] at split
  rw [isValue, isFound, split.1]

/-! ## Options that are left out -/

section Members

variable {τ : Type} {size : Nat} {step : τ → CString → YamlNode → Option τ}

/-- A member that changes nothing may be left out. -/
theorem readMembers_drop
    {member : List UInt8 × Datum}
    (silent :
      ∀ value,
        step value ((cstr member.1).take (size - 1)) (datumNode member.2) =
          some value)
    (front back : List (List UInt8 × Datum))
    (value : τ) :
    readPairs size step value (memberPairs (front ++ member :: back)) =
      readPairs size step value (memberPairs (front ++ back)) := by
  induction front generalizing value with
  | nil =>
      change (step value _ (datumNode member.2)).bind _ = _
      rw [silent]
      rfl
  | cons first front inductionHypothesis =>
      change (step value _ (datumNode first.2)).bind _ =
        (step value _ (datumNode first.2)).bind _
      exact Option.bind_congr fun next _ => inductionHypothesis next

/-- Members that do the same may take each other's place. -/
theorem readMembers_congr
    {name : List UInt8}
    {datum other : Datum}
    (same :
      ∀ value,
        step value ((cstr name).take (size - 1)) (datumNode datum) =
          step value ((cstr name).take (size - 1)) (datumNode other))
    (front back : List (List UInt8 × Datum))
    (value : τ) :
    readPairs size step value (memberPairs (front ++ (name, datum) :: back)) =
      readPairs size step value
        (memberPairs (front ++ (name, other) :: back)) := by
  induction front generalizing value with
  | nil =>
      change (step value _ (datumNode datum)).bind _ =
        (step value _ (datumNode other)).bind _
      rw [same]
  | cons first front inductionHypothesis =>
      change (step value _ (datumNode first.2)).bind _ =
        (step value _ (datumNode first.2)).bind _
      exact Option.bind_congr fun next _ => inductionHypothesis next

end Members

theorem ftdiGpioMember_activeLow
    (first last : List (List UInt8 × Datum))
    (gpio : List UInt8)
    (options : FtdiGpioOptions) :
    ftdiGpioMember options (tokenText gpio)
        (datumNode
          (.object (first ++ (ascii "active_low", .boolean false) :: last))) =
      ftdiGpioMember options (tokenText gpio)
        (datumNode (.object (first ++ last))) := by
  rw [ftdiGpioMember, ftdiGpioMember]
  cases ftdiGpioKey? (tokenText gpio) with
  | none => rfl
  | some line =>
      change (readPairs _ _ _ (memberPairs _)).bind _ =
        (readPairs _ _ _ (memberPairs _)).bind _
      rw [readMembers_drop fun _ => rfl]

theorem localGpioSection_activeLow
    (first last : List (List UInt8 × Datum))
    (gpio : List UInt8)
    (options : LocalGpioOptions) :
    localGpioSection options (tokenText gpio)
        (datumNode
          (.object (first ++ (ascii "active_low", .boolean false) :: last))) =
      localGpioSection options (tokenText gpio)
        (datumNode (.object (first ++ last))) := by
  rw [localGpioSection, localGpioSection]
  refine Option.bind_congr fun line _ => ?_
  change (readPairs _ _ _ (memberPairs _)).bind _ =
    (readPairs _ _ _ (memberPairs _)).bind _
  rw [readMembers_drop fun _ => rfl]

/-- A GPIO that is not active low need not say so. -/
theorem boardDevice?_activeLow
    (front back before after first last : List (List UInt8 × Datum))
    {driver : List UInt8}
    (gpio : List UInt8)
    (isDriver : driver ∈ [ascii "ftdi_gpio", ascii "local_gpio"]) :
    boardDevice?
        (memberPairs
          (front ++
            (driver,
              .object
                (before ++
                  (gpio,
                    .object
                      (first ++ (ascii "active_low", .boolean false) :: last)) ::
                  after)) ::
            back)) =
      boardDevice?
        (memberPairs
          (front ++
            (driver,
              .object (before ++ (gpio, .object (first ++ last)) :: after)) ::
            back)) := by
  rw [boardDevice?, boardDevice?]
  congr 1
  refine readMembers_congr (fun dev => ?_) front back _
  rw [boardStep, boardStep]
  congr 1
  simp only [List.mem_cons, List.not_mem_nil, or_false] at isDriver
  rcases isDriver with rfl | rfl
  · change
      ((readPairs _ _ _ (memberPairs _)).bind some).map _ =
        ((readPairs _ _ _ (memberPairs _)).bind some).map _
    rw [readMembers_congr (ftdiGpioMember_activeLow first last gpio)]
  · change
      ((readPairs _ _ _ (memberPairs _)).bind some).map _ =
        ((readPairs _ _ _ (memberPairs _)).bind some).map _
    rw [readMembers_congr (localGpioSection_activeLow first last gpio)]

/-! ## Switches -/

/-- A key that is given once has its value, and none when it is left out. -/
theorem lastText_of_nodup
    {key : TextKey}
    {value : CString}
    {first last : List BoardSetting}
    (distinct :
      ((first ++ .text key value :: last).map BoardSetting.word).Nodup) :
    lastText key (first ++ .text key value :: last) = some value ∧
      lastText key (first ++ last) = none := by
  rw [List.map_append, List.map_cons, List.nodup_middle, ← List.map_append,
    List.nodup_cons] at distinct
  have others : (first ++ last).filterMap (BoardSetting.value? key) = [] := by
    refine List.filterMap_eq_nil_iff.mpr fun setting isMember => ?_
    refine Option.eq_none_iff_forall_ne_some.mpr fun text said => ?_
    exact distinct.1
      (List.mem_map.mpr ⟨setting, isMember, value?_word key setting text said⟩)
  refine ⟨?_, by rw [lastText, lastSaid, others]; rfl⟩
  rw [List.filterMap_append, List.append_eq_nil_iff] at others
  simp [lastText, lastSaid, others.1, others.2]

theorem filterMap_drop
    {α β : Type}
    {view : α → Option β}
    {item : α}
    (silent : view item = none)
    (first last : List α) :
    (first ++ item :: last).filterMap view = (first ++ last).filterMap view := by
  rw [List.filterMap_append, List.filterMap_cons_none silent,
    ← List.filterMap_append]

/-- A setting that says nothing about the device may be left out. -/
theorem boardDevice?_drop
    {front back : List (List UInt8 × Datum)}
    {member : List UInt8 × Datum}
    {setting : BoardSetting}
    (isSetting : memberSetting? member = some setting)
    (noControl : setting.controlOps? = none)
    (noConsole : setting.consoleOps? = none)
    (silent :
      ∀ first last,
        (front ++ member :: back).mapM memberSetting? =
          some (first ++ setting :: last) →
        deviceOf (first ++ setting :: last) = deviceOf (first ++ last)) :
    boardDevice? (memberPairs (front ++ member :: back)) =
      boardDevice? (memberPairs (front ++ back)) := by
  refine Option.ext fun dev => ?_
  rw [boardDevice?_eq_some, boardDevice?_eq_some, settings?_memberPairs,
    settings?_memberPairs]
  have compatible :
      ∀ first last : List BoardSetting,
        Compatible (first ++ setting :: last) ↔ Compatible (first ++ last) := by
    intro first last
    have control := filterMap_drop noControl first last
    have console := filterMap_drop noConsole first last
    constructor
    · intro compatible
      exact ⟨control ▸ compatible.control, console ▸ compatible.console⟩
    · intro compatible
      exact ⟨control.symm ▸ compatible.control,
        console.symm ▸ compatible.console⟩
  cases areFirst : front.mapM memberSetting? with
  | none => simp [List.mapM_append, areFirst]
  | some first =>
      cases areLast : back.mapM memberSetting? with
      | none => simp [List.mapM_append, areFirst, areLast]
      | some last =>
          have with_ :
              (front ++ member :: back).mapM memberSetting? =
                some (first ++ setting :: last) := by
            simp [List.mapM_append, areFirst, isSetting, areLast]
          have without :
              (front ++ back).mapM memberSetting? = some (first ++ last) := by
            simp [List.mapM_append, areFirst, areLast]
          have same := silent first last with_
          rw [with_, without]
          constructor
          · rintro ⟨_, ⟨⟩, complete, rfl⟩
            have kept := (compatible first last).mp complete.compatible
            exact ⟨_, rfl, complete.of_deviceOf_eq kept same, same.symm⟩
          · rintro ⟨_, ⟨⟩, complete, rfl⟩
            have kept := (compatible first last).mpr complete.compatible
            exact ⟨_, rfl, complete.of_deviceOf_eq kept same.symm, same⟩

/-- Fastboot works unless the board says that it is broken. -/
theorem boardDevice?_brokenFastbootBoot
    (front back : List (List UInt8 × Datum)) :
    boardDevice?
        (memberPairs
          (front ++ (ascii "broken_fastboot_boot", .boolean false) :: back)) =
      boardDevice? (memberPairs (front ++ back)) := by
  have isSetting :
      memberSetting? (ascii "broken_fastboot_boot", .boolean false) =
        some (.text .brokenFastbootBoot (ascii "false")) :=
    rfl
  have notTrue : ascii "true" ≠ ascii "false" := by decide
  refine boardDevice?_drop isSetting rfl rfl fun first last _ => ?_
  simp [deviceOf, lastSaid, notTrue]

/-- USB is not always on unless the board says so. -/
theorem boardDevice?_usbAlwaysOn
    {front back : List (List UInt8 × Datum)}
    (valid :
      ValidBoard (front ++ (ascii "usb_always_on", .boolean false) :: back))
    (distinct :
      ((front ++ (ascii "usb_always_on", .boolean false) :: back).map
        Prod.fst).Nodup) :
    boardDevice?
        (memberPairs
          (front ++ (ascii "usb_always_on", .boolean false) :: back)) =
      boardDevice? (memberPairs (front ++ back)) := by
  have isSetting :
      memberSetting? (ascii "usb_always_on", .boolean false) =
        some (.text .usbAlwaysOn (ascii "false")) :=
    rfl
  refine boardDevice?_drop isSetting rfl rfl fun first last areSettings => ?_
  rw [← map_word valid areSettings] at distinct
  obtain ⟨said, unsaid⟩ := lastText_of_nodup distinct
  have notTrue : ascii "false" ≠ ascii "true" := by decide
  have usb :
      decide
          (lastText .usbAlwaysOn
              (first ++ .text .usbAlwaysOn (ascii "false") :: last) =
            some (ascii "true")) =
        decide
          (lastText .usbAlwaysOn (first ++ last) = some (ascii "true")) := by
    rw [said, unsaid]
    simp [notTrue]
  rw [deviceOf, usb]
  simp [deviceOf, lastSaid]

/-- A slot is set whenever the key is given, and `false` is one. -/
theorem boardDevice?_fastbootSetActive
    {front back : List (List UInt8 × Datum)}
    (valid :
      ValidBoard (front ++ (ascii "fastboot_set_active", .boolean false) :: back))
    (distinct :
      ((front ++ (ascii "fastboot_set_active", .boolean false) :: back).map
        Prod.fst).Nodup)
    {dev : DeviceConfig}
    (isDevice :
      boardDevice?
          (memberPairs
            (front ++ (ascii "fastboot_set_active", .boolean false) :: back)) =
        some dev) :
    boardDevice? (memberPairs (front ++ back)) ≠ some dev := by
  intro isOther
  obtain ⟨settings, areSettings, _, rfl⟩ := boardDevice?_eq_some.mp isDevice
  obtain ⟨others, areOthers, _, same⟩ := boardDevice?_eq_some.mp isOther
  rw [settings?_memberPairs] at areSettings areOthers
  rw [← map_word valid areSettings] at distinct
  obtain ⟨first, setting, last, areFirst, isSetting, areLast, rfl⟩ :=
    exists_of_mapM_middle areSettings
  have isText :
      memberSetting? (ascii "fastboot_set_active", .boolean false) =
        some (.text .fastbootSetActive (ascii "false")) :=
    rfl
  obtain rfl := Option.some.inj (isText.symm.trans isSetting)
  have without : (front ++ back).mapM memberSetting? = some (first ++ last) := by
    simp [List.mapM_append, areFirst, areLast]
  obtain rfl := Option.some.inj (without.symm.trans areOthers)
  obtain ⟨said, unsaid⟩ := lastText_of_nodup distinct
  have active := congrArg DeviceConfig.setActive same
  simp [deviceOf, said, unsaid] at active

/-- Leaving out a switch that is `false` changes nothing but the slot. -/
theorem boardDevice?_of_leavesOutFalse
    {entry other : List (List UInt8 × Datum)}
    (valid : ValidBoard entry)
    (distinct : (entry.map Prod.fst).Nodup)
    (noSlot : (ascii "fastboot_set_active", Datum.boolean false) ∉ entry)
    (leaves : LeavesOutFalse entry other) :
    boardDevice? (memberPairs entry) = boardDevice? (memberPairs other) := by
  cases leaves with
  | switch front back name isSwitch =>
      simp only [switchWords, List.mem_cons, List.not_mem_nil, or_false]
        at isSwitch
      rcases isSwitch with rfl | rfl | rfl
      · exact absurd (by simp) noSlot
      · exact boardDevice?_brokenFastbootBoot front back
      · exact boardDevice?_usbAlwaysOn valid distinct
  | activeLow front back before after first last driver gpio isDriver =>
      exact boardDevice?_activeLow front back before after first last gpio
        isDriver

/-! ## When the schema and the parser agree -/

/-- The devices of a checked configuration are those of its boards. -/
theorem Checked.devices
    {config : Datum}
    (checked : Checked config) :
    streamDevices? [datumNode config] =
      (boardEntries config).mapM fun entry =>
        boardDevice? (memberPairs entry) := by
  have isConfig := (eq_configOf checked.valid checked.distinct).1
  calc
    streamDevices? [datumNode config] =
        streamDevices? [datumNode (configOf (boardEntries config))] := by
      rw [← isConfig]
    _ = _ := streamDevices?_configOf _

theorem Checked.validBoard
    {config : Datum}
    (checked : Checked config) :
    ∀ entry ∈ boardEntries config, ValidBoard entry :=
  (eq_configOf checked.valid checked.distinct).2

/-- A checked configuration is accepted when its sections are taken. -/
theorem Checked.accepts_iff_sections
    {config : Datum}
    (checked : Checked config)
    (parser : DeviceParser DeviceConfig) :
    Accepts parser (streamEvents [datumNode config]) ↔
      ∀ entry ∈ boardEntries config, SectionsRead entry := by
  rw [accepts_iff, checked.devices, isSome_mapM]
  refine forall₂_congr fun entry isEntry => ?_
  have valid := checked.validBoard entry isEntry
  rw [boardDevice?_memberPairs valid (checked.served entry isEntry),
    Option.isSome_map]
  exact isSome_settings valid

/--
On checked configurations, the parser agrees with the schema just when it takes
the sections of GPIOs and no slot is `false`.
-/
theorem agrees_iff
    {config : Datum}
    (checked : Checked config) :
    Agrees config ↔ ∀ entry ∈ boardEntries config, EntryRead entry := by
  constructor
  · intro agrees entry isEntry
    have accepts := agrees.accepts freshParser
    refine ⟨fun isFalse => ?_,
      (checked.accepts_iff_sections freshParser).mp accepts entry isEntry⟩
    obtain ⟨before, after, split⟩ := List.append_of_mem isEntry
    obtain ⟨front, back, rfl⟩ := List.append_of_mem isFalse
    have same :=
      agrees.falseIsAbsent before _ after (front ++ back) split
        (.switch front back _ List.mem_cons_self)
    rw [accepts_iff, checked.devices, split] at accepts
    rw [sameDevices_iff, checked.devices, split, streamDevices?_configOf] at same
    have boards := eq_of_mapM_eq accepts same
    obtain ⟨dev, isDevice⟩ :=
      Option.isSome_iff_exists.mp
        ((isSome_mapM _ _).mp accepts _
          (List.mem_append_right before List.mem_cons_self))
    exact boardDevice?_fastbootSetActive (checked.validBoard _ isEntry)
      (checked.nodup isEntry) isDevice (boards.symm.trans isDevice)
  · intro read
    refine ⟨fun parser => ?_, ?_⟩
    · exact (checked.accepts_iff_sections parser).mpr fun entry isEntry =>
        (read entry isEntry).sections
    · intro before entry after other split leaves
      have isEntry : entry ∈ boardEntries config := by
        rw [split]
        exact List.mem_append_right before List.mem_cons_self
      have same :=
        boardDevice?_of_leavesOutFalse (checked.validBoard entry isEntry)
          (checked.nodup isEntry) (read entry isEntry).setActive leaves
      rw [sameDevices_iff, checked.devices, split, streamDevices?_configOf]
      simp only [List.mapM_append, List.mapM_cons, same]

/-- A member with a string. -/
def stringMember (name value : String) : List UInt8 × Datum :=
  (ascii name, .string (ascii value))

/-- A board with the keys that the schema or the parser requires. -/
def plainEntry : List (List UInt8 × Datum) :=
  [stringMember "board" "db", stringMember "name" "Board",
    stringMember "console" "/dev/ttyS0", stringMember "fastboot" "cacafada"]

/-- A board with GPIOs, and with options that are `false`. -/
def ftdiEntry : List (List UInt8 × Datum) :=
  plainEntry ++
    [(ascii "usb_always_on", .boolean false),
      (ascii "ftdi_gpio",
        .object
          [stringMember "vendor" "0x0403", stringMember "product" "0x6010",
            (ascii "power",
              .object
                [stringMember "interface" "C",
                  (ascii "line", .integer 3 (ascii "3")),
                  (ascii "active_low", .boolean false)])])]

theorem ftdiEntry_valid :
    ValidBoard ftdiEntry := by
  have accepts : boardSchema.accepts (.object ftdiEntry) = true := by decide
  obtain ⟨_, ⟨⟩, valid⟩ := exists_of_accepts_object accepts
  exact valid

/-- The parser agrees on a board whose options are `false`. -/
theorem ftdiEntry_agrees :
    Agrees (configOf [ftdiEntry]) := by
  have served : Served ftdiEntry :=
    ⟨by decide, ⟨ascii "console", by decide, by decide⟩, by decide, by decide⟩
  have checked : Checked (configOf [ftdiEntry]) := by
    refine ⟨by decide, by decide, ?_⟩
    rw [boardEntries_configOf, List.forall_mem_singleton]
    exact served
  refine (agrees_iff checked).mpr ?_
  rw [boardEntries_configOf, List.forall_mem_singleton]
  have noSlot : ascii "fastboot_set_active" ∉ ftdiEntry.map Prod.fst := by
    decide
  exact
    ⟨fun isMember => noSlot (List.mem_map_of_mem isMember),
      (isSome_settings ftdiEntry_valid).mp (by decide)⟩

/-- A slot that is `false` is not left alone, but named so. -/
theorem slotFalse_disagrees :
    ¬ ∀ config, Checked config → Agrees config := by
  intro claim
  have served :
      Served (plainEntry ++ [(ascii "fastboot_set_active", .boolean false)]) :=
    ⟨by decide, ⟨ascii "console", by decide, by decide⟩, by decide, by decide⟩
  have checked :
      Checked
        (configOf
          [plainEntry ++ [(ascii "fastboot_set_active", .boolean false)]]) := by
    refine ⟨by decide, by decide, ?_⟩
    rw [boardEntries_configOf, List.forall_mem_singleton]
    exact served
  have same :=
    (claim _ checked).falseIsAbsent [] _ [] (plainEntry ++ [])
      (boardEntries_configOf _)
      (.switch plainEntry [] _ List.mem_cons_self)
  rw [sameDevices_iff] at same
  have slots :=
    congrArg (Option.map (List.map DeviceConfig.setActive)) same
  exact absurd slots (by decide)

end Cdba
