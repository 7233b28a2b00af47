import Cdba.SchemaSections

namespace Cdba

/-!
# Boards under the schema

A board that is valid under the schema has only keys that the parser knows, and
scalars where the parser wants them.  Whether all its pairs are settings depends
on its sections of GPIOs alone.
-/

open Program
open DeviceParser
open JsonSchema

/-! ## The settings of a board -/

/-- The setting of a member of a board. -/
def memberSetting? (member : List UInt8 × Datum) : Option BoardSetting :=
  boardSetting? (tokenText member.1) (datumNode member.2)

theorem settings?_memberPairs
    (entry : List (List UInt8 × Datum)) :
    settings? (memberPairs entry) = entry.mapM memberSetting? := by
  rw [settings?, memberPairs_eq, List.mapM_map]
  rfl

/-- The keys that choose a control driver. -/
def controlWords : List (List UInt8) :=
  [ascii "local_gpio", ascii "ftdi_gpio", ascii "laurent", ascii "cdba",
    ascii "conmux", ascii "alpaca", ascii "external",
    ascii "qcomlt_debug_board"]

/-- The keys that choose a console. -/
def consoleWords : List (List UInt8) :=
  [ascii "conmux", ascii "console"]

/--
A board with the keys that the parser requires but the schema does not, and with
at most one control driver and at most one console.
-/
structure Served (entry : List (List UInt8 × Datum)) : Prop where
  fastboot : ascii "fastboot" ∈ entry.map Prod.fst
  console : ∃ word ∈ consoleWords, word ∈ entry.map Prod.fst
  oneControl : (entry.map Prod.fst).countP controlWords.contains ≤ 1
  oneConsole : (entry.map Prod.fst).countP consoleWords.contains ≤ 1

/-- A board of which the parser takes the sections of GPIOs. -/
structure SectionsRead (entry : List (List UInt8 × Datum)) : Prop where
  ftdi : ∀ datum, (ascii "ftdi_gpio", datum) ∈ entry → FtdiRead datum
  local_ : ∀ datum, (ascii "local_gpio", datum) ∈ entry → LocalRead datum

/-- A board that is valid under the schema. -/
abbrev ValidBoard (entry : List (List UInt8 × Datum)) : Prop :=
  ValidMembers boardProperties [] false [ascii "board", ascii "name"] entry

/-! ## Every member has a setting -/

/-- The keys with lists or mappings behind them. -/
def sectionWords : List (List UInt8) :=
  [ascii "users", ascii "local_gpio", ascii "ftdi_gpio", ascii "laurent"]

/-- A property of the schema that is a key with a scalar behind it. -/
structure IsTextProperty (property : List UInt8 × Schema) : Prop where
  key : (textKey? (tokenText property.1)).isSome
  scalarOnly : property.2.scalarOnly = true
  notSection : tokenText property.1 ∉ sectionWords

theorem isTextProperty
    {property : List UInt8 × Schema}
    (isProperty : property ∈ boardTexts) :
    IsTextProperty property := by
  have keys :
      boardTexts.all (fun property =>
        (textKey? (tokenText property.1)).isSome) = true := by
    decide
  have scalars :
      boardTexts.all (fun property => property.2.scalarOnly) = true := by
    decide
  have others :
      boardTexts.all (fun property =>
        !sectionWords.contains (tokenText property.1)) = true := by
    decide
  have other := List.all_eq_true.mp others property isProperty
  exact ⟨List.all_eq_true.mp keys property isProperty,
    List.all_eq_true.mp scalars property isProperty, by simpa using other⟩

/-- The names of the properties are C strings that fit into a buffer. -/
theorem tokenText_property
    {property : List UInt8 × Schema}
    (isProperty : property ∈ boardProperties) :
    tokenText property.1 = property.1 := by
  have names :
      boardProperties.all (fun property =>
        tokenText property.1 == property.1) = true := by
    decide
  exact eq_of_beq (List.all_eq_true.mp names property isProperty)

theorem isSome_textMember
    {property : List UInt8 × Schema}
    (isText : IsTextProperty property)
    {datum : Datum}
    (valid : property.2.accepts datum = true) :
    (memberSetting? (property.1, datum)).isSome := by
  obtain ⟨textKey, isKey⟩ := Option.isSome_iff_exists.mp isText.key
  obtain ⟨text, isValue⟩ :=
    Option.isSome_iff_exists.mp
      (isSome_text (isScalar_of_scalarOnly isText.scalarOnly valid) tokenLength)
  have other := isText.notSection
  simp only [sectionWords, List.mem_cons, List.not_mem_nil, or_false, not_or]
    at other
  obtain ⟨notUsers, notLocal, notFtdi, notLaurent⟩ := other
  rw [memberSetting?, boardSetting?, if_neg notUsers, if_neg notLocal,
    if_neg notFtdi, if_neg notLaurent, isValue, isKey]
  rfl

/-- The sections of drivers have a setting when the parser takes their GPIOs. -/
theorem isSome_sectionMember
    {property : List UInt8 × Schema}
    (isSection :
      property ∈
        [(ascii "users", usersSchema), (ascii "ftdi_gpio", ftdiSchema),
          (ascii "local_gpio", localSchema), (ascii "laurent", laurentSchema)])
    {datum : Datum}
    (valid : property.2.accepts datum = true) :
    (memberSetting? (property.1, datum)).isSome ↔
      (property.1 = ascii "ftdi_gpio" → FtdiRead datum) ∧
        (property.1 = ascii "local_gpio" → LocalRead datum) := by
  have usersNotFtdi : ascii "users" ≠ ascii "ftdi_gpio" := by decide
  have usersNotLocal : ascii "users" ≠ ascii "local_gpio" := by decide
  have ftdiNotLocal : ascii "ftdi_gpio" ≠ ascii "local_gpio" := by decide
  have laurentNotFtdi : ascii "laurent" ≠ ascii "ftdi_gpio" := by decide
  have laurentNotLocal : ascii "laurent" ≠ ascii "local_gpio" := by decide
  simp only [List.mem_cons, List.not_mem_nil, or_false] at isSection
  rcases isSection with rfl | rfl | rfl | rfl
  · have setting :
        memberSetting? (ascii "users", datum) =
          (usersNode (datumNode datum)).map .users :=
      rfl
    rw [setting, Option.isSome_map]
    exact iff_of_true (isSome_usersNode valid)
      ⟨fun isFtdi => absurd isFtdi usersNotFtdi,
        fun isLocal => absurd isLocal usersNotLocal⟩
  · have setting :
        memberSetting? (ascii "ftdi_gpio", datum) =
          (ftdiGpioNode (datumNode datum)).map fun options =>
            .control (.ftdiGpio options) :=
      rfl
    rw [setting, Option.isSome_map, isSome_ftdiGpioNode valid]
    simp [ftdiNotLocal]
  · have setting :
        memberSetting? (ascii "local_gpio", datum) =
          (localGpioNode (datumNode datum)).map fun options =>
            .control (.localGpio options) :=
      rfl
    rw [setting, Option.isSome_map, isSome_localGpioNode valid]
    simp [ftdiNotLocal.symm]
  · have setting :
        memberSetting? (ascii "laurent", datum) =
          (laurentNode (datumNode datum)).map fun options =>
            .control (.laurent options) :=
      rfl
    rw [setting, Option.isSome_map]
    exact iff_of_true (isSome_laurentNode valid)
      ⟨fun isFtdi => absurd isFtdi laurentNotFtdi,
        fun isLocal => absurd isLocal laurentNotLocal⟩

/-- A member has a setting, unless the parser does not take its GPIOs. -/
theorem isSome_memberSetting?
    {entry : List (List UInt8 × Datum)}
    (valid : ValidBoard entry)
    {name : List UInt8}
    {datum : Datum}
    (isMember : (name, datum) ∈ entry) :
    (memberSetting? (name, datum)).isSome ↔
      (name = ascii "ftdi_gpio" → FtdiRead datum) ∧
        (name = ascii "local_gpio" → LocalRead datum) := by
  rcases valid.known rfl _ isMember with
    ⟨property, isProperty, rfl⟩ | ⟨pattern, isPattern, _⟩
  · have accepts := valid.property _ isMember property isProperty rfl
    rw [boardProperties, List.mem_append] at isProperty
    rcases isProperty with isText | isSection
    · have text := isTextProperty isText
      have same := tokenText_property (List.mem_append_left _ isText)
      have other := text.notSection
      rw [same] at other
      refine iff_of_true (isSome_textMember text accepts) ⟨?_, ?_⟩
      · intro isFtdi
        exact absurd (isFtdi ▸ other) (by decide)
      · intro isLocal
        exact absurd (isLocal ▸ other) (by decide)
    · exact isSome_sectionMember isSection accepts
  · cases isPattern

/-- A valid board has settings just when its sections of GPIOs are taken. -/
theorem isSome_settings
    {entry : List (List UInt8 × Datum)}
    (valid : ValidBoard entry) :
    (entry.mapM memberSetting?).isSome ↔ SectionsRead entry := by
  rw [isSome_mapM]
  constructor
  · intro each
    refine ⟨fun datum isMember => ?_, fun datum isMember => ?_⟩
    · exact ((isSome_memberSetting? valid isMember).mp (each _ isMember)).1 rfl
    · exact ((isSome_memberSetting? valid isMember).mp (each _ isMember)).2 rfl
  · rintro ⟨ftdi, local_⟩ ⟨name, datum⟩ isMember
    refine (isSome_memberSetting? valid isMember).mpr ⟨?_, ?_⟩
    · rintro rfl
      exact ftdi datum isMember
    · rintro rfl
      exact local_ datum isMember

/-! ## The settings go together -/

/-- The names of a valid board are the keys of its settings. -/
theorem map_word
    {entry : List (List UInt8 × Datum)}
    (valid : ValidBoard entry)
    {settings : List BoardSetting}
    (areSettings : entry.mapM memberSetting? = some settings) :
    settings.map BoardSetting.word = entry.map Prod.fst := by
  rw [← settings?_memberPairs] at areSettings
  rw [← words_eq areSettings, memberPairs_eq, List.filterMap_map,
    ← List.filterMap_eq_map]
  refine List.filterMap_congr fun member isMember => ?_
  rcases valid.known rfl _ isMember with
    ⟨property, isProperty, isName⟩ | ⟨pattern, isPattern, _⟩
  · have noNul : 0 ∉ member.1 := by
      rw [← isName, ← tokenText_property isProperty]
      exact fun isNul => not_mem_cstr _ (List.mem_of_mem_take isNul)
    exact congrArg some (cstr_eq_self noNul)
  · cases isPattern

/-- A setting with the word of a key is a text behind that key. -/
theorem BoardSetting.exists_of_word
    {setting : BoardSetting}
    {key : TextKey}
    (isWord : setting.word = key.word) :
    ∃ value, setting = .text key value := by
  have named : ∀ key : TextKey, textKey? key.word = some key := by
    intro key
    cases key <;> rfl
  have isKey : textKey? setting.word = some key := by
    rw [isWord]
    exact named key
  cases setting with
  | users names => cases isKey
  | control options => cases options <;> cases isKey
  | text other value =>
      have same := (named other).symm.trans isKey
      cases same
      exact ⟨value, rfl⟩

theorem isSome_lastSaid
    {α β : Type}
    {view : α → Option β}
    {items : List α} :
    (lastSaid view items).isSome ↔ ∃ item ∈ items, (view item).isSome := by
  rw [Option.isSome_iff_ne_none, Ne, lastSaid_eq_none,
    List.length_filterMap_eq_countP, ← Ne, ← Nat.pos_iff_ne_zero,
    List.countP_pos_iff]

/-- What only settings with some words say is said at most as often as these. -/
theorem length_filterMap_le_countP
    {β : Type}
    {view : BoardSetting → Option β}
    {words : List (List UInt8)}
    (along :
      ∀ setting, (view setting).isSome → words.contains setting.word = true)
    (settings : List BoardSetting) :
    (settings.filterMap view).length ≤
      (settings.map BoardSetting.word).countP words.contains := by
  rw [List.length_filterMap_eq_countP, List.countP_map]
  exact List.countP_mono_left fun setting _ => along setting

theorem controlOps?_word
    (setting : BoardSetting)
    (isControl : setting.controlOps?.isSome) :
    controlWords.contains setting.word = true := by
  cases setting with
  | users names => cases isControl
  | control options => cases options <;> rfl
  | text key value => cases key <;> first | rfl | cases isControl

theorem consoleOps?_word
    (setting : BoardSetting)
    (isConsole : setting.consoleOps?.isSome) :
    consoleWords.contains setting.word = true := by
  cases setting with
  | users names => cases isConsole
  | control options => cases isConsole
  | text key value => cases key <;> first | rfl | cases isConsole

/-- The settings of a valid board with the keys that are required. -/
theorem complete_settings
    {entry : List (List UInt8 × Datum)}
    (valid : ValidBoard entry)
    (served : Served entry)
    {settings : List BoardSetting}
    (areSettings : entry.mapM memberSetting? = some settings) :
    Complete settings := by
  have words := map_word valid areSettings
  have value :
      ∀ key : TextKey,
        key.word ∈ entry.map Prod.fst →
        ∃ setting ∈ settings, ∃ value, setting = .text key value := by
    intro key isName
    rw [← words] at isName
    obtain ⟨setting, isMember, isWord⟩ := List.mem_map.mp isName
    exact ⟨setting, isMember, BoardSetting.exists_of_word isWord⟩
  have control := length_filterMap_le_countP controlOps?_word settings
  have console := length_filterMap_le_countP consoleOps?_word settings
  rw [words] at control console
  refine ⟨⟨control.trans served.oneControl, console.trans served.oneConsole⟩,
    ?_, ?_, ?_⟩
  · obtain ⟨_, isMember, text, rfl⟩ :=
      value .board (valid.required _ List.mem_cons_self)
    exact isSome_lastSaid.mpr ⟨_, isMember, rfl⟩
  · obtain ⟨_, isMember, text, rfl⟩ := value .fastboot served.fastboot
    exact isSome_lastSaid.mpr ⟨_, isMember, rfl⟩
  · obtain ⟨word, isConsole, isName⟩ := served.console
    simp only [consoleWords, List.mem_cons, List.not_mem_nil, or_false]
      at isConsole
    rcases isConsole with rfl | rfl
    · obtain ⟨_, isMember, text, rfl⟩ := value .conmux isName
      exact isSome_lastSaid.mpr ⟨_, isMember, rfl⟩
    · obtain ⟨_, isMember, text, rfl⟩ := value .console isName
      exact isSome_lastSaid.mpr ⟨_, isMember, rfl⟩

/-- The device of a board under the schema. -/
theorem boardDevice?_memberPairs
    {entry : List (List UInt8 × Datum)}
    (valid : ValidBoard entry)
    (served : Served entry) :
    boardDevice? (memberPairs entry) =
      (entry.mapM memberSetting?).map deviceOf := by
  refine Option.ext fun dev => ?_
  rw [boardDevice?_eq_some, settings?_memberPairs, Option.map_eq_some_iff]
  constructor
  · rintro ⟨settings, areSettings, _, isDevice⟩
    exact ⟨settings, areSettings, isDevice⟩
  · rintro ⟨settings, areSettings, isDevice⟩
    exact ⟨settings, areSettings,
      complete_settings valid served areSettings, isDevice⟩

end Cdba
