import Cdba.Configuration

namespace Cdba

/-!
# The legacy form of the FTDI options

`ftdi_gpio_parse_config` reads a string of the form
`<description>[;<A|B|C|D>[;<type>,<id>,<polarity>]*]`.  It takes more than
that: a part of a word for the word, a number for a digit, and any text behind
the letter of the interface.
-/

open Program

/-! ## The documented form -/

/-- The types of a GPIO in the legacy form. -/
inductive LegacyType where
  | power
  | fastbootKey
  | powerKey
  | usbDisconnect
  | outputEnable
  deriving DecidableEq, Repr

namespace LegacyType

/-- How a type is written. -/
def word : LegacyType → CString
  | power => ascii "POWER"
  | fastbootKey => ascii "FASTBOOT_KEY"
  | powerKey => ascii "POWER_KEY"
  | usbDisconnect => ascii "USB_DISCONNECT"
  | outputEnable => ascii "OUTPUT_ENABLE"

/-- The GPIO of a type. -/
def gpio : LegacyType → FtdiGpio
  | power => .power
  | fastbootKey => .fastbootKey
  | powerKey => .powerKey
  | usbDisconnect => .usb0Disconnect
  | outputEnable => .outputEnable

end LegacyType

/-- How a polarity is written. -/
def polarityWord (activeLow : Bool) : CString :=
  if activeLow then ascii "ACTIVE_LOW" else ascii "ACTIVE_HIGH"

/-- The types in the order in which a name is compared with them. -/
def legacyTypes : List LegacyType :=
  [.power, .fastbootKey, .powerKey, .usbDisconnect, .outputEnable]

/-- One GPIO of the documented form. -/
structure LegacyEntry where
  type : LegacyType
  line : Fin 8
  activeLow : Bool
  deriving DecidableEq

/-- `<type>,<id>,<polarity>` -/
def LegacyEntry.text (entry : LegacyEntry) : CString :=
  entry.type.word ++
    comma :: ([0x30 + UInt8.ofNat entry.line.val] ++
      comma :: polarityWord entry.activeLow)

/-- The documented form: a description, and an interface with its GPIOs. -/
structure LegacyConfig where
  description : CString
  plain : semicolon ∉ description
  interface : Option (Fin 4 × List LegacyEntry)

namespace LegacyConfig

/-- The string of the documented form. -/
def text (config : LegacyConfig) : CString :=
  config.description ++
    match config.interface with
    | none => []
    | some (interface, entries) =>
        semicolon :: ([0x41 + UInt8.ofNat interface.val] ++
          entries.flatMap fun entry => semicolon :: entry.text)

/-- What the table holds for a GPIO: its last entry. -/
def line (config : LegacyConfig) (gpio : FtdiGpio) : FtdiGpioLine :=
  match config.interface with
  | none => ⟨false, 0, 0, false⟩
  | some (interface, entries) =>
      match (entries.filter (·.type.gpio = gpio)).getLast? with
      | none => ⟨false, 0, 0, false⟩
      | some entry =>
          { present := true
            interface := interface.val
            offset := UInt32.ofNat entry.line.val
            activeLow := entry.activeLow }

/-- The options of the documented form. -/
def options (config : LegacyConfig) : FtdiGpioOptions :=
  { FtdiGpioOptions.zero with
    description := some config.description
    gpios := config.line }

end LegacyConfig

/-- `ftdi_gpio_parse_config` takes a value and fills in these options. -/
def LegacyAccepts (value : CString) (options : FtdiGpioOptions) : Prop :=
  ∀ parser : DeviceParser DeviceConfig,
    ftdiGpioParseConfig .zero value parser = .ok options parser

/-- A value is taken when it has the documented form, and means that. -/
structure LegacyCorrect (value : CString) : Prop where
  accepts_iff :
    (∃ options, LegacyAccepts value options) ↔
      ∃ config : LegacyConfig, config.text = value
  table :
    ∀ options, LegacyAccepts value options →
      ∀ config : LegacyConfig, config.text = value →
        options = config.options

/-! ## What is taken -/

/--
A polarity that is taken for a word: at the end of the string it is compared as
a whole, elsewhere without its last character.
-/
def PolarityTaken (isLast : Bool) (polarity : CString) (activeLow : Bool) :
    Prop :=
  if isLast then
    polarity = polarityWord activeLow
  else
    polarity ≠ [] ∧ polarity.dropLast <+: polarityWord activeLow

instance
    (isLast : Bool)
    (polarity : CString)
    (activeLow : Bool) :
    Decidable (PolarityTaken isLast polarity activeLow) :=
  inferInstanceAs (Decidable (ite _ _ _))

/-- The fields of an entry as the searches for separators cut it. -/
structure LegacyFields where
  name : CString
  id : CString
  polarity : CString
  nameEnds : comma ∉ name
  idEnds : comma ∉ id
  polarityEnds : semicolon ∉ polarity

namespace LegacyFields

/-- The text of an entry. -/
def text (fields : LegacyFields) : CString :=
  fields.name ++ comma :: (fields.id ++ comma :: fields.polarity)

/-- Fields that are taken: a type's beginning, a number, a polarity. -/
structure Taken (fields : LegacyFields) (isLast : Bool) : Prop where
  name : ∃ type : LegacyType, fields.name <+: type.word
  id : unsignedOf 0 fields.id ≤ 7
  polarity : ∃ activeLow, PolarityTaken isLast fields.polarity activeLow

/-- Fields that are as documented. -/
structure Exact (fields : LegacyFields) : Prop where
  name : ∃ type : LegacyType, fields.name = type.word
  id : ∃ line : Fin 8, fields.id = [0x30 + UInt8.ofNat line.val]
  polarity : ∃ activeLow, fields.polarity = polarityWord activeLow

end LegacyFields

/-- The text of some entries. -/
def entriesText (entries : List LegacyFields) : CString :=
  entries.flatMap fun fields => semicolon :: fields.text

/-- Entries that are all taken. -/
def EntriesTaken : List LegacyFields → Prop
  | [] => True
  | fields :: entries => fields.Taken entries.isEmpty ∧ EntriesTaken entries

/-- A value with an interface, as the searches for separators cut it. -/
structure LegacyReading where
  description : CString
  interface : CString
  entries : List LegacyFields
  descriptionEnds : semicolon ∉ description
  interfaceEnds : semicolon ∉ interface

namespace LegacyReading

/-- The text that is read. -/
def text (reading : LegacyReading) : CString :=
  reading.description ++
    semicolon :: (reading.interface ++ entriesText reading.entries)

/-- A reading that is taken; of the interface only the first letter counts. -/
structure Taken (reading : LegacyReading) : Prop where
  interface : (ftdiInterface? reading.interface).isSome
  entries : EntriesTaken reading.entries

/-- A reading that is as documented. -/
structure Exact (reading : LegacyReading) : Prop where
  interface :
    ∃ letter : Fin 4, reading.interface = [0x41 + UInt8.ofNat letter.val]
  entries : ∀ fields, fields ∈ reading.entries → fields.Exact

end LegacyReading

/-! ## Searches and comparisons -/

theorem behind?_append
    {separator : UInt8}
    {front : CString}
    (ends : separator ∉ front)
    (rest : CString) :
    behind? separator (front ++ rest) = behind? separator rest := by
  rw [behind?, behind?, dropWhile_ne_append ends]

@[simp] theorem behind?_cons
    (separator : UInt8)
    (rest : CString) :
    behind? separator (separator :: rest) = some rest := by
  simp [behind?]

@[simp] theorem behind?_nil
    (separator : UInt8) :
    behind? separator [] = none :=
  rfl

/-- A search without a result passes no separator. -/
theorem behind?_eq_none
    {separator : UInt8}
    {text : CString}
    (isNone : behind? separator text = none) :
    separator ∉ text := by
  rw [behind?] at isNone
  split at isNone
  · rename_i passed
    exact not_mem_of_dropWhile_ne passed
  · cases isNone

/-- A search finds the first separator. -/
theorem behind?_eq_some
    {separator : UInt8}
    {text rest : CString}
    (isSome : behind? separator text = some rest) :
    ∃ front, text = front ++ separator :: rest ∧ separator ∉ front := by
  refine ⟨text.takeWhile (· ≠ separator), ?_, not_mem_takeWhile_ne text⟩
  rw [behind?] at isSome
  split at isSome
  · cases isSome
  · rename_i ch later found
    cases isSome
    exact eq_append_of_dropWhile_ne found

/-- A text is cut at the first separator in one way. -/
theorem cut_inj
    {separator : UInt8}
    {front other rest later : CString}
    (frontEnds : separator ∉ front)
    (otherEnds : separator ∉ other)
    (same : front ++ separator :: rest = other ++ separator :: later) :
    front = other ∧ rest = later := by
  have cut :
      ∀ {text rest : CString},
        separator ∉ text →
        (text ++ separator :: rest).takeWhile (· ≠ separator) = text := by
    intro text rest ends
    rw [takeWhile_ne_append ends]
    simp
  have fronts : front = other := by
    rw [← @cut front rest frontEnds, ← @cut other later otherEnds, same]
  subst fronts
  exact ⟨rfl, (List.cons.inj (List.append_cancel_left same)).2⟩

/-- `strncmp()` with the length of a name: whether the name begins the word. -/
theorem startsLike_name
    {name : CString}
    (string : 0 ∉ name)
    (word : String)
    (rest : CString) :
    startsLike word (name ++ rest) name.length =
      decide (name <+: ascii word) := by
  rw [startsLike, strncmpEq]
  split
  · rename_i within
    rw [readMemory_memoryAt (by simp), List.append_assoc,
      List.take_left, Bool.eq_iff_iff, beq_iff_eq, decide_eq_true_eq]
    exact List.prefix_iff_eq_take.symm
  · rename_i longer
    have notPrefix : ¬ name <+: ascii word :=
      fun begins => longer begins.length_le
    rw [decide_eq_false notPrefix, strcmpEq, Bool.and_eq_false_iff]
    right
    have inside : (ascii word).length < name.length := Nat.lt_of_not_le longer
    simp only [memoryAt, List.append_assoc]
    rw [List.getElem?_append_left inside, List.getElem?_eq_getElem inside,
      Option.getD_some, beq_eq_false_iff_ne]
    intro isNul
    exact string (isNul ▸ List.getElem_mem inside)

/-- `strncmp()` with a huge length compares strings as a whole. -/
theorem startsLike_whole
    {word : String}
    (wordString : 0 ∉ ascii word)
    (short : (ascii word).length < 2 ^ 64 - 1)
    {text : CString}
    (string : 0 ∉ text) :
    startsLike word text (2 ^ 64 - 1) = decide (text = ascii word) := by
  rw [startsLike, strncmpEq, if_neg (Nat.not_le.mpr short),
    strcmpEq_name wordString string, Bool.eq_iff_iff, beq_iff_eq,
    decide_eq_true_eq]
  exact eq_comm

/-! ## Numbers end at a comma -/

theorem digitsValue_comma
    (base : Nat)
    (text rest : CString)
    (value : Nat) :
    digitsValue base (text ++ comma :: rest) value =
      digitsValue base text value := by
  induction text generalizing value with
  | nil => rfl
  | cons ch text inductionHypothesis =>
      rw [List.cons_append, digitsValue, digitsValue]
      split
      · exact inductionHypothesis _
      · rfl

theorem skipHexPrefix_comma
    (text rest : CString) :
    skipHexPrefix (text ++ comma :: rest) =
      skipHexPrefix text ++ comma :: rest := by
  match text with
  | [] => cases rest with
    | nil => rfl
    | cons x rest => cases rest <;> rfl
  | [zero] => cases rest <;> simp [skipHexPrefix, comma]
  | [zero, x] =>
      have noDigit : (hexDigit? comma).isSome = false := rfl
      simp [skipHexPrefix, noDigit]
  | zero :: x :: digit :: text =>
      simp only [List.cons_append, skipHexPrefix]
      split <;> rfl

theorem detectBase_comma
    (text rest : CString) :
    detectBase (text ++ comma :: rest) =
      ((detectBase text).1, (detectBase text).2 ++ comma :: rest) := by
  have zero :
      (text ++ comma :: rest).head? = some 0x30 ↔
        text.head? = some 0x30 := by
    cases text with
    | nil => simp [comma]
    | cons ch text => exact Iff.rfl
  simp only [detectBase, skipHexPrefix_comma, ne_eq,
    List.append_left_inj, zero]
  split
  · rfl
  · split <;> rfl

/-- `strtoul()` reads up to a comma. -/
theorem strtoul_comma
    (text rest : CString) :
    strtoul 0 (text ++ comma :: rest) = strtoul 0 text := by
  have dropped :
      (text ++ comma :: rest).dropWhile isSpace =
        text.dropWhile isSpace ++ comma :: rest := by
    rw [List.dropWhile_append]
    split
    · rename_i empty
      rw [List.isEmpty_iff.mp empty]
      rfl
    · rfl
  simp only [strtoul, dropped]
  generalize text.dropWhile isSpace = text
  have sign :
      ∀ ch : UInt8, ch ≠ comma →
        ((text ++ comma :: rest).head? == some ch) =
          (text.head? == some ch) := by
    intro ch notComma
    cases text with
    | nil => simpa using notComma.symm
    | cons first text => rfl
  rw [sign 0x2d (by decide), sign 0x2b (by decide)]
  have digits :
      (if (text.head? == some 0x2d || text.head? == some 0x2b) = true then
          (text ++ comma :: rest).drop 1
        else
          text ++ comma :: rest) =
        (if (text.head? == some 0x2d || text.head? == some 0x2b) = true then
          text.drop 1
        else
          text) ++ comma :: rest := by
    cases text with
    | nil => rfl
    | cons first text => split <;> rfl
  simp only [digits, if_true, detectBase_comma, digitsValue_comma]

theorem unsignedOf_comma
    (text rest : CString) :
    unsignedOf 0 (text ++ comma :: rest) = unsignedOf 0 text := by
  rw [unsignedOf, strtoul_comma, unsignedOf]

/-! ## One entry -/

theorem legacyGpioType?_name
    {name : CString}
    (string : 0 ∉ name)
    (rest : CString) :
    legacyGpioType? (name ++ rest) name.length =
      (legacyTypes.find? fun type => decide (name <+: type.word)).map
        LegacyType.gpio := by
  simp only [legacyGpioType?, startsLike_name string, legacyTypes,
    List.find?, LegacyType.word]
  repeat' split
  all_goals simp_all [LegacyType.gpio]

/-- What follows a polarity: nothing, or a semicolon. -/
def AfterEntry (rest : CString) : Prop :=
  rest = [] ∨ ∃ more, rest = semicolon :: more

theorem polarityLength_append
    {polarity rest : CString}
    (ends : semicolon ∉ polarity)
    (after : AfterEntry rest) :
    polarityLength (polarity ++ rest) =
      if rest = [] ∨ polarity = [] then
        2 ^ 64 - 1
      else
        polarity.dropLast.length := by
  have front : (polarity ++ rest).takeWhile (· ≠ semicolon) = polarity := by
    rw [takeWhile_ne_append ends]
    rcases after with rfl | ⟨more, rfl⟩ <;> simp
  rw [polarityLength, front, List.length_append]
  rcases after with rfl | ⟨more, rfl⟩
  · simp
  · simp [List.length_dropLast]

/-- A polarity, as it is compared with the two words. -/
theorem legacyActiveLow?_append
    {polarity rest : CString}
    (ends : semicolon ∉ polarity)
    (after : AfterEntry rest)
    (string : 0 ∉ polarity ++ rest) :
    legacyActiveLow? (polarity ++ rest) =
      [false, true].find? fun activeLow =>
        decide (PolarityTaken rest.isEmpty polarity activeLow) := by
  have compares :
      ∀ activeLow word,
        polarityWord activeLow = ascii word →
        0 ∉ ascii word →
        (ascii word).length < 2 ^ 64 - 1 →
        (ascii word).head? = some 0x41 →
        startsLike word (polarity ++ rest)
            (polarityLength (polarity ++ rest)) =
          decide (PolarityTaken rest.isEmpty polarity activeLow) := by
    intro activeLow word isWord wordString short begins
    rw [polarityLength_append ends after, Bool.eq_iff_iff,
      decide_eq_true_eq, PolarityTaken, isWord]
    by_cases whole : rest = [] ∨ polarity = []
    · rw [if_pos whole, startsLike_whole wordString short string]
      rcases after with rfl | ⟨more, rfl⟩
      · simp
      · rcases whole with none | rfl
        · cases none
        · have different : semicolon :: more ≠ ascii word := by
            intro same
            rw [← same] at begins
            exact absurd (Option.some.inj begins) (by decide)
          simp [different]
    · obtain ⟨isMore, isPolarity⟩ := not_or.mp whole
      have split : polarity ++ rest =
          polarity.dropLast ++ (polarity.getLast isPolarity :: rest) := by
        rw [← List.singleton_append, ← List.append_assoc,
          List.dropLast_concat_getLast]
      have frontString : 0 ∉ polarity.dropLast := fun member =>
        string (List.mem_append_left _ (List.dropLast_subset _ member))
      rw [if_neg whole, split, startsLike_name frontString]
      have notLast : rest.isEmpty = false := by
        rw [List.isEmpty_eq_false_iff]
        exact isMore
      simp [notLast, isPolarity]
  have high := compares false "ACTIVE_HIGH" rfl (by decide) (by decide) rfl
  have low := compares true "ACTIVE_LOW" rfl (by decide) (by decide) rfl
  rw [legacyActiveLow?, high, low]
  simp only [List.find?]
  repeat' split
  all_goals simp_all

/-- An entry, by what its name and its polarity are taken for. -/
theorem legacyGpio?_fields
    (interface : Nat)
    (options : FtdiGpioOptions)
    (fields : LegacyFields)
    {rest : CString}
    (after : AfterEntry rest)
    (string : 0 ∉ fields.text ++ rest) :
    legacyGpio? interface options (fields.text ++ rest) =
      (legacyTypes.find? fun type =>
          decide (fields.name <+: type.word)).bind fun type =>
        if unsignedOf 0 fields.id > 7 then
          none
        else
          ([false, true].find? fun activeLow =>
              decide (PolarityTaken rest.isEmpty fields.polarity
                activeLow)).map fun activeLow =>
            (options.setGpio type.gpio fun _ =>
                ⟨true, interface, unsignedOf 0 fields.id, activeLow⟩,
              behind? semicolon rest) := by
  have text :
      fields.text ++ rest =
        fields.name ++ comma ::
          (fields.id ++ comma :: (fields.polarity ++ rest)) := by
    simp [LegacyFields.text]
  have nameString : 0 ∉ fields.name := fun member =>
    string (text ▸ List.mem_append_left _ member)
  have polarityString : 0 ∉ fields.polarity ++ rest := by
    intro member
    apply string
    rw [text]
    exact List.mem_append_right _ (List.mem_cons_of_mem _
      (List.mem_append_right _ (List.mem_cons_of_mem _ member)))
  have name :
      ((fields.name ++ comma ::
          (fields.id ++ comma :: (fields.polarity ++ rest))).takeWhile
        (· ≠ comma)).length = fields.name.length := by
    rw [takeWhile_ne_append fields.nameEnds]
    simp
  rw [text, legacyGpio?, behind?_append fields.nameEnds, behind?_cons]
  simp only [bind, Option.bind_some, name, legacyGpioType?_name nameString]
  rw [behind?_append fields.idEnds, behind?_cons, Option.bind_some,
    unsignedOf_comma, legacyActiveLow?_append fields.polarityEnds after
      polarityString, behind?_append fields.polarityEnds, Option.bind_map]
  congr 1
  funext type
  simp only [Function.comp]
  split
  · rfl
  · rw [Option.map_eq_bind]
    rfl

theorem mem_legacyTypes (type : LegacyType) : type ∈ legacyTypes := by
  cases type <;> decide

/-- An entry that is taken is passed. -/
theorem legacyGpio?_taken
    (interface : Nat)
    (options : FtdiGpioOptions)
    {fields : LegacyFields}
    {rest : CString}
    (taken : fields.Taken rest.isEmpty)
    (after : AfterEntry rest)
    (string : 0 ∉ fields.text ++ rest) :
    ∃ later,
      legacyGpio? interface options (fields.text ++ rest) =
        some (later, behind? semicolon rest) := by
  obtain ⟨named, numbered, polarised⟩ := taken
  have findsType :
      (legacyTypes.find? fun type =>
        decide (fields.name <+: type.word)).isSome := by
    obtain ⟨type, begins⟩ := named
    exact List.find?_isSome.mpr
      ⟨type, mem_legacyTypes type, decide_eq_true begins⟩
  have findsPolarity :
      ([false, true].find? fun activeLow =>
        decide (PolarityTaken rest.isEmpty fields.polarity
          activeLow)).isSome := by
    obtain ⟨activeLow, isTaken⟩ := polarised
    exact List.find?_isSome.mpr
      ⟨activeLow, by cases activeLow <;> decide, decide_eq_true isTaken⟩
  obtain ⟨type, isType⟩ := Option.isSome_iff_exists.mp findsType
  obtain ⟨activeLow, isPolarity⟩ := Option.isSome_iff_exists.mp findsPolarity
  refine
    ⟨options.setGpio type.gpio fun _ =>
      ⟨true, interface, unsignedOf 0 fields.id, activeLow⟩, ?_⟩
  rw [legacyGpio?_fields interface options fields after string, isType,
    Option.bind_some, if_neg (UInt32.not_lt.mpr numbered), isPolarity]
  rfl

/-- What is passed is an entry that is taken. -/
theorem legacyGpio?_eq_some
    {interface : Nat}
    {options later : FtdiGpioOptions}
    {name : CString}
    (string : 0 ∉ name)
    {next : Option CString}
    (passes : legacyGpio? interface options name = some (later, next)) :
    ∃ (fields : LegacyFields) (rest : CString),
      name = fields.text ++ rest ∧ AfterEntry rest ∧
        fields.Taken rest.isEmpty ∧ next = behind? semicolon rest := by
  have cut :
      ∃ (fields : LegacyFields) (rest : CString),
        name = fields.text ++ rest ∧ AfterEntry rest := by
    rw [legacyGpio?] at passes
    cases isOff : behind? comma name with
    | none =>
        rw [isOff] at passes
        cases passes
    | some off =>
        rw [isOff] at passes
        cases isPolarity : behind? comma off with
        | none =>
            simp [isPolarity] at passes
        | some polarity =>
            obtain ⟨word, nameIs, wordEnds⟩ := behind?_eq_some isOff
            obtain ⟨id, offIs, idEnds⟩ := behind?_eq_some isPolarity
            cases isRest : behind? semicolon polarity with
            | none =>
                refine ⟨⟨word, id, polarity, wordEnds, idEnds,
                  behind?_eq_none isRest⟩, [], ?_, .inl rfl⟩
                rw [nameIs, offIs, LegacyFields.text, List.append_nil]
            | some more =>
                obtain ⟨front, polarityIs, frontEnds⟩ :=
                  behind?_eq_some isRest
                refine ⟨⟨word, id, front, wordEnds, idEnds, frontEnds⟩,
                  semicolon :: more, ?_, .inr ⟨more, rfl⟩⟩
                rw [nameIs, offIs, polarityIs, LegacyFields.text]
                simp
  obtain ⟨fields, rest, rfl, after⟩ := cut
  refine ⟨fields, rest, rfl, after, ?_⟩
  rw [legacyGpio?_fields interface options fields after string] at passes
  obtain ⟨type, isType, passes⟩ := Option.bind_eq_some_iff.mp passes
  split at passes
  · cases passes
  · rename_i numbered
    obtain ⟨activeLow, isPolarity, passes⟩ :=
      Option.map_eq_some_iff.mp passes
    cases passes
    have named : fields.name <+: type.word := by
      simpa using List.find?_some isType
    have polarised : PolarityTaken rest.isEmpty fields.polarity activeLow := by
      simpa using List.find?_some isPolarity
    exact
      ⟨⟨⟨type, named⟩, UInt32.not_lt.mp numbered, ⟨activeLow, polarised⟩⟩,
        rfl⟩

/-! ## The loop over the entries -/

theorem afterEntry_entriesText
    (entries : List LegacyFields) :
    AfterEntry (entriesText entries) := by
  cases entries with
  | nil => exact .inl rfl
  | cons fields entries => exact .inr ⟨_, rfl⟩

theorem isEmpty_entriesText
    (entries : List LegacyFields) :
    (entriesText entries).isEmpty = entries.isEmpty := by
  cases entries <;> rfl

theorem behind?_entriesText
    (fields : LegacyFields)
    (entries : List LegacyFields) :
    behind? semicolon (entriesText (fields :: entries)) =
      some (fields.text ++ entriesText entries) := by
  rw [entriesText, List.flatMap_cons, List.cons_append, behind?_cons,
    entriesText]

/-- Entries that are taken are passed. -/
theorem legacyGpios_taken
    (interface : Nat)
    {entries : List LegacyFields}
    (taken : EntriesTaken entries)
    (string : 0 ∉ entriesText entries)
    {fuel : Nat}
    (enough : entries.length ≤ fuel)
    (options : FtdiGpioOptions) :
    ∃ later,
      ∀ parser : DeviceParser DeviceConfig,
        legacyGpios interface fuel options
            (behind? semicolon (entriesText entries)) parser =
          .ok later parser := by
  induction entries generalizing fuel options with
  | nil =>
      refine ⟨options, fun parser => ?_⟩
      rw [entriesText, List.flatMap_nil, behind?_nil, legacyGpios]
      rfl
  | cons fields entries inductionHypothesis =>
      cases fuel with
      | zero => exact absurd enough (Nat.not_succ_le_zero _)
      | succ fuel =>
          obtain ⟨isTaken, areTaken⟩ := taken
          rw [entriesText, List.flatMap_cons, List.cons_append,
            List.mem_cons, not_or] at string
          have restString : 0 ∉ entriesText entries := fun member =>
            string.2 (List.mem_append_right _ member)
          rw [← isEmpty_entriesText] at isTaken
          obtain ⟨next, passes⟩ :=
            legacyGpio?_taken interface options isTaken
              (afterEntry_entriesText entries) string.2
          obtain ⟨later, returns⟩ :=
            inductionHypothesis areTaken restString
              (Nat.le_of_succ_le_succ enough) next
          refine ⟨later, fun parser => ?_⟩
          rw [behind?_entriesText, legacyGpios, passes]
          exact returns parser

/-- What the loop passes are entries that are taken. -/
theorem legacyGpios_eq_ok
    {interface fuel : Nat}
    {options later : FtdiGpioOptions}
    {rest : CString}
    (after : AfterEntry rest)
    (string : 0 ∉ rest)
    {parser final : DeviceParser DeviceConfig}
    (returns :
      legacyGpios interface fuel options (behind? semicolon rest) parser =
        .ok later final) :
    ∃ entries, rest = entriesText entries ∧ EntriesTaken entries := by
  induction fuel generalizing options rest with
  | zero =>
      rcases after with rfl | ⟨more, rfl⟩
      · exact ⟨[], rfl, trivial⟩
      · rw [behind?_cons, legacyGpios] at returns
        cases returns
  | succ fuel inductionHypothesis =>
      rcases after with rfl | ⟨more, rfl⟩
      · exact ⟨[], rfl, trivial⟩
      · rw [behind?_cons, legacyGpios] at returns
        cases passes : legacyGpio? interface options more with
        | none =>
            rw [passes] at returns
            cases returns
        | some passed =>
            obtain ⟨passed, next⟩ := passed
            rw [passes] at returns
            have moreString : 0 ∉ more := fun member =>
              string (List.mem_cons_of_mem _ member)
            obtain ⟨fields, behind, moreIs, after, taken, nextIs⟩ :=
              legacyGpio?_eq_some moreString passes
            have behindString : 0 ∉ behind := fun member =>
              moreString (moreIs ▸ List.mem_append_right _ member)
            subst nextIs
            obtain ⟨entries, behindIs, areTaken⟩ :=
              inductionHypothesis after behindString returns
            refine ⟨fields :: entries, ?_, ?_, areTaken⟩
            · rw [moreIs, behindIs]
              rfl
            · rw [← isEmpty_entriesText, ← behindIs]
              exact taken

/-! ## The documented form is taken -/

/-- Fill in one entry. -/
def LegacyEntry.fill
    (interface : Nat)
    (options : FtdiGpioOptions)
    (entry : LegacyEntry) :
    FtdiGpioOptions :=
  options.setGpio entry.type.gpio fun _ =>
    { present := true
      interface := interface
      offset := UInt32.ofNat entry.line.val
      activeLow := entry.activeLow }

theorem comma_not_mem_word (type : LegacyType) : comma ∉ type.word := by
  cases type <;> decide

theorem comma_not_mem_line :
    ∀ line : Fin 8, comma ∉ [0x30 + UInt8.ofNat line.val] := by
  decide

theorem semicolon_not_mem_polarityWord
    (activeLow : Bool) :
    semicolon ∉ polarityWord activeLow := by
  cases activeLow <;> decide

/-- An entry of the documented form as fields. -/
def LegacyEntry.fields (entry : LegacyEntry) : LegacyFields where
  name := entry.type.word
  id := [0x30 + UInt8.ofNat entry.line.val]
  polarity := polarityWord entry.activeLow
  nameEnds := comma_not_mem_word entry.type
  idEnds := comma_not_mem_line entry.line
  polarityEnds := semicolon_not_mem_polarityWord entry.activeLow

theorem entriesText_fields
    (entries : List LegacyEntry) :
    entriesText (entries.map LegacyEntry.fields) =
      entries.flatMap fun entry => semicolon :: entry.text := by
  rw [entriesText, List.flatMap_map]
  rfl

theorem find_word
    (type : LegacyType) :
    (legacyTypes.find? fun other => decide (type.word <+: other.word)) =
      some type := by
  cases type <;> decide

theorem find_polarityWord
    (isLast activeLow : Bool) :
    ([false, true].find? fun other =>
        decide (PolarityTaken isLast (polarityWord activeLow) other)) =
      some activeLow := by
  cases isLast <;> cases activeLow <;> decide

theorem unsignedOf_line :
    ∀ line : Fin 8,
      unsignedOf 0 [0x30 + UInt8.ofNat line.val] = UInt32.ofNat line.val ∧
        ¬ UInt32.ofNat line.val > 7 := by
  decide +kernel

/-- An entry of the documented form is filled in. -/
theorem legacyGpio?_entry
    (interface : Nat)
    (options : FtdiGpioOptions)
    (entry : LegacyEntry)
    {rest : CString}
    (after : AfterEntry rest)
    (string : 0 ∉ entry.text ++ rest) :
    legacyGpio? interface options (entry.text ++ rest) =
      some (entry.fill interface options, behind? semicolon rest) := by
  obtain ⟨isLine, fits⟩ := unsignedOf_line entry.line
  have isId : unsignedOf 0 entry.fields.id = UInt32.ofNat entry.line.val :=
    isLine
  have isType :
      (legacyTypes.find? fun type =>
        decide (entry.fields.name <+: type.word)) = some entry.type :=
    find_word entry.type
  have isPolarity :
      ([false, true].find? fun activeLow =>
          decide (PolarityTaken rest.isEmpty entry.fields.polarity
            activeLow)) =
        some entry.activeLow :=
    find_polarityWord rest.isEmpty entry.activeLow
  change legacyGpio? interface options (entry.fields.text ++ rest) = _
  rw [legacyGpio?_fields interface options entry.fields after string,
    isType, Option.bind_some, isId, if_neg fits, isPolarity]
  rfl

/-- The entries of the documented form are filled in, in order. -/
theorem legacyGpios_entries
    (interface : Nat)
    {entries : List LegacyEntry}
    (string : 0 ∉ entriesText (entries.map LegacyEntry.fields))
    {fuel : Nat}
    (enough : entries.length ≤ fuel)
    (options : FtdiGpioOptions)
    (parser : DeviceParser DeviceConfig) :
    legacyGpios interface fuel options
        (behind? semicolon (entriesText (entries.map LegacyEntry.fields)))
        parser =
      .ok (entries.foldl (LegacyEntry.fill interface) options) parser := by
  induction entries generalizing fuel options with
  | nil =>
      rw [List.map_nil, entriesText, List.flatMap_nil, behind?_nil,
        legacyGpios]
      rfl
  | cons entry entries inductionHypothesis =>
      cases fuel with
      | zero => exact absurd enough (Nat.not_succ_le_zero _)
      | succ fuel =>
          rw [List.map_cons, entriesText, List.flatMap_cons,
            List.cons_append, List.mem_cons, not_or] at string
          have restString :
              0 ∉ entriesText (entries.map LegacyEntry.fields) :=
            fun member => string.2 (List.mem_append_right _ member)
          have passes :
              legacyGpio? interface options
                  (entry.fields.text ++
                    entriesText (entries.map LegacyEntry.fields)) = _ :=
            legacyGpio?_entry interface options entry
              (afterEntry_entriesText (entries.map LegacyEntry.fields))
              string.2
          rw [List.map_cons, behind?_entriesText, legacyGpios, passes]
          exact inductionHypothesis restString
            (Nat.le_of_succ_le_succ enough) (entry.fill interface options)

/-- Each GPIO holds its last entry. -/
theorem foldl_fill
    (interface : Nat)
    (entries : List LegacyEntry)
    (options : FtdiGpioOptions) :
    entries.foldl (LegacyEntry.fill interface) options =
      { options with
        gpios := fun gpio =>
          match (entries.filter (·.type.gpio = gpio)).getLast? with
          | none => options.gpios gpio
          | some entry =>
              { present := true
                interface := interface
                offset := UInt32.ofNat entry.line.val
                activeLow := entry.activeLow } } := by
  induction entries generalizing options with
  | nil => rfl
  | cons entry entries inductionHypothesis =>
      rw [List.foldl_cons, inductionHypothesis, LegacyEntry.fill,
        FtdiGpioOptions.setGpio]
      congr 1
      funext gpio
      by_cases isGpio : entry.type.gpio = gpio
      · rw [List.filter_cons_of_pos (by simp [isGpio]), List.getLast?_cons]
        cases (entries.filter (·.type.gpio = gpio)).getLast? with
        | none => simp [isGpio]
        | some last => rfl
      · rw [List.filter_cons_of_neg (by simp [isGpio])]
        cases (entries.filter (·.type.gpio = gpio)).getLast? with
        | none => simp [Ne.symm isGpio]
        | some last => rfl

/-! ## The whole value -/

theorem semicolon_not_mem_letter :
    ∀ letter : Fin 4, semicolon ∉ [0x41 + UInt8.ofNat letter.val] := by
  decide

theorem ftdiInterface?_letter :
    ∀ letter : Fin 4,
      ftdiInterface? [0x41 + UInt8.ofNat letter.val] = some letter.val := by
  decide

/-- Only the first character of the interface is looked at. -/
theorem ftdiInterface?_append
    {interface rest : CString}
    (after : AfterEntry rest) :
    ftdiInterface? (interface ++ rest) = ftdiInterface? interface := by
  cases interface with
  | nil =>
      rcases after with rfl | ⟨more, rfl⟩ <;> rfl
  | cons letter interface => rfl

/-- A value without an interface is only a description. -/
theorem ftdiGpioParseConfig_description
    {value : CString}
    (ends : semicolon ∉ value)
    (parser : DeviceParser DeviceConfig) :
    ftdiGpioParseConfig .zero value parser =
      .ok { FtdiGpioOptions.zero with description := some value } parser := by
  have noInterface : behind? semicolon value = none := by
    have searched := behind?_append ends []
    rwa [List.append_nil, behind?_nil] at searched
  rw [ftdiGpioParseConfig, noInterface, takeWhile_ne_eq_self ends]
  rfl

/-- A value with an interface goes on with the loop over its entries. -/
theorem ftdiGpioParseConfig_interface
    {description interface rest : CString}
    (descriptionEnds : semicolon ∉ description)
    (interfaceEnds : semicolon ∉ interface)
    (after : AfterEntry rest) :
    (ftdiGpioParseConfig .zero
        (description ++ semicolon :: (interface ++ rest)) :
      ParserM DeviceConfig FtdiGpioOptions) =
      match ftdiInterface? interface with
      | none => stop (.exit 1)
      | some letter =>
          legacyGpios letter
            ((description ++ semicolon :: (interface ++ rest)).length + 1)
            { FtdiGpioOptions.zero with description := some description }
            (behind? semicolon rest) := by
  have front :
      (description ++ semicolon :: (interface ++ rest)).takeWhile
        (· ≠ semicolon) = description := by
    rw [takeWhile_ne_append descriptionEnds]
    simp
  rw [ftdiGpioParseConfig, front, behind?_append descriptionEnds,
    behind?_cons]
  dsimp only
  cases letter : ftdiInterface? interface <;>
    simp only [ftdiInterface?_append after, behind?_append interfaceEnds,
      letter]

/-- The documented form with an interface, as it is cut. -/
def interfaceReading
    (description : CString)
    (plain : semicolon ∉ description)
    (letter : Fin 4)
    (entries : List LegacyEntry) :
    LegacyReading where
  description := description
  interface := [0x41 + UInt8.ofNat letter.val]
  entries := entries.map LegacyEntry.fields
  descriptionEnds := plain
  interfaceEnds := semicolon_not_mem_letter letter

/-- Every entry has a character for one unit of fuel. -/
theorem length_entriesText
    (entries : List LegacyFields) :
    entries.length ≤ (entriesText entries).length := by
  induction entries with
  | nil => exact Nat.le_refl 0
  | cons fields entries inductionHypothesis =>
      rw [entriesText, List.flatMap_cons, List.length_append,
        List.length_cons, List.length_cons, ← entriesText]
      omega

theorem LegacyReading.enough
    (reading : LegacyReading) :
    reading.entries.length ≤ reading.text.length + 1 := by
  have entries := length_entriesText reading.entries
  simp only [LegacyReading.text, List.length_append, List.length_cons]
  omega

theorem LegacyReading.entries_string
    {reading : LegacyReading}
    (string : 0 ∉ reading.text) :
    0 ∉ entriesText reading.entries := by
  intro member
  apply string
  exact List.mem_append_right _ (List.mem_cons_of_mem _
    (List.mem_append_right _ member))

/-- The documented form is taken, and means what it says. -/
theorem legacyAccepts_config
    (config : LegacyConfig)
    (string : 0 ∉ config.text) :
    LegacyAccepts config.text config.options := by
  intro parser
  obtain ⟨description, plain, interface⟩ := config
  cases interface with
  | none =>
      have text : LegacyConfig.text ⟨description, plain, none⟩ = description :=
        List.append_nil _
      rw [text, ftdiGpioParseConfig_description plain]
      rfl
  | some interface =>
      obtain ⟨letter, entries⟩ := interface
      have text :
          LegacyConfig.text ⟨description, plain, some (letter, entries)⟩ =
            (interfaceReading description plain letter entries).text := by
        rw [LegacyReading.text, interfaceReading, LegacyConfig.text,
          entriesText_fields]
      rw [text] at string ⊢
      have entriesString := LegacyReading.entries_string string
      have enough :=
        (interfaceReading description plain letter entries).enough
      rw [interfaceReading, List.length_map, LegacyReading.text] at enough
      rw [LegacyReading.text, interfaceReading,
        ftdiGpioParseConfig_interface plain (semicolon_not_mem_letter letter)
          (afterEntry_entriesText _), ftdiInterface?_letter]
      refine
        (legacyGpios_entries letter.val entriesString enough _ parser).trans ?_
      rw [foldl_fill]
      rfl

/-- A reading that is taken is accepted. -/
theorem legacyAccepts_reading
    {reading : LegacyReading}
    (taken : reading.Taken)
    (string : 0 ∉ reading.text) :
    ∃ options, LegacyAccepts reading.text options := by
  obtain ⟨letter, isLetter⟩ := Option.isSome_iff_exists.mp taken.interface
  obtain ⟨later, returns⟩ :=
    legacyGpios_taken letter taken.entries
      (LegacyReading.entries_string string) reading.enough
      { FtdiGpioOptions.zero with description := some reading.description }
  refine ⟨later, fun parser => ?_⟩
  rw [LegacyReading.text,
    ftdiGpioParseConfig_interface reading.descriptionEnds
      reading.interfaceEnds (afterEntry_entriesText _), isLetter]
  exact returns parser

/-- What is accepted is a description, or a reading that is taken. -/
theorem reading_of_legacyAccepts
    {value : CString}
    (string : 0 ∉ value)
    {options : FtdiGpioOptions}
    (accepts : LegacyAccepts value options) :
    semicolon ∉ value ∨
      ∃ reading : LegacyReading, reading.text = value ∧ reading.Taken := by
  have returns := accepts ⟨.noEvent, [], [], []⟩
  cases isConfig : behind? semicolon value with
  | none => exact .inl (behind?_eq_none isConfig)
  | some config =>
      right
      obtain ⟨description, valueIs, descriptionEnds⟩ := behind?_eq_some isConfig
      have cut :
          ∃ interface rest,
            config = interface ++ rest ∧ semicolon ∉ interface ∧
              AfterEntry rest := by
        cases isRest : behind? semicolon config with
        | none =>
            exact ⟨config, [], (List.append_nil _).symm,
              behind?_eq_none isRest, .inl rfl⟩
        | some more =>
            obtain ⟨interface, configIs, interfaceEnds⟩ :=
              behind?_eq_some isRest
            exact ⟨interface, semicolon :: more, configIs, interfaceEnds,
              .inr ⟨more, rfl⟩⟩
      obtain ⟨interface, rest, configIs, interfaceEnds, after⟩ := cut
      subst configIs
      subst valueIs
      rw [ftdiGpioParseConfig_interface descriptionEnds interfaceEnds after]
        at returns
      cases isLetter : ftdiInterface? interface with
      | none =>
          rw [isLetter] at returns
          cases returns
      | some letter =>
          rw [isLetter] at returns
          have restString : 0 ∉ rest := fun member =>
            string (List.mem_append_right _ (List.mem_cons_of_mem _
              (List.mem_append_right _ member)))
          obtain ⟨entries, restIs, taken⟩ :=
            legacyGpios_eq_ok after restString returns
          refine ⟨⟨description, interface, entries, descriptionEnds,
            interfaceEnds⟩, ?_, ⟨?_, taken⟩⟩
          · rw [LegacyReading.text, restIs]
          · change (ftdiInterface? interface).isSome
            rw [isLetter]
            rfl

/-! ## A value is read in one way -/

/-- A text ends at a semicolon or the end of the value in one way. -/
theorem end_inj
    {front other rest later : CString}
    (frontEnds : semicolon ∉ front)
    (otherEnds : semicolon ∉ other)
    (afterRest : AfterEntry rest)
    (afterLater : AfterEntry later)
    (same : front ++ rest = other ++ later) :
    front = other ∧ rest = later := by
  have cut :
      ∀ {text rest : CString},
        semicolon ∉ text →
        AfterEntry rest →
        (text ++ rest).takeWhile (· ≠ semicolon) = text := by
    intro text rest ends after
    rw [takeWhile_ne_append ends]
    rcases after with rfl | ⟨more, rfl⟩ <;> simp
  have fronts : front = other := by
    rw [← cut frontEnds afterRest, ← cut otherEnds afterLater, same]
  subst fronts
  exact ⟨rfl, List.append_cancel_left same⟩

theorem entriesText_inj
    {entries others : List LegacyFields}
    (same : entriesText entries = entriesText others) :
    entries = others := by
  induction entries generalizing others with
  | nil =>
      cases others with
      | nil => rfl
      | cons fields others => cases same
  | cons fields entries inductionHypothesis =>
      cases others with
      | nil => cases same
      | cons other others =>
          have texts := congrArg (behind? semicolon) same
          rw [behind?_entriesText, behind?_entriesText,
            Option.some.injEq] at texts
          obtain ⟨name, id, polarity, nameEnds, idEnds, polarityEnds⟩ := fields
          obtain ⟨otherName, otherId, otherPolarity, otherNameEnds,
            otherIdEnds, otherPolarityEnds⟩ := other
          simp only [LegacyFields.text, List.append_assoc,
            List.cons_append] at texts
          obtain ⟨rfl, behindName⟩ := cut_inj nameEnds otherNameEnds texts
          obtain ⟨rfl, behindId⟩ := cut_inj idEnds otherIdEnds behindName
          obtain ⟨rfl, later⟩ :=
            end_inj polarityEnds otherPolarityEnds
              (afterEntry_entriesText entries)
              (afterEntry_entriesText others) behindId
          rw [inductionHypothesis later]

theorem LegacyReading.text_inj
    {reading other : LegacyReading}
    (same : reading.text = other.text) :
    reading = other := by
  obtain ⟨description, interface, entries, descriptionEnds,
    interfaceEnds⟩ := reading
  obtain ⟨otherDescription, otherInterface, others, otherDescriptionEnds,
    otherInterfaceEnds⟩ := other
  obtain ⟨rfl, config⟩ := cut_inj descriptionEnds otherDescriptionEnds same
  obtain ⟨rfl, texts⟩ :=
    end_inj interfaceEnds otherInterfaceEnds (afterEntry_entriesText entries)
      (afterEntry_entriesText others) config
  cases entriesText_inj texts
  rfl

/-! ## Exactly what is documented -/

theorem LegacyEntry.fields_exact (entry : LegacyEntry) : entry.fields.Exact :=
  ⟨⟨entry.type, rfl⟩, ⟨entry.line, rfl⟩, ⟨entry.activeLow, rfl⟩⟩

/-- Fields that are as documented are those of an entry. -/
theorem LegacyFields.Exact.entry
    {fields : LegacyFields}
    (exactly : fields.Exact) :
    ∃ entry : LegacyEntry, entry.fields = fields := by
  obtain ⟨⟨type, isName⟩, ⟨line, isId⟩, ⟨activeLow, isPolarity⟩⟩ := exactly
  refine ⟨⟨type, line, activeLow⟩, ?_⟩
  obtain ⟨name, id, polarity, _, _, _⟩ := fields
  cases isName
  cases isId
  cases isPolarity
  rfl

theorem exists_entries
    {fields : List LegacyFields}
    (exactly : ∀ one, one ∈ fields → one.Exact) :
    ∃ entries : List LegacyEntry, entries.map LegacyEntry.fields = fields := by
  induction fields with
  | nil => exact ⟨[], rfl⟩
  | cons one fields inductionHypothesis =>
      obtain ⟨entry, isEntry⟩ := (exactly one List.mem_cons_self).entry
      obtain ⟨entries, areEntries⟩ := inductionHypothesis fun other member =>
        exactly other (List.mem_cons_of_mem _ member)
      exact ⟨entry :: entries, by rw [List.map_cons, isEntry, areEntries]⟩

/-- The documented form with an interface is what is read exactly. -/
theorem LegacyReading.exact_iff
    (reading : LegacyReading) :
    reading.Exact ↔ ∃ config : LegacyConfig, config.text = reading.text := by
  constructor
  · rintro ⟨⟨letter, isLetter⟩, exactly⟩
    obtain ⟨entries, areEntries⟩ := exists_entries exactly
    refine ⟨⟨reading.description, reading.descriptionEnds,
      some (letter, entries)⟩, ?_⟩
    rw [LegacyReading.text, isLetter, ← areEntries, entriesText_fields,
      LegacyConfig.text]
  · rintro ⟨⟨description, plain, interface⟩, same⟩
    cases interface with
    | none =>
        have member : semicolon ∈ description := by
          have isText : description = reading.text :=
            (List.append_nil description).symm.trans same
          rw [isText]
          exact List.mem_append_right _ List.mem_cons_self
        exact absurd member plain
    | some interface =>
        obtain ⟨letter, entries⟩ := interface
        have isReading :
            interfaceReading description plain letter entries = reading := by
          apply LegacyReading.text_inj
          rw [← same, LegacyReading.text, interfaceReading,
            entriesText_fields, LegacyConfig.text]
        rw [← isReading]
        refine ⟨⟨letter, rfl⟩, ?_⟩
        intro fields member
        obtain ⟨entry, _, rfl⟩ := List.mem_map.mp member
        exact entry.fields_exact

/--
`ftdi_gpio_parse_config` takes exactly the documented form of a value, and
fills in what it says, if and only if the value cannot be cut into parts that
are taken but not as documented.
-/
theorem legacyCorrect_iff
    (bytes : List UInt8) :
    LegacyCorrect (cstr bytes) ↔
      ∀ reading : LegacyReading,
        reading.text = cstr bytes → reading.Taken → reading.Exact := by
  have string := not_mem_cstr bytes
  generalize cstr bytes = value at string
  have unique :
      ∀ {one other},
        LegacyAccepts value one → LegacyAccepts value other →
        one = other := by
    intro one other accepts otherAccepts
    have same := accepts ⟨.noEvent, [], [], []⟩
    rw [otherAccepts] at same
    cases same
    rfl
  constructor
  · intro correct reading isText taken
    subst isText
    exact reading.exact_iff.mpr
      (correct.accepts_iff.mp (legacyAccepts_reading taken string))
  · intro exactly
    refine ⟨⟨?_, ?_⟩, ?_⟩
    · rintro ⟨options, accepts⟩
      rcases reading_of_legacyAccepts string accepts with
        ends | ⟨reading, isText, taken⟩
      · exact ⟨⟨value, ends, none⟩, List.append_nil value⟩
      · rw [← isText]
        exact reading.exact_iff.mp (exactly reading isText taken)
    · rintro ⟨config, rfl⟩
      exact ⟨config.options, legacyAccepts_config config string⟩
    · rintro options accepts config rfl
      exact unique accepts (legacyAccepts_config config string)

/-- `x;A;POWER,1,ACTIVE_L;POWER_KEY,2,ACTIVE_HIGH` -/
def shortenedPolarity : LegacyReading where
  description := ascii "x"
  interface := ascii "A"
  entries :=
    [⟨ascii "POWER", ascii "1", ascii "ACTIVE_L", by decide, by decide,
        by decide⟩,
      ⟨ascii "POWER_KEY", ascii "2", ascii "ACTIVE_HIGH", by decide,
        by decide, by decide⟩]
  descriptionEnds := by decide
  interfaceEnds := by decide

/-- A polarity that lacks its end is taken, and for active high. -/
theorem shortenedPolarity_accepted :
    ¬ ∀ bytes : List UInt8, LegacyCorrect (cstr bytes) := by
  intro correct
  have isValue :
      cstr (ascii "x;A;POWER,1,ACTIVE_L;POWER_KEY,2,ACTIVE_HIGH") =
        shortenedPolarity.text := by
    decide
  have here := correct (ascii "x;A;POWER,1,ACTIVE_L;POWER_KEY,2,ACTIVE_HIGH")
  rw [isValue] at here
  have taken : shortenedPolarity.Taken :=
    { interface := by decide
      entries :=
        ⟨⟨⟨.power, by decide⟩, by decide +kernel, ⟨false, by decide⟩⟩,
          ⟨⟨.powerKey, by decide⟩, by decide +kernel, ⟨false, by decide⟩⟩,
          trivial⟩ }
  have accepted := legacyAccepts_reading taken (by decide)
  have exactly :=
    shortenedPolarity.exact_iff.mpr (here.accepts_iff.mp accepted)
  obtain ⟨activeLow, isWord⟩ :=
    (exactly.entries _ List.mem_cons_self).polarity
  cases activeLow <;> cases isWord

end Cdba
