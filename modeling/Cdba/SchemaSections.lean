import Cdba.SchemaYaml

namespace Cdba

/-!
# Sections of drivers under the schema

What the parser takes of the sections of the drivers that are valid under the
schema.  The schema also allows GPIOs with other names, since its patterns are
not anchored as a whole, and options of a GPIO that the parser does not know.
-/

open Program
open DeviceParser
open JsonSchema

variable {δ τ : Type}

/-! ## Nodes of data -/

theorem datumNodes_eq
    (data : List Datum) :
    datumNodes data = data.map datumNode := by
  induction data with
  | nil => rfl
  | cons datum data inductionHypothesis =>
      rw [datumNodes, inductionHypothesis, List.map_cons]

theorem memberPairs_eq
    (members : List (List UInt8 × Datum)) :
    memberPairs members =
      members.map fun member => (.scalar member.1, datumNode member.2) := by
  induction members with
  | nil => rfl
  | cons member members inductionHypothesis =>
      rw [memberPairs, inductionHypothesis, List.map_cons]

/-- Scalars have a text, and nothing else has. -/
theorem text_datumNode
    (datum : Datum)
    (size : Nat) :
    (datumNode datum).text size =
      (datumText datum).map fun text => (cstr text).take (size - 1) := by
  cases datum <;> rfl

theorem isSome_datumText
    {datum : Datum}
    (isScalar : datum.IsScalar) :
    (datumText datum).isSome := by
  cases datum with
  | array items => exact isScalar.elim
  | object members => exact isScalar.elim
  | _ => rfl

theorem isSome_text
    {datum : Datum}
    (isScalar : datum.IsScalar)
    (size : Nat) :
    ((datumNode datum).text size).isSome := by
  rw [text_datumNode, Option.isSome_map]
  exact isSome_datumText isScalar

/-! ## Members that are read whatever was read before -/

/-- Each element of a list has a value when the list has. -/
theorem isSome_mapM
    {α β : Type}
    (view : α → Option β)
    (items : List α) :
    (items.mapM view).isSome ↔ ∀ item ∈ items, (view item).isSome := by
  induction items with
  | nil =>
      exact iff_of_true rfl nofun
  | cons item items inductionHypothesis =>
      rw [List.mapM_cons, List.forall_mem_cons, ← inductionHypothesis]
      cases view item with
      | none => simp
      | some value => cases items.mapM view <;> simp

theorem isSome_bind_some
    {α β : Type}
    (found : Option α)
    (build : α → β) :
    (found.bind fun value => some (build value)).isSome = found.isSome := by
  cases found <;> rfl

/-- Members are read when each of them is, if that does not depend on others. -/
theorem isSome_readMembers
    {size : Nat}
    {step : τ → CString → YamlNode → Option τ}
    {Read : List UInt8 × Datum → Prop}
    {members : List (List UInt8 × Datum)}
    (reads :
      ∀ member ∈ members, ∀ value,
        (step value ((cstr member.1).take (size - 1))
            (datumNode member.2)).isSome ↔
          Read member)
    (value : τ) :
    (readPairs size step value (memberPairs members)).isSome ↔
      ∀ member ∈ members, Read member := by
  induction members generalizing value with
  | nil =>
      exact iff_of_true rfl nofun
  | cons member members inductionHypothesis =>
      obtain ⟨name, datum⟩ := member
      obtain ⟨one, others⟩ := List.forall_mem_cons.mp reads
      rw [List.forall_mem_cons, memberPairs, readPairs, ← one value]
      change ((step value _ (datumNode datum)).bind _).isSome ↔ _
      cases step value ((cstr name).take (size - 1)) (datumNode datum) with
      | none => simp
      | some next => simpa using inductionHypothesis others next

/-! ## What the parser takes -/

/-- An option of an FTDI GPIO that the parser takes. -/
def FtdiOptionRead (option : List UInt8 × Datum) : Prop :=
  ∃ text,
    datumText option.2 = some text ∧
      (tokenText option.1 = ascii "line" ∨
        tokenText option.1 = ascii "interface" ∧
            (ftdiInterface? (tokenText text)).isSome ∨
          tokenText option.1 = ascii "active_low")

/-- An option of a local GPIO that the parser takes. -/
def LocalOptionRead (option : List UInt8 × Datum) : Prop :=
  ∃ text,
    datumText option.2 = some text ∧
      (tokenText option.1 = ascii "chip" ∨ tokenText option.1 = ascii "line" ∨
        tokenText option.1 = ascii "active_low")

/-- The mappings among the members are GPIOs that the parser takes. -/
def GpiosRead
    {γ : Type}
    (gpio? : CString → Option γ)
    (OptionRead : List UInt8 × Datum → Prop)
    (members : List (List UInt8 × Datum)) :
    Prop :=
  ∀ member ∈ members, ∀ options,
    member.2 = .object options →
    (gpio? (tokenText member.1)).isSome ∧ ∀ option ∈ options, OptionRead option

/-- A legacy string that the parser takes: it is cut at its separators. -/
def LegacyRead (value : CString) : Prop :=
  semicolon ∉ value ∨
    ∃ reading : LegacyReading, reading.text = value ∧ reading.Taken

/-- An `ftdi_gpio` that the parser takes. -/
def FtdiRead (datum : Datum) : Prop :=
  (∀ text, datum = .string text → LegacyRead (tokenText text)) ∧
    ∀ members,
      datum = .object members → GpiosRead ftdiGpioKey? FtdiOptionRead members

/-- A `local_gpio` that the parser takes. -/
def LocalRead (datum : Datum) : Prop :=
  ∀ members,
    datum = .object members → GpiosRead localGpioKey? LocalOptionRead members

theorem legacyOptions?_eq_some
    {value : CString}
    {options : FtdiGpioOptions} :
    legacyOptions? value = some options ↔ LegacyAccepts value options := by
  have computes := ftdiGpioParseConfig_computes (δ := DeviceConfig) value
  constructor
  · intro isOptions parser
    obtain ⟨_, returns, rfl⟩ := computes.means options isOptions parser
    exact returns
  · intro accepts
    cases isOptions : legacyOptions? value with
    | none => exact absurd (accepts freshParser) (computes.stops isOptions _ _ _)
    | some found =>
        obtain ⟨_, returns, rfl⟩ := computes.means found isOptions freshParser
        have same := returns.symm.trans (accepts freshParser)
        cases same
        rfl

theorem isSome_legacyOptions?
    {value : CString}
    (string : 0 ∉ value) :
    (legacyOptions? value).isSome ↔ LegacyRead value := by
  rw [Option.isSome_iff_exists]
  constructor
  · rintro ⟨options, isOptions⟩
    exact reading_of_legacyAccepts string (legacyOptions?_eq_some.mp isOptions)
  · rintro (plain | ⟨reading, rfl, taken⟩)
    · exact ⟨_, legacyOptions?_eq_some.mpr (ftdiGpioParseConfig_description plain)⟩
    · obtain ⟨options, accepts⟩ := legacyAccepts_reading taken string
      exact ⟨options, legacyOptions?_eq_some.mpr accepts⟩

/-! ## GPIOs -/

theorem isSome_ftdiGpioLineOption
    (gpio : FtdiGpio)
    (options : FtdiGpioOptions)
    (key text : CString) :
    (ftdiGpioLineOption gpio options key text).isSome ↔
      key = ascii "line" ∨
        key = ascii "interface" ∧ (ftdiInterface? text).isSome ∨
          key = ascii "active_low" := by
  unfold ftdiGpioLineOption
  by_cases isLine : key = ascii "line"
  · simp [isLine]
  · rw [if_neg isLine]
    by_cases isInterface : key = ascii "interface"
    · have other : ascii "interface" ≠ ascii "active_low" := by decide
      simp [isInterface, other, show ascii "interface" ≠ ascii "line" by decide]
    · rw [if_neg isInterface]
      split_ifs <;> simp [*]

theorem isSome_localGpioLineOption
    (gpio : LocalGpio)
    (options : LocalGpioOptions)
    (key text : CString) :
    (localGpioLineOption gpio options key text).isSome ↔
      key = ascii "chip" ∨ key = ascii "line" ∨ key = ascii "active_low" := by
  unfold localGpioLineOption
  split_ifs <;> simp [*]

/-- The options of an FTDI GPIO. -/
theorem isSome_ftdiOptions
    (gpio : FtdiGpio)
    (options : FtdiGpioOptions)
    (members : List (List UInt8 × Datum)) :
    (readPairs tokenLength (textStep tokenLength (ftdiGpioLineOption gpio))
        options (memberPairs members)).isSome ↔
      ∀ member ∈ members, FtdiOptionRead member := by
  refine isSome_readMembers (fun member _ options => ?_) options
  rw [textStep, text_datumNode, FtdiOptionRead]
  cases datumText member.2 with
  | none => simp
  | some text =>
      simpa [tokenText] using
        isSome_ftdiGpioLineOption gpio options (tokenText member.1)
          (tokenText text)

/-- The options of a local GPIO. -/
theorem isSome_localOptions
    (gpio : LocalGpio)
    (options : LocalGpioOptions)
    (members : List (List UInt8 × Datum)) :
    (readPairs tokenLength (textStep tokenLength (localGpioLineOption gpio))
        options (memberPairs members)).isSome ↔
      ∀ member ∈ members, LocalOptionRead member := by
  refine isSome_readMembers (fun member _ options => ?_) options
  rw [textStep, text_datumNode, LocalOptionRead]
  cases datumText member.2 with
  | none => simp
  | some text =>
      simpa [tokenText] using
        isSome_localGpioLineOption gpio options (tokenText member.1)
          (tokenText text)

/-- A mapping in `ftdi_gpio` has to be a GPIO. -/
theorem isSome_ftdiGpioMember_object
    (options : FtdiGpioOptions)
    (name : List UInt8)
    (members : List (List UInt8 × Datum)) :
    (ftdiGpioMember options (tokenText name)
        (datumNode (.object members))).isSome ↔
      (ftdiGpioKey? (tokenText name)).isSome ∧
        ∀ option ∈ members, FtdiOptionRead option := by
  rw [ftdiGpioMember]
  cases ftdiGpioKey? (tokenText name) with
  | none => simp [textStep, datumNode, YamlNode.text]
  | some gpio =>
      rw [← isSome_ftdiOptions gpio options members]
      change ((readPairs _ _ _ (memberPairs members)).bind _).isSome ↔ _
      rw [isSome_bind_some]
      simp

/-- A mapping in `local_gpio` has to be a GPIO. -/
theorem isSome_localGpioSection_object
    (options : LocalGpioOptions)
    (name : List UInt8)
    (members : List (List UInt8 × Datum)) :
    (localGpioSection options (tokenText name)
        (datumNode (.object members))).isSome ↔
      (localGpioKey? (tokenText name)).isSome ∧
        ∀ option ∈ members, LocalOptionRead option := by
  rw [localGpioSection]
  cases localGpioKey? (tokenText name) with
  | none => simp
  | some gpio =>
      rw [← isSome_localOptions gpio options members]
      change ((readPairs _ _ _ (memberPairs members)).bind _).isSome ↔ _
      rw [isSome_bind_some]
      simp

/-- The options of the chip are known, and have scalars. -/
theorem isSome_ftdiGpioMember_property
    {property : List UInt8 × Schema}
    (isProperty : property ∈ ftdiProperties)
    {datum : Datum}
    (isScalar : datum.IsScalar)
    (options : FtdiGpioOptions) :
    (ftdiGpioMember options (tokenText property.1) (datumNode datum)).isSome := by
  obtain ⟨text, isText⟩ :=
    Option.isSome_iff_exists.mp (isSome_text isScalar tokenLength)
  have reads :
      ftdiGpioMember options (tokenText property.1) (datumNode datum) =
        ftdiGpioText options (tokenText property.1) text := by
    rw [ftdiGpioMember]
    have noGpio :
        ∀ property ∈ ftdiProperties,
          ftdiGpioKey? (tokenText property.1) = none := by
      simp only [ftdiProperties, List.forall_mem_cons]
      decide
    rw [noGpio property isProperty]
    change (YamlNode.text tokenLength (datumNode datum)).bind _ = _
    rw [isText, Option.bind_some]
  rw [reads]
  simp only [ftdiProperties, List.mem_cons, List.not_mem_nil, or_false]
    at isProperty
  rcases isProperty with rfl | rfl | rfl | rfl | rfl <;> rfl

/-! ## Sections -/

/-- The keys of a valid `ftdi_gpio` are options of the chip, or mappings. -/
theorem isSome_ftdiGpioMapping
    {members : List (List UInt8 × Datum)}
    (valid :
      ValidMembers ftdiProperties [(ftdiGpioNames, ftdiGpioSchema)] false []
        members) :
    (ftdiGpioMapping (datumNode (.object members))).isSome ↔
      GpiosRead ftdiGpioKey? FtdiOptionRead members := by
  have scalars : ∀ property ∈ ftdiProperties, property.2.scalarOnly = true := by
    simp only [ftdiProperties, List.forall_mem_cons]
    decide
  have each :
      ∀ member ∈ members, ∀ options,
        (ftdiGpioMember options (tokenText member.1)
            (datumNode member.2)).isSome ↔
          ∀ gpio,
            member.2 = .object gpio →
            (ftdiGpioKey? (tokenText member.1)).isSome ∧
              ∀ option ∈ gpio, FtdiOptionRead option := by
    rintro ⟨name, datum⟩ isMember options
    rcases valid.known rfl _ isMember with
      ⟨property, isProperty, rfl⟩ | ⟨pattern, isPattern, found⟩
    · have isScalar : datum.IsScalar :=
        isScalar_of_scalarOnly (scalars property isProperty)
          (valid.property _ isMember property isProperty rfl)
      refine iff_of_true
        (isSome_ftdiGpioMember_property isProperty isScalar options) ?_
      rintro gpio rfl
      exact isScalar.elim
    · rw [List.mem_singleton] at isPattern
      subst isPattern
      obtain ⟨gpio, rfl, _⟩ :=
        exists_of_accepts_object
          (valid.pattern _ isMember _ List.mem_cons_self found)
      simpa using isSome_ftdiGpioMember_object options name gpio
  rw [ftdiGpioMapping]
  change ((readPairs _ _ _ (memberPairs members)).bind some).isSome ↔ _
  rw [Option.bind_fun_some]
  exact isSome_readMembers each _

/-- A valid `ftdi_gpio` is a string in the legacy form, or a mapping. -/
theorem isSome_ftdiGpioNode
    {datum : Datum}
    (valid : ftdiSchema.accepts datum = true) :
    (ftdiGpioNode (datumNode datum)).isSome ↔ FtdiRead datum := by
  obtain ⟨schema, isSchema, valid⟩ := exists_of_accepts_oneOf valid
  simp only [List.mem_cons, List.not_mem_nil, or_false] at isSchema
  rcases isSchema with rfl | rfl
  · cases datum with
    | string text =>
        have legacy :
            ftdiGpioNode (datumNode (.string text)) =
              legacyOptions? (tokenText text) :=
          rfl
        have noNul : 0 ∉ tokenText text :=
          fun member => not_mem_cstr text (List.mem_of_mem_take member)
        rw [legacy, isSome_legacyOptions? noNul, FtdiRead]
        simp
    | _ => cases valid
  · obtain ⟨members, rfl, validMembers⟩ := exists_of_accepts_object valid
    have mapping :
        ftdiGpioNode (datumNode (.object members)) =
          ftdiGpioMapping (datumNode (.object members)) :=
      rfl
    rw [mapping, isSome_ftdiGpioMapping validMembers, FtdiRead]
    simp

/-- A valid `local_gpio` has mappings only. -/
theorem isSome_localGpioNode
    {datum : Datum}
    (valid : localSchema.accepts datum = true) :
    (localGpioNode (datumNode datum)).isSome ↔ LocalRead datum := by
  obtain ⟨members, rfl, validMembers⟩ := exists_of_accepts_object valid
  have each :
      ∀ member ∈ members, ∀ options,
        (localGpioSection options (tokenText member.1)
            (datumNode member.2)).isSome ↔
          ∀ gpio,
            member.2 = .object gpio →
            (localGpioKey? (tokenText member.1)).isSome ∧
              ∀ option ∈ gpio, LocalOptionRead option := by
    rintro ⟨name, datum⟩ isMember options
    rcases validMembers.known rfl _ isMember with
      ⟨property, isProperty, _⟩ | ⟨pattern, isPattern, found⟩
    · cases isProperty
    · rw [List.mem_singleton] at isPattern
      subst isPattern
      obtain ⟨gpio, rfl, _⟩ :=
        exists_of_accepts_object
          (validMembers.pattern _ isMember _ List.mem_cons_self found)
      simpa using isSome_localGpioSection_object options name gpio
  rw [localGpioNode]
  change ((readPairs _ _ _ (memberPairs members)).bind some).isSome ↔ _
  rw [Option.bind_fun_some]
  simpa [LocalRead, GpiosRead] using isSome_readMembers each _

/-- A server that is set stays set, and its key sets it. -/
theorem laurentOption_server
    {options next : LaurentOptions}
    {key value : CString}
    (takes : laurentOption options key value = some next)
    (server : options.server.isSome ∨ key = ascii "server") :
    next.server.isSome := by
  unfold laurentOption at takes
  split_ifs at takes with isServer <;> cases takes
  · rfl
  all_goals exact server.resolve_right isServer

theorem readMembers_server
    {members : List (List UInt8 × Datum)}
    {options result : LaurentOptions}
    (reads :
      readPairs laurentTokenLength (textStep laurentTokenLength laurentOption)
          options (memberPairs members) =
        some result)
    (server :
      options.server.isSome ∨ ascii "server" ∈ members.map Prod.fst) :
    result.server.isSome := by
  induction members generalizing options with
  | nil =>
      cases reads
      exact server.resolve_right List.not_mem_nil
  | cons member members inductionHypothesis =>
      obtain ⟨name, datum⟩ := member
      obtain ⟨next, isNext, later⟩ := Option.bind_eq_some_iff.mp reads
      obtain ⟨text, _, takes⟩ := Option.bind_eq_some_iff.mp isNext
      refine inductionHypothesis later ?_
      rw [List.map_cons, List.mem_cons] at server
      rcases server with isSome | rfl | isLater
      · exact .inl (laurentOption_server takes (.inl isSome))
      · exact .inl (laurentOption_server takes (.inr rfl))
      · exact .inr isLater

/-- A valid `laurent` is always taken. -/
theorem isSome_laurentNode
    {datum : Datum}
    (valid : laurentSchema.accepts datum = true) :
    (laurentNode (datumNode datum)).isSome := by
  obtain ⟨members, rfl, validMembers⟩ := exists_of_accepts_object valid
  have each :
      ∀ member ∈ members, ∀ options,
        (textStep laurentTokenLength laurentOption options
            ((cstr member.1).take (laurentTokenLength - 1))
            (datumNode member.2)).isSome ↔
          True := by
    rintro ⟨name, datum⟩ isMember options
    rcases validMembers.known rfl _ isMember with
      ⟨property, isProperty, rfl⟩ | ⟨pattern, isPattern, _⟩
    · have accepts := validMembers.property _ isMember property isProperty rfl
      simp only [laurentProperties, List.mem_cons, List.not_mem_nil, or_false]
        at isProperty
      have isScalar : datum.IsScalar := by
        rcases isProperty with rfl | rfl | rfl | rfl <;>
          exact isScalar_of_scalarOnly rfl accepts
      obtain ⟨text, isText⟩ :=
        Option.isSome_iff_exists.mp (isSome_text isScalar laurentTokenLength)
      refine iff_of_true ?_ trivial
      rw [textStep, isText, Option.bind_some]
      rcases isProperty with rfl | rfl | rfl | rfl <;> rfl
    · cases isPattern
  obtain ⟨options, reads⟩ :=
    Option.isSome_iff_exists.mp
      ((isSome_readMembers each ⟨none, ascii "Laurent", 0, -1⟩).mpr
        fun _ _ => trivial)
  have server : options.server ≠ none :=
    Option.isSome_iff_ne_none.mp
      (readMembers_server reads
        (.inr (validMembers.required _ List.mem_cons_self)))
  rw [laurentNode]
  change ((readPairs _ _ _ (memberPairs members)).bind _).isSome
  rw [reads, Option.bind_some, if_neg server]
  rfl

/-- Valid `users` are a list of names. -/
theorem isSome_usersNode
    {datum : Datum}
    (valid : usersSchema.accepts datum = true) :
    (usersNode (datumNode datum)).isSome := by
  obtain ⟨names, rfl, strings⟩ := exists_of_accepts_array valid
  change ((datumNodes names).mapM (YamlNode.text tokenLength)).isSome
  rw [datumNodes_eq, isSome_mapM, List.forall_mem_map]
  intro name member
  exact isSome_text (isScalar_of_type rfl (strings name member)) _

end Cdba
