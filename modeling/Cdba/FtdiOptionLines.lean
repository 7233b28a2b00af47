import Mathlib.Tactic.ByContra
import Cdba.FtdiGpio
import Cdba.FtdiLegacy

namespace Cdba

/-!
# The lines of the FTDI options

A line of an FTDI interface is a bit of one byte.  The legacy form of the
options checks that a GPIO names such a line, the mapping form stores what its
`line` option says.
-/

open Program
open DeviceParser

/-! ## Lines that can be driven -/

/-- Switching a GPIO on and off writes bytes that differ in its bit only. -/
def TogglesOnly (ftdi : FtdiGpioState) (gpio : FtdiGpio) : Prop :=
  ∃ on off : UInt8,
    (ftdiGpioToggleIo ftdi gpio true).written =
        ftdi.written ++ [((ftdi.options.gpios gpio).interface, on)] ∧
      (ftdiGpioToggleIo ftdi gpio false).written =
        ftdi.written ++ [((ftdi.options.gpios gpio).interface, off)] ∧
      ∀ line, line < 8 →
        (on.line line ≠ off.line line ↔
          line = (ftdi.options.gpios gpio).offset.toNat)

/-- Every GPIO of a table is on a line of an interface and toggles it. -/
structure Drivable (options : FtdiGpioOptions) : Prop where
  interface :
    ∀ gpio,
      (options.gpios gpio).present = true →
      (options.gpios gpio).interface ≤ 3
  offset :
    ∀ gpio,
      (options.gpios gpio).present = true →
      (options.gpios gpio).offset ≤ 7
  toggles :
    ∀ gpio,
      (options.gpios gpio).present = true →
      ∀ ftdi : FtdiGpioState,
        ftdi.options = options → TogglesOnly ftdi gpio

/-- A GPIO on one of the eight lines of an interface toggles it. -/
theorem togglesOnly_of_offset
    {ftdi : FtdiGpioState}
    {gpio : FtdiGpio}
    (present : (ftdi.options.gpios gpio).present = true)
    (inside : (ftdi.options.gpios gpio).offset ≤ 7) :
    TogglesOnly ftdi gpio := by
  have within : (ftdi.options.gpios gpio).offset.toNat < 8 :=
    Nat.lt_succ_of_le (UInt32.le_iff_toNat_le.mp inside)
  have writes :
      ∀ on,
        (ftdiGpioToggleIo ftdi gpio on).written =
          ftdi.written ++
            [((ftdi.options.gpios gpio).interface,
              (ftdi.gpioLines (ftdi.options.gpios gpio).interface).drive
                (ftdi.options.gpios gpio).offset.toNat
                (if (ftdi.options.gpios gpio).activeLow then !on else on))] := by
    intro on
    simp only [ftdiGpioToggleIo, present, Bool.not_true, Bool.false_eq_true,
      if_false]
  refine ⟨_, _, writes true, writes false, ?_⟩
  intro line lineInside
  rw [UInt8.line_drive within lineInside, UInt8.line_drive within lineInside]
  by_cases same : line = (ftdi.options.gpios gpio).offset.toNat
  · rw [if_pos same, if_pos same]
    refine iff_of_true ?_ same
    cases (ftdi.options.gpios gpio).activeLow <;> simp
  · rw [if_neg same, if_neg same]
    exact iff_of_false (fun differs => differs rfl) same

/-- Interfaces and lines within their bounds suffice. -/
theorem drivable_of_bounds
    {options : FtdiGpioOptions}
    (interface :
      ∀ gpio,
        (options.gpios gpio).present = true →
        (options.gpios gpio).interface ≤ 3)
    (offset :
      ∀ gpio,
        (options.gpios gpio).present = true →
        (options.gpios gpio).offset ≤ 7) :
    Drivable options where
  interface := interface
  offset := offset
  toggles := by
    rintro gpio present ftdi rfl
    exact togglesOnly_of_offset present (offset gpio present)

/-! ## The legacy form -/

theorem ftdiInterface?_le
    {value : CString}
    {interface : Nat}
    (isLetter : ftdiInterface? value = some interface) :
    interface ≤ 3 := by
  rw [ftdiInterface?] at isLetter
  split at isLetter
  · split at isLetter
    · rename_i letter _ range
      cases isLetter
      have upper := UInt8.le_iff_toNat_le.mp range.2
      change letter.toNat ≤ 0x44 at upper
      omega
    · cases isLetter
  · cases isLetter

/-- Every GPIO of the table is on an interface and one of its lines. -/
def InBounds (options : FtdiGpioOptions) : Prop :=
  ∀ gpio,
    (options.gpios gpio).interface ≤ 3 ∧ (options.gpios gpio).offset ≤ 7

theorem InBounds.zero : InBounds .zero :=
  fun _ => ⟨Nat.zero_le _, UInt32.le_iff_toNat_le.mpr (Nat.zero_le _)⟩

theorem InBounds.setGpio
    {options : FtdiGpioOptions}
    (inBounds : InBounds options)
    (gpio : FtdiGpio)
    {line : FtdiGpioLine}
    (interface : line.interface ≤ 3)
    (offset : line.offset ≤ 7) :
    InBounds (options.setGpio gpio fun _ => line) := by
  intro query
  simp only [FtdiGpioOptions.setGpio]
  split
  · exact ⟨interface, offset⟩
  · exact inBounds query

theorem legacyGpio?_inBounds
    {interface : Nat}
    (inside : interface ≤ 3)
    {options later : FtdiGpioOptions}
    (inBounds : InBounds options)
    {name : CString}
    {next : Option CString}
    (passes : legacyGpio? interface options name = some (later, next)) :
    InBounds later := by
  simp only [legacyGpio?, bind, Option.bind_eq_some_iff] at passes
  obtain ⟨off, _, polarity, _, gpio, _, passes⟩ := passes
  split at passes
  · cases passes
  · rename_i fits
    obtain ⟨activeLow, _, passes⟩ := Option.bind_eq_some_iff.mp passes
    cases passes
    exact inBounds.setGpio gpio inside (UInt32.not_lt.mp fits)

theorem legacyGpios_inBounds
    {interface : Nat}
    (inside : interface ≤ 3)
    {fuel : Nat}
    {options later : FtdiGpioOptions}
    (inBounds : InBounds options)
    {next : Option CString}
    {parser final : DeviceParser δ}
    (returns :
      legacyGpios interface fuel options next parser = .ok later final) :
    InBounds later := by
  induction fuel generalizing options next with
  | zero =>
      cases next with
      | none =>
          rw [legacyGpios] at returns
          cases returns
          exact inBounds
      | some name =>
          rw [legacyGpios] at returns
          cases returns
  | succ fuel inductionHypothesis =>
      cases next with
      | none =>
          rw [legacyGpios] at returns
          cases returns
          exact inBounds
      | some name =>
          rw [legacyGpios] at returns
          cases passes : legacyGpio? interface options name with
          | none =>
              rw [passes] at returns
              cases returns
          | some passed =>
              obtain ⟨passed, rest⟩ := passed
              rw [passes] at returns
              exact inductionHypothesis
                (legacyGpio?_inBounds inside inBounds passes) returns

/-- The legacy form names lines of interfaces only. -/
theorem ftdiGpioParseConfig_inBounds
    {value : CString}
    {parser final : DeviceParser δ}
    {options : FtdiGpioOptions}
    (returns :
      ftdiGpioParseConfig .zero value parser = .ok options final) :
    InBounds options := by
  have started :
      InBounds
        { FtdiGpioOptions.zero with
          description := some (value.takeWhile (· ≠ semicolon)) } :=
    InBounds.zero
  rw [ftdiGpioParseConfig] at returns
  cases isConfig : behind? semicolon value with
  | none =>
      rw [isConfig] at returns
      cases returns
      exact started
  | some config =>
      rw [isConfig] at returns
      dsimp only at returns
      cases isLetter : ftdiInterface? config with
      | none =>
          rw [isLetter] at returns
          cases returns
      | some interface =>
          rw [isLetter] at returns
          exact legacyGpios_inBounds (ftdiInterface?_le isLetter) started
            returns

/-! ## The mapping form -/

/-- A scalar as the buffers of `ftdi_gpio_parse_options` hold it. -/
def tokenText (value : List UInt8) : CString :=
  (cstr value).take (tokenLength - 1)

/-- Events that a loop over scalars does not go on with. -/
def EndsScalars (events : List YamlEvent) : Prop :=
  ∀ value, events.head? ≠ some (.scalar value)

/--
The options of one GPIO in a stream of events, from what `value` holds before
them to what it holds behind them, and the events that are left.  A key without
a value is given what `value` holds.
-/
inductive OptionsIn :
    CString → List YamlEvent →
      List (CString × CString) → CString → List YamlEvent → Prop where
  | done
      (value : CString)
      (rest : List YamlEvent)
      (ends : EndsScalars rest) :
      OptionsIn value rest [] value rest
  | bare
      (value : CString)
      (key : List UInt8)
      (rest : List YamlEvent)
      (ends : EndsScalars rest) :
      OptionsIn value (.scalar key :: rest) [(tokenText key, value)] value rest
  | pair
      (value : CString)
      (key text : List UInt8)
      (events : List YamlEvent)
      (options : List (CString × CString))
      (last : CString)
      (rest : List YamlEvent)
      (later : OptionsIn (tokenText text) events options last rest) :
      OptionsIn value (.scalar key :: .scalar text :: events)
        ((tokenText key, tokenText text) :: options) last rest

/-- The GPIOs of a mapping and their options, in the order of the stream. -/
inductive SectionsIn :
    CString → List YamlEvent →
      List (FtdiGpio × List (CString × CString)) → Prop where
  | done
      (value : CString)
      (rest : List YamlEvent) :
      SectionsIn value (.mappingEnd :: rest) []
  | gpio
      (value : CString)
      (key : List UInt8)
      (gpio : FtdiGpio)
      (events : List YamlEvent)
      (options : List (CString × CString))
      (last : CString)
      (rest : List YamlEvent)
      (sections : List (FtdiGpio × List (CString × CString)))
      (named : ftdiGpioKey? (tokenText key) = some gpio)
      (read_ : OptionsIn value events options last (.mappingEnd :: rest))
      (later : SectionsIn last rest sections) :
      SectionsIn value (.scalar key :: .mappingStart :: events)
        ((gpio, options) :: sections)
  | other
      (value : CString)
      (key text : List UInt8)
      (rest : List YamlEvent)
      (sections : List (FtdiGpio × List (CString × CString)))
      (named : ftdiGpioKey? (tokenText key) = none)
      (later : SectionsIn (tokenText text) rest sections) :
      SectionsIn value (.scalar key :: .scalar text :: rest) sections

/-- The events a parser is going to read. -/
def DeviceParser.events (parser : DeviceParser δ) : List YamlEvent :=
  parser.event :: parser.upcoming

/-- The events of the mapping form, whose mapping may be opened already. -/
def mappingEvents : List YamlEvent → List YamlEvent
  | .mappingStart :: events => events
  | events => events

/-- The value of the last `line` option of a GPIO. -/
def lastLine
    (sections : List (FtdiGpio × List (CString × CString)))
    (gpio : FtdiGpio) :
    Option CString :=
  (((sections.filter (·.1 = gpio)).flatMap (·.2)).filter
    (·.1 = ascii "line")).getLast?.map (·.2)

/--
A stream in the mapping form in which the last `line` option of each GPIO is a
number of at most 7; a stream in the legacy form.
-/
def LinesFit (parser : DeviceParser δ) : Prop :=
  ∀ sections,
    EndsScalars parser.events →
    SectionsIn parser.uninitialised (mappingEvents parser.events) sections →
    ∀ gpio text,
      lastLine sections gpio = some text →
      unsignedOf 0 text ≤ 7

/-! ## What the parser takes -/

/-- The parser passes an event that is not selected, or it takes the event. -/
theorem deviceParserAccept_ok
    {β : Type}
    {select : YamlEvent → Option β}
    (goesOn : select .streamEnd = none)
    {parser final : DeviceParser δ}
    {accepted : Option β}
    (returns : deviceParserAccept select parser = .ok accepted final) :
    (accepted = none ∧ select parser.event = none ∧ final = parser) ∨
      ∃ value,
        accepted = some value ∧ select parser.event = some value ∧
          parser.upcoming = final.events := by
  rw [deviceParserAccept, bind_of_ok (read_apply _ parser)] at returns
  cases selected : select parser.event with
  | none =>
      rw [selected] at returns
      cases returns
      exact .inl ⟨rfl, rfl, rfl⟩
  | some value =>
      rw [selected] at returns
      obtain ⟨_, middle, took, returns⟩ := bind_eq_ok returns
      cases returns
      refine .inr ⟨value, rfl, rfl, ?_⟩
      obtain ⟨event, upcoming, uninitialised, devices⟩ := parser
      cases upcoming with
      | nil =>
          have notEnd : event ≠ .streamEnd := by
            rintro rfl
            rw [goesOn] at selected
            cases selected
          simp [nextsym, bind_apply, notEnd] at took
      | cons next rest =>
          cases took
          rfl

theorem scalar_eq_none
    {size : Nat}
    {event : YamlEvent}
    (notSelected : scalar size event = none) :
    ∀ value, event ≠ .scalar value := by
  rintro value rfl
  cases notSelected

theorem scalar_eq_some
    {event : YamlEvent}
    {text : CString}
    (selected : scalar tokenLength event = some text) :
    ∃ value, event = .scalar value ∧ text = tokenText value := by
  cases event <;> cases selected
  exact ⟨_, rfl, rfl⟩

/-- Taking a scalar, or passing what is not one. -/
theorem acceptScalar_ok
    {parser final : DeviceParser δ}
    {accepted : Option CString}
    (returns :
      deviceParserAccept (scalar tokenLength) parser = .ok accepted final) :
    (accepted = none ∧ EndsScalars parser.events ∧ final = parser) ∨
      ∃ value,
        accepted = some (tokenText value) ∧
          parser.events = .scalar value :: final.events := by
  rcases deviceParserAccept_ok rfl returns with
    ⟨isNone, notSelected, same⟩ | ⟨text, isSome, selected, rest⟩
  · refine .inl ⟨isNone, ?_, same⟩
    intro value isHead
    exact scalar_eq_none notSelected value (Option.some.inj isHead)
  · obtain ⟨value, isScalar, rfl⟩ := scalar_eq_some selected
    exact .inr ⟨value, isSome, by rw [DeviceParser.events, isScalar, rest]⟩

/-- A loop over scalars ends at another event, or takes its next round. -/
theorem scalarLoop_ok
    {α : Type}
    {body : α → CString → ParserM δ α}
    {fuel : Nat}
    {value last : α}
    {parser final : DeviceParser δ}
    (returns :
      whileAcceptedLoop (scalar tokenLength) body (fuel + 1) value parser =
        .ok last final) :
    (EndsScalars parser.events ∧ last = value ∧ final = parser) ∨
      ∃ key next middle behind,
        parser.events = .scalar key :: middle.events ∧
          body value (tokenText key) middle = .ok next behind ∧
          whileAcceptedLoop (scalar tokenLength) body fuel next behind =
            .ok last final := by
  obtain ⟨accepted, middle, accepts, goesOn⟩ := bind_eq_ok returns
  rcases acceptScalar_ok accepts with
    ⟨isNone, ends, same⟩ | ⟨key, isSome, events⟩
  · rw [isNone] at goesOn
    cases goesOn
    exact .inl ⟨ends, rfl, same⟩
  · rw [isSome] at goesOn
    obtain ⟨next, behind, one, later⟩ := bind_eq_ok goesOn
    exact .inr ⟨key, next, middle, behind, events, one, later⟩

/-- Insisting on an event without a value. -/
theorem expectType_ok
    {type : YamlEvent}
    (goesOn : type ≠ .streamEnd)
    {parser final : DeviceParser δ}
    {nothing : Unit}
    (returns :
      deviceParserExpect (ofType type) parser = .ok nothing final) :
    parser.events = type :: final.events := by
  obtain ⟨accepted, middle, accepts, returns⟩ := bind_eq_ok returns
  rcases deviceParserAccept_ok (by simp [ofType, goesOn.symm]) accepts with
    ⟨isNone, _, _⟩ | ⟨value, isSome, selected, rest⟩
  · rw [isNone] at returns
    cases returns
  · rw [isSome] at returns
    cases returns
    have isType : parser.event = type := by
      by_contra other
      simp [ofType, other] at selected
    rw [DeviceParser.events, isType, rest]

/-! ## What the options fill in -/

/-- The value of the last `line` option among some options. -/
def lastLineOption (options : List (CString × CString)) : Option CString :=
  (options.filter (·.1 = ascii "line")).getLast?.map (·.2)

theorem lastLineOption_append
    (options later : List (CString × CString)) :
    lastLineOption (options ++ later) =
      (lastLineOption later).or (lastLineOption options) := by
  rw [lastLineOption, lastLineOption, lastLineOption, List.filter_append,
    List.getLast?_append]
  cases (later.filter (·.1 = ascii "line")).getLast? <;> rfl

/-- What some options of GPIOs change in the table. -/
structure Fills
    (named : FtdiGpio → List (CString × CString))
    (before after : FtdiGpioOptions) : Prop where
  interface :
    ∀ query,
      (before.gpios query).interface ≤ 3 → (after.gpios query).interface ≤ 3
  offset :
    ∀ query,
      (after.gpios query).offset =
        (lastLineOption (named query)).elim (before.gpios query).offset
          (unsignedOf 0)

theorem Fills.nothing
    (options : FtdiGpioOptions) :
    Fills (fun _ => []) options options where
  interface := fun _ => id
  offset := fun _ => rfl

theorem Fills.append
    {named later : FtdiGpio → List (CString × CString)}
    {before middle after : FtdiGpioOptions}
    (first : Fills named before middle)
    (second : Fills later middle after) :
    Fills (fun query => named query ++ later query) before after where
  interface := fun query inside =>
    second.interface query (first.interface query inside)
  offset := by
    intro query
    rw [second.offset, lastLineOption_append, first.offset]
    cases lastLineOption (later query) <;> rfl

/-- Options of one GPIO. -/
def optionsOf
    (gpio : FtdiGpio)
    (options : List (CString × CString))
    (query : FtdiGpio) :
    List (CString × CString) :=
  if query = gpio then options else []

theorem lastLineOption_one
    (key value : CString) :
    lastLineOption [(key, value)] =
      if key = ascii "line" then some value else none := by
  rw [lastLineOption]
  by_cases isLine : key = ascii "line"
  · rw [if_pos isLine, List.filter_cons_of_pos (by simp [isLine])]
    rfl
  · rw [if_neg isLine, List.filter_cons_of_neg (by simp [isLine])]
    rfl

/-- A change of one GPIO that an option makes. -/
theorem fills_setGpio
    {gpio : FtdiGpio}
    {key value : CString}
    {change : FtdiGpioLine → FtdiGpioLine}
    (interface :
      ∀ line, line.interface ≤ 3 → (change line).interface ≤ 3)
    (offset :
      ∀ line,
        (change line).offset =
          if key = ascii "line" then unsignedOf 0 value else line.offset)
    (options : FtdiGpioOptions) :
    Fills (optionsOf gpio [(key, value)]) options
      (options.setGpio gpio change) where
  interface := by
    intro query inside
    simp only [FtdiGpioOptions.setGpio]
    split
    · exact interface _ inside
    · exact inside
  offset := by
    intro query
    simp only [FtdiGpioOptions.setGpio, optionsOf]
    by_cases same : query = gpio
    · rw [if_pos same, if_pos same, offset, lastLineOption_one]
      split <;> rfl
    · rw [if_neg same, if_neg same]
      rfl

theorem fills_same
    {key : CString}
    (notLine : key ≠ ascii "line")
    (gpio : FtdiGpio)
    (value : CString)
    (options : FtdiGpioOptions) :
    Fills (optionsOf gpio [(key, value)]) options options where
  interface := fun _ => id
  offset := by
    intro query
    simp only [optionsOf]
    split
    · rw [lastLineOption_one, if_neg notLine]
      rfl
    · rfl

/-- A change of one GPIO that leaves its flag alone. -/
theorem setGpio_present
    {change : FtdiGpioLine → FtdiGpioLine}
    (kept : ∀ line, (change line).present = line.present)
    (options : FtdiGpioOptions)
    (gpio query : FtdiGpio) :
    ((options.setGpio gpio change).gpios query).present =
      (options.gpios query).present := by
  simp only [FtdiGpioOptions.setGpio]
  split
  · exact kept _
  · rfl

/-- One option, whose value is the scalar behind its key or what was read. -/
theorem ftdiGpioOption_ok
    {gpio : FtdiGpio}
    {read_ next : FtdiGpioOptions × CString}
    {key : CString}
    {parser final : DeviceParser δ}
    (returns : ftdiGpioOption gpio read_ key parser = .ok next final) :
    Fills (optionsOf gpio [(key, next.2)]) read_.1 next.1 ∧
      (∀ query,
        (next.1.gpios query).present = (read_.1.gpios query).present) ∧
      ((EndsScalars parser.events ∧ next.2 = read_.2 ∧ final = parser) ∨
        ∃ value,
          next.2 = tokenText value ∧
            parser.events = .scalar value :: final.events) := by
  obtain ⟨accepted, middle, accepts, returns⟩ := bind_eq_ok returns
  have filled :
      Fills (optionsOf gpio [(key, next.2)]) read_.1 next.1 ∧
        (∀ query,
          (next.1.gpios query).present = (read_.1.gpios query).present) ∧
        next.2 = accepted.getD read_.2 ∧ final = middle := by
    dsimp only at returns
    split at returns
    · rename_i isLine
      cases returns
      refine ⟨?_, ?_, rfl, rfl⟩ <;> dsimp only
      · apply fills_setGpio
        · exact fun _ => id
        · exact fun _ => (if_pos isLine).symm
      · apply setGpio_present
        exact fun _ => rfl
    · rename_i notLine
      split at returns
      · cases isLetter : ftdiInterface? (accepted.getD read_.2) with
        | none =>
            rw [isLetter] at returns
            cases returns
        | some interface =>
            rw [isLetter] at returns
            cases returns
            refine ⟨?_, ?_, rfl, rfl⟩ <;> dsimp only
            · apply fills_setGpio
              · exact fun _ _ => ftdiInterface?_le isLetter
              · exact fun _ => (if_neg notLine).symm
            · apply setGpio_present
              exact fun _ => rfl
      · split at returns
        · split at returns
          · cases returns
            refine ⟨?_, ?_, rfl, rfl⟩ <;> dsimp only
            · apply fills_setGpio
              · exact fun _ => id
              · exact fun _ => (if_neg notLine).symm
            · apply setGpio_present
              exact fun _ => rfl
          · cases returns
            exact ⟨fills_same notLine gpio _ _, fun _ => rfl, rfl, rfl⟩
        · cases returns
  obtain ⟨fills, present, isValue, rfl⟩ := filled
  refine ⟨fills, present, ?_⟩
  rcases acceptScalar_ok accepts with
    ⟨isNone, ends, same⟩ | ⟨value, isSome, events⟩
  · rw [isNone] at isValue
    exact .inl ⟨ends, isValue, same⟩
  · rw [isSome] at isValue
    exact .inr ⟨value, isValue, events⟩

/-- There are no options where no scalar is. -/
theorem OptionsIn.of_ends
    {value last : CString}
    {events rest : List YamlEvent}
    {options : List (CString × CString)}
    (isRead : OptionsIn value events options last rest)
    (ends : EndsScalars events) :
    options = [] ∧ last = value ∧ rest = events := by
  cases isRead with
  | done _ _ _ => exact ⟨rfl, rfl, rfl⟩
  | bare _ key _ _ => exact absurd rfl (ends key)
  | pair _ key _ _ _ _ _ _ => exact absurd rfl (ends key)

/-- The options of one GPIO. -/
theorem ftdiGpioOptions_ok
    {gpio : FtdiGpio}
    {fuel : Nat}
    {read_ last : FtdiGpioOptions × CString}
    {parser final : DeviceParser δ}
    (returns :
      whileAcceptedLoop (scalar tokenLength) (ftdiGpioOption gpio) fuel read_
        parser = .ok last final) :
    ∃ options,
      OptionsIn read_.2 parser.events options last.2 final.events ∧
        Fills (optionsOf gpio options) read_.1 last.1 ∧
        ∀ query,
          (last.1.gpios query).present = (read_.1.gpios query).present := by
  induction fuel generalizing read_ parser with
  | zero => cases returns
  | succ fuel inductionHypothesis =>
      rcases scalarLoop_ok returns with
        ⟨ends, rfl, rfl⟩ | ⟨key, next, middle, behind, events, one, later⟩
      · refine ⟨[], .done _ _ ends, ?_, fun _ => rfl⟩
        have nothing : optionsOf gpio [] = fun _ => [] := by
          funext query
          exact ite_self []
        rw [nothing]
        exact .nothing _
      · obtain ⟨fills, present, value⟩ := ftdiGpioOption_ok one
        obtain ⟨options, isRead, fillsLater, presentLater⟩ :=
          inductionHypothesis later
        have both :
            optionsOf gpio ((tokenText key, next.2) :: options) =
              fun query =>
                optionsOf gpio [(tokenText key, next.2)] query ++
                  optionsOf gpio options query := by
          funext query
          simp only [optionsOf]
          split <;> rfl
        refine ⟨(tokenText key, next.2) :: options, ?_, ?_, ?_⟩
        · rcases value with ⟨ends, isValue, rfl⟩ | ⟨text, isText, shape⟩
          · -- Without a value the loop ends with what `value` held.
            obtain ⟨rfl, isLast, isRest⟩ := isRead.of_ends ends
            rw [events, isLast, isRest, isValue]
            exact .bare _ _ _ ends
          · rw [events, shape, isText]
            rw [isText] at isRead
            exact .pair _ _ _ _ _ _ _ isRead
        · rw [both]
          exact fills.append fillsLater
        · exact fun query => (presentLater query).trans (present query)

/-- The options of one GPIO in all sections. -/
def namedIn
    (sections : List (FtdiGpio × List (CString × CString)))
    (query : FtdiGpio) :
    List (CString × CString) :=
  (sections.filter (·.1 = query)).flatMap (·.2)

theorem namedIn_cons
    (gpio : FtdiGpio)
    (options : List (CString × CString))
    (sections : List (FtdiGpio × List (CString × CString)))
    (query : FtdiGpio) :
    namedIn ((gpio, options) :: sections) query =
      optionsOf gpio options query ++ namedIn sections query := by
  rw [namedIn, namedIn, optionsOf]
  by_cases same : query = gpio
  · rw [List.filter_cons_of_pos (by simp [same]), if_pos same,
      List.flatMap_cons]
  · rw [List.filter_cons_of_neg (by simpa using Ne.symm same), if_neg same,
      List.nil_append]

/-- One GPIO of the mapping. -/
theorem ftdiGpioKey_gpio
    {gpio : FtdiGpio}
    {key : CString}
    (named : ftdiGpioKey? key = some gpio)
    {read_ next : FtdiGpioOptions × CString}
    {parser final : DeviceParser δ}
    (returns : ftdiGpioKey read_ key parser = .ok next final) :
    ∃ events options,
      parser.events = .mappingStart :: events ∧
        OptionsIn read_.2 events options next.2
          (.mappingEnd :: final.events) ∧
        Fills (optionsOf gpio options) read_.1 next.1 ∧
        ∀ query,
          (next.1.gpios query).present =
            ((read_.1.gpios query).present || decide (query = gpio)) := by
  rw [ftdiGpioKey, named] at returns
  obtain ⟨_, opened, opens, goesOn⟩ := bind_eq_ok returns
  obtain ⟨filled, behind, loops, goesOn⟩ := bind_eq_ok goesOn
  obtain ⟨_, closed, closes, goesOn⟩ := bind_eq_ok goesOn
  cases goesOn
  obtain ⟨fuel, _, isFuel, loops⟩ := bind_eq_ok loops
  cases isFuel
  obtain ⟨options, isRead, fills, present⟩ := ftdiGpioOptions_ok loops
  have opening : parser.events = .mappingStart :: opened.events :=
    expectType_ok (by decide) opens
  have closing : behind.events = .mappingEnd :: final.events :=
    expectType_ok (by decide) closes
  rw [closing] at isRead
  refine ⟨opened.events, options, opening, isRead, ?_, ?_⟩
  · refine ⟨?_, ?_⟩
    · intro query inside
      have bound := fills.interface query inside
      simp only [FtdiGpioOptions.setGpio]
      split <;> exact bound
    · intro query
      rw [← fills.offset query]
      simp only [FtdiGpioOptions.setGpio]
      split <;> rfl
  · intro query
    rw [← present query]
    simp only [FtdiGpioOptions.setGpio]
    by_cases same : query = gpio
    · simp [same]
    · simp [same]

/-- One other option of the mapping. -/
theorem ftdiGpioKey_other
    {key : CString}
    (named : ftdiGpioKey? key = none)
    {read_ next : FtdiGpioOptions × CString}
    {parser final : DeviceParser δ}
    (returns : ftdiGpioKey read_ key parser = .ok next final) :
    ∃ text,
      parser.events = .scalar text :: final.events ∧
        next.2 = tokenText text ∧ next.1.gpios = read_.1.gpios := by
  rw [ftdiGpioKey, named] at returns
  obtain ⟨value, middle, expects, goesOn⟩ := bind_eq_ok returns
  obtain ⟨accepted, between, accepts, expects⟩ := bind_eq_ok expects
  have kept :
      final = middle ∧ next.2 = value ∧ next.1.gpios = read_.1.gpios := by
    dsimp only at goesOn
    repeat' split at goesOn
    all_goals cases goesOn
    all_goals exact ⟨rfl, rfl, rfl⟩
  obtain ⟨rfl, isValue, gpios⟩ := kept
  rcases acceptScalar_ok accepts with
    ⟨isNone, _, _⟩ | ⟨text, isSome, events⟩
  · rw [isNone] at expects
    cases expects
  · rw [isSome] at expects
    cases expects
    exact ⟨text, events, isValue, gpios⟩

/-- The mapping up to its end. -/
theorem ftdiGpioKeys_ok
    {fuel : Nat}
    {read_ last : FtdiGpioOptions × CString}
    {parser final : DeviceParser δ}
    {rest : List YamlEvent}
    (ends : final.events = .mappingEnd :: rest)
    (returns :
      whileAcceptedLoop (scalar tokenLength) ftdiGpioKey fuel read_ parser =
        .ok last final) :
    ∃ sections,
      SectionsIn read_.2 parser.events sections ∧
        Fills (namedIn sections) read_.1 last.1 ∧
        ∀ query,
          (last.1.gpios query).present =
            ((read_.1.gpios query).present ||
              decide (query ∈ sections.map (·.1))) := by
  induction fuel generalizing read_ parser with
  | zero => cases returns
  | succ fuel inductionHypothesis =>
      rcases scalarLoop_ok returns with
        ⟨_, rfl, rfl⟩ | ⟨key, next, middle, behind, events, one, later⟩
      · refine ⟨[], ?_, .nothing _, ?_⟩
        · rw [ends]
          exact .done _ _
        · intro query
          exact (Bool.or_false _).symm
      · obtain ⟨sections, isRead, fillsLater, presentLater⟩ :=
          inductionHypothesis later
        cases named : ftdiGpioKey? (tokenText key) with
        | none =>
            obtain ⟨text, shape, isText, gpios⟩ :=
              ftdiGpioKey_other named one
            rw [isText] at isRead
            refine ⟨sections, ?_, ?_, ?_⟩
            · rw [events, shape]
              exact .other _ _ _ _ _ named isRead
            · exact
                ⟨fun query inside =>
                  fillsLater.interface query (gpios ▸ inside),
                  fun query => gpios ▸ fillsLater.offset query⟩
            · exact fun query => gpios ▸ presentLater query
        | some gpio =>
            obtain ⟨inside, options, shape, isOptions, fills, present⟩ :=
              ftdiGpioKey_gpio named one
            refine ⟨(gpio, options) :: sections, ?_, ?_, ?_⟩
            · rw [events, shape]
              exact .gpio _ _ _ _ _ _ _ _ named isOptions isRead
            · have both :
                  namedIn ((gpio, options) :: sections) =
                    fun query =>
                      optionsOf gpio options query ++
                        namedIn sections query := by
                funext query
                exact namedIn_cons gpio options sections query
              rw [both]
              exact fills.append fillsLater
            · intro query
              rw [presentLater, present, Bool.or_assoc, ← Bool.decide_or,
                List.map_cons]
              simp only [List.mem_cons]

/-! ## Every accepted stream -/

/-- What is accepted: the legacy form, or the sections of a mapping. -/
theorem ftdiGpioParseOptions_ok
    {parser final : DeviceParser δ}
    {options : FtdiGpioOptions}
    (returns : ftdiGpioParseOptions parser = .ok options final) :
    (¬ EndsScalars parser.events ∧ InBounds options) ∨
      ∃ sections,
        EndsScalars parser.events ∧
          SectionsIn parser.uninitialised (mappingEvents parser.events)
            sections ∧
          Fills (namedIn sections) .zero options ∧
          ∀ query,
            (options.gpios query).present =
              decide (query ∈ sections.map (·.1)) := by
  obtain ⟨uninitialised, _, isRead, goesOn⟩ := bind_eq_ok returns
  cases isRead
  obtain ⟨legacy, middle, accepts, goesOn⟩ := bind_eq_ok goesOn
  rcases acceptScalar_ok accepts with
    ⟨isNone, ends, same⟩ | ⟨value, isSome, events⟩
  · right
    subst same
    rw [isNone] at goesOn
    obtain ⟨started, opened, opens, goesOn⟩ := bind_eq_ok goesOn
    obtain ⟨filled, behind, loops, goesOn⟩ := bind_eq_ok goesOn
    obtain ⟨_, closed, closes, goesOn⟩ := bind_eq_ok goesOn
    cases goesOn
    obtain ⟨fuel, _, isFuel, loops⟩ := bind_eq_ok loops
    cases isFuel
    have closing : behind.events = .mappingEnd :: final.events :=
      expectType_ok (by decide) closes
    obtain ⟨sections, isRead, fills, present⟩ :=
      ftdiGpioKeys_ok closing loops
    have opening : opened.events = mappingEvents middle.events := by
      rcases deviceParserAccept_ok rfl opens with
        ⟨_, notSelected, rfl⟩ | ⟨_, _, selected, rest⟩
      · have notStart : opened.event ≠ .mappingStart := by
          intro isStart
          simp [ofType, isStart] at notSelected
        rw [mappingEvents]
        rintro later shape
        exact notStart (List.cons.inj shape).1
      · have isStart : middle.event = .mappingStart := by
          by_contra other
          simp [ofType, other] at selected
        change opened.events = mappingEvents (middle.event :: middle.upcoming)
        rw [isStart, mappingEvents, rest]
    rw [opening] at isRead
    exact ⟨sections, ends, isRead, fills, fun query =>
      (present query).trans (Bool.false_or _)⟩
  · left
    rw [isSome] at goesOn
    refine ⟨fun ends => ends value ?_, ftdiGpioParseConfig_inBounds goesOn⟩
    rw [events]
    rfl

theorem OptionsIn.unique
    {value last otherLast : CString}
    {events rest otherRest : List YamlEvent}
    {options others : List (CString × CString)}
    (isRead : OptionsIn value events options last rest)
    (otherRead : OptionsIn value events others otherLast otherRest) :
    options = others ∧ last = otherLast ∧ rest = otherRest := by
  induction isRead generalizing others with
  | done value rest ends =>
      obtain ⟨rfl, rfl, rfl⟩ := otherRead.of_ends ends
      exact ⟨rfl, rfl, rfl⟩
  | bare value key rest ends =>
      cases otherRead with
      | done _ _ otherEnds => exact absurd rfl (otherEnds key)
      | bare _ _ _ _ => exact ⟨rfl, rfl, rfl⟩
      | pair _ _ text _ _ _ _ _ => exact absurd rfl (ends text)
  | pair value key text events options last rest later
      inductionHypothesis =>
      cases otherRead with
      | done _ _ otherEnds => exact absurd rfl (otherEnds key)
      | bare _ _ _ otherEnds => exact absurd rfl (otherEnds text)
      | pair _ _ _ _ _ _ _ otherLater =>
          obtain ⟨rfl, rfl, rfl⟩ := inductionHypothesis otherLater
          exact ⟨rfl, rfl, rfl⟩

/-- A stream has its sections in one way. -/
theorem SectionsIn.unique
    {value : CString}
    {events : List YamlEvent}
    {sections others : List (FtdiGpio × List (CString × CString))}
    (isRead : SectionsIn value events sections)
    (otherRead : SectionsIn value events others) :
    sections = others := by
  induction isRead generalizing others with
  | done value rest =>
      cases otherRead
      rfl
  | gpio value key gpio events options last rest sections named isOptions
      later inductionHypothesis =>
      cases otherRead with
      | gpio _ _ other _ _ _ _ _ otherNamed otherOptions otherLater =>
          rw [named] at otherNamed
          cases otherNamed
          obtain ⟨rfl, rfl, sameRest⟩ := isOptions.unique otherOptions
          cases sameRest
          rw [inductionHypothesis otherLater]
  | other value key text rest sections named later inductionHypothesis =>
      cases otherRead with
      | other _ _ _ _ _ _ otherLater => exact inductionHypothesis otherLater

/--
The GPIOs of an accepted stream are on lines that they toggle exactly when the
last `line` option of each is a number of at most 7, in the mapping form; in
the legacy form they always are.
-/
theorem ftdiGpioParseOptions_drivable_iff
    {parser final : DeviceParser δ}
    {options : FtdiGpioOptions}
    (accepted : ftdiGpioParseOptions parser = .ok options final) :
    Drivable options ↔ LinesFit parser := by
  rcases ftdiGpioParseOptions_ok accepted with
    ⟨isLegacy, inBounds⟩ | ⟨sections, ends, isRead, fills, present⟩
  · refine iff_of_true ?_ fun _ ends => absurd ends isLegacy
    exact drivable_of_bounds (fun gpio _ => (inBounds gpio).1)
      (fun gpio _ => (inBounds gpio).2)
  · have zero : ∀ gpio, (FtdiGpioOptions.zero.gpios gpio).interface ≤ 3 :=
      fun _ => Nat.zero_le 3
    constructor
    · intro drivable others _ otherRead gpio text isLast
      have same := isRead.unique otherRead
      subst same
      have isPresent : (options.gpios gpio).present = true := by
        rw [present, decide_eq_true_eq]
        by_contra absent
        have nothing : sections.filter (·.1 = gpio) = [] := by
          rw [List.filter_eq_nil_iff]
          intro one member isGpio
          apply absent
          rw [← of_decide_eq_true isGpio]
          exact List.mem_map_of_mem member
        rw [lastLine, nothing] at isLast
        cases isLast
      have offset := fills.offset gpio
      have isNamed : lastLineOption (namedIn sections gpio) = some text :=
        isLast
      rw [isNamed] at offset
      have inside := drivable.offset gpio isPresent
      rw [offset] at inside
      exact inside
    · intro fits
      refine drivable_of_bounds
        (fun gpio _ => fills.interface gpio (zero gpio)) fun gpio _ => ?_
      rw [fills.offset gpio]
      cases isLast : lastLineOption (namedIn sections gpio) with
      | none => exact UInt32.le_iff_toNat_le.mpr (Nat.zero_le _)
      | some text => exact fits sections ends isRead gpio text isLast

/-- The events of a mapping with one GPIO, on some line of interface D. -/
def oneLine (line : CString) : DeviceParser DeviceConfig where
  event := .mappingStart
  upcoming :=
    [.scalar (ascii "fastboot_key"), .mappingStart,
      .scalar (ascii "interface"), .scalar (ascii "D"),
      .scalar (ascii "line"), .scalar line,
      .scalar (ascii "active_low"), .scalar (ascii "true"), .mappingEnd,
      .mappingEnd, .mappingEnd]
  uninitialised := []
  devices := []

/-- What a table holds for the fastboot key, if a stream is accepted. -/
def fastbootKeyOf (parser : DeviceParser DeviceConfig) : Option FtdiGpioLine :=
  (returned? (ftdiGpioParseOptions parser)).map (·.gpios .fastbootKey)

theorem oneLine_accepted :
    fastbootKeyOf (oneLine (ascii "7")) = some ⟨true, 3, 7, true⟩ ∧
      fastbootKeyOf (oneLine (ascii "8")) = some ⟨true, 3, 8, true⟩ := by
  decide +kernel

theorem exampleLine_drivable_iff :
    ∃ options final,
      ftdiGpioParseOptions (oneLine (ascii "7")) = .ok options final ∧
        (Drivable options ↔ LinesFit (oneLine (ascii "7"))) := by
  obtain ⟨options, isOptions, _⟩ :=
    Option.map_eq_some_iff.mp oneLine_accepted.1
  have accepted := eq_ok_of_returned isOptions
  exact ⟨options, _, accepted, ftdiGpioParseOptions_drivable_iff accepted⟩

/-- Line 8 of an interface is accepted and cannot be driven. -/
theorem lineEight_notDrivable :
    ¬ ∀ (parser final : DeviceParser DeviceConfig) options,
      ftdiGpioParseOptions parser = .ok options final → Drivable options := by
  intro drivable
  obtain ⟨options, isOptions, isKey⟩ :=
    Option.map_eq_some_iff.mp oneLine_accepted.2
  have key := drivable _ _ options (eq_ok_of_returned isOptions)
  have inside := key.offset .fastbootKey (by rw [isKey])
  rw [isKey] at inside
  exact absurd inside (by decide)

end Cdba
