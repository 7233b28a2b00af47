import Cdba.Hardware

namespace Cdba

/-!
# Reading the configuration

The events that libyaml delivers, and the two functions with which the program
reads them: one takes the current event if it has a given type, the other one
insists on it.  A loop that goes on for as long as events are taken ends, since
each turn takes one.
-/

open Program

/-- `yaml_event_t`, with the value of a scalar. -/
inductive YamlEvent where
  | noEvent
  | streamStart
  | streamEnd
  | documentStart
  | documentEnd
  | alias
  | scalar (value : List UInt8)
  | sequenceStart
  | sequenceEnd
  | mappingStart
  | mappingEnd
  deriving DecidableEq

/--
`struct device_parser`: the current event, and the events that libyaml is still
going to deliver.  `uninitialised` is what a buffer on the stack holds as a
string before anything is written to it.
-/
structure DeviceParser (δ : Type) where
  event : YamlEvent
  upcoming : List YamlEvent
  uninitialised : CString
  devices : List δ

/-- Programs that read the configuration. -/
abbrev ParserM (δ : Type) :=
  EStateM Stop (DeviceParser δ)

namespace DeviceParser

variable {δ α β : Type}

/--
`nextsym`: behind the end of the stream there are no events, and when the list
ends before that, libyaml has reported an error.
-/
def nextsym : ParserM δ Unit := do
  let parser ← read id
  match parser.upcoming with
  | next :: rest =>
      update fun parser => { parser with event := next, upcoming := rest }
  | [] =>
      if parser.event = .streamEnd then
        update fun parser => { parser with event := .noEvent }
      else
        stop (.exit 1)

/-- Select events of a type without a value. -/
def ofType (type : YamlEvent) : YamlEvent → Option Unit :=
  fun event => if event = type then some () else none

/-- Select scalars, as a buffer of a given size holds them. -/
def scalar (size : Nat) : YamlEvent → Option CString
  | .scalar value => some ((cstr value).take (size - 1))
  | _ => none

/-- `device_parser_accept` -/
def deviceParserAccept (select : YamlEvent → Option β) :
    ParserM δ (Option β) := do
  let event ← read DeviceParser.event
  match select event with
  | some value => do
      nextsym
      pure (some value)
  | none => pure none

/-- `device_parser_expect` -/
def deviceParserExpect (select : YamlEvent → Option β) : ParserM δ β := do
  let accepted ← deviceParserAccept select
  match accepted with
  | some value => pure value
  | none => stop (.exit 1)

/-- `while (device_parser_accept(...))`, at most a given number of times. -/
def whileAcceptedLoop
    (select : YamlEvent → Option β)
    (body : α → β → ParserM δ α) :
    Nat → α → ParserM δ α
  | 0, _ => stop .diverges
  | fuel + 1, value => do
      let accepted ← deviceParserAccept select
      match accepted with
      | none => pure value
      | some taken => do
          let value ← body value taken
          whileAcceptedLoop select body fuel value

/-- The events that have not been taken yet. -/
def remaining (parser : DeviceParser δ) : Nat :=
  parser.upcoming.length + if parser.event = .noEvent then 0 else 1

/-- `while (device_parser_accept(...))` -/
def whileAccepted
    (select : YamlEvent → Option β)
    (body : α → β → ParserM δ α)
    (value : α) :
    ParserM δ α := do
  let fuel ← read remaining
  whileAcceptedLoop select body (fuel + 1) value

/-! ## Reading advances -/

/-- Events are only taken, and no device is added. -/
structure Advances (first last : DeviceParser δ) : Prop where
  remaining : last.remaining ≤ first.remaining
  devices : last.devices = first.devices

instance : Composes (Advances (δ := δ)) where
  refl := fun _ => ⟨Nat.le_refl _, rfl⟩
  trans := fun first second =>
    ⟨Nat.le_trans second.remaining first.remaining,
      second.devices.trans first.devices⟩

/-- A reason to stop other than a loop that does not end. -/
abbrev Terminates (reason : Stop) : Prop :=
  reason ≠ .diverges

/-- Programs that only read, and do not go on forever. -/
abbrev Reading (program : ParserM δ α) : Prop :=
  Relates Advances Terminates program

theorem exit_terminates
    (status : Nat) :
    Terminates (.exit status) :=
  nofun

/-- Taking an event leaves fewer of them, or libyaml has failed. -/
theorem nextsym_cases
    {parser : DeviceParser δ}
    (some_ : parser.event ≠ .noEvent) :
    (∃ last,
      nextsym parser = .ok () last ∧
        last.remaining < parser.remaining ∧
        last.devices = parser.devices) ∨
      nextsym parser = .error (.exit 1) parser := by
  rcases parser with ⟨event, upcoming, uninitialised, devices⟩
  have before : event ≠ .noEvent := some_
  cases upcoming with
  | nil =>
      by_cases ends : event = .streamEnd
      · subst ends
        exact .inl ⟨_, rfl, by simp [remaining], rfl⟩
      · refine .inr ?_
        simp [nextsym, bind_apply, ends]
  | cons next rest =>
      refine .inl ⟨_, rfl, ?_, rfl⟩
      simp only [remaining, List.length_cons, if_neg before]
      split <;> omega

theorem nextsym_reading :
    Reading (δ := δ) nextsym := by
  intro parser
  by_cases some_ : parser.event ≠ .noEvent
  · rcases nextsym_cases some_ with ⟨last, took, fewer, devices⟩ | failed
    · exact .of_ok took ⟨Nat.le_of_lt fewer, devices⟩
    · exact .of_error failed (Composes.refl parser) (exit_terminates 1)
  · rcases parser with ⟨event, upcoming, uninitialised, devices⟩
    cases Decidable.not_not.mp some_
    cases upcoming with
    | nil =>
        exact .of_error rfl (Composes.refl _) (exit_terminates 1)
    | cons next rest =>
        refine .of_ok rfl ⟨?_, rfl⟩
        simp only [remaining, List.length_cons]
        split <;> omega

/-- `device_parser_accept` passes, takes an event, or libyaml has failed. -/
theorem deviceParserAccept_cases
    {select : YamlEvent → Option β}
    (never : select .noEvent = none)
    (parser : DeviceParser δ) :
    deviceParserAccept select parser = .ok none parser ∨
      (∃ value last,
        deviceParserAccept select parser = .ok (some value) last ∧
          last.remaining < parser.remaining ∧
          last.devices = parser.devices) ∨
      deviceParserAccept select parser = .error (.exit 1) parser := by
  rw [deviceParserAccept, bind_of_ok (read_apply _ parser)]
  cases selected : select parser.event with
  | none => exact .inl rfl
  | some value =>
      have some_ : parser.event ≠ .noEvent := by
        intro none
        rw [none, never] at selected
        cases selected
      rcases nextsym_cases some_ with ⟨last, took, fewer⟩ | failed
      · exact .inr (.inl ⟨value, last, bind_of_ok took _, fewer⟩)
      · exact .inr (.inr (bind_of_error failed _))

theorem deviceParserAccept_reading
    {select : YamlEvent → Option β}
    (never : select .noEvent = none) :
    Reading (δ := δ) (deviceParserAccept select) := by
  intro parser
  rcases deviceParserAccept_cases never parser with
    passed | ⟨value, last, took, fewer, devices⟩ | failed
  · exact .of_ok passed (Composes.refl parser)
  · exact .of_ok took ⟨Nat.le_of_lt fewer, devices⟩
  · exact .of_error failed (Composes.refl parser) (exit_terminates 1)

theorem deviceParserExpect_reading
    {select : YamlEvent → Option β}
    (never : select .noEvent = none) :
    Reading (δ := δ) (deviceParserExpect select) := by
  refine Relates.bind (deviceParserAccept_reading never) fun accepted => ?_
  cases accepted with
  | none => exact Relates.stop (exit_terminates 1)
  | some value => exact Relates.pure value

/-! ## Loops end -/

section Loops

variable {relation : DeviceParser δ → DeviceParser δ → Prop}
variable {select : YamlEvent → Option β} {body : α → β → ParserM δ α}

/--
A loop relates states as reading and its body do, and with more fuel than there
are events it ends, since every turn takes one.
-/
theorem whileAcceptedLoop_relates
    [Composes relation]
    (reads : ∀ first last, Advances first last → relation first last)
    (shrinks :
      ∀ first last, relation first last → last.remaining ≤ first.remaining)
    (never : select .noEvent = none)
    (bodyRelates :
      ∀ value taken, Relates relation Terminates (body value taken))
    (fuel : Nat)
    (value : α)
    (parser : DeviceParser δ)
    (enough : parser.remaining < fuel) :
    RelatesAt relation Terminates
      (whileAcceptedLoop select body fuel value) parser := by
  induction fuel generalizing value parser with
  | zero =>
      exact absurd enough (Nat.not_lt_zero _)
  | succ fuel inductionHypothesis =>
      rw [whileAcceptedLoop]
      rcases deviceParserAccept_cases never parser with
        passed | ⟨taken, last, took, fewer, devices⟩ | failed
      · exact .of_ok (bind_of_ok passed _) (Composes.refl parser)
      · refine RelatesAt.bind
          (.of_ok took (reads _ _ ⟨Nat.le_of_lt fewer, devices⟩)) ?_
        intro accepted middle outcome
        rw [took] at outcome
        cases outcome
        refine RelatesAt.bind (bodyRelates value taken last) ?_
        intro next after ran
        have step := (bodyRelates value taken last).related
        rw [ran] at step
        have kept := shrinks _ _ step
        refine inductionHypothesis next after ?_
        simp only [finalState] at kept
        omega
      · exact .of_error (bind_of_error failed _) (Composes.refl parser)
          (exit_terminates 1)

theorem whileAccepted_relates
    [Composes relation]
    (reads : ∀ first last, Advances first last → relation first last)
    (shrinks :
      ∀ first last, relation first last → last.remaining ≤ first.remaining)
    (never : select .noEvent = none)
    (bodyRelates :
      ∀ value taken, Relates relation Terminates (body value taken))
    (value : α) :
    Relates relation Terminates (whileAccepted select body value) := by
  intro parser
  exact RelatesAt.bind (Relates.read _ parser) fun fuel middle outcome => by
    cases outcome
    exact whileAcceptedLoop_relates reads shrinks never bodyRelates _ value
      parser (Nat.lt_succ_self _)

theorem whileAccepted_reading
    (never : select .noEvent = none)
    (bodyReads : ∀ value taken, Reading (body value taken))
    (value : α) :
    Reading (whileAccepted select body value) :=
  whileAccepted_relates (fun _ _ => id) (fun _ _ advances => advances.remaining)
    never bodyReads value

/-- What the body of a loop preserves, the loop preserves. -/
theorem whileAccepted_ensures
    {invariant : α → DeviceParser δ → Prop}
    (stable :
      ∀ value first last,
        invariant value first → Advances first last → invariant value last)
    (never : select .noEvent = none)
    (bodyEnsures :
      ∀ value taken,
        Ensures (invariant value) (body value taken) invariant)
    (value : α) :
    Ensures (invariant value) (whileAccepted select body value) invariant := by
  have loop :
      ∀ fuel value,
        Ensures (invariant value) (whileAcceptedLoop select body fuel value)
          invariant := by
    intro fuel
    induction fuel with
    | zero =>
        exact fun _ => .stop _
    | succ fuel inductionHypothesis =>
        intro value
        refine Ensures.bind
          (Ensures.of_relates (deviceParserAccept_reading never)
            fun first last _ holds advances =>
              stable value first last holds advances) ?_
        intro accepted
        cases accepted with
        | none => exact .pure fun _ => id
        | some taken =>
            exact Ensures.bind (bodyEnsures value taken) inductionHypothesis
  intro parser final last holds returns
  exact loop _ value parser final last holds returns

end Loops

end DeviceParser

end Cdba
