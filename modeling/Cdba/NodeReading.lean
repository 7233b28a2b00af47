import Cdba.YamlTree

namespace Cdba

/-!
# Reading nodes

A program that reads the value of a key either takes exactly the events of that
value, or it goes astray: it has ended a mapping that it did not start, or it
stands in front of a node that it does not take.
-/

open Program
open DeviceParser

variable {δ α β τ : Type}

/-! ## Programs that end mappings -/

/-- A program that returns has ended so many more mappings than it started. -/
def EndsMappings (count : Int) (program : ParserM δ α) : Prop :=
  ∀ parser value last,
    program parser = .ok value last →
    ∀ surplus,
      Closes surplus last.events → Closes (surplus + count) parser.events

namespace EndsMappings

theorem mono
    {count other : Int}
    (fewer : other ≤ count)
    {program : ParserM δ α}
    (ends : EndsMappings count program) :
    EndsMappings other program := by
  intro parser value last returns surplus closes
  exact (ends parser value last returns surplus closes).mono
    (Int.add_le_add_left fewer surplus)

theorem pure
    (value : α) :
    EndsMappings (δ := δ) 0 (pure value) := by
  rintro parser _ _ ⟨⟩ surplus closes
  rwa [Int.add_zero]

theorem read
    (view : DeviceParser δ → α) :
    EndsMappings 0 (Program.read view) := by
  rintro parser _ _ ⟨⟩ surplus closes
  rwa [Int.add_zero]

theorem stop
    {count : Int}
    (reason : Stop) :
    EndsMappings (δ := δ) (α := α) count (Program.stop reason) := by
  rintro parser value last returns
  cases returns

theorem bind
    {first second : Int}
    {program : ParserM δ α}
    {later : α → ParserM δ β}
    (programEnds : EndsMappings first program)
    (laterEnds : ∀ value, EndsMappings second (later value)) :
    EndsMappings (first + second) (program >>= later) := by
  intro parser value last returns surplus closes
  obtain ⟨middleValue, middle, ran, returns⟩ := bind_eq_ok returns
  have between := laterEnds middleValue middle value last returns surplus closes
  have whole := programEnds parser middleValue middle ran _ between
  exact whole.mono (by omega)

/-- A program that ends nothing leaves it to what follows. -/
theorem andThen
    {count : Int}
    {program : ParserM δ α}
    {later : α → ParserM δ β}
    (programEnds : EndsMappings 0 program)
    (laterEnds : ∀ value, EndsMappings count (later value)) :
    EndsMappings count (program >>= later) :=
  (programEnds.bind laterEnds).mono (by omega)

theorem ite
    {count : Int}
    {condition : Prop}
    [Decidable condition]
    {first second : ParserM δ α}
    (firstEnds : EndsMappings count first)
    (secondEnds : EndsMappings count second) :
    EndsMappings count (if condition then first else second) := by
  split
  · exact firstEnds
  · exact secondEnds

/-- An event that is insisted on ends what it ends. -/
theorem expect
    {count : Int}
    {select : YamlEvent → Option β}
    (selects :
      ∀ event value,
        select event = some value → event ≠ .streamEnd ∧ count ≤ event.ends) :
    EndsMappings (δ := δ) count (deviceParserExpect select) := by
  intro parser value last returns surplus closes
  obtain ⟨accepted, middle, accepts, returns⟩ := bind_eq_ok returns
  have goesOn : select .streamEnd = none := by
    cases selected : select .streamEnd with
    | none => rfl
    | some found => exact absurd rfl (selects _ _ selected).1
  rcases deviceParserAccept_ok goesOn accepts with
    ⟨isNone, _, _⟩ | ⟨taken, isSome, selected, rest⟩
  · rw [isNone] at returns
    cases returns
  · rw [isSome] at returns
    cases returns
    obtain ⟨isOther, atMost⟩ := selects _ _ selected
    rw [DeviceParser.events, closes_cons isOther, rest]
    exact closes.mono (by omega)

/-- An event that may be taken ends what it ends, or nothing. -/
theorem accept
    {count : Int}
    (atMost : count ≤ 0)
    {select : YamlEvent → Option β}
    (selects :
      ∀ event value,
        select event = some value → event ≠ .streamEnd ∧ count ≤ event.ends) :
    EndsMappings (δ := δ) count (deviceParserAccept select) := by
  intro parser accepted last accepts surplus closes
  have goesOn : select .streamEnd = none := by
    cases selected : select .streamEnd with
    | none => rfl
    | some found => exact absurd rfl (selects _ _ selected).1
  rcases deviceParserAccept_ok goesOn accepts with
    ⟨_, _, rfl⟩ | ⟨taken, _, selected, rest⟩
  · exact closes.mono (by omega)
  · obtain ⟨isOther, ends⟩ := selects _ _ selected
    rw [DeviceParser.events, closes_cons isOther, rest]
    exact closes.mono (by omega)

theorem acceptScalar
    (size : Nat) :
    EndsMappings (δ := δ) 0 (deviceParserAccept (scalar size)) := by
  refine accept (Int.le_refl 0) fun event value selected => ?_
  cases event <;> cases selected
  exact ⟨nofun, Int.le_refl 0⟩

theorem expectScalar
    (size : Nat) :
    EndsMappings (δ := δ) 0 (deviceParserExpect (scalar size)) := by
  refine expect fun event value selected => ?_
  cases event <;> cases selected
  exact ⟨nofun, Int.le_refl 0⟩

theorem expectType
    {type : YamlEvent}
    (goesOn : type ≠ .streamEnd) :
    EndsMappings (δ := δ) type.ends (deviceParserExpect (ofType type)) := by
  refine expect fun event value selected => ?_
  have isType : event = type := by
    by_contra other
    rw [ofType, if_neg other] at selected
    cases selected
  rw [isType]
  exact ⟨goesOn, Int.le_refl _⟩

theorem acceptMappingStart :
    EndsMappings (δ := δ) (-1) (deviceParserAccept (ofType .mappingStart)) := by
  refine accept (by decide) fun event value selected => ?_
  have isStart : event = .mappingStart := by
    by_contra other
    rw [ofType, if_neg other] at selected
    cases selected
  rw [isStart]
  exact ⟨by decide, Int.le_refl _⟩

/-- A loop ends what its turns end. -/
theorem whileAcceptedLoop
    {first second : Int}
    (enough : 0 ≤ first + second)
    {select : YamlEvent → Option β}
    (selects : EndsMappings (δ := δ) (α := β) first (deviceParserExpect select))
    (goesOn : select .streamEnd = none)
    {body : α → β → ParserM δ α}
    (bodyEnds : ∀ value taken, EndsMappings second (body value taken))
    (fuel : Nat)
    (value : α) :
    EndsMappings 0 (DeviceParser.whileAcceptedLoop select body fuel value) := by
  induction fuel generalizing value with
  | zero =>
      exact stop _
  | succ fuel inductionHypothesis =>
      intro parser result last returns surplus closes
      obtain ⟨accepted, middle, accepts, goes⟩ := bind_eq_ok returns
      rcases deviceParserAccept_ok goesOn accepts with
        ⟨rfl, _, rfl⟩ | ⟨taken, rfl, _, _⟩
      · cases goes
        rwa [Int.add_zero]
      · obtain ⟨next, behind, one, later⟩ := bind_eq_ok goes
        have after :=
          inductionHypothesis next behind result last later surplus closes
        have between := bodyEnds value taken middle next behind one _ after
        have expects : deviceParserExpect select parser = .ok taken middle :=
          bind_of_ok accepts _
        exact (selects parser taken middle expects _ between).mono (by omega)

theorem whileAccepted
    {first second : Int}
    (enough : 0 ≤ first + second)
    {select : YamlEvent → Option β}
    (selects : EndsMappings (δ := δ) (α := β) first (deviceParserExpect select))
    (goesOn : select .streamEnd = none)
    {body : α → β → ParserM δ α}
    (bodyEnds : ∀ value taken, EndsMappings second (body value taken))
    (value : α) :
    EndsMappings 0 (DeviceParser.whileAccepted select body value) := by
  intro parser result last returns
  exact whileAcceptedLoop enough selects goesOn bodyEnds _ value parser result
    last returns

/-- A loop over scalars whose turns end nothing ends nothing. -/
theorem whileScalars
    {size : Nat}
    {body : α → CString → ParserM δ α}
    (bodyEnds : ∀ value taken, EndsMappings 0 (body value taken))
    (value : α) :
    EndsMappings 0 (DeviceParser.whileAccepted (scalar size) body value) :=
  whileAccepted (Int.le_refl 0) (expectScalar size) rfl bodyEnds value

/-- The end of a mapping behind what was read of it. -/
theorem close
    {program : ParserM δ α}
    {later : α → ParserM δ β}
    (programEnds : EndsMappings 0 program)
    (laterEnds : ∀ value, EndsMappings 0 (later value)) :
    EndsMappings 1
      (do
        let value ← program
        deviceParserExpect (ofType .mappingEnd)
        later value) :=
  .andThen programEnds fun value =>
    (expectType (by decide)).bind fun _ => laterEnds value

/-- A mapping that is started and ended. -/
theorem expectMapping
    {body : ParserM δ α}
    (bodyEnds : EndsMappings 1 body) :
    EndsMappings 0
      (do
        deviceParserExpect (ofType .mappingStart)
        body) :=
  (expectType (by decide)).bind fun _ => bodyEnds

theorem acceptMapping
    {body : ParserM δ α}
    (bodyEnds : EndsMappings 1 body) :
    EndsMappings 0
      (do
        let _ ← deviceParserAccept (ofType .mappingStart)
        body) :=
  acceptMappingStart.bind fun _ => bodyEnds

end EndsMappings

/-! ## Parsers in front of events -/

/-- A parser in front of the given events. -/
def DeviceParser.facing
    (parser : DeviceParser δ) :
    List YamlEvent → DeviceParser δ
  | [] => { parser with event := .noEvent, upcoming := [] }
  | event :: upcoming => { parser with event := event, upcoming := upcoming }

@[simp] theorem events_facing
    (parser : DeviceParser δ)
    (event : YamlEvent)
    (rest : List YamlEvent) :
    (parser.facing (event :: rest)).events = event :: rest :=
  rfl

/-- An event of the right type is taken. -/
theorem deviceParserAccept_some
    {select : YamlEvent → Option β}
    {event : YamlEvent}
    {value : β}
    (selected : select event = some value)
    {rest : List YamlEvent}
    (more : rest = [] → event = .streamEnd)
    (parser : DeviceParser δ) :
    deviceParserAccept select (parser.facing (event :: rest)) =
      .ok (some value) (parser.facing rest) := by
  have took : nextsym (parser.facing (event :: rest)) = .ok () (parser.facing rest) := by
    cases rest with
    | nil =>
        rw [more rfl]
        rfl
    | cons next later =>
        rfl
  rw [deviceParserAccept, bind_of_ok (read_apply _ _)]
  dsimp only [DeviceParser.facing]
  rw [selected]
  exact bind_of_ok took _

/-- Any other event stays. -/
theorem deviceParserAccept_none
    {select : YamlEvent → Option β}
    {parser : DeviceParser δ}
    (passed : select parser.event = none) :
    deviceParserAccept select parser = .ok none parser := by
  rw [deviceParserAccept, bind_of_ok (read_apply _ _), passed]
  rfl

theorem deviceParserExpect_some
    {select : YamlEvent → Option β}
    {event : YamlEvent}
    {value : β}
    (selected : select event = some value)
    {rest : List YamlEvent}
    (more : rest = [] → event = .streamEnd)
    (parser : DeviceParser δ) :
    deviceParserExpect select (parser.facing (event :: rest)) =
      .ok value (parser.facing rest) :=
  bind_of_ok (deviceParserAccept_some selected more parser) _

theorem deviceParserExpect_type
    {type : YamlEvent}
    {rest : List YamlEvent}
    (more : rest = [] → type = .streamEnd)
    (parser : DeviceParser δ) :
    deviceParserExpect (ofType type) (parser.facing (type :: rest)) =
      .ok () (parser.facing rest) :=
  deviceParserExpect_some (if_pos rfl) more parser

theorem deviceParserExpect_none
    {select : YamlEvent → Option β}
    {parser : DeviceParser δ}
    (passed : select parser.event = none) :
    deviceParserExpect select parser = .error (.exit 1) parser :=
  bind_of_ok (deviceParserAccept_none passed) _

/-! ## Reading nodes -/

/-- The first event of a node that is no scalar. -/
inductive YamlEvent.Opens : YamlEvent → Prop where
  | alias : Opens .alias
  | sequenceStart : Opens .sequenceStart
  | mappingStart : Opens .mappingStart

theorem YamlEvent.Opens.scalar
    {event : YamlEvent}
    (opens : event.Opens)
    (size : Nat) :
    DeviceParser.scalar size event = none := by
  cases opens <;> rfl

/-- The end of a mapping or of a sequence. -/
inductive YamlEvent.Ends : YamlEvent → Prop where
  | sequenceEnd : Ends .sequenceEnd
  | mappingEnd : Ends .mappingEnd

theorem YamlEvent.Ends.goesOn
    {type : YamlEvent}
    (isEnd : type.Ends) :
    type ≠ .streamEnd := by
  cases isEnd <;> nofun

theorem YamlEvent.Opens.passed
    {event type : YamlEvent}
    (opens : event.Opens)
    (isEnd : type.Ends) :
    ofType type event = none := by
  cases opens <;> cases isEnd <;> rfl

/-- No node opens with the end of a mapping or of a sequence. -/
theorem YamlNode.opens
    {node : YamlNode}
    {event : YamlEvent}
    {later : List YamlEvent}
    (events : node.events = event :: later)
    {type : YamlEvent}
    (isEnd : type.Ends) :
    ofType type event = none := by
  cases node <;> cases isEnd <;> cases events <;> rfl

/-- A scalar is taken. -/
theorem deviceParserAccept_text
    {node : YamlNode}
    {size : Nat}
    {text : CString}
    (isText : node.text size = some text)
    {rest : List YamlEvent}
    (more : rest ≠ [])
    (parser : DeviceParser δ) :
    deviceParserAccept (scalar size) (parser.facing (node.events ++ rest)) =
      .ok (some text) (parser.facing rest) := by
  cases node <;> cases isText
  rename_i value
  exact deviceParserAccept_some
    (show scalar size (.scalar value) = some _ from rfl) (absurd · more) parser

/-- Any other node stays. -/
theorem deviceParserAccept_noText
    {node : YamlNode}
    {size : Nat}
    (isNone : node.text size = none)
    (rest : List YamlEvent)
    (parser : DeviceParser δ) :
    (parser.facing (node.events ++ rest)).event.Opens ∧
      deviceParserAccept (scalar size) (parser.facing (node.events ++ rest)) =
        .ok none (parser.facing (node.events ++ rest)) := by
  cases node with
  | scalar value => cases isNone
  | aliased => exact ⟨.alias, deviceParserAccept_none rfl⟩
  | sequence items => exact ⟨.sequenceStart, deviceParserAccept_none rfl⟩
  | mapping pairs => exact ⟨.mappingStart, deviceParserAccept_none rfl⟩

/-- A node with pairs is a mapping, any other one opens with another event. -/
theorem YamlNode.pairs_cases
    (node : YamlNode) :
    (∃ pairs,
      node.events = .mappingStart :: (pairsEvents pairs ++ [.mappingEnd]) ∧
        node.pairs = some pairs) ∨
      ∃ event later,
        node.events = event :: later ∧ node.pairs = none ∧
          ofType .mappingStart event = none := by
  cases node with
  | aliased => exact .inr ⟨_, _, rfl, rfl, rfl⟩
  | scalar value => exact .inr ⟨_, _, rfl, rfl, rfl⟩
  | sequence items => exact .inr ⟨_, _, rfl, rfl, rfl⟩
  | mapping pairs => exact .inl ⟨_, rfl, rfl⟩

/-- A node with items is a sequence, any other one opens with another event. -/
theorem YamlNode.items_cases
    (node : YamlNode) :
    (∃ items,
      node.events = .sequenceStart :: (itemsEvents items ++ [.sequenceEnd]) ∧
        node.items = some items) ∨
      ∃ event later,
        node.events = event :: later ∧ node.items = none ∧
          ofType .sequenceStart event = none := by
  cases node with
  | aliased => exact .inr ⟨_, _, rfl, rfl, rfl⟩
  | scalar value => exact .inr ⟨_, _, rfl, rfl, rfl⟩
  | sequence items => exact .inl ⟨_, rfl, rfl⟩
  | mapping pairs => exact .inr ⟨_, _, rfl, rfl, rfl⟩

/-- A parser has ended a mapping more than there is in front of some events. -/
def EndedTooMany (rest : List YamlEvent) (last : DeviceParser δ) : Prop :=
  ∀ surplus, Closes surplus last.events → Closes (surplus + 1) rest

/--
A parser that has ended a mapping too many, or that stands in front of a node
that is no scalar.
-/
def Astray (rest : List YamlEvent) (last : DeviceParser δ) : Prop :=
  EndedTooMany rest last ∨ last.event.Opens

/-- Only a parser that has ended a mapping too many can end another one. -/
theorem Astray.close
    {type : YamlEvent}
    (isEnd : type.Ends)
    {rest : List YamlEvent}
    {middle last : DeviceParser δ}
    (astray : Astray (type :: rest) middle)
    {nothing : Unit}
    (closes : deviceParserExpect (ofType type) middle = .ok nothing last) :
    EndedTooMany rest last := by
  rcases astray with tooMany | opens
  · intro surplus enough
    have before :=
      EndsMappings.expectType isEnd.goesOn middle nothing last closes surplus
        enough
    have after := (closes_cons isEnd.goesOn).mp (tooMany _ before)
    exact after.mono (by omega)
  · rw [deviceParserExpect_none (opens.passed isEnd)] at closes
    cases closes

/--
A program takes some events in front of others and returns what they mean, or,
when they mean nothing, does not return or goes astray.
-/
structure Interprets
    (segment rest : List YamlEvent)
    (view : α → τ)
    (meaning : Option τ)
    (program : ParserM δ α) :
    Prop where
  means :
    ∀ value,
      meaning = some value →
      ∀ parser : DeviceParser δ,
        ∃ result,
          program (parser.facing (segment ++ rest)) =
              .ok result (parser.facing rest) ∧
            view result = value
  strays :
    meaning = none →
    ∀ (parser : DeviceParser δ) result last,
      program (parser.facing (segment ++ rest)) = .ok result last →
      Astray rest last

/-- Read the pairs of a mapping, whose keys fit into a buffer of a given size. -/
def readPairs
    (size : Nat)
    (step : τ → CString → YamlNode → Option τ) :
    τ → List (YamlNode × YamlNode) → Option τ
  | value, [] => some value
  | value, (key, node) :: pairs => do
      let text ← key.text size
      let next ← step value text node
      readPairs size step next pairs

/-- A step for values that have to be scalars. -/
def textStep
    (size : Nat)
    (option : τ → CString → CString → Option τ)
    (value : τ)
    (key : CString)
    (node : YamlNode) :
    Option τ :=
  (node.text size).bind (option value key)

section Loops

variable {size : Nat} {view : α → τ} {step : τ → CString → YamlNode → Option τ}
variable {body : α → CString → ParserM δ α}

theorem length_pos_events
    (node : YamlNode) :
    0 < node.events.length := by
  cases node <;> simp [YamlNode.events]

theorem length_le_pairsEvents
    (pairs : List (YamlNode × YamlNode)) :
    pairs.length ≤ (pairsEvents pairs).length := by
  induction pairs with
  | nil =>
      exact Nat.le_refl 0
  | cons pair pairs inductionHypothesis =>
      have some_ := length_pos_events pair.1
      simp only [pairsEvents, List.length_append, List.length_cons]
      omega

theorem length_le_itemsEvents
    (items : List YamlNode) :
    items.length ≤ (itemsEvents items).length := by
  induction items with
  | nil =>
      exact Nat.le_refl 0
  | cons item items inductionHypothesis =>
      have some_ := length_pos_events item
      simp only [itemsEvents, List.length_append, List.length_cons]
      omega

/-- The events in front of another one are all left. -/
theorem length_le_remaining
    (parser : DeviceParser δ)
    (events : List YamlEvent)
    (next : YamlEvent)
    (rest : List YamlEvent) :
    events.length ≤ (parser.facing (events ++ next :: rest)).remaining := by
  cases events with
  | nil => exact Nat.zero_le _
  | cons event later =>
      simp only [DeviceParser.remaining, List.cons_append,
        DeviceParser.facing, List.length_append, List.length_cons]
      omega

/-- A loop reads the pairs of a mapping up to its end. -/
theorem whileAcceptedLoop_means
    (bodyReads :
      ∀ value key node rest,
        rest ≠ [] →
        Interprets node.events rest view (step (view value) key node)
          (body value key))
    {pairs : List (YamlNode × YamlNode)}
    {value : α}
    {found : τ}
    (means : readPairs size step (view value) pairs = some found)
    {fuel : Nat}
    (enough : pairs.length < fuel)
    (parser : DeviceParser δ)
    (rest : List YamlEvent) :
    ∃ result,
      whileAcceptedLoop (scalar size) body fuel value
          (parser.facing (pairsEvents pairs ++ .mappingEnd :: rest)) =
        .ok result (parser.facing (.mappingEnd :: rest)) ∧
      view result = found := by
  induction pairs generalizing value fuel with
  | nil =>
      obtain ⟨fuel, rfl⟩ := Nat.exists_eq_add_one_of_ne_zero (Nat.ne_of_gt enough)
      cases means
      exact ⟨value, bind_of_ok (deviceParserAccept_none rfl) _, rfl⟩
  | cons pair pairs inductionHypothesis =>
      obtain ⟨key, node⟩ := pair
      obtain ⟨fuel, rfl⟩ :=
        Nat.exists_eq_add_one_of_ne_zero (Nat.ne_of_gt (Nat.zero_lt_of_lt enough))
      obtain ⟨text, isText, later⟩ := Option.bind_eq_some_iff.mp means
      obtain ⟨next, isNext, later⟩ := Option.bind_eq_some_iff.mp later
      obtain ⟨result, ran, rfl⟩ :=
        (bodyReads value text node (pairsEvents pairs ++ .mappingEnd :: rest)
          (by simp)).means next isNext parser
      obtain ⟨final, looped, isFound⟩ :=
        inductionHypothesis later (Nat.lt_of_succ_lt_succ enough)
      refine ⟨final, ?_, isFound⟩
      rw [whileAcceptedLoop, pairsEvents, List.append_assoc, List.append_assoc,
        bind_of_ok (deviceParserAccept_text isText (by simp) parser)]
      dsimp only
      rw [bind_of_ok ran]
      exact looped

/-- A loop over the pairs of a mapping that mean nothing goes astray. -/
theorem whileAcceptedLoop_strays
    (bodyReads :
      ∀ value key node rest,
        rest ≠ [] →
        Interprets node.events rest view (step (view value) key node)
          (body value key))
    (bodyEnds : ∀ value key, EndsMappings 0 (body value key))
    {pairs : List (YamlNode × YamlNode)}
    {value : α}
    (isNone : readPairs size step (view value) pairs = none)
    {fuel : Nat}
    {parser last : DeviceParser δ}
    {rest : List YamlEvent}
    {result : α}
    (returns :
      whileAcceptedLoop (scalar size) body fuel value
          (parser.facing (pairsEvents pairs ++ .mappingEnd :: rest)) =
        .ok result last) :
    Astray (.mappingEnd :: rest) last := by
  induction pairs generalizing value fuel with
  | nil =>
      cases isNone
  | cons pair pairs inductionHypothesis =>
      obtain ⟨key, node⟩ := pair
      cases fuel with
      | zero => cases returns
      | succ fuel =>
          rw [whileAcceptedLoop, pairsEvents, List.append_assoc,
            List.append_assoc] at returns
          cases isText : key.text size with
          | none =>
              obtain ⟨opens, passed⟩ := deviceParserAccept_noText isText _ parser
              rw [bind_of_ok passed] at returns
              cases returns
              exact .inr opens
          | some text =>
              rw [bind_of_ok (deviceParserAccept_text isText (by simp) parser)]
                at returns
              obtain ⟨next, behind, ran, later⟩ := bind_eq_ok returns
              have reads :=
                bodyReads value text node
                  (pairsEvents pairs ++ .mappingEnd :: rest) (by simp)
              cases stepped : step (view value) text node with
              | some found =>
                  obtain ⟨same, ran', rfl⟩ := reads.means found stepped parser
                  rw [ran'] at ran
                  cases ran
                  rw [readPairs, isText] at isNone
                  change (step (view value) text node).bind _ = none at isNone
                  rw [stepped] at isNone
                  exact inductionHypothesis isNone later
              | none =>
                  rcases reads.strays stepped parser next behind ran with
                    tooMany | opens
                  · refine .inl fun surplus closes => ?_
                    have before :=
                      EndsMappings.whileAcceptedLoop (Int.le_refl 0)
                        (.expectScalar size) rfl bodyEnds fuel next behind
                        result last later surplus closes
                    rw [Int.add_zero] at before
                    exact (closes_pairs pairs _ _).mp (tooMany surplus before)
                  · cases fuel with
                    | zero => cases later
                    | succ fuel =>
                        rw [whileAcceptedLoop, bind_of_ok
                          (deviceParserAccept_none (opens.scalar size))] at later
                        cases later
                        exact .inr opens

/-- `while (device_parser_accept(...))` over the pairs of a mapping. -/
theorem whileAccepted_interprets
    (step : τ → CString → YamlNode → Option τ)
    (bodyReads :
      ∀ value key node rest,
        rest ≠ [] →
        Interprets node.events rest view (step (view value) key node)
          (body value key))
    (bodyEnds : ∀ value key, EndsMappings 0 (body value key))
    (value : α)
    (pairs : List (YamlNode × YamlNode))
    (rest : List YamlEvent) :
    Interprets (pairsEvents pairs) (.mappingEnd :: rest) view
      (readPairs size step (view value) pairs)
      (whileAccepted (scalar size) body value) where
  means := by
    intro found means parser
    refine whileAcceptedLoop_means bodyReads means ?_ parser rest
    have longer := length_le_pairsEvents pairs
    have left := length_le_remaining parser (pairsEvents pairs) .mappingEnd rest
    exact Nat.lt_succ_of_le (Nat.le_trans longer left)
  strays := by
    intro isNone parser result last returns
    exact whileAcceptedLoop_strays bodyReads bodyEnds isNone returns

end Loops

/-! ## Values of a key -/

/-- Return a value if there is one. -/
def DeviceParser.orStop (found : Option α) : ParserM δ α :=
  match found with
  | some value => pure value
  | none => stop (.exit 1)

theorem EndsMappings.orStop
    (found : Option α) :
    EndsMappings (δ := δ) 0 (DeviceParser.orStop found) := by
  cases found with
  | none => exact stop _
  | some value => exact pure value

/-- A program that leaves the parser alone, and what it computes. -/
structure Computes
    (view : α → τ)
    (meaning : Option τ)
    (program : ParserM δ α) :
    Prop where
  means :
    ∀ value,
      meaning = some value →
      ∀ parser, ∃ result,
        program parser = .ok result parser ∧ view result = value
  stops :
    meaning = none → ∀ parser result last, program parser ≠ .ok result last

namespace Computes

variable {view : α → τ}

theorem pure
    {value : α}
    {seen : τ}
    (viewed : view value = seen) :
    Computes (δ := δ) view (some seen) (pure value) where
  means := by
    rintro _ ⟨⟩ parser
    exact ⟨value, rfl, viewed⟩
  stops := nofun

theorem stop
    (reason : Stop) :
    Computes (δ := δ) view none (Program.stop reason) where
  means := nofun
  stops := fun _ _ _ _ => nofun

theorem ite
    {condition : Prop}
    [Decidable condition]
    {first second : Option τ}
    {program other : ParserM δ α}
    (firstComputes : Computes view first program)
    (secondComputes : Computes view second other) :
    Computes view (if condition then first else second)
      (if condition then program else other) := by
  split
  · exact firstComputes
  · exact secondComputes

theorem orStop
    {result : τ → α}
    (viewed : ∀ value, view (result value) = value)
    (found : Option τ) :
    Computes (δ := δ) view found (DeviceParser.orStop (found.map result)) := by
  cases found with
  | none => exact stop _
  | some value => exact pure (viewed value)

theorem unchanged
    {meaning : Option τ}
    {program : ParserM δ α}
    (computes : Computes view meaning program)
    {parser last : DeviceParser δ}
    {result : α}
    (returns : program parser = .ok result last) :
    last = parser := by
  cases isMeaning : meaning with
  | none => exact absurd returns (computes.stops isMeaning _ _ _)
  | some value =>
      obtain ⟨_, ran, _⟩ := computes.means value isMeaning parser
      rw [ran] at returns
      cases returns
      rfl

theorem ends
    {meaning : Option τ}
    {program : ParserM δ α}
    (computes : Computes view meaning program) :
    EndsMappings 0 program := by
  intro parser result last returns surplus closes
  rw [computes.unchanged returns] at closes
  rwa [Int.add_zero]

theorem bind
    {σ : Type}
    {look : β → σ}
    {meaning : Option τ}
    {program : ParserM δ α}
    (computes : Computes view meaning program)
    {conclude : τ → Option σ}
    {later : α → ParserM δ β}
    (laterComputes :
      ∀ value, Computes look (conclude (view value)) (later value)) :
    Computes look (meaning.bind conclude) (program >>= later) where
  means := by
    intro value isValue parser
    obtain ⟨middle, isMiddle, concludes⟩ := Option.bind_eq_some_iff.mp isValue
    obtain ⟨result, ran, rfl⟩ := computes.means middle isMiddle parser
    obtain ⟨final, computed, isFinal⟩ :=
      (laterComputes result).means value concludes parser
    exact ⟨final, (bind_of_ok ran _).trans computed, isFinal⟩
  stops := by
    intro isNone parser final last returns
    obtain ⟨result, middle, ran, computed⟩ := bind_eq_ok returns
    cases isMeaning : meaning with
    | none => exact absurd ran (computes.stops isMeaning _ _ _)
    | some value =>
        obtain ⟨_, ran', rfl⟩ := computes.means value isMeaning parser
        rw [ran'] at ran
        cases ran
        rw [isMeaning] at isNone
        exact absurd computed ((laterComputes result).stops isNone _ _ _)

end Computes

namespace Interprets

variable {segment rest : List YamlEvent} {view : α → τ}
variable {σ : Type} {look : β → σ}

/-- A program may look at the parser first. -/
theorem read
    {meaning : Option τ}
    (look : DeviceParser δ → β)
    {later : β → ParserM δ α}
    (interprets :
      ∀ value, Interprets segment rest view meaning (later value)) :
    Interprets segment rest view meaning (Program.read look >>= later) where
  means := fun value isValue parser =>
    (interprets _).means value isValue parser
  strays := fun isNone parser =>
    (interprets _).strays isNone parser

/-- When nothing can be concluded but the program goes on, nothing was meant. -/
theorem meaning_eq_none
    {meaning : Option τ}
    {program : ParserM δ α}
    (interprets : Interprets segment rest view meaning program)
    {conclude : τ → Option σ}
    {later : α → ParserM δ β}
    (computes : ∀ value, Computes look (conclude (view value)) (later value))
    (isNone : meaning.bind conclude = none)
    {parser middle behind last : DeviceParser δ}
    {result : α}
    {final : β}
    (ran : program (parser.facing (segment ++ rest)) = .ok result middle)
    (computed : later result behind = .ok final last) :
    meaning = none := by
  cases isMeaning : meaning with
  | none => rfl
  | some value =>
      obtain ⟨_, ran', rfl⟩ := interprets.means value isMeaning parser
      rw [ran'] at ran
      cases ran
      rw [isMeaning] at isNone
      exact absurd computed ((computes result).stops isNone _ _ _)

/-- What is computed from a value that was read. -/
theorem bind
    {meaning : Option τ}
    {program : ParserM δ α}
    (interprets : Interprets segment rest view meaning program)
    {conclude : τ → Option σ}
    {later : α → ParserM δ β}
    (computes : ∀ value, Computes look (conclude (view value)) (later value)) :
    Interprets segment rest look (meaning.bind conclude) (program >>= later) where
  means := by
    intro value isValue parser
    obtain ⟨middle, isMiddle, concludes⟩ := Option.bind_eq_some_iff.mp isValue
    obtain ⟨result, ran, rfl⟩ := interprets.means middle isMiddle parser
    obtain ⟨final, computed, isFinal⟩ :=
      (computes result).means value concludes (parser.facing rest)
    exact ⟨final, (bind_of_ok ran _).trans computed, isFinal⟩
  strays := by
    intro isNone parser final last returns
    obtain ⟨result, middle, ran, computed⟩ := bind_eq_ok returns
    rw [(computes result).unchanged computed]
    exact interprets.strays
      (interprets.meaning_eq_none computes isNone ran computed)
      parser result middle ran

/-- The end of a mapping or a sequence behind what was read of it. -/
theorem close
    {type : YamlEvent}
    (isEnd : type.Ends)
    (more : rest ≠ [])
    {meaning : Option τ}
    {program : ParserM δ α}
    (interprets : Interprets segment (type :: rest) view meaning program)
    {conclude : τ → Option σ}
    {later : α → ParserM δ β}
    (computes : ∀ value, Computes look (conclude (view value)) (later value)) :
    Interprets (segment ++ [type]) rest look (meaning.bind conclude)
      (do
        let value ← program
        deviceParserExpect (ofType type)
        later value) where
  means := by
    intro value isValue parser
    obtain ⟨middle, isMiddle, concludes⟩ := Option.bind_eq_some_iff.mp isValue
    obtain ⟨result, ran, rfl⟩ := interprets.means middle isMiddle parser
    obtain ⟨final, computed, isFinal⟩ :=
      (computes result).means value concludes (parser.facing rest)
    have closes :
        deviceParserExpect (ofType type) (parser.facing (type :: rest)) =
          .ok () (parser.facing rest) :=
      deviceParserExpect_type (absurd · more) parser
    refine ⟨final, ?_, isFinal⟩
    rw [List.append_assoc, List.singleton_append, bind_of_ok ran,
      bind_of_ok closes]
    exact computed
  strays := by
    intro isNone parser final last returns
    rw [List.append_assoc, List.singleton_append] at returns
    obtain ⟨result, middle, ran, returns⟩ := bind_eq_ok returns
    obtain ⟨nothing, behind, closed, computed⟩ := bind_eq_ok returns
    rw [(computes result).unchanged computed]
    have isNothing := interprets.meaning_eq_none computes isNone ran computed
    have astray := interprets.strays isNothing parser result middle ran
    exact .inl (astray.close isEnd closed)

/-- A value that has to be a scalar. -/
theorem expectText
    (more : rest ≠ [])
    (node : YamlNode)
    {size : Nat}
    {meaning : CString → Option τ}
    {later : CString → ParserM δ α}
    (computes : ∀ text, Computes view (meaning text) (later text)) :
    Interprets node.events rest view ((node.text size).bind meaning)
      (do
        let text ← deviceParserExpect (scalar size)
        later text) := by
  cases isText : node.text size with
  | some text =>
      have ran :
          ∀ parser : DeviceParser δ,
            deviceParserExpect (scalar size)
                (parser.facing (node.events ++ rest)) =
              .ok text (parser.facing rest) :=
        fun parser => bind_of_ok (deviceParserAccept_text isText more parser) _
      refine ⟨?_, ?_⟩
      · intro value isValue parser
        obtain ⟨result, computed, isResult⟩ :=
          (computes text).means value isValue (parser.facing rest)
        exact ⟨result, (bind_of_ok (ran parser) _).trans computed, isResult⟩
      · intro isNone parser result last returns
        rw [bind_of_ok (ran parser)] at returns
        exact absurd returns ((computes text).stops isNone _ _ _)
  | none =>
      refine ⟨nofun, ?_⟩
      intro _ parser result last returns
      have stops :
          deviceParserExpect (scalar size)
              (parser.facing (node.events ++ rest)) =
            .error (.exit 1) (parser.facing (node.events ++ rest)) :=
        bind_of_ok (deviceParserAccept_noText isText rest parser).2 _
      rw [bind_of_error stops] at returns
      cases returns

/-- A value that may be a scalar, and is read otherwise if it is none. -/
theorem acceptTextOr
    (more : rest ≠ [])
    (node : YamlNode)
    {size : Nat}
    {meaning : CString → Option τ}
    {other : Option τ}
    {later : Option CString → ParserM δ α}
    (computes : ∀ text, Computes view (meaning text) (later (some text)))
    (interprets :
      node.text size = none →
      Interprets node.events rest view other (later none)) :
    Interprets node.events rest view ((node.text size).elim other meaning)
      (do
        let accepted ← deviceParserAccept (scalar size)
        later accepted) := by
  cases isText : node.text size with
  | some text =>
      have ran := deviceParserAccept_text (δ := δ) isText more
      refine ⟨?_, ?_⟩
      · intro value isValue parser
        obtain ⟨result, computed, isResult⟩ :=
          (computes text).means value isValue (parser.facing rest)
        exact ⟨result, (bind_of_ok (ran parser) _).trans computed, isResult⟩
      · intro isNone parser result last returns
        rw [bind_of_ok (ran parser)] at returns
        exact absurd returns ((computes text).stops isNone _ _ _)
  | none =>
      have interprets := interprets isText
      have passes :=
        fun parser : DeviceParser δ =>
          (deviceParserAccept_noText isText rest parser).2
      refine ⟨?_, ?_⟩
      · intro value isValue parser
        obtain ⟨result, ran, isResult⟩ := interprets.means value isValue parser
        exact ⟨result, (bind_of_ok (passes parser) _).trans ran, isResult⟩
      · intro isNone parser result last returns
        rw [bind_of_ok (passes parser)] at returns
        exact interprets.strays isNone parser result last returns

/-- A value that is only taken when it is a scalar. -/
theorem acceptText
    (more : rest ≠ [])
    (node : YamlNode)
    {size : Nat}
    {meaning : CString → Option τ}
    {later : Option CString → ParserM δ α}
    (computes : ∀ text, Computes view (meaning text) (later (some text)))
    {stale : Option τ}
    (computesNone : Computes view stale (later none)) :
    Interprets node.events rest view ((node.text size).bind meaning)
      (do
        let accepted ← deviceParserAccept (scalar size)
        later accepted) := by
  have interprets :
      Interprets node.events rest view ((node.text size).elim none meaning)
        (do
          let accepted ← deviceParserAccept (scalar size)
          later accepted) := by
    refine acceptTextOr more node computes fun isText => ⟨nofun, ?_⟩
    intro _ parser result last returns
    rw [computesNone.unchanged returns]
    exact .inr (deviceParserAccept_noText isText rest parser).1
  cases isText : node.text size with
  | none => rwa [isText] at interprets
  | some text => rwa [isText] at interprets

/-- A value that has to open with a given event, and what is inside it. -/
theorem expectStart
    {ι : Type}
    {start : YamlEvent}
    {node : YamlNode}
    {inside : Option ι}
    {segment : ι → List YamlEvent}
    (opened :
      (∃ found, node.events = start :: segment found ∧ inside = some found) ∨
        ∃ event later,
          node.events = event :: later ∧ inside = none ∧
            ofType start event = none)
    (more : rest ≠ [])
    {meaning : ι → Option τ}
    {body : ParserM δ α}
    (interprets :
      ∀ found, Interprets (segment found) rest view (meaning found) body) :
    Interprets node.events rest view (inside.bind meaning)
      (do
        deviceParserExpect (ofType start)
        body) := by
  rcases opened with
    ⟨found, events, isFound⟩ | ⟨event, after, events, isNone, passed⟩
  · rw [events, isFound]
    have ran :
        ∀ parser : DeviceParser δ,
          deviceParserExpect (ofType start)
              (parser.facing (start :: (segment found ++ rest))) =
            .ok () (parser.facing (segment found ++ rest)) :=
      deviceParserExpect_type fun isEmpty =>
        absurd (List.append_eq_nil_iff.mp isEmpty).2 more
    refine ⟨?_, ?_⟩
    · intro value isValue parser
      rw [List.cons_append, bind_of_ok (ran parser)]
      exact (interprets found).means value isValue parser
    · intro isNone parser result last returns
      rw [List.cons_append, bind_of_ok (ran parser)] at returns
      exact (interprets found).strays isNone parser result last returns
  · rw [events, isNone]
    refine ⟨nofun, ?_⟩
    intro _ parser result last returns
    rw [List.cons_append, bind_of_error (deviceParserExpect_none passed)]
      at returns
    cases returns

/--
A value whose mapping is only started when there is one: behind any other node
a mapping is ended too many.
-/
theorem acceptMapping
    (node : YamlNode)
    {meaning : List (YamlNode × YamlNode) → Option τ}
    {body : ParserM δ α}
    (interprets :
      ∀ pairs,
        Interprets (pairsEvents pairs ++ [.mappingEnd]) rest view
          (meaning pairs) body)
    (ends : EndsMappings 1 body) :
    Interprets node.events rest view (node.pairs.bind meaning)
      (do
        let _ ← deviceParserAccept (ofType .mappingStart)
        body) := by
  rcases node.pairs_cases with
    ⟨pairs, events, isPairs⟩ | ⟨event, after, events, isPairs, passed⟩
  · rw [events, isPairs]
    have ran :
        ∀ parser : DeviceParser δ,
          deviceParserAccept (ofType .mappingStart)
              (parser.facing
                (.mappingStart :: (pairsEvents pairs ++ [.mappingEnd] ++ rest))) =
            .ok (some ())
              (parser.facing (pairsEvents pairs ++ [.mappingEnd] ++ rest)) :=
      deviceParserAccept_some (if_pos rfl) (by simp)
    refine ⟨?_, ?_⟩
    · intro value isValue parser
      rw [List.cons_append, bind_of_ok (ran parser)]
      exact (interprets pairs).means value isValue parser
    · intro isNone parser result last returns
      rw [List.cons_append, bind_of_ok (ran parser)] at returns
      exact (interprets pairs).strays isNone parser result last returns
  · rw [isPairs]
    refine ⟨nofun, ?_⟩
    intro _ parser result last returns
    refine .inl fun surplus closes => ?_
    rw [events, List.cons_append,
      bind_of_ok (deviceParserAccept_none passed)] at returns
    have before := ends _ result last returns surplus closes
    rw [events_facing, ← List.cons_append, ← events] at before
    exact (closes_node node _ rest).mp before

end Interprets

end Cdba
