import Cdba.BoardTree

namespace Cdba

/-!
# The configuration as a tree

`device_parser` accepts a configuration when its only document means a list of
devices, and adds these.
-/

open Program
open DeviceParser

variable {δ α β : Type}

/-! ## Streams that are read to their end -/

/-- A program that returns had at least so many mappings to end. -/
def NeedsEnds (count : Int) (program : ParserM δ α) : Prop :=
  ∀ parser value last,
    program parser = .ok value last → Closes count parser.events

theorem NeedsEnds.bind
    {first second : Int}
    {program : ParserM δ α}
    {later : α → ParserM δ β}
    (ends : EndsMappings first program)
    (needs : ∀ value, NeedsEnds second (later value)) :
    NeedsEnds (second + first) (program >>= later) := by
  intro parser value last returns
  obtain ⟨middleValue, middle, ran, returns⟩ := bind_eq_ok returns
  exact ends parser middleValue middle ran second
    (needs middleValue middle value last returns)

/-- A program that insists on the end of the stream. -/
theorem NeedsEnds.streamEnd
    (later : Unit → ParserM δ α) :
    NeedsEnds 0 (deviceParserExpect (ofType .streamEnd) >>= later) := by
  intro parser value last returns
  by_cases isEnd : parser.event = .streamEnd
  · simp [DeviceParser.events, Closes, isEnd]
  · have passed : ofType .streamEnd parser.event = none := if_neg isEnd
    rw [bind_of_error (deviceParserExpect_none passed)] at returns
    cases returns

/-- What is read behind the boards. -/
def afterBoards : ConfigM Int := do
  deviceParserExpect (ofType .mappingEnd)
  deviceParserExpect (ofType .documentEnd)
  deviceParserExpect (ofType .streamEnd)
  pure 0

theorem afterBoards_needs :
    NeedsEnds 1 afterBoards := by
  have document :
      NeedsEnds (δ := DeviceConfig) (α := Int) 0
        (do
          deviceParserExpect (ofType .documentEnd)
          deviceParserExpect (ofType .streamEnd)
          pure 0) :=
    .bind (.expectType (by decide)) fun _ => .streamEnd _
  exact .bind (.expectType (by decide)) fun _ => document

/-- What is read behind the start of the document. -/
def rootMapping : ConfigM Int := do
  deviceParserExpect (ofType .mappingStart)
  let key ← deviceParserAccept (scalar tokenLength)
  onlyIf key.isSome parseBoards
  afterBoards

theorem deviceParser_eq
    (event : YamlEvent)
    (later : List YamlEvent)
    (parser : DeviceParser DeviceConfig) :
    deviceParser (some (event :: later)) parser =
      (do
        deviceParserExpect (ofType .streamStart)
        deviceParserExpect (ofType .documentStart)
        rootMapping)
        (parser.facing (event :: later)) :=
  rfl

theorem parseBoards_ends :
    EndsMappings 0 parseBoards := by
  have board :
      EndsMappings (δ := DeviceConfig) (-1)
        (deviceParserExpect (ofType .mappingStart)) :=
    .expectType (by decide)
  refine .andThen (EndsMappings.expectType (by decide)) fun _ =>
    .andThen ?_ fun _ => EndsMappings.expectType (by decide)
  exact .whileAccepted (by decide) board rfl (fun _ _ => boardClose_ends) ()

theorem rootMapping_needs :
    NeedsEnds 0 rootMapping := by
  have boards :
      ∀ key : Option CString,
        NeedsEnds 1
          (do
            onlyIf key.isSome parseBoards
            afterBoards) := by
    intro key
    cases key with
    | none => exact .bind (.pure ()) fun _ => afterBoards_needs
    | some _ => exact .bind parseBoards_ends fun _ => afterBoards_needs
  have key :
      NeedsEnds 1
        (do
          let key ← deviceParserAccept (scalar tokenLength)
          onlyIf key.isSome parseBoards
          afterBoards) :=
    .bind (.acceptScalar _) boards
  exact .bind (.expectType (by decide)) fun _ => key

/-- Behind a document there is no other mapping to end. -/
theorem closes_documentEvents
    (documents : List YamlNode)
    (count : Int) :
    Closes count (documentEvents documents) ↔ count ≤ 0 := by
  induction documents with
  | nil =>
      exact Iff.rfl
  | cons root documents inductionHypothesis =>
      rw [documentEvents, closes_cons (by decide), closes_node,
        closes_cons (by decide)]
      simpa [YamlEvent.ends] using inductionHypothesis

/-- Behind the boards there is one mapping to end. -/
theorem not_closes_behind
    (pairs : List (YamlNode × YamlNode))
    (documents : List YamlNode) :
    ¬ Closes (1 + 1)
        (pairsEvents pairs ++
          .mappingEnd :: .documentEnd :: documentEvents documents) := by
  rw [closes_pairs, closes_cons (by decide), closes_cons (by decide),
    closes_documentEvents]
  decide

/-- Behind its boards, a stream is only accepted when it ends there. -/
theorem afterBoards_ok
    {parser last : DeviceParser DeviceConfig}
    {pairs : List (YamlNode × YamlNode)}
    {documents : List YamlNode}
    {status : Int}
    (returns :
      afterBoards
          (parser.facing
            (pairsEvents pairs ++
              .mappingEnd :: .documentEnd :: documentEvents documents)) =
        .ok status last) :
    pairs = [] ∧ documents = [] := by
  cases pairs with
  | cons pair pairs =>
      obtain ⟨event, later, events⟩ :
          ∃ event later, pair.1.events = event :: later := by
        cases pair.1 <;> exact ⟨_, _, rfl⟩
      have passed := YamlNode.opens events .mappingEnd
      rw [pairsEvents, events, afterBoards, List.cons_append, List.cons_append,
        bind_of_error (deviceParserExpect_none passed)] at returns
      cases returns
  | nil =>
      refine ⟨rfl, ?_⟩
      cases documents with
      | nil => rfl
      | cons root documents => cases returns

theorem adding_nil
    (parser : DeviceParser DeviceConfig) :
    parser.adding [] = parser := by
  rw [DeviceParser.adding, List.append_nil]

/-- The sequence of the boards. -/
theorem parseBoards_means
    {boards : List YamlNode}
    {devices : List DeviceConfig}
    (areDevices : boardsDevices? boards = some devices)
    {rest : List YamlEvent}
    (more : rest ≠ [])
    (parser : DeviceParser DeviceConfig) :
    parseBoards
        (parser.facing
          (.sequenceStart :: (itemsEvents boards ++ .sequenceEnd :: rest))) =
      .ok () ((parser.adding devices).facing rest) := by
  have longer := length_le_itemsEvents boards
  have left := length_le_remaining parser (itemsEvents boards) .sequenceEnd rest
  have looped :=
    boardsLoop_means areDevices (Nat.lt_succ_of_le (Nat.le_trans longer left))
      parser rest
  rw [parseBoards, bind_of_ok (deviceParserExpect_type (by simp) parser)]
  exact (bind_of_ok looped _).trans (deviceParserExpect_type (absurd · more) _)

theorem parseBoards_strays
    {boards : List YamlNode}
    (isNone : boardsDevices? boards = none)
    {rest : List YamlEvent}
    {parser last : DeviceParser DeviceConfig}
    (returns :
      parseBoards
          (parser.facing
            (.sequenceStart :: (itemsEvents boards ++ .sequenceEnd :: rest))) =
        .ok () last) :
    EndedTooMany rest last := by
  rw [parseBoards, bind_of_ok (deviceParserExpect_type (by simp) parser)]
    at returns
  obtain ⟨_, middle, looped, closes⟩ := bind_eq_ok returns
  rcases boardsLoop_strays isNone looped with tooMany | passed
  · exact Astray.close .sequenceEnd (.inl tooMany) closes
  · rw [deviceParserExpect_none passed] at closes
    cases closes

theorem rootMapping_means
    {root : YamlNode}
    {devices : List DeviceConfig}
    (areDevices : rootDevices? root = some devices)
    (parser : DeviceParser DeviceConfig) :
    rootMapping
        (parser.facing (root.events ++ .documentEnd :: documentEvents [])) =
      .ok 0 ((parser.adding devices).facing []) := by
  obtain ⟨pairs, isPairs, means⟩ := Option.bind_eq_some_iff.mp areDevices
  cases root <;> cases isPairs
  rw [YamlNode.events, List.cons_append, List.append_assoc,
    List.singleton_append, rootMapping,
    bind_of_ok (deviceParserExpect_type (by simp) parser)]
  split at means
  · cases means
    rw [adding_nil]
    exact bind_of_ok (deviceParserAccept_none rfl) _
  · rename_i key boards
    obtain ⟨text, isText, means⟩ := Option.bind_eq_some_iff.mp means
    obtain ⟨items, isItems, means⟩ := Option.bind_eq_some_iff.mp means
    cases boards <;> cases isItems
    have ran :=
      parseBoards_means means
        (show [YamlEvent.mappingEnd, .documentEnd, .streamEnd] ≠ [] by simp)
        parser
    rw [pairsEvents, List.append_assoc,
      bind_of_ok (deviceParserAccept_text isText (by simp) parser)]
    simp only [YamlNode.events, pairsEvents, List.cons_append,
      List.append_nil, List.append_assoc]
    exact bind_of_ok ran _
  · cases means

/-- A document that is accepted is the last one, and means devices. -/
theorem rootMapping_ok
    {root : YamlNode}
    {documents : List YamlNode}
    {parser last : DeviceParser DeviceConfig}
    {status : Int}
    (returns :
      rootMapping
          (parser.facing
            (root.events ++ .documentEnd :: documentEvents documents)) =
        .ok status last) :
    documents = [] ∧ ∃ devices, rootDevices? root = some devices := by
  rcases root.pairs_cases with
    ⟨pairs, events, isPairs⟩ | ⟨event, later, events, isPairs, passed⟩
  · rw [events, List.cons_append, List.append_assoc, List.singleton_append,
      rootMapping, bind_of_ok (deviceParserExpect_type (by simp) parser)]
      at returns
    rw [rootDevices?, isPairs]
    cases pairs with
    | nil =>
        have after :
            afterBoards
                (parser.facing
                  (pairsEvents [] ++
                    .mappingEnd :: .documentEnd :: documentEvents documents)) =
              .ok status last :=
          returns
        exact ⟨(afterBoards_ok after).2, [], rfl⟩
    | cons pair pairs =>
        obtain ⟨key, boards⟩ := pair
        rw [pairsEvents, List.append_assoc, List.append_assoc] at returns
        cases isText : key.text tokenLength with
        | none =>
            obtain ⟨opens, passed⟩ := deviceParserAccept_noText isText _ parser
            rw [bind_of_ok passed] at returns
            have stops :=
              deviceParserExpect_none (opens.passed .mappingEnd)
            have never := returns.symm.trans (bind_of_error stops _)
            cases never
        | some text =>
            rw [bind_of_ok (deviceParserAccept_text isText (by simp) parser)]
              at returns
            obtain ⟨_, middle, ran, after⟩ := bind_eq_ok returns
            change parseBoards _ = _ at ran
            rcases boards.items_cases with
              ⟨items, events, isItems⟩ | ⟨event, later, events, _, passed⟩
            · rw [events, List.cons_append, List.append_assoc,
                List.singleton_append] at ran
              cases areDevices : boardsDevices? items with
              | none =>
                  have tooMany := parseBoards_strays areDevices ran
                  have closes :=
                    tooMany 1 (afterBoards_needs middle status last after)
                  exact absurd closes (not_closes_behind pairs documents)
              | some devices =>
                  have same :=
                    (parseBoards_means areDevices (by simp) parser).symm.trans
                      ran
                  cases same
                  obtain ⟨rfl, isLast⟩ := afterBoards_ok after
                  refine ⟨isLast, devices, ?_⟩
                  simp [isText, isItems, areDevices]
            · rw [events, List.cons_append, parseBoards,
                bind_of_error (deviceParserExpect_none passed)] at ran
              cases ran
  · rw [events, List.cons_append, rootMapping,
      bind_of_error (deviceParserExpect_none passed)] at returns
    cases returns

/-! ## Accepted configurations -/

/-- `device_parser` accepts a stream of events and adds these devices. -/
def Adds
    (parser : DeviceParser DeviceConfig)
    (events : List YamlEvent)
    (devices : List DeviceConfig) :
    Prop :=
  ∃ last,
    deviceParser (some events) parser = .ok 0 last ∧
      last.devices = parser.devices ++ devices

/-- `device_parser` accepts a stream of events. -/
def Accepts
    (parser : DeviceParser DeviceConfig)
    (events : List YamlEvent) :
    Prop :=
  ∃ last, deviceParser (some events) parser = .ok 0 last

/-- Only a stream that ends is accepted. -/
theorem Accepts.streamEnd_mem
    {parser : DeviceParser DeviceConfig}
    {events : List YamlEvent}
    (accepts : Accepts parser events) :
    YamlEvent.streamEnd ∈ events := by
  obtain ⟨last, returns⟩ := accepts
  cases events with
  | nil =>
      cases returns
  | cons event later =>
      have document :
          NeedsEnds 0
            (do
              deviceParserExpect (ofType .documentStart)
              rootMapping) :=
        .bind (.expectType (by decide)) fun _ => rootMapping_needs
      have whole :
          NeedsEnds 0
            (do
              deviceParserExpect (ofType .streamStart)
              deviceParserExpect (ofType .documentStart)
              rootMapping) :=
        .bind (.expectType (by decide)) fun _ => document
      rw [deviceParser_eq] at returns
      exact (whole _ _ _ returns).streamEnd_mem

theorem deviceParser_means
    {documents : List YamlNode}
    {devices : List DeviceConfig}
    (means : streamDevices? documents = some devices)
    (parser : DeviceParser DeviceConfig) :
    Adds parser (streamEvents documents) devices := by
  rcases documents with _ | ⟨root, _ | ⟨other, documents⟩⟩
  · cases means
  · have ran := rootMapping_means means parser
    refine ⟨(parser.adding devices).facing [], ?_, rfl⟩
    rw [streamEvents, documentEvents, deviceParser_eq,
      bind_of_ok (deviceParserExpect_type (by simp) parser),
      bind_of_ok (deviceParserExpect_type (by simp) parser)]
    exact ran
  · cases means

theorem deviceParser_ok
    {parser last : DeviceParser DeviceConfig}
    {documents : List YamlNode}
    {status : Int}
    (returns :
      deviceParser (some (streamEvents documents)) parser =
        .ok status last) :
    ∃ devices, streamDevices? documents = some devices := by
  cases documents with
  | nil => cases returns
  | cons root documents =>
      rw [streamEvents, documentEvents, deviceParser_eq,
        bind_of_ok (deviceParserExpect_type (by simp) parser),
        bind_of_ok (deviceParserExpect_type (by simp) parser)] at returns
      obtain ⟨rfl, devices, areDevices⟩ := rootMapping_ok returns
      exact ⟨devices, areDevices⟩

/-- The devices that are added are those that the stream means. -/
theorem deviceParser_adds_iff
    (parser : DeviceParser DeviceConfig)
    (documents : List YamlNode)
    (devices : List DeviceConfig) :
    Adds parser (streamEvents documents) devices ↔
      streamDevices? documents = some devices := by
  constructor
  · rintro ⟨last, returns, added⟩
    obtain ⟨found, means⟩ := deviceParser_ok returns
    obtain ⟨final, returns', added'⟩ := deviceParser_means means parser
    rw [returns'] at returns
    cases returns
    rw [means, List.append_cancel_left (added'.symm.trans added)]
  · intro means
    exact deviceParser_means means parser

theorem Adds.accepts
    {parser : DeviceParser DeviceConfig}
    {events : List YamlEvent}
    {devices : List DeviceConfig}
    (adds : Adds parser events devices) :
    Accepts parser events := by
  obtain ⟨last, returns, _⟩ := adds
  exact ⟨last, returns⟩

/-- Nothing is added of a stream that breaks off. -/
theorem adds_take_iff
    (parser : DeviceParser DeviceConfig)
    (documents : List YamlNode)
    (delivered : Nat)
    (devices : List DeviceConfig) :
    Adds parser ((streamEvents documents).take delivered) devices ↔
      (streamEvents documents).length ≤ delivered ∧
        streamDevices? documents = some devices := by
  rw [← deviceParser_adds_iff parser]
  constructor
  · intro adds
    have whole := take_streamEvents adds.accepts.streamEnd_mem
    refine ⟨?_, by rwa [whole] at adds⟩
    have same := congrArg List.length whole
    rw [List.length_take] at same
    omega
  · rintro ⟨all, adds⟩
    rwa [List.take_of_length_le all]

/-- What is accepted adds devices. -/
theorem accepts_take_iff
    (parser : DeviceParser DeviceConfig)
    (documents : List YamlNode)
    (delivered : Nat) :
    Accepts parser ((streamEvents documents).take delivered) ↔
      ∃ devices,
        Adds parser ((streamEvents documents).take delivered) devices := by
  constructor
  · intro accepts
    have whole := take_streamEvents accepts.streamEnd_mem
    rw [whole] at accepts ⊢
    obtain ⟨last, returns⟩ := accepts
    obtain ⟨devices, means⟩ := deviceParser_ok returns
    exact ⟨devices, deviceParser_means means parser⟩
  · rintro ⟨devices, adds⟩
    exact adds.accepts

end Cdba
