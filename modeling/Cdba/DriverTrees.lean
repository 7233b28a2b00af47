import Cdba.NodeReading

namespace Cdba

/-!
# What the options of a driver mean

The options of the three drivers, read off the tree instead of the events.  A
mapping means something when each of its keys is known and has a value of the
right kind; the parser takes just those.
-/

open Program
open DeviceParser

variable {δ : Type}

/-! ## Laurent relays -/

/-- One option of `laurent`. -/
def laurentOption
    (options : LaurentOptions)
    (key value : CString) :
    Option LaurentOptions :=
  if key = ascii "server" then
    some { options with server := some value }
  else if key = ascii "password" then
    some { options with password := value }
  else if key = ascii "relay" then
    some { options with relay := unsignedOf 0 value }
  else if key = ascii "usb_relay" then
    some { options with usbRelay := toInt32 (strtoul 0 value) }
  else
    none

/-- The options in a node, of which the server is required. -/
def laurentNode (node : YamlNode) : Option LaurentOptions :=
  node.pairs.bind fun pairs =>
    (readPairs laurentTokenLength (textStep laurentTokenLength laurentOption)
        ⟨none, ascii "Laurent", 0, -1⟩ pairs).bind fun options =>
      if options.server = none then none else some options

theorem laurentKey_ends
    (options : LaurentOptions)
    (key : CString) :
    EndsMappings (δ := δ) 0 (laurentKey options key) :=
  .andThen (.expectScalar _) fun _ =>
    .ite (.pure _) (.ite (.pure _) (.ite (.pure _) (.ite (.pure _) (.stop _))))

theorem laurentKey_interprets
    (options : LaurentOptions)
    (key : CString)
    (node : YamlNode)
    (rest : List YamlEvent)
    (more : rest ≠ []) :
    Interprets (δ := δ) node.events rest id
      (textStep laurentTokenLength laurentOption options key node)
      (laurentKey options key) :=
  .expectText more node fun _ =>
    .ite (.pure rfl)
      (.ite (.pure rfl) (.ite (.pure rfl) (.ite (.pure rfl) (.stop _))))

/-- What follows the start of the mapping. -/
theorem laurentClose_ends :
    EndsMappings (δ := δ) 1
      (do
        let options ←
          whileAccepted (scalar laurentTokenLength) laurentKey
            ⟨none, ascii "Laurent", 0, -1⟩
        deviceParserExpect (ofType .mappingEnd)
        if options.server = none then stop (.exit 1) else pure options) :=
  .close (.whileScalars laurentKey_ends _) fun _ => .ite (.stop _) (.pure _)

theorem laurentParseOptions_ends :
    EndsMappings (δ := δ) 0 laurentParseOptions :=
  .acceptMapping laurentClose_ends

theorem laurentParseOptions_interprets
    (node : YamlNode)
    (rest : List YamlEvent)
    (more : rest ≠ []) :
    Interprets (δ := δ) node.events rest id (laurentNode node)
      laurentParseOptions :=
  .acceptMapping node
    (fun pairs =>
      .close .mappingEnd more
        (whileAccepted_interprets _ laurentKey_interprets laurentKey_ends _
          pairs rest)
        fun _ => .ite (.stop _) (.pure rfl))
    laurentClose_ends

/-! ## Local GPIOs -/

/-- One option of a local GPIO. -/
def localGpioLineOption
    (gpio : LocalGpio)
    (options : LocalGpioOptions)
    (key value : CString) :
    Option LocalGpioOptions :=
  if key = ascii "chip" then
    some (options.setGpio gpio fun line => { line with chip := some value })
  else if key = ascii "line" then
    some
      (options.setGpio gpio fun line =>
        { line with offset := unsignedOf 0 value })
  else if key = ascii "active_low" then
    if value = ascii "true" then
      some (options.setGpio gpio fun line => { line with activeLow := true })
    else
      some options
  else
    none

/-- The options of one local GPIO, which is present when there is a mapping. -/
def localGpioSection
    (options : LocalGpioOptions)
    (key : CString)
    (node : YamlNode) :
    Option LocalGpioOptions :=
  (localGpioKey? key).bind fun gpio =>
    node.pairs.bind fun pairs =>
      (readPairs tokenLength (textStep tokenLength (localGpioLineOption gpio))
          options pairs).bind fun options =>
        some (options.setGpio gpio fun line => { line with present := true })

/-- The options in a node. -/
def localGpioNode (node : YamlNode) : Option LocalGpioOptions :=
  node.pairs.bind fun pairs =>
    (readPairs tokenLength localGpioSection
      ⟨fun _ => ⟨none, false, 0, false⟩⟩ pairs).bind some

/-- An option with its value, or with the value of an earlier one. -/
theorem localGpioOption_eq
    (gpio : LocalGpio)
    (read_ : LocalGpioOptions × CString)
    (key : CString) :
    localGpioOption (δ := δ) gpio read_ key =
      deviceParserAccept (scalar tokenLength) >>= fun accepted =>
        orStop
          ((localGpioLineOption gpio read_.1 key (accepted.getD read_.2)).map
            fun options => (options, accepted.getD read_.2)) := by
  rw [localGpioOption]
  congr 1
  funext accepted
  dsimp only [localGpioLineOption]
  split_ifs <;> rfl

theorem localGpioOption_ends
    (gpio : LocalGpio)
    (read_ : LocalGpioOptions × CString)
    (key : CString) :
    EndsMappings (δ := δ) 0 (localGpioOption gpio read_ key) :=
  .andThen (.acceptScalar _) fun _ =>
    .ite (.pure _) (.ite (.pure _) (.ite (.ite (.pure _) (.pure _)) (.stop _)))

theorem localGpioOption_interprets
    (gpio : LocalGpio)
    (read_ : LocalGpioOptions × CString)
    (key : CString)
    (node : YamlNode)
    (rest : List YamlEvent)
    (more : rest ≠ []) :
    Interprets (δ := δ) node.events rest Prod.fst
      (textStep tokenLength (localGpioLineOption gpio) read_.1 key node)
      (localGpioOption gpio read_ key) := by
  rw [localGpioOption_eq]
  exact .acceptText more node (fun _ => .orStop (fun _ => rfl) _)
    (.orStop (fun _ => rfl) _)

/-- What follows the start of the mapping of a GPIO. -/
theorem localGpioClose_ends
    (gpio : LocalGpio)
    (read_ : LocalGpioOptions × CString) :
    EndsMappings (δ := δ) 1
      (do
        let read_ ←
          whileAccepted (scalar tokenLength) (localGpioOption gpio) read_
        deviceParserExpect (ofType .mappingEnd)
        pure
          (read_.1.setGpio gpio fun line => { line with present := true },
            read_.2)) :=
  .close (.whileScalars (localGpioOption_ends gpio) _) fun _ => .pure _

theorem localGpioKey_ends
    (read_ : LocalGpioOptions × CString)
    (key : CString) :
    EndsMappings (δ := δ) 0 (localGpioKey read_ key) := by
  unfold localGpioKey
  split
  · exact .stop _
  · exact .acceptMapping (localGpioClose_ends _ _)

theorem localGpioKey_interprets
    (read_ : LocalGpioOptions × CString)
    (key : CString)
    (node : YamlNode)
    (rest : List YamlEvent)
    (more : rest ≠ []) :
    Interprets (δ := δ) node.events rest Prod.fst
      (localGpioSection read_.1 key node) (localGpioKey read_ key) := by
  unfold localGpioKey localGpioSection
  cases localGpioKey? key with
  | none =>
      exact ⟨nofun, fun _ _ _ _ => nofun⟩
  | some gpio =>
      exact .acceptMapping node
        (fun pairs =>
          .close .mappingEnd more
            (whileAccepted_interprets _ (localGpioOption_interprets gpio)
              (localGpioOption_ends gpio) _ pairs rest)
            fun _ => .pure rfl)
        (localGpioClose_ends gpio read_)

theorem localGpioParseOptions_ends :
    EndsMappings (δ := δ) 0 localGpioParseOptions :=
  .andThen (.read _) fun _ =>
    .expectMapping
      (.close (.whileScalars localGpioKey_ends _) fun _ => .pure _)

theorem localGpioParseOptions_interprets
    (node : YamlNode)
    (rest : List YamlEvent)
    (more : rest ≠ []) :
    Interprets (δ := δ) node.events rest id (localGpioNode node)
      localGpioParseOptions := by
  refine .read _ fun uninitialised => .expectStart node.pairs_cases more fun pairs => ?_
  refine .close .mappingEnd more
    (whileAccepted_interprets _ localGpioKey_interprets localGpioKey_ends
      (⟨fun _ => ⟨none, false, 0, false⟩⟩, uninitialised) pairs rest)
    fun read_ => ?_
  exact .pure rfl

/-! ## FTDI GPIOs -/

/-- One option of an FTDI GPIO. -/
def ftdiGpioLineOption
    (gpio : FtdiGpio)
    (options : FtdiGpioOptions)
    (key value : CString) :
    Option FtdiGpioOptions :=
  if key = ascii "line" then
    some
      (options.setGpio gpio fun line =>
        { line with offset := unsignedOf 0 value })
  else if key = ascii "interface" then
    (ftdiInterface? value).map fun interface =>
      options.setGpio gpio fun line => { line with interface := interface }
  else if key = ascii "active_low" then
    if value = ascii "true" then
      some (options.setGpio gpio fun line => { line with activeLow := true })
    else
      some options
  else
    none

/-- One option of the whole chip. -/
def ftdiGpioText
    (options : FtdiGpioOptions)
    (key value : CString) :
    Option FtdiGpioOptions :=
  if key = ascii "vendor" then
    some { options with vendor := some value }
  else if key = ascii "product" then
    some { options with product := some value }
  else if key = ascii "index" then
    some { options with index := unsignedOf 0 value }
  else if key = ascii "serial" then
    some { options with serial := some value }
  else if key = ascii "devicenode" then
    some { options with devicenode := some value }
  else
    none

/-- One key of `ftdi_gpio`: a GPIO with its options, or an option of the chip. -/
def ftdiGpioMember
    (options : FtdiGpioOptions)
    (key : CString)
    (node : YamlNode) :
    Option FtdiGpioOptions :=
  match ftdiGpioKey? key with
  | some gpio =>
      node.pairs.bind fun pairs =>
        (readPairs tokenLength (textStep tokenLength (ftdiGpioLineOption gpio))
            options pairs).bind fun options =>
          some (options.setGpio gpio fun line => { line with present := true })
  | none => textStep tokenLength ftdiGpioText options key node

/-- The options in a mapping. -/
def ftdiGpioMapping (node : YamlNode) : Option FtdiGpioOptions :=
  node.pairs.bind fun pairs =>
    (readPairs tokenLength ftdiGpioMember .zero pairs).bind some

/-- A parser that has nothing to read. -/
def idleParser : DeviceParser Unit where
  event := .noEvent
  upcoming := []
  uninitialised := []
  devices := []

/-- What the legacy form means, for which no events are read. -/
def legacyOptions? (value : CString) : Option FtdiGpioOptions :=
  returned? (ftdiGpioParseConfig .zero value idleParser)

/-- The options in a node: the legacy form in a scalar, or a mapping. -/
def ftdiGpioNode (node : YamlNode) : Option FtdiGpioOptions :=
  (node.text tokenLength).elim (ftdiGpioMapping node) legacyOptions?

/-- An option with its value, or with the value of an earlier one. -/
theorem ftdiGpioOption_eq
    (gpio : FtdiGpio)
    (read_ : FtdiGpioOptions × CString)
    (key : CString) :
    ftdiGpioOption (δ := δ) gpio read_ key =
      deviceParserAccept (scalar tokenLength) >>= fun accepted =>
        orStop
          ((ftdiGpioLineOption gpio read_.1 key (accepted.getD read_.2)).map
            fun options => (options, accepted.getD read_.2)) := by
  rw [ftdiGpioOption]
  congr 1
  funext accepted
  dsimp only [ftdiGpioLineOption]
  split_ifs
  · rfl
  · cases ftdiInterface? (accepted.getD read_.2) <;> rfl
  · rfl
  · rfl
  · rfl

theorem ftdiGpioOption_ends
    (gpio : FtdiGpio)
    (read_ : FtdiGpioOptions × CString)
    (key : CString) :
    EndsMappings (δ := δ) 0 (ftdiGpioOption gpio read_ key) := by
  rw [ftdiGpioOption_eq]
  exact .andThen (.acceptScalar _) fun _ => .orStop _

theorem ftdiGpioOption_interprets
    (gpio : FtdiGpio)
    (read_ : FtdiGpioOptions × CString)
    (key : CString)
    (node : YamlNode)
    (rest : List YamlEvent)
    (more : rest ≠ []) :
    Interprets (δ := δ) node.events rest Prod.fst
      (textStep tokenLength (ftdiGpioLineOption gpio) read_.1 key node)
      (ftdiGpioOption gpio read_ key) := by
  rw [ftdiGpioOption_eq]
  exact .acceptText more node (fun _ => .orStop (fun _ => rfl) _)
    (.orStop (fun _ => rfl) _)

theorem ftdiGpioKey_ends
    (read_ : FtdiGpioOptions × CString)
    (key : CString) :
    EndsMappings (δ := δ) 0 (ftdiGpioKey read_ key) := by
  unfold ftdiGpioKey
  split
  · rename_i gpio _
    exact .expectMapping
      (.close (.whileScalars (ftdiGpioOption_ends gpio) _) fun _ => .pure _)
  · exact .andThen (.expectScalar _) fun _ =>
      .ite (.pure _) (.ite (.pure _) (.ite (.pure _) (.ite (.pure _)
        (.ite (.pure _) (.stop _)))))

theorem ftdiGpioKey_interprets
    (read_ : FtdiGpioOptions × CString)
    (key : CString)
    (node : YamlNode)
    (rest : List YamlEvent)
    (more : rest ≠ []) :
    Interprets (δ := δ) node.events rest Prod.fst
      (ftdiGpioMember read_.1 key node) (ftdiGpioKey read_ key) := by
  unfold ftdiGpioKey ftdiGpioMember
  cases ftdiGpioKey? key with
  | some gpio =>
      exact .expectStart node.pairs_cases more fun pairs =>
        .close .mappingEnd more
          (whileAccepted_interprets _ (ftdiGpioOption_interprets gpio)
            (ftdiGpioOption_ends gpio) _ pairs rest)
          fun _ => .pure rfl
  | none =>
      exact .expectText more node fun _ =>
        .ite (.pure rfl) (.ite (.pure rfl) (.ite (.pure rfl) (.ite (.pure rfl)
          (.ite (.pure rfl) (.stop _)))))

/-- The loop over the GPIOs of the legacy form does not look at the parser. -/
theorem legacyGpios_same
    {ε : Type}
    (interface fuel : Nat)
    (options : FtdiGpioOptions)
    (name : Option CString)
    (parser : DeviceParser δ)
    (other : DeviceParser ε) :
    (∃ final,
      legacyGpios interface fuel options name parser = .ok final parser ∧
        legacyGpios interface fuel options name other = .ok final other) ∨
      ∃ reason,
        legacyGpios interface fuel options name parser =
            .error reason parser ∧
          legacyGpios interface fuel options name other =
            .error reason other := by
  induction fuel generalizing options name with
  | zero =>
      cases name with
      | none => exact .inl ⟨options, rfl, rfl⟩
      | some name => exact .inr ⟨.diverges, rfl, rfl⟩
  | succ fuel inductionHypothesis =>
      cases name with
      | none => exact .inl ⟨options, rfl, rfl⟩
      | some name =>
          rw [legacyGpios, legacyGpios]
          cases legacyGpio? interface options name with
          | none => exact .inr ⟨.exit 1, rfl, rfl⟩
          | some found => exact inductionHypothesis found.1 found.2

theorem ftdiGpioParseConfig_same
    {ε : Type}
    (value : CString)
    (parser : DeviceParser δ)
    (other : DeviceParser ε) :
    (∃ final,
      ftdiGpioParseConfig .zero value parser = .ok final parser ∧
        ftdiGpioParseConfig .zero value other = .ok final other) ∨
      ∃ reason,
        ftdiGpioParseConfig .zero value parser = .error reason parser ∧
          ftdiGpioParseConfig .zero value other = .error reason other := by
  rw [ftdiGpioParseConfig, ftdiGpioParseConfig]
  cases behind? semicolon value with
  | none => exact .inl ⟨_, rfl, rfl⟩
  | some config =>
      dsimp only
      cases ftdiInterface? config with
      | none => exact .inr ⟨.exit 1, rfl, rfl⟩
      | some interface => exact legacyGpios_same interface _ _ _ parser other

theorem ftdiGpioParseConfig_computes
    (value : CString) :
    Computes (δ := δ) id (legacyOptions? value)
      (ftdiGpioParseConfig .zero value) where
  means := by
    intro options isOptions parser
    rcases ftdiGpioParseConfig_same value parser idleParser with
      ⟨final, ran, same⟩ | ⟨reason, _, same⟩
    · rw [legacyOptions?, same] at isOptions
      cases isOptions
      exact ⟨options, ran, rfl⟩
    · rw [legacyOptions?, same] at isOptions
      cases isOptions
  stops := by
    intro isNone parser options last returns
    rcases ftdiGpioParseConfig_same value parser idleParser with
      ⟨final, _, same⟩ | ⟨reason, ran, _⟩
    · rw [legacyOptions?, same] at isNone
      cases isNone
    · rw [ran] at returns
      cases returns

/-- What follows the start of the mapping of the chip. -/
theorem ftdiGpioClose_ends
    (uninitialised : CString) :
    EndsMappings (δ := δ) 1
      (do
        let read_ ←
          whileAccepted (scalar tokenLength) ftdiGpioKey
            (.zero, uninitialised)
        deviceParserExpect (ofType .mappingEnd)
        pure read_.1) :=
  .close (.whileScalars ftdiGpioKey_ends _) fun _ => .pure _

theorem ftdiGpioParseOptions_ends :
    EndsMappings (δ := δ) 0 ftdiGpioParseOptions := by
  refine .andThen (.read _) fun uninitialised =>
    .andThen (.acceptScalar _) fun legacy => ?_
  cases legacy with
  | some value => exact (ftdiGpioParseConfig_computes value).ends
  | none => exact .acceptMapping (ftdiGpioClose_ends uninitialised)

theorem ftdiGpioParseOptions_interprets
    (node : YamlNode)
    (rest : List YamlEvent)
    (more : rest ≠ []) :
    Interprets (δ := δ) node.events rest id (ftdiGpioNode node)
      ftdiGpioParseOptions := by
  refine .read _ fun uninitialised => ?_
  have mapping :
      Interprets (δ := δ) node.events rest id (ftdiGpioMapping node)
        (do
          let _ ← deviceParserAccept (ofType .mappingStart)
          let read_ ←
            whileAccepted (scalar tokenLength) ftdiGpioKey
              (.zero, uninitialised)
          deviceParserExpect (ofType .mappingEnd)
          pure read_.1) := by
    refine .acceptMapping node (fun pairs => ?_)
      (ftdiGpioClose_ends uninitialised)
    refine .close .mappingEnd more
      (whileAccepted_interprets _ ftdiGpioKey_interprets ftdiGpioKey_ends
        (.zero, uninitialised) pairs rest)
      fun read_ => ?_
    exact .pure rfl
  exact .acceptTextOr more node ftdiGpioParseConfig_computes fun _ => mapping

end Cdba
