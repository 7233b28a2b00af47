import Cdba.DriverTrees

namespace Cdba

/-!
# What a board means

A board is read off its mapping: each pair is a setting, and the settings make
up a device.  The parser takes the boards of a configuration just when each of
them has a meaning, and adds what they mean.
-/

open Program
open DeviceParser

/-! ## Settings -/

/-- The keys of a board with a scalar behind them. -/
inductive TextKey where
  | board
  | name
  | cdba
  | conmux
  | alpaca
  | external
  | qcomltDebugBoard
  | console
  | voltage
  | fastboot
  | fastbootSetActive
  | brokenFastbootBoot
  | description
  | fastbootKeyTimeout
  | usbAlwaysOn
  | pppsPath
  | ppps3Path
  | statusCmd
  | powerAlwaysOn
  deriving DecidableEq, Repr

/-- How a key is written. -/
def TextKey.word : TextKey → CString
  | .board => ascii "board"
  | .name => ascii "name"
  | .cdba => ascii "cdba"
  | .conmux => ascii "conmux"
  | .alpaca => ascii "alpaca"
  | .external => ascii "external"
  | .qcomltDebugBoard => ascii "qcomlt_debug_board"
  | .console => ascii "console"
  | .voltage => ascii "voltage"
  | .fastboot => ascii "fastboot"
  | .fastbootSetActive => ascii "fastboot_set_active"
  | .brokenFastbootBoot => ascii "broken_fastboot_boot"
  | .description => ascii "description"
  | .fastbootKeyTimeout => ascii "fastboot_key_timeout"
  | .usbAlwaysOn => ascii "usb_always_on"
  | .pppsPath => ascii "ppps_path"
  | .ppps3Path => ascii "ppps3_path"
  | .statusCmd => ascii "status-cmd"
  | .powerAlwaysOn => ascii "power_always_on"

/-- The key that a text names. -/
def textKey? (key : CString) : Option TextKey :=
  if key = ascii "board" then
    some .board
  else if key = ascii "name" then
    some .name
  else if key = ascii "cdba" then
    some .cdba
  else if key = ascii "conmux" then
    some .conmux
  else if key = ascii "alpaca" then
    some .alpaca
  else if key = ascii "external" then
    some .external
  else if key = ascii "qcomlt_debug_board" then
    some .qcomltDebugBoard
  else if key = ascii "console" then
    some .console
  else if key = ascii "voltage" then
    some .voltage
  else if key = ascii "fastboot" then
    some .fastboot
  else if key = ascii "fastboot_set_active" then
    some .fastbootSetActive
  else if key = ascii "broken_fastboot_boot" then
    some .brokenFastbootBoot
  else if key = ascii "description" then
    some .description
  else if key = ascii "fastboot_key_timeout" then
    some .fastbootKeyTimeout
  else if key = ascii "usb_always_on" then
    some .usbAlwaysOn
  else if key = ascii "ppps_path" then
    some .pppsPath
  else if key = ascii "ppps3_path" then
    some .ppps3Path
  else if key = ascii "status-cmd" then
    some .statusCmd
  else if key = ascii "power_always_on" then
    some .powerAlwaysOn
  else
    none

/-- What one pair of a board says. -/
inductive BoardSetting where
  | users (names : List CString)
  | control (options : ControlOptions)
  | text (key : TextKey) (value : CString)

/-- The names in a list of users, which is empty when it is a scalar. -/
def usersNode (node : YamlNode) : Option (List CString) :=
  (node.text 0).elim
    (node.items.bind fun items => items.mapM (YamlNode.text tokenLength))
    fun _ => some []

/-- The setting of a key and its value. -/
def boardSetting? (key : CString) (node : YamlNode) : Option BoardSetting :=
  if key = ascii "users" then
    (usersNode node).map .users
  else if key = ascii "local_gpio" then
    (localGpioNode node).map fun options => .control (.localGpio options)
  else if key = ascii "ftdi_gpio" then
    (ftdiGpioNode node).map fun options => .control (.ftdiGpio options)
  else if key = ascii "laurent" then
    (laurentNode node).map fun options => .control (.laurent options)
  else
    (node.text tokenLength).bind fun value =>
      (textKey? key).map fun textKey => .text textKey value

/-! ## Devices -/

/-- Choose the control driver, unless there is one. -/
def DeviceConfig.withControl (dev : DeviceConfig) (ops : ControlDriver) :
    Option DeviceConfig :=
  if dev.controlOps.isSome then
    none
  else
    some { dev with controlOps := some ops }

/-- Choose the console driver, unless there is one. -/
def DeviceConfig.withConsole (dev : DeviceConfig) (ops : ConsoleDriver) :
    Option DeviceConfig :=
  if dev.consoleOps.isSome then
    none
  else
    some { dev with consoleOps := some ops }

/-- A key with a scalar behind it changes the device. -/
def TextKey.apply (dev : DeviceConfig) (value : CString) :
    TextKey → Option DeviceConfig
  | .board => some { dev with board := some value }
  | .name => some { dev with name := some value }
  | .cdba => { dev with controlDev := some value }.withControl .cdbAssist
  | .conmux =>
      ({ dev with
          controlDev := some value
          consoleDev := some value }.withControl .conmux).bind
        (·.withConsole .conmuxConsole)
  | .alpaca => { dev with controlDev := some value }.withControl .alpaca
  | .external => { dev with controlDev := some value }.withControl .external
  | .qcomltDebugBoard =>
      { dev with controlDev := some value }.withControl .qcomltDbg
  | .console => { dev with consoleDev := some value }.withConsole .console
  | .voltage => some { dev with voltage := unsignedOf 10 value }
  | .fastboot =>
      some
        { dev with
          serial := some value
          boot := some (dev.boot.getD .fastbootBoot) }
  | .fastbootSetActive =>
      some
        { dev with
          setActive :=
            some (if value = ascii "true" then ascii "a" else value) }
  | .brokenFastbootBoot =>
      some
        { dev with
          boot :=
            if value = ascii "true" then
              some .fastbootFlashReboot
            else
              dev.boot }
  | .description => some { dev with description := some value }
  | .fastbootKeyTimeout =>
      some { dev with fastbootKeyTimeout := unsignedOf 10 value }
  | .usbAlwaysOn => some { dev with usbAlwaysOn := value = ascii "true" }
  | .pppsPath => some { dev with pppsPath := some value }
  | .ppps3Path => some { dev with ppps3Path := some value }
  | .statusCmd => some { dev with statusCmd := some value }
  | .powerAlwaysOn => some { dev with powerAlwaysOn := value = ascii "true" }

/-- A setting changes the device. -/
def BoardSetting.apply (dev : DeviceConfig) :
    BoardSetting → Option DeviceConfig
  | .users names => some { dev with users := some names }
  | .control options =>
      { dev with controlOptions := some options }.withControl options.driver
  | .text key value => key.apply dev value

/-- One pair of a board. -/
def boardStep (dev : DeviceConfig) (key : CString) (node : YamlNode) :
    Option DeviceConfig :=
  (boardSetting? key node).bind (·.apply dev)

/-- The device of a board, of which three members are required. -/
def boardDevice? (pairs : List (YamlNode × YamlNode)) : Option DeviceConfig :=
  (readPairs tokenLength boardStep .zero pairs).bind fun dev =>
    if dev.board = none ∨ dev.serial = none ∨ dev.consoleDev = none then
      none
    else
      some dev

/-- The devices of a list of boards. -/
def boardsDevices? (boards : List YamlNode) : Option (List DeviceConfig) :=
  boards.mapM fun board => board.pairs.bind boardDevice?

/-- The devices of a document: a mapping of one key, or of none. -/
def rootDevices? (root : YamlNode) : Option (List DeviceConfig) :=
  root.pairs.bind fun pairs =>
    match pairs with
    | [] => some []
    | [(key, boards)] =>
        (key.text tokenLength).bind fun _ => boards.items.bind boardsDevices?
    | _ => none

/-- The devices of a stream, which has to be one document. -/
def streamDevices? (documents : List YamlNode) : Option (List DeviceConfig) :=
  match documents with
  | [root] => rootDevices? root
  | _ => none

/-! ## The parser reads settings -/

namespace Computes

variable {δ α τ σ : Type} {view : α → σ}

/-- A program that decides what it computes as its meaning does. -/
theorem iteBind
    {condition : Prop}
    [Decidable condition]
    {first second : Option τ}
    {later : τ → Option σ}
    {program other : ParserM δ α}
    (firstComputes : Computes view (first.bind later) program)
    (secondComputes : Computes view (second.bind later) other) :
    Computes view ((if condition then first else second).bind later)
      (if condition then program else other) := by
  split
  · exact firstComputes
  · exact secondComputes

end Computes

theorem setControlOps_computes
    (dev : DeviceConfig)
    (ops : ControlDriver) :
    Computes id (dev.withControl ops) (setControlOps dev ops) :=
  .ite (.stop _) (.pure rfl)

theorem setConsoleOps_computes
    (dev : DeviceConfig)
    (ops : ConsoleDriver) :
    Computes id (dev.withConsole ops) (setConsoleOps dev ops) :=
  .ite (.stop _) (.pure rfl)

theorem scalarKey_computes
    (dev : DeviceConfig)
    (key value : CString) :
    Computes id ((textKey? key).bind (·.apply dev value))
      (scalarKey dev key value) := by
  refine .iteBind ?board <| .iteBind ?name <| .iteBind ?cdba <|
    .iteBind ?conmux <| .iteBind ?alpaca <| .iteBind ?external <|
    .iteBind ?qcomltDbg <| .iteBind ?console <| .iteBind ?voltage <|
    .iteBind ?fastboot <| .iteBind ?setActive <| .iteBind ?broken <|
    .iteBind ?description <| .iteBind ?timeout <| .iteBind ?usbAlwaysOn <|
    .iteBind ?ppps <| .iteBind ?ppps3 <| .iteBind ?statusCmd <|
    .iteBind ?powerAlwaysOn <| .stop _
  case cdba => exact setControlOps_computes _ _
  case alpaca => exact setControlOps_computes _ _
  case external => exact setControlOps_computes _ _
  case qcomltDbg => exact setControlOps_computes _ _
  case conmux =>
    exact (setControlOps_computes _ _).bind fun _ => setConsoleOps_computes _ _
  case console => exact setConsoleOps_computes _ _
  case setActive =>
    split
    · rename_i isTrue
      exact .pure (by rw [if_pos isTrue]; rfl)
    · rename_i isOther
      exact .pure (by rw [if_neg isOther]; rfl)
  case broken =>
    split
    · rename_i isTrue
      exact .pure (by rw [if_pos isTrue]; rfl)
    · rename_i isOther
      exact .pure (by rw [if_neg isOther]; rfl)
  all_goals exact .pure rfl

/-- The loop over the names of the users. -/
theorem usersLoop_means
    {items : List YamlNode}
    {names : List CString}
    (isNames : items.mapM (YamlNode.text tokenLength) = some names)
    {fuel : Nat}
    (enough : items.length < fuel)
    (users : List CString)
    (parser : DeviceParser DeviceConfig)
    (rest : List YamlEvent) :
    whileAcceptedLoop (scalar tokenLength)
        (fun users username => pure (users ++ [username])) fuel users
        (parser.facing (itemsEvents items ++ .sequenceEnd :: rest)) =
      .ok (users ++ names) (parser.facing (.sequenceEnd :: rest)) := by
  induction items generalizing names fuel users with
  | nil =>
      obtain ⟨fuel, rfl⟩ :=
        Nat.exists_eq_add_one_of_ne_zero (Nat.ne_of_gt enough)
      rw [List.mapM_nil] at isNames
      cases isNames
      rw [List.append_nil]
      exact bind_of_ok (deviceParserAccept_none rfl) _
  | cons item items inductionHypothesis =>
      obtain ⟨fuel, rfl⟩ :=
        Nat.exists_eq_add_one_of_ne_zero
          (Nat.ne_of_gt (Nat.zero_lt_of_lt enough))
      rw [List.mapM_cons] at isNames
      obtain ⟨name, isName, isNames⟩ := Option.bind_eq_some_iff.mp isNames
      obtain ⟨later, areNames, isNames⟩ := Option.bind_eq_some_iff.mp isNames
      cases isNames
      have looped :=
        inductionHypothesis areNames (Nat.lt_of_succ_lt_succ enough)
          (users ++ [name])
      rw [List.append_assoc] at looped
      rw [whileAcceptedLoop, itemsEvents, List.append_assoc,
        bind_of_ok (deviceParserAccept_text isName (by simp) parser)]
      exact looped

theorem usersLoop_strays
    {items : List YamlNode}
    (isNone : items.mapM (YamlNode.text tokenLength) = none)
    {fuel : Nat}
    {users result : List CString}
    {parser last : DeviceParser DeviceConfig}
    {rest : List YamlEvent}
    (returns :
      whileAcceptedLoop (scalar tokenLength)
          (fun users username => pure (users ++ [username])) fuel users
          (parser.facing (itemsEvents items ++ .sequenceEnd :: rest)) =
        .ok result last) :
    last.event.Opens := by
  induction items generalizing fuel users with
  | nil =>
      cases isNone
  | cons item items inductionHypothesis =>
      cases fuel with
      | zero => cases returns
      | succ fuel =>
          rw [whileAcceptedLoop, itemsEvents, List.append_assoc] at returns
          cases isText : item.text tokenLength with
          | none =>
              obtain ⟨opens, passed⟩ := deviceParserAccept_noText isText _ parser
              rw [bind_of_ok passed] at returns
              cases returns
              exact opens
          | some text =>
              rw [bind_of_ok (deviceParserAccept_text isText (by simp) parser)]
                at returns
              refine inductionHypothesis ?_ returns
              rw [List.mapM_cons, isText] at isNone
              cases areNames : items.mapM (YamlNode.text tokenLength) with
              | none => rfl
              | some names =>
                  rw [areNames] at isNone
                  cases isNone

theorem usersLoop_interprets
    (items : List YamlNode)
    (rest : List YamlEvent) :
    Interprets (itemsEvents items) (.sequenceEnd :: rest) id
      (items.mapM (YamlNode.text tokenLength))
      (whileAccepted (δ := DeviceConfig) (scalar tokenLength)
        (fun users username => pure (users ++ [username])) []) where
  means := by
    intro names isNames parser
    have longer := length_le_itemsEvents items
    have left := length_le_remaining parser (itemsEvents items) .sequenceEnd rest
    exact ⟨names,
      usersLoop_means isNames
        (Nat.lt_succ_of_le (Nat.le_trans longer left)) [] parser rest,
      rfl⟩
  strays := by
    intro isNone parser result last returns
    exact .inr (usersLoop_strays isNone returns)

/-- `users` is a list of names, or empty when it is a scalar. -/
theorem parseUsers_interprets
    (dev : DeviceConfig)
    (node : YamlNode)
    (rest : List YamlEvent)
    (more : rest ≠ []) :
    Interprets node.events rest id
      ((usersNode node).map fun users => { dev with users := some users })
      (parseUsers dev) := by
  have sequence :
      Interprets node.events rest id
        (node.items.bind fun items =>
          (items.mapM (YamlNode.text tokenLength)).bind fun users =>
            some { dev with users := some users })
        (do
          deviceParserExpect (ofType .sequenceStart)
          let users ←
            whileAccepted (scalar tokenLength)
              (fun users username => pure (users ++ [username])) []
          deviceParserExpect (ofType .sequenceEnd)
          pure { dev with users := some users }) :=
    .expectStart node.items_cases more fun items =>
      .close .sequenceEnd more (usersLoop_interprets items rest)
        fun users => .pure rfl
  have meaning :
      (usersNode node).map (fun users => { dev with users := some users }) =
        (node.text 0).elim
          (node.items.bind fun items =>
            (items.mapM (YamlNode.text tokenLength)).bind fun users =>
              some { dev with users := some users })
          fun _ => some { dev with users := some [] } := by
    rw [usersNode]
    cases node.text 0 with
    | some text => rfl
    | none =>
        cases node.items with
        | none => rfl
        | some items => exact Option.map_eq_bind
  rw [meaning]
  exact .acceptTextOr more node (fun _ => .pure rfl) fun _ => sequence

/-- `parse_options` of a driver, whose options select the driver. -/
theorem parseControlOptions_interprets
    {ω : Type}
    (wrap : ω → ControlOptions)
    {ops : ControlDriver}
    (ofDriver : ∀ options, (wrap options).driver = ops)
    {segment rest : List YamlEvent}
    {meaning : Option ω}
    {program : ConfigM ω}
    (interprets : Interprets segment rest id meaning program)
    (dev : DeviceConfig) :
    Interprets segment rest id
      ((meaning.map fun options => .control (wrap options)).bind
        (BoardSetting.apply dev))
      (parseControlOptions dev
        (do
          let options ← program
          pure (some (wrap options)))
        ops) := by
  have whole :
      parseControlOptions dev
          (do
            let options ← program
            pure (some (wrap options)))
          ops =
        program >>= fun options =>
          setControlOps { dev with controlOptions := some (wrap options) }
            ops := by
    simp only [parseControlOptions, bind_assoc, pure_bind, Option.isSome_some,
      if_true]
  rw [whole, Option.bind_map]
  refine interprets.bind fun options => ?_
  have computes :=
    setControlOps_computes
      { dev with controlOptions := some (wrap options) } ops
  rwa [← ofDriver options] at computes ⊢

theorem boardKey_interprets
    (dev : DeviceConfig)
    (key : CString)
    (node : YamlNode)
    (rest : List YamlEvent)
    (more : rest ≠ []) :
    Interprets node.events rest id (boardStep dev key node)
      (boardKey dev key) := by
  unfold boardKey boardStep boardSetting?
  by_cases isUsers : key = ascii "users"
  · rw [if_pos isUsers, if_pos isUsers, Option.bind_map]
    have users := parseUsers_interprets dev node rest more
    rwa [Option.map_eq_bind] at users
  rw [if_neg isUsers, if_neg isUsers]
  by_cases isLocal : key = ascii "local_gpio"
  · rw [if_pos isLocal, if_pos isLocal]
    exact parseControlOptions_interprets .localGpio (fun _ => rfl)
      (localGpioParseOptions_interprets node rest more) dev
  rw [if_neg isLocal, if_neg isLocal]
  by_cases isFtdi : key = ascii "ftdi_gpio"
  · rw [if_pos isFtdi, if_pos isFtdi]
    exact parseControlOptions_interprets .ftdiGpio (fun _ => rfl)
      (ftdiGpioParseOptions_interprets node rest more) dev
  rw [if_neg isFtdi, if_neg isFtdi]
  by_cases isLaurent : key = ascii "laurent"
  · rw [if_pos isLaurent, if_pos isLaurent]
    exact parseControlOptions_interprets .laurent (fun _ => rfl)
      (laurentParseOptions_interprets node rest more) dev
  rw [if_neg isLaurent, if_neg isLaurent, Option.bind_assoc]
  refine .expectText more node fun value => ?_
  rw [Option.bind_map]
  exact scalarKey_computes dev key value

/-! ## Boards end their mappings -/

theorem parseUsers_ends
    (dev : DeviceConfig) :
    EndsMappings 0 (parseUsers dev) := by
  refine .andThen (.acceptScalar 0) fun empty => ?_
  cases empty with
  | some _ => exact .pure _
  | none =>
      exact .andThen (EndsMappings.expectType (by decide)) fun _ =>
        .andThen (.whileScalars (fun _ _ => .pure _) _) fun _ =>
          .andThen (EndsMappings.expectType (by decide)) fun _ => .pure _

theorem parseControlOptions_ends
    (dev : DeviceConfig)
    {parseOptions : ConfigM (Option ControlOptions)}
    (ends : EndsMappings 0 parseOptions)
    (ops : ControlDriver) :
    EndsMappings 0 (parseControlOptions dev parseOptions ops) :=
  .andThen ends fun _ => .ite (setControlOps_computes _ ops).ends (.pure _)

theorem boardKey_ends
    (dev : DeviceConfig)
    (key : CString) :
    EndsMappings 0 (boardKey dev key) :=
  .ite (parseUsers_ends dev) <|
    .ite (parseControlOptions_ends dev
      (.andThen localGpioParseOptions_ends fun _ => .pure _) _) <|
    .ite (parseControlOptions_ends dev
      (.andThen ftdiGpioParseOptions_ends fun _ => .pure _) _) <|
    .ite (parseControlOptions_ends dev
      (.andThen laurentParseOptions_ends fun _ => .pure _) _) <|
    .andThen (.expectScalar _) fun value =>
      (scalarKey_computes dev key value).ends

theorem deviceAdd_ends
    (dev : DeviceConfig) :
    EndsMappings 0 (deviceAdd dev) := by
  rintro parser _ _ ⟨⟩ surplus closes
  rwa [Int.add_zero]

theorem parseBoard_ends :
    EndsMappings 0 parseBoard :=
  .andThen (.whileScalars boardKey_ends _) fun _ =>
    .ite (.stop _) (deviceAdd_ends _)

/-- A board with the end of its mapping. -/
theorem boardClose_ends :
    EndsMappings 1
      (do
        parseBoard
        deviceParserExpect (ofType .mappingEnd)) :=
  .andThen parseBoard_ends fun _ => .expectType (by decide)

/-! ## A board is added -/

/-- Add devices to those of a parser. -/
def DeviceParser.adding
    (parser : DeviceParser DeviceConfig)
    (devices : List DeviceConfig) :
    DeviceParser DeviceConfig :=
  { parser with devices := parser.devices ++ devices }

theorem adding_adding
    (parser : DeviceParser DeviceConfig)
    (devices later : List DeviceConfig) :
    (parser.adding devices).adding later =
      parser.adding (devices ++ later) := by
  simp only [DeviceParser.adding, List.append_assoc]

theorem boardLoop_interprets
    (pairs : List (YamlNode × YamlNode))
    (rest : List YamlEvent) :
    Interprets (pairsEvents pairs) (.mappingEnd :: rest) id
      (readPairs tokenLength boardStep .zero pairs)
      (whileAccepted (scalar tokenLength) boardKey .zero) :=
  whileAccepted_interprets boardStep boardKey_interprets boardKey_ends .zero
    pairs rest

theorem parseBoard_means
    {pairs : List (YamlNode × YamlNode)}
    {dev : DeviceConfig}
    (isDevice : boardDevice? pairs = some dev)
    {rest : List YamlEvent}
    (more : rest ≠ [])
    (parser : DeviceParser DeviceConfig) :
    (parseBoard >>= fun _ => deviceParserExpect (ofType .mappingEnd))
        (parser.facing (pairsEvents pairs ++ YamlEvent.mappingEnd :: rest)) =
      .ok () ((parser.adding [dev]).facing rest) := by
  obtain ⟨found, isFound, required⟩ := Option.bind_eq_some_iff.mp isDevice
  split at required
  · cases required
  · rename_i complete
    cases required
    obtain ⟨result, ran, isResult⟩ :=
      (boardLoop_interprets pairs rest).means dev isFound parser
    change result = dev at isResult
    subst isResult
    have added :
        parseBoard (parser.facing (pairsEvents pairs ++ .mappingEnd :: rest)) =
          .ok () ((parser.adding [result]).facing (.mappingEnd :: rest)) := by
      rw [parseBoard, bind_of_ok ran]
      exact congrFun (if_neg complete) _
    rw [bind_of_ok added]
    exact deviceParserExpect_type (absurd · more) _

theorem parseBoard_strays
    {pairs : List (YamlNode × YamlNode)}
    (isNone : boardDevice? pairs = none)
    {rest : List YamlEvent}
    {parser last : DeviceParser DeviceConfig}
    (returns :
      (parseBoard >>= fun _ => deviceParserExpect (ofType .mappingEnd))
          (parser.facing (pairsEvents pairs ++ YamlEvent.mappingEnd :: rest)) =
        .ok () last) :
    EndedTooMany rest last := by
  obtain ⟨_, behind, board, closes⟩ := bind_eq_ok returns
  obtain ⟨dev, middle, ran, adds⟩ := bind_eq_ok board
  have loop := boardLoop_interprets pairs rest
  cases isFound : readPairs tokenLength boardStep .zero pairs with
  | none =>
      have astray : Astray (.mappingEnd :: rest) middle :=
        loop.strays isFound parser dev middle ran
      split at adds
      · cases adds
      · cases adds
        have same : Astray (.mappingEnd :: rest) (middle.adding [dev]) := astray
        exact same.close .mappingEnd closes
  | some found =>
      obtain ⟨result, ran', isResult⟩ := loop.means found isFound parser
      change result = found at isResult
      subst isResult
      rw [ran'] at ran
      cases ran
      split at adds
      · cases adds
      · rename_i complete
        rw [boardDevice?, isFound] at isNone
        exact absurd (isNone.symm.trans (if_neg complete)) nofun

/-! ## The boards of a configuration -/

theorem boardsLoop_means
    {boards : List YamlNode}
    {devices : List DeviceConfig}
    (areDevices : boardsDevices? boards = some devices)
    {fuel : Nat}
    (enough : boards.length < fuel)
    (parser : DeviceParser DeviceConfig)
    (rest : List YamlEvent) :
    whileAcceptedLoop (ofType .mappingStart)
        (fun _ _ => do
          parseBoard
          deviceParserExpect (ofType .mappingEnd))
        fuel ()
        (parser.facing (itemsEvents boards ++ .sequenceEnd :: rest)) =
      .ok () ((parser.adding devices).facing (.sequenceEnd :: rest)) := by
  induction boards generalizing devices fuel parser with
  | nil =>
      obtain ⟨fuel, rfl⟩ :=
        Nat.exists_eq_add_one_of_ne_zero (Nat.ne_of_gt enough)
      rw [boardsDevices?, List.mapM_nil] at areDevices
      cases areDevices
      have same : parser.adding [] = parser := by
        rw [DeviceParser.adding, List.append_nil]
      rw [same]
      exact bind_of_ok (deviceParserAccept_none rfl) _
  | cons board boards inductionHypothesis =>
      obtain ⟨fuel, rfl⟩ :=
        Nat.exists_eq_add_one_of_ne_zero
          (Nat.ne_of_gt (Nat.zero_lt_of_lt enough))
      rw [boardsDevices?, List.mapM_cons] at areDevices
      obtain ⟨dev, isDevice, later⟩ := Option.bind_eq_some_iff.mp areDevices
      obtain ⟨others, areOthers, later⟩ := Option.bind_eq_some_iff.mp later
      cases later
      obtain ⟨pairs, isPairs, isDevice⟩ := Option.bind_eq_some_iff.mp isDevice
      rcases board.pairs_cases with
        ⟨found, events, isFound⟩ | ⟨_, _, _, isNone, _⟩
      · rw [isPairs] at isFound
        cases isFound
        have starts :
            deviceParserAccept (ofType .mappingStart)
                (parser.facing
                  (.mappingStart :: (pairsEvents pairs ++
                    .mappingEnd :: (itemsEvents boards ++
                      .sequenceEnd :: rest)))) =
              .ok (some ())
                (parser.facing (pairsEvents pairs ++
                  .mappingEnd :: (itemsEvents boards ++
                    .sequenceEnd :: rest))) :=
          deviceParserAccept_some (if_pos rfl) (by simp) parser
        have more : itemsEvents boards ++ .sequenceEnd :: rest ≠ [] := by simp
        have looped :=
          inductionHypothesis areOthers (Nat.lt_of_succ_lt_succ enough)
            (parser.adding [dev])
        rw [adding_adding] at looped
        rw [whileAcceptedLoop, itemsEvents, events]
        simp only [List.cons_append, List.append_assoc, List.nil_append]
        rw [bind_of_ok starts]
        dsimp only
        rw [bind_of_ok (parseBoard_means isDevice more parser)]
        exact looped
      · rw [isPairs] at isNone
        cases isNone

/-- The boards with the loop over them end what they start. -/
theorem boardsLoop_ends
    (fuel : Nat) :
    EndsMappings 0
      (whileAcceptedLoop (ofType .mappingStart)
        (fun _ _ => do
          parseBoard
          deviceParserExpect (ofType .mappingEnd))
        fuel ()) :=
  .whileAcceptedLoop (by decide) (EndsMappings.expectType (by decide)) rfl
    (fun _ _ => boardClose_ends) fuel ()

theorem boardsLoop_strays
    {boards : List YamlNode}
    (isNone : boardsDevices? boards = none)
    {fuel : Nat}
    {parser last : DeviceParser DeviceConfig}
    {rest : List YamlEvent}
    (returns :
      whileAcceptedLoop (ofType .mappingStart)
          (fun _ _ => do
            parseBoard
            deviceParserExpect (ofType .mappingEnd))
          fuel ()
          (parser.facing (itemsEvents boards ++ .sequenceEnd :: rest)) =
        .ok () last) :
    EndedTooMany (.sequenceEnd :: rest) last ∨
      ofType .sequenceEnd last.event = none := by
  induction boards generalizing fuel parser with
  | nil =>
      cases isNone
  | cons board boards inductionHypothesis =>
      cases fuel with
      | zero => cases returns
      | succ fuel =>
          rw [whileAcceptedLoop, itemsEvents] at returns
          rcases board.pairs_cases with
            ⟨pairs, events, isPairs⟩ | ⟨event, later, events, _, passed⟩
          · rw [events] at returns
            simp only [List.cons_append, List.append_assoc, List.nil_append]
              at returns
            have starts :
                deviceParserAccept (ofType .mappingStart)
                    (parser.facing
                      (.mappingStart :: (pairsEvents pairs ++
                        .mappingEnd :: (itemsEvents boards ++
                          .sequenceEnd :: rest)))) =
                  .ok (some ())
                    (parser.facing (pairsEvents pairs ++
                      .mappingEnd :: (itemsEvents boards ++
                        .sequenceEnd :: rest))) :=
              deviceParserAccept_some (if_pos rfl) (by simp) parser
            rw [bind_of_ok starts] at returns
            obtain ⟨_, behind, one, later⟩ := bind_eq_ok returns
            cases isDevice : boardDevice? pairs with
            | none =>
                refine .inl fun surplus closes => ?_
                have before :=
                  boardsLoop_ends fuel behind () last later surplus closes
                rw [Int.add_zero] at before
                have tooMany := parseBoard_strays isDevice one
                exact (closes_items boards _ _).mp (tooMany surplus before)
            | some dev =>
                have more : itemsEvents boards ++ .sequenceEnd :: rest ≠ [] := by
                  simp
                have ran := parseBoard_means isDevice more parser
                have same := ran.symm.trans one
                cases same
                refine inductionHypothesis ?_ later
                rw [boardsDevices?, List.mapM_cons, isPairs] at isNone
                change (boardDevice? pairs).bind _ = none at isNone
                rw [isDevice] at isNone
                cases areOthers : boardsDevices? boards with
                | none => rfl
                | some others =>
                    change (boardsDevices? boards).bind _ = none at isNone
                    rw [areOthers] at isNone
                    cases isNone
          · rw [events, List.cons_append, List.cons_append,
              bind_of_ok (deviceParserAccept_none passed)] at returns
            cases returns
            exact .inr (YamlNode.opens events .sequenceEnd)

end Cdba
