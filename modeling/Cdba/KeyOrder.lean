import Mathlib.Data.List.Nodup
import Cdba.BoardDevice

namespace Cdba

/-!
# The order of the keys of a board

Keys that are distinct C strings may stand in any order: the settings are the
same, at most one of them speaks of each member of the device, and drivers that
are chosen twice are refused in any order.
-/

open Program
open DeviceParser

/-! ## Keys -/

/-- The key of a setting. -/
def BoardSetting.word : BoardSetting → CString
  | .users _ => ascii "users"
  | .control (.localGpio _) => ascii "local_gpio"
  | .control (.ftdiGpio _) => ascii "ftdi_gpio"
  | .control (.laurent _) => ascii "laurent"
  | .text key _ => key.word

/-- A scalar as a C string. -/
def YamlNode.string : YamlNode → Option CString
  | .scalar value => some (cstr value)
  | _ => none

/-- The keys that are scalars are distinct C strings. -/
def DistinctKeys (pairs : List (YamlNode × YamlNode)) : Prop :=
  (pairs.filterMap (·.1.string)).Nodup

instance (pairs : List (YamlNode × YamlNode)) :
    Decidable (DistinctKeys pairs) :=
  inferInstanceAs (Decidable (List.Nodup _))

/-- A key that is found by comparing it with words is the word found. -/
theorem word_of_ite
    {key word : CString}
    {first textKey : TextKey}
    {rest : Option TextKey}
    (isWord : first.word = word)
    (later : rest = some textKey → textKey.word = key)
    (named : (if key = word then some first else rest) = some textKey) :
    textKey.word = key := by
  split at named
  · rename_i same
    cases named
    rw [isWord, same]
  · exact later named

theorem textKey?_word
    {key : CString}
    {textKey : TextKey} :
    textKey? key = some textKey → textKey.word = key :=
  word_of_ite rfl <| word_of_ite rfl <| word_of_ite rfl <| word_of_ite rfl <|
    word_of_ite rfl <| word_of_ite rfl <| word_of_ite rfl <| word_of_ite rfl <|
    word_of_ite rfl <| word_of_ite rfl <| word_of_ite rfl <| word_of_ite rfl <|
    word_of_ite rfl <| word_of_ite rfl <| word_of_ite rfl <| word_of_ite rfl <|
    word_of_ite rfl <| word_of_ite rfl <| word_of_ite rfl nofun

theorem boardSetting?_word
    {key : CString}
    {node : YamlNode}
    {setting : BoardSetting}
    (isSetting : boardSetting? key node = some setting) :
    setting.word = key := by
  unfold boardSetting? at isSetting
  split_ifs at isSetting with isUsers isLocal isFtdi isLaurent
  · obtain ⟨_, _, rfl⟩ := Option.map_eq_some_iff.mp isSetting
    exact isUsers.symm
  · obtain ⟨_, _, rfl⟩ := Option.map_eq_some_iff.mp isSetting
    exact isLocal.symm
  · obtain ⟨_, _, rfl⟩ := Option.map_eq_some_iff.mp isSetting
    exact isFtdi.symm
  · obtain ⟨_, _, rfl⟩ := Option.map_eq_some_iff.mp isSetting
    exact isLaurent.symm
  · obtain ⟨_, _, isSetting⟩ := Option.bind_eq_some_iff.mp isSetting
    obtain ⟨_, named, rfl⟩ := Option.map_eq_some_iff.mp isSetting
    exact textKey?_word named

theorem TextKey.length_word
    (key : TextKey) :
    key.word.length < tokenLength - 1 := by
  cases key <;> decide

/-- Every key fits into its buffer. -/
theorem BoardSetting.length_word
    (setting : BoardSetting) :
    setting.word.length < tokenLength - 1 := by
  cases setting with
  | users names =>
      exact show (ascii "users").length < tokenLength - 1 by decide
  | control options =>
      cases options with
      | localGpio _ =>
          exact show (ascii "local_gpio").length < tokenLength - 1 by decide
      | ftdiGpio _ =>
          exact show (ascii "ftdi_gpio").length < tokenLength - 1 by decide
      | laurent _ =>
          exact show (ascii "laurent").length < tokenLength - 1 by decide
  | text key value => exact key.length_word

/-- The key of a pair is the key of its setting. -/
theorem pairSetting?_string
    {pair : YamlNode × YamlNode}
    {setting : BoardSetting}
    (isSetting : pairSetting? pair = some setting) :
    pair.1.string = some setting.word := by
  obtain ⟨key, node⟩ := pair
  obtain ⟨text, isText, isSetting⟩ := Option.bind_eq_some_iff.mp isSetting
  have word := boardSetting?_word isSetting
  have fits := setting.length_word
  cases key <;> cases isText
  rename_i value
  rw [word, List.length_take] at fits
  rw [word, YamlNode.string, List.take_of_length_le (by omega)]

/-- The keys of a mapping are the keys of its settings. -/
theorem words_eq
    {pairs : List (YamlNode × YamlNode)}
    {settings : List BoardSetting}
    (areSettings : settings? pairs = some settings) :
    pairs.filterMap (·.1.string) = settings.map BoardSetting.word := by
  induction pairs generalizing settings with
  | nil =>
      rw [settings?, List.mapM_nil] at areSettings
      cases areSettings
      rfl
  | cons pair pairs inductionHypothesis =>
      rw [settings?, List.mapM_cons] at areSettings
      obtain ⟨setting, isSetting, later⟩ :=
        Option.bind_eq_some_iff.mp areSettings
      obtain ⟨others, areOthers, isAll⟩ := Option.bind_eq_some_iff.mp later
      cases isAll
      rw [List.filterMap_cons, pairSetting?_string isSetting, List.map_cons,
        inductionHypothesis areOthers]

/-- Distinct keys of a mapping are distinct keys of its settings. -/
theorem nodup_words
    {pairs : List (YamlNode × YamlNode)}
    (distinct : DistinctKeys pairs)
    {settings : List BoardSetting}
    (areSettings : settings? pairs = some settings) :
    (settings.map BoardSetting.word).Nodup := by
  rw [DistinctKeys, words_eq areSettings] at distinct
  exact distinct

/-- Pairs in another order have their settings in another order. -/
theorem settings?_perm
    {pairs others : List (YamlNode × YamlNode)}
    (same : pairs.Perm others)
    {settings : List BoardSetting}
    (areSettings : settings? pairs = some settings) :
    ∃ later, settings? others = some later ∧ settings.Perm later := by
  induction same generalizing settings with
  | nil =>
      exact ⟨settings, areSettings, .refl settings⟩
  | cons pair same inductionHypothesis =>
      rw [settings?, List.mapM_cons] at areSettings
      obtain ⟨setting, isSetting, later⟩ :=
        Option.bind_eq_some_iff.mp areSettings
      obtain ⟨tail, isTail, isAll⟩ := Option.bind_eq_some_iff.mp later
      cases isAll
      obtain ⟨found, isFound, reordered⟩ := inductionHypothesis isTail
      refine ⟨setting :: found, ?_, reordered.cons setting⟩
      rw [settings?, List.mapM_cons, isSetting]
      change (settings? _).bind _ = _
      rw [isFound]
      rfl
  | swap pair other pairs =>
      rw [settings?, List.mapM_cons, List.mapM_cons] at areSettings
      obtain ⟨setting, isSetting, later⟩ :=
        Option.bind_eq_some_iff.mp areSettings
      obtain ⟨inner, isInner, isAll⟩ := Option.bind_eq_some_iff.mp later
      cases isAll
      obtain ⟨next, isNext, later⟩ := Option.bind_eq_some_iff.mp isInner
      obtain ⟨tail, isTail, isAll⟩ := Option.bind_eq_some_iff.mp later
      cases isAll
      refine ⟨next :: setting :: tail, ?_, .swap next setting tail⟩
      rw [settings?, List.mapM_cons, List.mapM_cons, isNext, isSetting, isTail]
      rfl
  | trans _ _ firstHypothesis secondHypothesis =>
      obtain ⟨middle, isMiddle, first⟩ := firstHypothesis areSettings
      obtain ⟨last, isLast, second⟩ := secondHypothesis isMiddle
      exact ⟨last, isLast, first.trans second⟩

/-! ## The device in any order -/

/-- Of distinct keys at most one says what only one key says. -/
theorem once_of_nodup
    {β : Type}
    {view : BoardSetting → Option β}
    (word : CString)
    (only : ∀ setting value, view setting = some value → setting.word = word)
    {settings : List BoardSetting}
    (distinct : (settings.map BoardSetting.word).Nodup) :
    (settings.filterMap view).length ≤ 1 := by
  induction settings with
  | nil =>
      exact Nat.zero_le 1
  | cons setting settings inductionHypothesis =>
      rw [List.map_cons, List.nodup_cons] at distinct
      cases said : view setting with
      | none =>
          rw [List.filterMap_cons_none said]
          exact inductionHypothesis distinct.2
      | some value =>
          have others : settings.filterMap view = [] := by
            refine List.filterMap_eq_nil_iff.mpr fun other member => ?_
            refine Option.eq_none_iff_forall_ne_some.mpr fun found isFound => ?_
            refine distinct.1 (List.mem_map.mpr ⟨other, member, ?_⟩)
            rw [only other found isFound, only setting value said]
          rw [List.filterMap_cons_some said, others]
          exact Nat.le_refl 1

/-- What is only said along with something else is not said more often. -/
theorem once_of_once
    {α β γ : Type}
    {view : α → Option β}
    {other : α → Option γ}
    (along : ∀ item, (view item).isSome → (other item).isSome)
    {items : List α}
    (once : (items.filterMap other).length ≤ 1) :
    (items.filterMap view).length ≤ 1 := by
  rw [List.length_filterMap_eq_countP] at once ⊢
  exact Nat.le_trans (List.countP_mono_left fun item _ => along item) once

theorem value?_word
    (key : TextKey)
    (setting : BoardSetting)
    (value : CString)
    (said : setting.value? key = some value) :
    setting.word = key.word := by
  cases setting with
  | users names => cases said
  | control options => cases said
  | text other text =>
      rw [BoardSetting.value?] at said
      split at said
      · rename_i same
        rw [same]
        rfl
      · cases said

/-- Compatible settings with distinct keys mean one device in any order. -/
theorem deviceOf_perm
    {settings others : List BoardSetting}
    (same : settings.Perm others)
    (distinct : (settings.map BoardSetting.word).Nodup)
    (compatible : Compatible settings) :
    deviceOf settings = deviceOf others := by
  have value :
      ∀ key, lastText key settings = lastText key others :=
    fun key => lastSaid_perm same (once_of_nodup key.word (value?_word key) distinct)
  have users :
      lastSaid BoardSetting.users? settings =
        lastSaid BoardSetting.users? others := by
    refine lastSaid_perm same (once_of_nodup (ascii "users") ?_ distinct)
    intro setting names said
    cases setting <;> cases said
    rfl
  have controlOps := lastSaid_perm same compatible.control
  have consoleOps := lastSaid_perm same compatible.console
  have controlDev :
      lastSaid BoardSetting.controlDev? settings =
        lastSaid BoardSetting.controlDev? others := by
    refine lastSaid_perm same (once_of_once ?_ compatible.control)
    rintro (_ | _ | ⟨key, _⟩)
    · nofun
    · nofun
    · cases key <;> simp
  have controlOptions :
      lastSaid BoardSetting.controlOptions? settings =
        lastSaid BoardSetting.controlOptions? others := by
    refine lastSaid_perm same (once_of_once ?_ compatible.control)
    rintro (_ | _ | ⟨key, _⟩)
    · nofun
    · exact fun _ => rfl
    · nofun
  have consoleDev :
      lastSaid BoardSetting.consoleDev? settings =
        lastSaid BoardSetting.consoleDev? others := by
    refine lastSaid_perm same (once_of_once ?_ compatible.console)
    rintro (_ | _ | ⟨key, _⟩)
    · nofun
    · nofun
    · cases key <;> simp
  have broken :
      ascii "true" ∈
          settings.filterMap (BoardSetting.value? .brokenFastbootBoot) ↔
        ascii "true" ∈
          others.filterMap (BoardSetting.value? .brokenFastbootBoot) :=
    (same.filterMap _).mem_iff
  simp only [deviceOf, value, users, controlOps, consoleOps, controlDev,
    controlOptions, consoleDev, broken]

theorem Compatible.perm
    {settings others : List BoardSetting}
    (compatible : Compatible settings)
    (same : settings.Perm others) :
    Compatible others where
  control := (same.filterMap _).length_eq ▸ compatible.control
  console := (same.filterMap _).length_eq ▸ compatible.console

/-- A board with distinct keys that means a device means it in any order. -/
theorem boardDevice?_of_perm
    {pairs others : List (YamlNode × YamlNode)}
    (same : pairs.Perm others)
    (distinct : DistinctKeys pairs)
    {dev : DeviceConfig}
    (isDevice : boardDevice? pairs = some dev) :
    boardDevice? others = some dev := by
  obtain ⟨settings, areSettings, complete, rfl⟩ :=
    boardDevice?_eq_some.mp isDevice
  obtain ⟨later, areLater, reordered⟩ := settings?_perm same areSettings
  have devices :=
    deviceOf_perm reordered (nodup_words distinct areSettings)
      complete.compatible
  exact boardDevice?_eq_some.mpr
    ⟨later, areLater,
      complete.of_deviceOf_eq (complete.compatible.perm reordered) devices,
      devices.symm⟩

theorem DistinctKeys.perm
    {pairs others : List (YamlNode × YamlNode)}
    (distinct : DistinctKeys pairs)
    (same : pairs.Perm others) :
    DistinctKeys others :=
  (same.filterMap _).nodup distinct

theorem boardDevice?_perm
    {pairs others : List (YamlNode × YamlNode)}
    (same : pairs.Perm others)
    (distinct : DistinctKeys pairs) :
    boardDevice? pairs = boardDevice? others := by
  refine Option.ext fun dev => ?_
  exact ⟨boardDevice?_of_perm same distinct,
    boardDevice?_of_perm same.symm (distinct.perm same)⟩

/-! ## Configurations with a board -/

/-- A configuration around the entry of a board. -/
structure BoardSite where
  key : YamlNode
  before : List YamlNode
  after : List YamlNode
  others : List (YamlNode × YamlNode)
  documents : List YamlNode

/-- The documents with an entry in the place of the board. -/
def BoardSite.stream
    (site : BoardSite)
    (entry : List (YamlNode × YamlNode)) :
    List YamlNode :=
  .mapping
    ((site.key, .sequence (site.before ++ .mapping entry :: site.after)) ::
      site.others) ::
    site.documents

/--
The events that libyaml delivers of a configuration: all of them, or only some
when it fails.
-/
def BoardSite.delivers
    (site : BoardSite)
    (delivered : Nat)
    (entry : List (YamlNode × YamlNode)) :
    List YamlEvent :=
  (streamEvents (site.stream entry)).take delivered

theorem streamDevices?_perm
    (site : BoardSite)
    {entry reordered : List (YamlNode × YamlNode)}
    (same : boardDevice? entry = boardDevice? reordered) :
    streamDevices? (site.stream entry) =
      streamDevices? (site.stream reordered) := by
  have boards :
      boardsDevices? (site.before ++ .mapping entry :: site.after) =
        boardsDevices? (site.before ++ .mapping reordered :: site.after) := by
    simp [boardsDevices?, List.mapM_append, List.mapM_cons, YamlNode.pairs,
      same]
  obtain ⟨key, before, after, others, documents⟩ := site
  cases documents with
  | cons other documents => rfl
  | nil =>
      cases others with
      | cons other others => rfl
      | nil =>
          change (key.text tokenLength).bind (fun _ => boardsDevices? _) =
            (key.text tokenLength).bind fun _ => boardsDevices? _
          rw [boards]

/--
Two streams that are both accepted or both refused, whatever the parsers held
before, and from which the same devices are added.
-/
structure SameDevices (first second : List YamlEvent) : Prop where
  accepts :
    ∀ parser other : DeviceParser DeviceConfig,
      Accepts parser first ↔ Accepts other second
  adds :
    ∀ (parser other : DeviceParser DeviceConfig) devices,
      Adds parser first devices ↔ Adds other second devices

theorem length_pairsEvents_perm
    {pairs others : List (YamlNode × YamlNode)}
    (same : pairs.Perm others) :
    (pairsEvents pairs).length = (pairsEvents others).length := by
  induction same with
  | nil =>
      rfl
  | cons pair same inductionHypothesis =>
      simp only [pairsEvents, List.length_append, inductionHypothesis]
  | swap pair other pairs =>
      simp only [pairsEvents, List.length_append]
      omega
  | trans _ _ firstHypothesis secondHypothesis =>
      exact firstHypothesis.trans secondHypothesis

theorem length_stream_perm
    (site : BoardSite)
    {entry reordered : List (YamlNode × YamlNode)}
    (same : entry.Perm reordered) :
    (streamEvents (site.stream entry)).length =
      (streamEvents (site.stream reordered)).length := by
  have boards :
      ∀ before : List YamlNode,
        (itemsEvents (before ++ .mapping entry :: site.after)).length =
          (itemsEvents (before ++ .mapping reordered :: site.after)).length := by
    intro before
    induction before with
    | nil =>
        simp only [List.nil_append, itemsEvents, YamlNode.events,
          List.length_append, List.length_cons, length_pairsEvents_perm same]
    | cons board before inductionHypothesis =>
        simp only [List.cons_append, itemsEvents, List.length_append,
          inductionHypothesis]
  simp only [streamEvents, BoardSite.stream, documentEvents, YamlNode.events,
    pairsEvents, List.length_cons, List.length_append, boards]

/-- Keys that are distinct C strings may stand in any order. -/
theorem keyOrder_sameDevices
    (site : BoardSite)
    (delivered : Nat)
    {entry reordered : List (YamlNode × YamlNode)}
    (distinct : DistinctKeys entry)
    (same : entry.Perm reordered) :
    SameDevices (site.delivers delivered entry)
      (site.delivers delivered reordered) := by
  have adds :
      ∀ (parser other : DeviceParser DeviceConfig) devices,
        Adds parser (site.delivers delivered entry) devices ↔
          Adds other (site.delivers delivered reordered) devices := by
    intro parser other devices
    rw [BoardSite.delivers, BoardSite.delivers, adds_take_iff, adds_take_iff,
      length_stream_perm site same,
      streamDevices?_perm site (boardDevice?_perm same distinct)]
  refine ⟨fun parser other => ?_, adds⟩
  rw [BoardSite.delivers, BoardSite.delivers, accepts_take_iff,
    accepts_take_iff]
  exact exists_congr (adds parser other)

/-- A pair of two scalars. -/
def textPair (key value : String) : YamlNode × YamlNode :=
  (.scalar (ascii key), .scalar (ascii value))

/-- A configuration with one board. -/
def onlyBoard : BoardSite where
  key := .scalar (ascii "devices")
  before := []
  after := []
  others := []
  documents := []

/-- A board that overrides how it boots. -/
def brokenBoard : List (YamlNode × YamlNode) :=
  [textPair "board" "db", textPair "fastboot" "cacafada",
    textPair "broken_fastboot_boot" "true", textPair "console" "/dev/ttyS0",
    (.scalar (ascii "users"), .sequence [.scalar (ascii "user")]),
    (.scalar (ascii "laurent"),
      .mapping [textPair "server" "relays", textPair "relay" "1"])]

/-- The board from its last key to its first one. -/
theorem brokenBoard_sameDevices :
    (streamDevices? (onlyBoard.stream brokenBoard)).isSome ∧
      DistinctKeys brokenBoard ∧ brokenBoard.Perm brokenBoard.reverse ∧
      SameDevices (onlyBoard.delivers 30 brokenBoard)
        (onlyBoard.delivers 30 brokenBoard.reverse) :=
  ⟨by decide, by decide, (List.reverse_perm _).symm,
    keyOrder_sameDevices onlyBoard 30 (by decide) (List.reverse_perm _).symm⟩

/-- A board with two names, one of them behind a NUL. -/
def twoNames : List (YamlNode × YamlNode) :=
  [textPair "board" "db", textPair "fastboot" "cacafada",
    textPair "console" "/dev/ttyS0", textPair "name" "first",
    textPair "name\x00" "second"]

/-- Keys that only differ behind a NUL are one key, and the last one counts. -/
theorem twoNames_differ :
    ¬ ∀ (site : BoardSite) (delivered : Nat)
        (entry reordered : List (YamlNode × YamlNode)),
      (entry.map Prod.fst).Nodup →
      entry.Perm reordered →
      SameDevices (site.delivers delivered entry)
        (site.delivers delivered reordered) := by
  intro claim
  have distinct : (twoNames.map Prod.fst).Nodup := by
    have keys :
        twoNames.map Prod.fst =
          [ascii "board", ascii "fastboot", ascii "console", ascii "name",
            ascii "name\x00"].map .scalar :=
      rfl
    rw [keys]
    exact .map (fun _ _ => YamlNode.scalar.inj) (by decide)
  have same :=
    claim onlyBoard 30 twoNames twoNames.reverse distinct
      (List.reverse_perm _).symm
  have names :
      (streamDevices? (onlyBoard.stream twoNames)).map
          (List.map DeviceConfig.name) =
        some [some (ascii "second")] := by
    decide
  have otherNames :
      (streamDevices? (onlyBoard.stream twoNames.reverse)).map
          (List.map DeviceConfig.name) =
        some [some (ascii "first")] := by
    decide
  obtain ⟨devices, means, isSecond⟩ := Option.map_eq_some_iff.mp names
  have adds :=
    (same.adds freshParser freshParser devices).mp
      ((adds_take_iff freshParser _ 30 devices).mpr ⟨by decide, means⟩)
  have others := ((adds_take_iff freshParser _ 30 devices).mp adds).2
  rw [others, Option.map_some, isSecond] at otherNames
  exact absurd otherNames (by decide)

end Cdba
