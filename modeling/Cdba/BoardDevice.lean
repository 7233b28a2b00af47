import Mathlib.Data.List.Induction
import Cdba.ConfigurationTree

namespace Cdba

/-!
# The device of a board

A list of settings is taken when it names at most one control driver and at most
one console, and its device is then read off the list, member by member: each of
them is what the last setting says that speaks of it.
-/

variable {α β : Type}

/-! ## What is said last -/

/-- What the last element says that says anything. -/
def lastSaid (view : α → Option β) (items : List α) : Option β :=
  (items.filterMap view).getLast?

@[simp] theorem lastSaid_nil
    (view : α → Option β) :
    lastSaid view [] = none :=
  rfl

@[simp] theorem lastSaid_concat
    (view : α → Option β)
    (items : List α)
    (item : α) :
    lastSaid view (items ++ [item]) = (view item).or (lastSaid view items) := by
  rw [lastSaid, lastSaid, List.filterMap_append, List.getLast?_append]
  cases said : view item with
  | none => simp [said]
  | some value => simp [said]

/-- What is said once is said in any order. -/
theorem lastSaid_perm
    {view : α → Option β}
    {items others : List α}
    (same : items.Perm others)
    (once : (items.filterMap view).length ≤ 1) :
    lastSaid view items = lastSaid view others := by
  have said := same.filterMap view
  rw [lastSaid, lastSaid]
  rcases isSaid : items.filterMap view with _ | ⟨value, _ | ⟨other, more⟩⟩
  · rw [isSaid] at said
    rw [said.nil_eq]
  · rw [isSaid] at said
    rw [said.singleton_eq]
  · rw [isSaid] at once
    simp at once

/-! ## The members of a device -/

namespace BoardSetting

/-- The value that a setting gives a key. -/
@[simp] def value? (key : TextKey) : BoardSetting → Option CString
  | .text other value => if other = key then some value else none
  | _ => none

/-- The names of the users. -/
@[simp] def users? : BoardSetting → Option (List CString)
  | .users names => some names
  | _ => none

/-- The control driver. -/
@[simp] def controlOps? : BoardSetting → Option ControlDriver
  | .control options => some options.driver
  | .text .cdba _ => some .cdbAssist
  | .text .conmux _ => some .conmux
  | .text .alpaca _ => some .alpaca
  | .text .external _ => some .external
  | .text .qcomltDebugBoard _ => some .qcomltDbg
  | _ => none

/-- The name of the device of the control driver. -/
@[simp] def controlDev? : BoardSetting → Option CString
  | .text .cdba value => some value
  | .text .conmux value => some value
  | .text .alpaca value => some value
  | .text .external value => some value
  | .text .qcomltDebugBoard value => some value
  | _ => none

/-- The options of the control driver. -/
@[simp] def controlOptions? : BoardSetting → Option ControlOptions
  | .control options => some options
  | _ => none

/-- The console driver. -/
@[simp] def consoleOps? : BoardSetting → Option ConsoleDriver
  | .text .conmux _ => some .conmuxConsole
  | .text .console _ => some .console
  | _ => none

/-- The name of the device of the console. -/
@[simp] def consoleDev? : BoardSetting → Option CString
  | .text .conmux value => some value
  | .text .console value => some value
  | _ => none

end BoardSetting

/-- The last value that some settings give a key. -/
abbrev lastText (key : TextKey) (settings : List BoardSetting) :
    Option CString :=
  lastSaid (BoardSetting.value? key) settings

/-- The device of some settings. -/
def deviceOf (settings : List BoardSetting) : DeviceConfig where
  board := lastText .board settings
  controlDev := lastSaid BoardSetting.controlDev? settings
  controlOptions := lastSaid BoardSetting.controlOptions? settings
  consoleDev := lastSaid BoardSetting.consoleDev? settings
  name := lastText .name settings
  serial := lastText .fastboot settings
  description := lastText .description settings
  pppsPath := lastText .pppsPath settings
  ppps3Path := lastText .ppps3Path settings
  users := lastSaid BoardSetting.users? settings
  voltage := (lastText .voltage settings).elim 0 (unsignedOf 10)
  usbAlwaysOn :=
    lastText .usbAlwaysOn settings = some (ascii "true")
  powerAlwaysOn :=
    lastText .powerAlwaysOn settings = some (ascii "true")
  fastbootKeyTimeout :=
    (lastText .fastbootKeyTimeout settings).elim 0 (unsignedOf 10)
  boot :=
    if
        ascii "true" ∈
          settings.filterMap (BoardSetting.value? .brokenFastbootBoot) then
      some .fastbootFlashReboot
    else
      (lastText .fastboot settings).map fun _ => .fastbootBoot
  controlOps := lastSaid BoardSetting.controlOps? settings
  consoleOps := lastSaid BoardSetting.consoleOps? settings
  setActive :=
    (lastText .fastbootSetActive settings).map fun value =>
      if value = ascii "true" then ascii "a" else value
  statusCmd := lastText .statusCmd settings

/-- Settings with at most one control driver and at most one console. -/
structure Compatible (settings : List BoardSetting) : Prop where
  control : (settings.filterMap BoardSetting.controlOps?).length ≤ 1
  console : (settings.filterMap BoardSetting.consoleOps?).length ≤ 1

instance (settings : List BoardSetting) : Decidable (Compatible settings) :=
  decidable_of_iff
    ((settings.filterMap BoardSetting.controlOps?).length ≤ 1 ∧
      (settings.filterMap BoardSetting.consoleOps?).length ≤ 1)
    ⟨fun both => ⟨both.1, both.2⟩, fun both => ⟨both.control, both.console⟩⟩

/-! ## Settings one after the other -/

/-- Settings of which the next one does not choose a driver again. -/
def Admits (settings : List BoardSetting) (setting : BoardSetting) : Prop :=
  (setting.controlOps?.isSome → lastSaid BoardSetting.controlOps? settings = none) ∧
    (setting.consoleOps?.isSome →
      lastSaid BoardSetting.consoleOps? settings = none)

theorem lastSaid_eq_none
    {view : α → Option β}
    {items : List α} :
    lastSaid view items = none ↔ (items.filterMap view).length = 0 := by
  rw [lastSaid, List.getLast?_eq_none_iff, List.length_eq_zero_iff]

/-- What is said once may be said by the last element, or before it. -/
theorem once_concat_iff
    {view : α → Option β}
    {items : List α}
    {item : α} :
    ((items ++ [item]).filterMap view).length ≤ 1 ↔
      (items.filterMap view).length ≤ 1 ∧
        ((view item).isSome → lastSaid view items = none) := by
  rw [lastSaid_eq_none, List.filterMap_append, List.length_append]
  cases said : view item with
  | none => simp [said]
  | some value =>
      simp only [List.filterMap_cons, said, List.filterMap_nil,
        List.length_singleton, Option.isSome_some, true_implies]
      omega

/-- One more setting adds what it says to the device. -/
theorem apply_deviceOf
    {settings : List BoardSetting}
    {setting : BoardSetting}
    (admits : Admits settings setting) :
    setting.apply (deviceOf settings) =
      some (deviceOf (settings ++ [setting])) := by
  obtain ⟨control, console⟩ := admits
  cases setting with
  | users names =>
      simp [BoardSetting.apply, deviceOf]
  | control options =>
      simp [BoardSetting.apply, DeviceConfig.withControl, deviceOf, control rfl]
  | text key value =>
      rw [BoardSetting.apply]
      cases key
      case cdba | alpaca | external | qcomltDebugBoard =>
        simp [TextKey.apply, DeviceConfig.withControl, deviceOf, control rfl]
      case conmux =>
        simp [TextKey.apply, DeviceConfig.withControl, DeviceConfig.withConsole,
          deviceOf, control rfl, console rfl]
      case console =>
        simp [TextKey.apply, DeviceConfig.withConsole, deviceOf, console rfl]
      case fastboot =>
        by_cases broken :
            ascii "true" ∈
              settings.filterMap (BoardSetting.value? .brokenFastbootBoot)
        · simp [TextKey.apply, deviceOf, broken]
        · cases said : lastText .fastboot settings <;>
            simp [TextKey.apply, deviceOf, broken, said]
      case brokenFastbootBoot =>
        by_cases isTrue : value = ascii "true"
        · simp [TextKey.apply, deviceOf, isTrue]
        · have other : ascii "true" ≠ value := Ne.symm isTrue
          simp [TextKey.apply, deviceOf, isTrue, other]
      all_goals
        simp [TextKey.apply, deviceOf]

/-- A driver that is chosen again stops the parser. -/
theorem apply_eq_none
    {settings : List BoardSetting}
    {setting : BoardSetting}
    (refuses : ¬ Admits settings setting) :
    setting.apply (deviceOf settings) = none := by
  cases setting with
  | users names =>
      exact absurd ⟨nofun, nofun⟩ refuses
  | control options =>
      have taken : lastSaid BoardSetting.controlOps? settings ≠ none :=
        fun free => refuses ⟨fun _ => free, nofun⟩
      simp [BoardSetting.apply, DeviceConfig.withControl, deviceOf,
        Option.isSome_iff_ne_none, taken]
  | text key value =>
      rw [BoardSetting.apply]
      cases key
      case cdba | alpaca | external | qcomltDebugBoard =>
        have taken : lastSaid BoardSetting.controlOps? settings ≠ none :=
          fun free => refuses ⟨fun _ => free, nofun⟩
        simp [TextKey.apply, DeviceConfig.withControl, deviceOf,
          Option.isSome_iff_ne_none, taken]
      case console =>
        have taken : lastSaid BoardSetting.consoleOps? settings ≠ none :=
          fun free => refuses ⟨nofun, fun _ => free⟩
        simp [TextKey.apply, DeviceConfig.withConsole, deviceOf,
          Option.isSome_iff_ne_none, taken]
      case conmux =>
        by_cases free : lastSaid BoardSetting.controlOps? settings = none
        · have taken : lastSaid BoardSetting.consoleOps? settings ≠ none :=
            fun alsoFree => refuses ⟨fun _ => free, fun _ => alsoFree⟩
          simp [TextKey.apply, DeviceConfig.withControl,
            DeviceConfig.withConsole, deviceOf, Option.isSome_iff_ne_none,
            free, taken]
        · simp [TextKey.apply, DeviceConfig.withControl, deviceOf,
            Option.isSome_iff_ne_none, free]
      all_goals exact absurd ⟨nofun, nofun⟩ refuses

/-- A setting that is admitted keeps the settings compatible. -/
theorem compatible_concat_iff
    {settings : List BoardSetting}
    {setting : BoardSetting} :
    Compatible (settings ++ [setting]) ↔
      Compatible settings ∧ Admits settings setting := by
  constructor
  · rintro ⟨control, console⟩
    rw [once_concat_iff] at control console
    exact ⟨⟨control.1, console.1⟩, control.2, console.2⟩
  · rintro ⟨⟨control, console⟩, freeControl, freeConsole⟩
    exact ⟨once_concat_iff.mpr ⟨control, freeControl⟩,
      once_concat_iff.mpr ⟨console, freeConsole⟩⟩

/-- The device of a list of settings, if they go together. -/
theorem foldlM_apply
    (settings : List BoardSetting) :
    settings.foldlM BoardSetting.apply .zero =
      if Compatible settings then some (deviceOf settings) else none := by
  induction settings using List.reverseRecOn with
  | nil =>
      rfl
  | append_singleton settings setting inductionHypothesis =>
      rw [List.foldlM_append, inductionHypothesis]
      by_cases compatible : Compatible settings
      · rw [if_pos compatible]
        change setting.apply (deviceOf settings) >>= pure = _
        rw [bind_pure]
        by_cases admits : Admits settings setting
        · rw [apply_deviceOf admits,
            if_pos (compatible_concat_iff.mpr ⟨compatible, admits⟩)]
        · rw [apply_eq_none admits,
            if_neg fun both => admits (compatible_concat_iff.mp both).2]
      · rw [if_neg compatible,
          if_neg fun both => compatible (compatible_concat_iff.mp both).1]
        rfl


/-! ## The settings of a mapping -/

/-- The setting of a pair. -/
def pairSetting? (pair : YamlNode × YamlNode) : Option BoardSetting :=
  (pair.1.text tokenLength).bind fun key => boardSetting? key pair.2

/-- The settings of a mapping. -/
def settings? (pairs : List (YamlNode × YamlNode)) :
    Option (List BoardSetting) :=
  pairs.mapM pairSetting?

/-- Reading the pairs is reading all settings, then applying them. -/
theorem readPairs_boardStep
    (pairs : List (YamlNode × YamlNode))
    (dev : DeviceConfig) :
    readPairs tokenLength boardStep dev pairs =
      (settings? pairs).bind fun settings =>
        settings.foldlM BoardSetting.apply dev := by
  induction pairs generalizing dev with
  | nil =>
      rfl
  | cons pair pairs inductionHypothesis =>
      obtain ⟨key, node⟩ := pair
      rw [settings?, List.mapM_cons, readPairs, pairSetting?]
      cases key.text tokenLength with
      | none => rfl
      | some text =>
          change (boardStep dev text node).bind _ =
            ((boardSetting? text node).bind _).bind _
          rw [boardStep]
          cases boardSetting? text node with
          | none => rfl
          | some setting =>
              change (setting.apply dev).bind _ =
                ((settings? pairs).bind _).bind _
              rw [Option.bind_assoc]
              change _ =
                (settings? pairs).bind fun settings =>
                  (setting.apply dev).bind fun next =>
                    settings.foldlM BoardSetting.apply next
              cases setting.apply dev with
              | none => cases settings? pairs <;> rfl
              | some next => exact inductionHypothesis next

/-- Settings that make up a device. -/
structure Complete (settings : List BoardSetting) : Prop where
  compatible : Compatible settings
  board : (lastText .board settings).isSome
  serial : (lastText .fastboot settings).isSome
  console : (lastSaid BoardSetting.consoleDev? settings).isSome

/-- Compatible settings make up a device when others with the same one do. -/
theorem Complete.of_deviceOf_eq
    {settings others : List BoardSetting}
    (complete : Complete settings)
    (compatible : Compatible others)
    (same : deviceOf settings = deviceOf others) :
    Complete others := by
  have board : lastText .board settings = lastText .board others :=
    congrArg DeviceConfig.board same
  have serial : lastText .fastboot settings = lastText .fastboot others :=
    congrArg DeviceConfig.serial same
  have console :
      lastSaid BoardSetting.consoleDev? settings =
        lastSaid BoardSetting.consoleDev? others :=
    congrArg DeviceConfig.consoleDev same
  exact ⟨compatible, board ▸ complete.board, serial ▸ complete.serial,
    console ▸ complete.console⟩

/-- A board means a device when its settings make up one. -/
theorem boardDevice?_eq_some
    {pairs : List (YamlNode × YamlNode)}
    {dev : DeviceConfig} :
    boardDevice? pairs = some dev ↔
      ∃ settings,
        settings? pairs = some settings ∧ Complete settings ∧
          deviceOf settings = dev := by
  rw [boardDevice?, readPairs_boardStep]
  cases settings? pairs with
  | none =>
      refine iff_of_false (by simp) ?_
      rintro ⟨_, ⟨⟩, _⟩
  | some settings =>
      have required :
          ((deviceOf settings).board = none ∨
              (deviceOf settings).serial = none ∨
              (deviceOf settings).consoleDev = none) ↔
            ¬ ((lastText .board settings).isSome ∧
              (lastText .fastboot settings).isSome ∧
              (lastSaid BoardSetting.consoleDev? settings).isSome) := by
        simp only [deviceOf, Option.isSome_iff_ne_none]
        tauto
      rw [Option.bind_some, foldlM_apply]
      by_cases compatible : Compatible settings
      · rw [if_pos compatible, Option.bind_some]
        by_cases missing :
            (deviceOf settings).board = none ∨
              (deviceOf settings).serial = none ∨
              (deviceOf settings).consoleDev = none
        · rw [if_pos missing]
          refine iff_of_false (by simp) ?_
          rintro ⟨_, ⟨⟩, complete, _⟩
          exact required.mp missing
            ⟨complete.board, complete.serial, complete.console⟩
        · rw [if_neg missing]
          obtain ⟨board, serial, console⟩ :=
            Decidable.not_not.mp fun absent => missing (required.mpr absent)
          constructor
          · rintro ⟨⟩
            exact ⟨settings, rfl, ⟨compatible, board, serial, console⟩, rfl⟩
          · rintro ⟨_, ⟨⟩, _, rfl⟩
            rfl
      · rw [if_neg compatible]
        refine iff_of_false (by simp) ?_
        rintro ⟨_, ⟨⟩, complete, _⟩
        exact compatible complete.compatible

end Cdba
