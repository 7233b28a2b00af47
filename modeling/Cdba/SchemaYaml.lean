import Cdba.JsonSchema
import Cdba.KeyOrder

namespace Cdba

/-!
# The schema of the configuration

`schema.yaml`, with which `validate.py` checks a configuration, and the YAML
nodes of the data that it describes.
-/

open JsonSchema

/-! ## Patterns -/

/-- `[0-9]` -/
def decimalDigit : Pattern :=
  .within [(0x30, 0x39)]

/-- `[0-9a-fA-F]` -/
def anyHexDigit : Pattern :=
  .within [(0x30, 0x39), (0x61, 0x66), (0x41, 0x46)]

/-- `[0-9a-zA-Z]` -/
def letterOrDigit : Pattern :=
  .within [(0x30, 0x39), (0x61, 0x7a), (0x41, 0x5a)]

/-- `0x[0-9a-fA-F]{4}` -/
def fourHexDigits : Pattern :=
  .all [.word (ascii "0x"), .times 4 (some 4) anyHexDigit]

/-- `FT[0-9a-zA-Z]{6}` -/
def ftdiSerial : Pattern :=
  .all [.word (ascii "FT"), .times 6 (some 6) letterOrDigit]

/-- `.*` -/
def anything : Pattern :=
  .times 0 none .dot

/-- `^/dev/.*$` -/
def devicePathPattern : Pattern :=
  .all [.start, .word (ascii "/dev/"), anything, .finish]

/-- `^[0-9a-f]{8,16}$` -/
def fastbootPattern : Pattern :=
  .all
    [.start, .times 8 (some 16) (.within [(0x30, 0x39), (0x61, 0x66)]),
      .finish]

/-- `^gpiochip[0-9]+$` -/
def gpiochipPattern : Pattern :=
  .all [.start, .word (ascii "gpiochip"), .times 1 none decimalDigit, .finish]

/-- `;(POWER|FASTBOOT_KEY|POWER_KEY|USB_DISCONNECT),[0-7],(ACTIVE_HIGH|ACTIVE_LOW)` -/
def legacyGpioPattern : Pattern :=
  .all
    [.word (ascii ";"),
      .oneOf
        [.word (ascii "POWER"), .word (ascii "FASTBOOT_KEY"),
          .word (ascii "POWER_KEY"), .word (ascii "USB_DISCONNECT")],
      .word (ascii ","), .within [(0x30, 0x37)], .word (ascii ","),
      .oneOf [.word (ascii "ACTIVE_HIGH"), .word (ascii "ACTIVE_LOW")]]

/--
The pattern of the legacy form.  The alternatives reach over the anchors: only
the first one is tied to the start, and only the last one to the end.
-/
def legacyPattern : Pattern :=
  .oneOf
    [.all [.start, .word (ascii "d:/"), anything],
      .all
        [.word (ascii "i:"), fourHexDigits, .word (ascii ":"), fourHexDigits,
          .times 0 (some 1)
            (.all [.word (ascii ":"), .times 1 none decimalDigit])],
      .all
        [.word (ascii "s:"), fourHexDigits, .word (ascii ":"), fourHexDigits,
          .word (ascii ":"), ftdiSerial,
          .times 0 (some 1)
            (.all
              [.word (ascii ";"), .within [(0x41, 0x44)],
                .times 0 (some 4) legacyGpioPattern]),
          .finish]]

/-- `^power|fastboot_key|power_key|usb[01]?_disconnect|output_enable$` -/
def ftdiGpioNames : Pattern :=
  .oneOf
    [.all [.start, .word (ascii "power")],
      .word (ascii "fastboot_key"),
      .word (ascii "power_key"),
      .all
        [.word (ascii "usb"), .times 0 (some 1) (.within [(0x30, 0x31)]),
          .word (ascii "_disconnect")],
      .all [.word (ascii "output_enable"), .finish]]

/-- `^power|fastboot_key|power_key|usb_disconnect$` -/
def localGpioNames : Pattern :=
  .oneOf
    [.all [.start, .word (ascii "power")],
      .word (ascii "fastboot_key"),
      .word (ascii "power_key"),
      .all [.word (ascii "usb_disconnect"), .finish]]

/-! ## Definitions -/

/-- `$defs/device_path` -/
def devicePath : Schema :=
  .string (some devicePathPattern)

/-- `$defs/ftdi_gpio` -/
def ftdiGpioSchema : Schema :=
  .object
    [(ascii "interface",
        .enum [ascii "A", ascii "B", ascii "C", ascii "D"]),
      (ascii "line", .integer (some 0) (some 7)),
      (ascii "active_low", .boolean)]
    [] true [ascii "interface", ascii "line"] []

/-- `$defs/local_gpio` -/
def localGpioSchema : Schema :=
  .object
    [(ascii "chip", .string (some gpiochipPattern)),
      (ascii "line", .integer (some 0) none),
      (ascii "active_low", .boolean)]
    [] true [ascii "chip", ascii "line"] []

/-- The options of the chip in `ftdi_gpio`. -/
def ftdiProperties : List (List UInt8 × Schema) :=
  [(ascii "vendor", .string (some (.all [.start, fourHexDigits, .finish]))),
    (ascii "product", .string (some (.all [.start, fourHexDigits, .finish]))),
    (ascii "serial", .string (some (.all [.start, ftdiSerial]))),
    (ascii "index", .integer none none),
    (ascii "devicenode", devicePath)]

/-- `ftdi_gpio` as a mapping. -/
def ftdiMappingSchema : Schema :=
  .object ftdiProperties [(ftdiGpioNames, ftdiGpioSchema)] false []
    [(ascii "index", [ascii "product", ascii "vendor"]),
      (ascii "serial", [ascii "product", ascii "vendor"])]

/-- `ftdi_gpio` -/
def ftdiSchema : Schema :=
  .oneOf [.string (some legacyPattern), ftdiMappingSchema]

/-- `local_gpio` -/
def localSchema : Schema :=
  .object [] [(localGpioNames, localGpioSchema)] false [] []

/-- The options of `laurent`. -/
def laurentProperties : List (List UInt8 × Schema) :=
  [(ascii "server", .string none), (ascii "relay", .integer none none),
    (ascii "usb_relay", .integer none none), (ascii "password", .string none)]

/-- `laurent` -/
def laurentSchema : Schema :=
  .object laurentProperties [] false [ascii "server", ascii "relay"] []

/-- `users` -/
def usersSchema : Schema :=
  .array 1 true (.string none)

/-- The properties of a board whose values are scalars. -/
def boardTexts : List (List UInt8 × Schema) :=
  [(ascii "board", .string none),
    (ascii "name", .string none),
    (ascii "description", .string none),
    (ascii "console", devicePath),
    (ascii "fastboot", .string (some fastbootPattern)),
    (ascii "fastboot_set_active",
      .oneOf [.boolean, .enum [ascii "a", ascii "b"]]),
    (ascii "broken_fastboot_boot", .boolean),
    (ascii "usb_always_on", .boolean),
    (ascii "fastboot_key_timeout", .integer (some 1) none),
    (ascii "cdba", devicePath),
    (ascii "voltage", .integer none none),
    (ascii "conmux", .string none),
    (ascii "external", .string none),
    (ascii "ppps_path", .string none),
    (ascii "ppps3_path", .string none),
    (ascii "status-cmd", .string none),
    (ascii "qcomlt_debug_board", devicePath),
    (ascii "alpaca", devicePath)]

/-- The properties of a board. -/
def boardProperties : List (List UInt8 × Schema) :=
  boardTexts ++
    [(ascii "users", usersSchema), (ascii "ftdi_gpio", ftdiSchema),
      (ascii "local_gpio", localSchema), (ascii "laurent", laurentSchema)]

/-- One of `devices`. -/
def boardSchema : Schema :=
  .object boardProperties [] false [ascii "board", ascii "name"] []

/-- `schema.yaml` -/
def configurationSchema : Schema :=
  .object [(ascii "devices", .array 0 false boardSchema)] [] false
    [ascii "devices"] []

/-! ## The nodes of the data -/

/-- The text of a scalar, where booleans are written as `true` and `false`. -/
def datumText : Datum → Option (List UInt8)
  | .boolean value => some (ascii (if value then "true" else "false"))
  | .integer _ text => some text
  | .string text => some text
  | .other text => some text
  | _ => none

mutual

/-- The node of a datum, written without aliases. -/
def datumNode : Datum → YamlNode
  | .boolean value => .scalar (ascii (if value then "true" else "false"))
  | .integer _ text => .scalar text
  | .string text => .scalar text
  | .other text => .scalar text
  | .array items => .sequence (datumNodes items)
  | .object members => .mapping (memberPairs members)

/-- The nodes of a list. -/
def datumNodes : List Datum → List YamlNode
  | [] => []
  | datum :: data => datumNode datum :: datumNodes data

/-- The pairs of a mapping. -/
def memberPairs : List (List UInt8 × Datum) → List (YamlNode × YamlNode)
  | [] => []
  | (name, datum) :: members =>
      (.scalar name, datumNode datum) :: memberPairs members

end

mutual

/-- Every mapping in a datum has distinct names, as `validate.py` asks. -/
def datumDistinct : Datum → Bool
  | .array items => itemsDistinct items
  | .object members =>
      decide (members.map Prod.fst).Nodup && membersDistinct members
  | _ => true

/-- Every mapping in a list has distinct names. -/
def itemsDistinct : List Datum → Bool
  | [] => true
  | datum :: data => datumDistinct datum && itemsDistinct data

/-- Every mapping in a member has distinct names. -/
def membersDistinct : List (List UInt8 × Datum) → Bool
  | [] => true
  | (_, datum) :: members => datumDistinct datum && membersDistinct members

end

end Cdba
