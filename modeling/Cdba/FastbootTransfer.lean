import Cdba.Libc

namespace Cdba

/-!
# Fastboot transfers

The part of `fastboot.c` that talks to the device: bulk transfers, responses,
the image download and the commands.  A script holds the outcomes of the
`USBDEVFS_BULK` ioctls that are still to come, and every function returns the
rest of the script and the transfers it made.
-/

/-- `MAX_USBFS_BULK_SIZE` -/
def maxUsbfsBulkSize : Nat :=
  16 * 1024

/-- `ENXIO` -/
def enxio : Int :=
  6

/-- A successful bulk transfer: how much was accepted, or what was received. -/
structure Transfer where
  count : Nat
  data : List UInt8
  deriving DecidableEq

/-- The outcomes of the next bulk ioctls; `none` is a failure. -/
abbrev BulkScript :=
  List (Option Transfer)

/-- One bulk ioctl as the device sees it. -/
inductive BulkEvent where
  | out (request : List UInt8) (accepted : Option Nat)
  | incoming (status : Option (List UInt8))
  deriving DecidableEq

/-- What a function returns, the script it leaves and the transfers it made. -/
structure BulkRun (α : Type) where
  value : α
  script : BulkScript
  trace : List BulkEvent
  deriving DecidableEq

/-- Put transfers that were made before in front. -/
def BulkRun.after (trace : List BulkEvent) (run : BulkRun α) : BulkRun α :=
  { run with trace := trace ++ run.trace }

/-! ## `fastboot_read` -/

/-- Store a response in a buffer of a given size, as `strncpy` and the NUL do. -/
def storeReply (len : Nat) (status : List UInt8) : CString :=
  (cstr (status.drop 4)).take (len - 1)

/--
`fastboot_read`: wait for a final response and return its value and what is
stored in `buf`, when there is one.  Without a further ioctl outcome in the
script the device has gone and the ioctl fails.
-/
def fastbootRead
    (len : Option Nat) :
    BulkScript → BulkRun (Int × Option CString)
  | [] => ⟨(-enxio, none), [], [.incoming none]⟩
  | none :: script => ⟨(-enxio, none), script, [.incoming none]⟩
  | some transfer :: script =>
      let status := transfer.data.take 64
      if status.length < 4 then
        ⟨(-1, none), script, [.incoming (some status)]⟩
      else if status.take 4 = ascii "INFO" then
        (fastbootRead len script).after [.incoming (some status)]
      else if status.take 4 = ascii "OKAY" then
        ⟨((status.length : Int) - 4, len.map (storeReply · status)),
          script, [.incoming (some status)]⟩
      else if status.take 4 = ascii "FAIL" then
        ⟨(-enxio, none), script, [.incoming (some status)]⟩
      else if status.take 4 = ascii "DATA" then
        ⟨(toInt32 (strtol16 (cstr (status.drop 4))), none),
          script, [.incoming (some status)]⟩
      else
        (fastbootRead len script).after [.incoming (some status)]

/-! ## `fastboot_write` -/

/-- The `do ... while (len > 0)` loop of `fastboot_write`. -/
def fastbootWriteLoop :
    List UInt8 → Nat → BulkScript → BulkRun Int
  | buf, _, [] => ⟨-1, [], [.out (buf.take maxUsbfsBulkSize) none]⟩
  | buf, _, none :: script =>
      ⟨-1, script, [.out (buf.take maxUsbfsBulkSize) none]⟩
  | buf, count, some transfer :: script =>
      let request := buf.take maxUsbfsBulkSize
      let n := min transfer.count request.length
      if buf.drop n = [] then
        ⟨((count + n : Nat) : Int), script, [.out request (some n)]⟩
      else
        (fastbootWriteLoop (buf.drop n) (count + n) script).after
          [.out request (some n)]

/-- `fastboot_write`: the number of bytes written, or -1. -/
def fastbootWrite (data : List UInt8) (script : BulkScript) : BulkRun Int :=
  fastbootWriteLoop data 0 script

/-! ## `fastboot_download` -/

/-- One lower-case hexadecimal digit. -/
def hexChar (digit : Nat) : UInt8 :=
  if digit < 10 then
    UInt8.ofNat (0x30 + digit)
  else
    UInt8.ofNat (0x61 + digit - 10)

/-- `%08x` of an `unsigned int` -/
def format08x (value : Nat) : CString :=
  (List.range 8).map fun position =>
    hexChar (value % 2 ^ 32 / 16 ^ (7 - position) % 16)

/-- `sprintf(cmd, "download:%08x", (unsigned int)len)` -/
def downloadCommand (len : Nat) : CString :=
  ascii "download:" ++ format08x len

/--
The `while (len > 0)` loop of `fastboot_download`; each round hands at most
`MAX_USBFS_BULK_SIZE` bytes to `fastboot_write`, so one unit of fuel for each
byte is enough.
-/
def sendPayload :
    Nat → List UInt8 → BulkScript → BulkRun Int
  | 0, _, script => ⟨0, script, []⟩
  | fuel + 1, data, script =>
      if data = [] then
        ⟨0, script, []⟩
      else
        let written := fastbootWrite (data.take maxUsbfsBulkSize) script
        if written.value < 0 then
          written
        else
          (sendPayload fuel (data.drop maxUsbfsBulkSize)
            written.script).after written.trace

/-- `fastboot_download`: negative on failure, else the value of the final response. -/
def fastbootDownload
    (data : List UInt8)
    (script : BulkScript) :
    BulkRun Int :=
  let command := fastbootWrite (downloadCommand data.length) script
  let answer := fastbootRead (some maxUsbfsBulkSize) command.script
  if answer.value.1 < 0 then
    ⟨-1, answer.script, command.trace ++ answer.trace⟩
  else
    let payload := sendPayload data.length data answer.script
    if payload.value < 0 then
      payload.after (command.trace ++ answer.trace)
    else
      let final := fastbootRead none payload.script
      ⟨final.value.1, final.script,
        command.trace ++ answer.trace ++ payload.trace ++ final.trace⟩

/-! ## Commands without a payload -/

/-- Send a command and wait for its response; both results are ignored. -/
def fastbootCommand (command : CString) (script : BulkScript) : BulkRun Unit :=
  let written := fastbootWrite command script
  let answer := fastbootRead (some 80) written.script
  ⟨(), answer.script, written.trace ++ answer.trace⟩

/-- `fastboot_boot` -/
def fastbootBoot : BulkScript → BulkRun Unit :=
  fastbootCommand (ascii "boot")

/-- `fastboot_set_active` -/
def fastbootSetActive (active : CString) : BulkScript → BulkRun Unit :=
  fastbootCommand (ascii "set_active:" ++ active)

/-- `fastboot_flash` -/
def fastbootFlash (partitionName : CString) : BulkScript → BulkRun Unit :=
  fastbootCommand (ascii "flash:" ++ partitionName)

/-- `fastboot_reboot` -/
def fastbootReboot : BulkScript → BulkRun Unit :=
  fastbootCommand (ascii "reboot")

/-- `fastboot_continue` -/
def fastbootContinue : BulkScript → BulkRun Unit :=
  fastbootCommand (ascii "continue")

end Cdba
