import Cdba.Hardware
import Cdba.LengthPrefixed

namespace Cdba

/-!
# The USB descriptors of a fastboot device

`parse_usb_desc`, with the offsets into `desc` that it examines.  The array
holds what `read` returned and lies in front of other memory, and nothing
keeps the function from looking beyond.  A `claim` tells for each round of the
outer loop whether `USBDEVFS_CLAIMINTERFACE` succeeds.
-/

open Reading

/-! ## Descriptors -/

/-- `USB_DT_DEVICE` -/
def usbDtDevice : UInt8 := 0x01

/-- `USB_DT_CONFIG` -/
def usbDtConfig : UInt8 := 0x02

/-- `USB_DT_INTERFACE` -/
def usbDtInterface : UInt8 := 0x04

/-- `USB_DT_ENDPOINT` -/
def usbDtEndpoint : UInt8 := 0x05

/-- `USB_DT_SS_ENDPOINT_COMP` -/
def usbDtSsEndpointComp : UInt8 := 0x30

/-- `USB_DT_INTERFACE_SIZE` -/
def usbDtInterfaceSize : Nat := 9

/-- `USB_DT_ENDPOINT_SIZE` -/
def usbDtEndpointSize : Nat := 7

/-- `USB_DT_SS_EP_COMP_SIZE` -/
def usbDtSsEpCompSize : Nat := 6

/-- `USB_ENDPOINT_XFERTYPE_MASK` -/
def usbEndpointXfertypeMask : UInt8 := 0x03

/-- `USB_ENDPOINT_XFER_BULK` -/
def usbEndpointXferBulk : UInt8 := 0x02

/-- `USB_DIR_IN` -/
def usbDirIn : UInt8 := 0x80

/-- `sizeof(desc)` -/
def descSize : Nat := 1024

/-- Why `parse_usb_desc` returns no interface. -/
inductive UsbError where
  /-- the result of a failed `read` -/
  | read (status : Int)
  | einval
  | enoent
  /-- a loop used up its budget; see `parseUsbDesc_returns` -/
  | stuck
  deriving DecidableEq

/-- A descriptor that was found, and where the search continues. -/
structure FoundDescriptor where
  start : Nat
  ptr : Nat
  deriving DecidableEq

/-- Where the walk is after the endpoints of an interface, and what it found. -/
structure FoundEndpoints where
  ptr : Nat
  endpoints : Endpoints
  deriving DecidableEq

/-- The descriptor that was claimed, its `bInterfaceNumber` and endpoints. -/
structure ClaimedInterface where
  ifc : Nat
  id : UInt8
  endpoints : Endpoints
  deriving DecidableEq

/-- `in = -1; out = -1;` -/
def Endpoints.unset : Endpoints :=
  ⟨0xffffffff, 0xffffffff⟩

/-! ## The loops of `parse_usb_desc` -/

/--
The two `do … while` loops: go on from descriptor to descriptor until one has
the type or is the last.
-/
def searchDescriptor
    (desc : Nat → UInt8)
    (descEnd size : Nat)
    (type : UInt8) :
    Nat → Nat → Reading UsbError FoundDescriptor
  | 0, _ => stop .stuck
  | budget + 1, ptr => do
      let bLength ← examine desc ptr
      if bLength.toNat < size then
        stop .einval
      else if descEnd ≤ ptr + bLength.toNat then
        pure ⟨ptr, ptr + bLength.toNat⟩
      else do
        let bDescriptorType ← examine desc (ptr + 1)
        if bDescriptorType = type then
          pure ⟨ptr, ptr + bLength.toNat⟩
        else
          searchDescriptor desc descEnd size type budget
            (ptr + bLength.toNat)

/-- The loop over the endpoints of an interface; `left` are still to come. -/
def endpointsLoop
    (desc : Nat → UInt8)
    (descEnd : Nat) :
    Nat → Nat → Endpoints → Reading UsbError FoundEndpoints
  | 0, ptr, endpoints => pure ⟨ptr, endpoints⟩
  | left + 1, ptr, endpoints =>
      if descEnd ≤ ptr then
        stop .einval
      else do
        let ept ←
          searchDescriptor desc descEnd usbDtEndpointSize usbDtEndpoint
            descEnd ptr
        let bmAttributes ← examine desc (ept.start + 3)
        if bmAttributes &&& usbEndpointXfertypeMask ≠ usbEndpointXferBulk then
          endpointsLoop desc descEnd left ept.ptr endpoints
        else do
          let bEndpointAddress ← examine desc (ept.start + 2)
          let endpoints :=
            if bEndpointAddress &&& usbDirIn ≠ 0 then
              { endpoints with epIn := bEndpointAddress.toUInt32 }
            else
              { endpoints with epOut := bEndpointAddress.toUInt32 }
          if descEnd ≤ ept.ptr then
            pure ⟨ept.ptr, endpoints⟩
          else do
            let bDescriptorType ← examine desc (ept.ptr + 1)
            endpointsLoop desc descEnd left
              (if bDescriptorType = usbDtSsEndpointComp then
                ept.ptr + usbDtSsEpCompSize
              else
                ept.ptr)
              endpoints

/--
The class, subclass and protocol of a fastboot interface, and then the attempt
to claim it: its number, or none if the loop goes on.
-/
def claimInterface
    (desc : Nat → UInt8)
    (claim : UInt8 → Bool)
    (ifc : Nat) :
    Reading UsbError (Option UInt8) := do
  let bInterfaceClass ← examine desc (ifc + 5)
  if bInterfaceClass ≠ 0xff then
    pure none
  else do
    let bInterfaceSubClass ← examine desc (ifc + 6)
    if bInterfaceSubClass ≠ 0x42 then
      pure none
    else do
      let bInterfaceProtocol ← examine desc (ifc + 7)
      if bInterfaceProtocol ≠ 0x03 then
        pure none
      else do
        let id ← examine desc (ifc + 2)
        if claim id then
          pure (some id)
        else
          pure none

/-- The loop over the interfaces, in round `k` with `left` rounds to come. -/
def interfacesLoop
    (desc : Nat → UInt8)
    (descEnd : Nat)
    (claim : Nat → UInt8 → Bool) :
    Nat → Nat → Nat → Reading UsbError ClaimedInterface
  | 0, _, _ => stop .enoent
  | left + 1, k, ptr =>
      if descEnd ≤ ptr then
        stop .einval
      else do
        let ifc ←
          searchDescriptor desc descEnd usbDtInterfaceSize usbDtInterface
            descEnd ptr
        let bNumEndpoints ← examine desc (ifc.start + 4)
        let found ←
          endpointsLoop desc descEnd bNumEndpoints.toNat ifc.ptr .unset
        let claimed ← claimInterface desc (claim k) ifc.start
        match claimed with
        | some id => pure ⟨ifc.start, id, found.endpoints⟩
        | none => interfacesLoop desc descEnd claim left (k + 1) found.ptr

/-- The walk over the `descEnd` bytes that were read into `desc`. -/
def walkDescriptors
    (desc : Nat → UInt8)
    (descEnd : Nat)
    (claim : Nat → UInt8 → Bool) :
    Reading UsbError ClaimedInterface := do
  let devLength ← examine desc 0
  let cfg := devLength.toNat
  if descEnd ≤ cfg then
    stop .einval
  else do
    let devType ← examine desc 1
    if devType ≠ usbDtDevice then
      stop .einval
    else do
      let cfgLength ← examine desc cfg
      let ptr := cfg + cfgLength.toNat
      if descEnd ≤ ptr then
        stop .einval
      else do
        let cfgType ← examine desc (cfg + 1)
        if cfgType ≠ usbDtConfig then
          stop .einval
        else do
          let bNumInterfaces ← examine desc (cfg + 4)
          interfacesLoop desc descEnd claim bNumInterfaces.toNat 0 ptr

/--
`parse_usb_desc`: `contents` is what the device node holds, or the result of
`read` if it fails.
-/
def parseUsbDesc
    (contents : Except Int (List UInt8))
    (beyond : Nat → UInt8)
    (claim : Nat → UInt8 → Bool) :
    Reading UsbError ClaimedInterface :=
  match contents with
  | .error status => stop (.read status)
  | .ok bytes =>
      let data := bytes.take descSize
      walkDescriptors (memoryAt data beyond) data.length claim

/-- A device node as `handle_fastboot_add` sees it, if it can be opened. -/
def UsbNode.ofDescriptors
    (path : CString)
    (contents : Except Int (List UInt8))
    (beyond : Nat → UInt8)
    (claim : Nat → UInt8 → Bool) :
    UsbNode where
  path := path
  probe :=
    match (parseUsbDesc contents beyond claim).outcome with
    | .ok claimed => some claimed.endpoints
    | .error _ => none

end Cdba
