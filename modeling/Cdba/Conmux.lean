import Cdba.Libc

namespace Cdba

/-!
# Conmux

`conmux.c` looks up a service in a local registry, connects to the address it
names and asks for the console.  Both answers are lines of `key=value` items
in which values are percent-encoded.
-/

/-! ## `parse_response` -/

/-- `key` and `value` of `parse_response`, each a `char[64]`. -/
inductive ReplyBuffer where
  | key
  | value
  deriving DecidableEq, Repr

/-- An access outside the objects that `parse_response` works on. -/
inductive ReplyFault where
  | read
  | store (buffer : ReplyBuffer) (index : Nat)
  deriving DecidableEq, Repr

/-- `struct conmux_response` -/
structure ConmuxResponse where
  title : Option CString
  status : Option CString
  result : Option CString
  state : Option CString
  deriving DecidableEq

/-- As `memset` leaves it. -/
def ConmuxResponse.empty : ConmuxResponse :=
  { title := none, status := none, result := none, state := none }

/-- `isxdigit()` -/
def isXDigit (ch : UInt8) : Bool :=
  (hexDigit? ch).isSome

/-- `nibble` -/
def nibble (ch : UInt8) : UInt8 :=
  if 0x30 ≤ ch && ch ≤ 0x39 then
    ch - 0x30
  else if 0x61 ≤ ch && ch ≤ 0x7a then
    10 + ch - 0x61
  else if 0x41 ≤ ch && ch ≤ 0x5a then
    10 + ch - 0x41
  else
    0xff

/-- `*d++ = ch`, where `d` is behind what the buffer holds so far. -/
def storeChar
    (buffer : ReplyBuffer)
    (held : List UInt8)
    (ch : UInt8) :
    Except ReplyFault (List UInt8) :=
  if held.length < 64 then
    .ok (held ++ [ch])
  else
    .error (.store buffer held.length)

/-- `*d = '\0'`: the C string of what the buffer holds. -/
def storeNul
    (buffer : ReplyBuffer)
    (held : List UInt8) :
    Except ReplyFault CString := do
  let _ ← storeChar buffer held 0
  return cstr held

/-- `*p`; the pointer is what is left of the reply and its NUL. -/
def peek : List UInt8 → Except ReplyFault UInt8
  | [] => .error .read
  | ch :: _ => .ok ch

/-- `while (isspace(*p)) p++;` -/
def skipSpaces : List UInt8 → Except ReplyFault (List UInt8)
  | [] => .error .read
  | ch :: p => if isSpace ch then skipSpaces p else .ok (ch :: p)

/-- The `while (isalpha(*p))` loop and the NUL behind the key. -/
def scanKey :
    List UInt8 → List UInt8 → Except ReplyFault (CString × List UInt8)
  | [], _ => .error .read
  | ch :: p, d =>
      if isAlpha ch then do
        let d ← storeChar .key d ch
        scanKey p d
      else do
        let key ← storeNul .key d
        return (key, ch :: p)

/-- `isprint(*p) && !isspace(*p)` -/
def isGraphic (ch : UInt8) : Bool :=
  isPrint ch && !isSpace ch

/--
The `while (isprint(*p) && !isspace(*p))` loop and the NUL behind the value;
`none` is a truncated percent-encoding.
-/
def scanValue :
    List UInt8 → List UInt8 →
      Except ReplyFault (Option (CString × List UInt8))
  | [], _ => .error .read
  | ch :: p, d =>
      if isGraphic ch then
        if ch = 0x25 then
          match p with
          | [] => .error .read
          | p0 :: p =>
              if !isXDigit p0 then
                .ok none
              else
                match p with
                | [] => .error .read
                | p1 :: p =>
                    if !isXDigit p1 then
                      .ok none
                    else do
                      let d ←
                        storeChar .value d (nibble p0 <<< 4 ||| nibble p1)
                      scanValue p d
        else do
          let d ← storeChar .value d ch
          scanValue p d
      else do
        let value ← storeNul .value d
        return some (value, ch :: p)

/-- The `strcmp` chain that stores a value under its key. -/
def ConmuxResponse.assign
    (resp : ConmuxResponse)
    (key value : CString) :
    ConmuxResponse :=
  if key = ascii "result" then
    { resp with result := some value }
  else if key = ascii "status" then
    { resp with status := some value }
  else if key = ascii "title" then
    { resp with title := some value }
  else if key = ascii "state" then
    { resp with state := some value }
  else
    resp

/--
The `while (*p)` loop of `parse_response`.  Every round passes a `=`, so one
unit of fuel for each byte is enough: without fuel nothing is left to read.
-/
def parseItems :
    Nat → List UInt8 → ConmuxResponse →
      Except ReplyFault (Int × ConmuxResponse)
  | 0, _, _ => .error .read
  | fuel + 1, p, resp => do
      if (← peek p) = 0 then
        return (0, resp)
      let p ← skipSpaces p
      if (← peek p) = 0 then
        return (0, resp)
      let (key, p) ← scanKey p []
      if (← peek p) ≠ 0x3d then
        return (-1, resp)
      match ← scanValue p.tail [] with
      | none => return (-1, resp)
      | some (value, p) => parseItems fuel p (resp.assign key value)

/-- `parse_response` of a reply in front of its NUL. -/
def parseResponse
    (reply : CString) :
    Except ReplyFault (Int × ConmuxResponse) :=
  parseItems (reply.length + 1) (reply ++ [0]) .empty

/-! ## `registry_lookup` -/

/-- What ends a run of `conmux_open` before it returns. -/
inductive ConmuxStop where
  | exit (message : String)
  | access (fault : ReplyFault)
  | null (field : String)
  deriving DecidableEq

/-- A run of `parse_response` on behalf of its callers. -/
def parseReply
    (reply : CString) :
    Except ConmuxStop (Int × ConmuxResponse) :=
  match parseResponse reply with
  | .ok parsed => .ok parsed
  | .error fault => .error (.access fault)

/-- The argument of `strchr` and `strcmp`, which must not be `NULL`. -/
def stringArg (field : String) : Option CString → Except ConmuxStop CString
  | some string => .ok string
  | none => .error (.null field)

/-- `struct conmux_lookup` -/
structure ConmuxLookup where
  host : CString
  port : CString
  deriving DecidableEq

/-- The line of a registry's answer: `buf` up to its first NUL or newline. -/
def registryLine (received : List UInt8) : CString :=
  (cstr received).takeWhile (· ≠ 0x0a)

/--
`registry_lookup` behind its `read`: the return value, and `*result` when it
was set.
-/
def lookupResult
    (received : List UInt8) :
    Except ConmuxStop (Int × Option ConmuxLookup) := do
  let (ret, resp) ← parseReply (registryLine received)
  if ret ≠ 0 then
    return (ret, none)
  let result ← stringArg "result" resp.result
  if 0x3a ∉ result then
    return (-1, none)
  let lookup : ConmuxLookup :=
    { host := result.takeWhile (· ≠ 0x3a)
      port := (result.dropWhile (· ≠ 0x3a)).tail }
  let status ← stringArg "status" resp.status
  return (if status = ascii "OK" then 0 else -1, some lookup)

/-- What the registry's socket does: whether each call succeeds. -/
structure RegistryScript where
  socket : Bool
  connect : Bool
  write : Bool
  read : Option (List UInt8)

/-- `if (!ok) err(1, message);` -/
def orExit (message : String) (ok : Bool) : Except ConmuxStop Unit :=
  if ok then .ok () else .error (.exit message)

/-- What a `read` of at most 255 bytes stores, or `err(1, message)`. -/
def readOrExit
    (message : String) :
    Option (List UInt8) → Except ConmuxStop (List UInt8)
  | some bytes => .ok (bytes.take 255)
  | none => .error (.exit message)

/-- `registry_lookup` -/
def registryLookup
    (service : CString)
    (script : RegistryScript) :
    Except ConmuxStop (Int × Option ConmuxLookup) := do
  orExit "failed to create registry socket" script.socket
  orExit "failed to connect to registry" script.connect
  let request := ascii "LOOKUP service=" ++ service ++ ascii "\n"
  orExit "service name too long for registry lookup request"
    (request.length < 256)
  orExit "failed to send registry lookup request" script.write
  let received ←
    readOrExit "failed to receive registry lookup response" script.read
  lookupResult received

/-! ## `conmux_open` -/

/-- What `socket` and `connect` do for one address. -/
inductive AddressOutcome where
  | noSocket
  | refused (fd : Nat)
  | connected (fd : Nat)
  deriving DecidableEq, Repr

/-- `fd` of `conmux_open`, and the connected descriptors that are open. -/
structure ConnectState where
  fd : Int
  opened : List Nat
  deriving DecidableEq, Repr

/-- The `for` loop of `conmux_open` over the addresses. -/
def tryAddresses :
    List AddressOutcome → ConnectState → Except ConmuxStop ConnectState
  | [], state => .ok state
  | .noSocket :: _, _ => .error (.exit "failed to create registry socket")
  | .refused _ :: addrs, state => tryAddresses addrs { state with fd := -1 }
  | .connected fd :: addrs, state =>
      tryAddresses addrs { fd := fd, opened := state.opened ++ [fd] }

/-- `conmux_open` from `int fd = -1` to the check behind the loop. -/
def connectConmux
    (addrs : List AddressOutcome) :
    Except ConmuxStop ConnectState := do
  let state ← tryAddresses addrs { fd := -1, opened := [] }
  orExit "failed to connect to conmux instance" (state.fd ≠ -1)
  return state

/-- `conmux_open` behind its second `read`: the check of the answer. -/
def checkConnected (received : List UInt8) : Except ConmuxStop Unit := do
  let (ret, resp) ← parseReply (cstr received)
  if ret ≠ 0 then
    .error (.exit "failed to connect to conmux instance")
  else
    let status ← stringArg "status" resp.status
    orExit "failed to connect to conmux instance" (status = ascii "OK")

/-- What surrounds `conmux_open`; the sockets behave as these fields say. -/
structure ConmuxScript where
  user : Option CString
  registry : RegistryScript
  getaddrinfo : CString → CString → Option (List AddressOutcome)
  write : Bool
  read : Option (List UInt8)

/--
`conmux_open`: the state of its descriptors when it returns, of which `fd` is
the one it keeps.  `registry_lookup` returns 0 only after it set `lookup`.
-/
def conmuxOpen
    (service : CString)
    (script : ConmuxScript) :
    Except ConmuxStop ConnectState := do
  let user := script.user.getD (ascii "unknown")
  match ← registryLookup service script.registry with
  | (0, some lookup) =>
      match script.getaddrinfo lookup.host lookup.port with
      | none => .error (.exit "failed resolve")
      | some addrs =>
          let state ← connectConmux addrs
          let request :=
            ascii "CONNECT id=cdba:" ++ user ++ ascii " to=console\n"
          orExit "unable to fit connect request in buffer"
            (request.length < 256)
          orExit "failed to write conmux connect request" script.write
          let received ←
            readOrExit "failed to read conmux response" script.read
          checkConnected received
          return state
  | _ => .error (.exit "")

end Cdba
