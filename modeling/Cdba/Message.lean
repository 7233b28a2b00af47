import Cdba.FrameStream
import Mathlib.Algebra.GroupWithZero.Nat

namespace Cdba

/-!
# Protocol messages

The messages of `cdba.h`.  A message is a packed header, one byte of type and
a 16-bit payload length in little-endian order, followed by the payload.  Both
programs write the header and the payload of a message to a byte stream, so
the wire form is a self-delimiting `FrameFormat`.
-/

/-- The message numbers of the anonymous enum in `cdba.h`. -/
inductive MsgType where
  | selectBoard
  | console
  | hardreset
  | powerOn
  | powerOff
  | fastbootPresent
  | fastbootDownload
  | fastbootBoot
  | statusUpdate
  | vbusOn
  | vbusOff
  | fastbootReboot
  | sendBreak
  | listDevices
  | boardInfo
  | fastbootContinue
  | keyPress
  deriving DecidableEq, Repr

namespace MsgType

/-- The value of the enumerator; `MSG_SELECT_BOARD` is 1. -/
def code : MsgType → UInt8
  | .selectBoard => 1
  | .console => 2
  | .hardreset => 3
  | .powerOn => 4
  | .powerOff => 5
  | .fastbootPresent => 6
  | .fastbootDownload => 7
  | .fastbootBoot => 8
  | .statusUpdate => 9
  | .vbusOn => 10
  | .vbusOff => 11
  | .fastbootReboot => 12
  | .sendBreak => 13
  | .listDevices => 14
  | .boardInfo => 15
  | .fastbootContinue => 16
  | .keyPress => 17

/-- The enumerator with a given value, if there is one. -/
def ofCode? (code : UInt8) : Option MsgType :=
  match code.toNat with
  | 1 => some .selectBoard
  | 2 => some .console
  | 3 => some .hardreset
  | 4 => some .powerOn
  | 5 => some .powerOff
  | 6 => some .fastbootPresent
  | 7 => some .fastbootDownload
  | 8 => some .fastbootBoot
  | 9 => some .statusUpdate
  | 10 => some .vbusOn
  | 11 => some .vbusOff
  | 12 => some .fastbootReboot
  | 13 => some .sendBreak
  | 14 => some .listDevices
  | 15 => some .boardInfo
  | 16 => some .fastbootContinue
  | 17 => some .keyPress
  | _ => none

@[simp] theorem ofCode?_code
    (type : MsgType) :
    ofCode? type.code = some type := by
  cases type <;> rfl

end MsgType

/-- `struct msg`: the flexible array member holds exactly `len` bytes. -/
structure Msg where
  type : UInt8
  len : UInt16
  data : List UInt8
  data_length : data.length = len.toNat
  deriving DecidableEq

/-- `sizeof(struct msg)`: the packed header without the payload. -/
def sizeofMsg : Nat :=
  3

namespace Msg

/-- Messages are determined by their type and their payload. -/
theorem ext_data
    {first second : Msg}
    (sameType : first.type = second.type)
    (sameData : first.data = second.data) :
    first = second := by
  rcases first with ⟨firstType, firstLen, firstData, firstLength⟩
  rcases second with ⟨secondType, secondLen, secondData, secondLength⟩
  simp only at sameType sameData
  subst sameType
  subst sameData
  have sameLen : firstLen = secondLen :=
    UInt16.toNat_inj.mp (firstLength.symm.trans secondLength)
  subst sameLen
  rfl

/-- The message with a given type and payload. -/
def ofData
    (type : UInt8)
    (data : List UInt8)
    (fits : data.length < 2 ^ 16) :
    Msg where
  type := type
  len := UInt16.ofNat data.length
  data := data
  data_length := by
    rw [UInt16.toNat_ofNat']
    exact (Nat.mod_eq_of_lt fits).symm

theorem nil_fits :
    ([] : List UInt8).length < 2 ^ 16 := by
  decide

end Msg

/-- The three header bytes as `cdba_send_buf` writes them. -/
def headerBytes (type : UInt8) (len : UInt16) : List UInt8 :=
  [type, UInt8.ofNat len.toNat, UInt8.ofNat (len.toNat / 256)]

/-- `hdr.len` of a header that was read from the wire. -/
def headerLen (header : List UInt8) : UInt16 :=
  UInt16.ofNat
    ((header.getD 1 0).toNat + 256 * (header.getD 2 0).toNat)

@[simp] theorem length_headerBytes
    (type : UInt8)
    (len : UInt16) :
    (headerBytes type len).length = sizeofMsg :=
  rfl

/-- The length survives the split into two bytes. -/
theorem headerLen_headerBytes_append
    (type : UInt8)
    (len : UInt16)
    (rest : List UInt8) :
    headerLen (headerBytes type len ++ rest) = len := by
  have bound : len.toNat < 2 ^ 16 := len.toNat_lt
  apply UInt16.toNat_inj.mp
  simp only [headerLen, headerBytes, List.cons_append,
    List.getD_cons_succ, List.getD_cons_zero,
    UInt16.toNat_ofNat', UInt8.toNat_ofNat']
  omega

/-- The bytes `cdba_send_buf` writes: the header, then `len` bytes of `buf`. -/
def sendBufBytes (type : MsgType) (buf : List UInt8) : List UInt8 :=
  headerBytes type.code (UInt16.ofNat buf.length) ++ buf

/-- The bytes of one message on the wire. -/
def encodeMsg (msg : Msg) : List UInt8 :=
  headerBytes msg.type msg.len ++ msg.data

@[simp] theorem length_encodeMsg
    (msg : Msg) :
    (encodeMsg msg).length = sizeofMsg + msg.data.length := by
  simp [encodeMsg]

/-- `cdba_send_buf` emits the wire form of a message as long as the length fits. -/
theorem sendBufBytes_eq_encodeMsg
    (type : MsgType)
    {buf : List UInt8}
    (fits : buf.length < 2 ^ 16) :
    sendBufBytes type buf =
      encodeMsg (Msg.ofData type.code buf fits) :=
  rfl

/--
Split the first complete message off a byte stream.  The stream holds one when
it holds a header and at least as many further bytes as the header announces.
-/
def splitMsg? (stream : List UInt8) : Option (Msg × List UInt8) :=
  if complete :
      sizeofMsg + (headerLen stream).toNat ≤ stream.length then
    some
      ({ type := stream.getD 0 0
         len := headerLen stream
         data := (stream.drop sizeofMsg).take (headerLen stream).toNat
         data_length := by
          simp only [List.length_take, List.length_drop]
          omega },
        stream.drop (sizeofMsg + (headerLen stream).toNat))
  else
    none

/-- A stream is incomplete exactly when it is shorter than its first message. -/
theorem splitMsg?_eq_none_iff
    (stream : List UInt8) :
    splitMsg? stream = none ↔
      stream.length < sizeofMsg + (headerLen stream).toNat := by
  unfold splitMsg?
  split <;> simp <;> omega

/-- A nonempty header is rebuilt from its type and its length. -/
private theorem headerBytes_of_stream
    {stream : List UInt8}
    (header : sizeofMsg ≤ stream.length) :
    stream =
      headerBytes (stream.getD 0 0) (headerLen stream) ++
        stream.drop sizeofMsg := by
  match stream, header with
  | type :: low :: high :: rest, _ =>
      have lowBound : low.toNat < 2 ^ 8 := low.toNat_lt
      have highBound : high.toNat < 2 ^ 8 := high.toNat_lt
      have sameLow :
          UInt8.ofNat (headerLen (type :: low :: high :: rest)).toNat =
            low := by
        apply UInt8.toNat_inj.mp
        simp only [headerLen, List.getD_cons_succ,
          List.getD_cons_zero, UInt16.toNat_ofNat', UInt8.toNat_ofNat']
        omega
      have sameHigh :
          UInt8.ofNat
              ((headerLen (type :: low :: high :: rest)).toNat / 256) =
            high := by
        apply UInt8.toNat_inj.mp
        simp only [headerLen, List.getD_cons_succ,
          List.getD_cons_zero, UInt16.toNat_ofNat', UInt8.toNat_ofNat']
        omega
      simp [headerBytes, sameLow, sameHigh, sizeofMsg]

/-- The wire format of both directions of the protocol. -/
def wire : FrameFormat UInt8 Msg where
  encode := encodeMsg
  next? := splitMsg?
  encode_ne_nil := by
    intro msg
    simp [encodeMsg, headerBytes]
  next?_encode_append := by
    intro msg rest
    have sameLen : headerLen (encodeMsg msg ++ rest) = msg.len := by
      unfold encodeMsg
      rw [List.append_assoc, headerLen_headerBytes_append]
    have dropHeader :
        (encodeMsg msg ++ rest).drop sizeofMsg = msg.data ++ rest :=
      rfl
    have dataLength := msg.data_length
    have complete :
        sizeofMsg + (headerLen (encodeMsg msg ++ rest)).toNat ≤
          (encodeMsg msg ++ rest).length := by
      rw [sameLen, List.length_append, length_encodeMsg]
      omega
    unfold splitMsg?
    rw [dif_pos complete]
    simp only [Option.some.injEq, Prod.mk.injEq]
    refine ⟨Msg.ext_data rfl ?_, ?_⟩
    · simp only [dropHeader, sameLen, ← dataLength,
        List.take_left]
    · rw [← List.drop_drop, dropHeader, sameLen,
        ← dataLength, List.drop_left]
  eq_encode_append := by
    intro stream msg rest found
    unfold splitMsg? at found
    split at found
    · rename_i complete
      simp only [Option.some.injEq, Prod.mk.injEq] at found
      obtain ⟨rfl, rfl⟩ := found
      have header : sizeofMsg ≤ stream.length := by omega
      conv => lhs; rw [headerBytes_of_stream header]
      simp only [encodeMsg, List.append_assoc]
      congr 1
      rw [← List.drop_drop]
      exact (List.take_append_drop _ _).symm
    · contradiction

@[simp] theorem wire_encode
    (msg : Msg) :
    wire.encode msg = encodeMsg msg :=
  rfl

@[simp] theorem wire_next?
    (stream : List UInt8) :
    wire.next? stream = splitMsg? stream :=
  rfl

end Cdba
