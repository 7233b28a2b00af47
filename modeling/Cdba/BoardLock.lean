import Cdba.Session

namespace Cdba

/-!
# Waiting for the lock of a board

While it waits, `device_lock` reads from standard input to notice that the
client has gone, and throws away what it reads.
-/

open Program

variable {n : Nat}

/--
A server that goes on and has read everything its client sent has dispatched
exactly the client's frames, in order, if and only if no probe of a lock wait
found a byte to read.
-/
theorem dispatched_eq_sent_iff
    {devices : Fin n → Device}
    {username : CString}
    {stdin : Input}
    {hw : Hw n}
    {lockOpens flocks : List Bool}
    {iterations : List (List Callback)}
    {final : ServerLoop n}
    {frames : List Msg}
    (ran :
      watchMainLoop iterations
          (Server.start devices username stdin hw lockOpens flocks) =
        .ok () final)
    (sent : stdin.fd.unread = wire.encodeAll frames)
    (readAll : final.state.stdin.fd.unread = []) :
    final.state.dispatched = frames ↔ final.state.probed = [] := by
  have accounts := (watchMainLoop_accounts iterations
    (Server.start devices username stdin hw lockOpens flocks)).related
  have drained := watchMainLoop_drained iterations _
    (start_drained devices username stdin hw lockOpens flocks)
  rw [KeepsAt, ran] at drained
  rw [ran] at accounts
  obtain ⟨lengths, stream⟩ := Journal.Accounts.from_start accounts
    contents_empty rfl rfl
  simp only [stdinJournal, Journal.ahead, Journal.unread,
    Server.stdinOf, finalState, readAll, List.append_nil] at lengths stream
  rw [show (Server.start devices username stdin hw lockOpens
    flocks).state.stdin = stdin from rfl, sent] at lengths stream
  constructor
  · intro exactly
    rw [exactly] at lengths
    have none : final.state.probed.length = 0 := by omega
    exact List.eq_nil_of_length_eq_zero none
  · intro noneProbed
    exact (FrameFormat.eq_of_encodeAll_eq (stream noneProbed)
      drained).1.symm

/-- `MSG_POWER_ON` and `MSG_SEND_BREAK`, sent right behind the selection of a board. -/
def framesBehindSelect : List Msg :=
  [selectFtdiBoard,
    Msg.ofData MsgType.powerOn.code [] Msg.nil_fits,
    Msg.ofData MsgType.sendBreak.code [] Msg.nil_fits]

/-- The selection arrives alone, the other frames while the board is opened. -/
def contendedStart (flocks : List Bool) : ServerLoop 1 :=
  benchServer
    { fd := ⟨wire.encodeAll framesBehindSelect, false⟩
      script :=
        [.deliver 9, .wouldBlock, .deliver 0, .deliver 100, .wouldBlock,
          .wouldBlock] }
    flocks

/-- Without contention all three frames are dispatched. -/
theorem contendedStart_free :
    (finalState
        (watchMainLoop [[.stdin], [.stdin]]
          (contendedStart [true]))).state.dispatched =
      framesBehindSelect :=
  (dispatched_eq_sent_iff
    (eq_ok_of_returned (show returned? _ = some () by decide +kernel)) rfl
    (by decide +kernel)).mpr (by decide +kernel)

/-- One failed attempt at the lock, and the frames behind the selection are lost. -/
theorem contendedStart_damaged :
    let result := watchMainLoop [[.stdin], [.stdin]]
      (contendedStart [false, true])
    returned? result = some () ∧
      (finalState result).state.stdin.fd.unread = [] ∧
      (finalState result).state.dispatched ≠ framesBehindSelect := by
  decide +kernel

end Cdba
