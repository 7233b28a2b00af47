import Cdba.TrailingRun
import Cdba.ClientLoop

namespace Cdba

/-!
# Tildes across console messages

`handle_console` counts tildes in a static variable, which is carried over
from one message to the next.  Where the server splits the output of the board
makes no difference to when the power off is reported.
-/

open Program

namespace Client

/-- `received_power_off = false` -/
def clearPowerOff (client : Client) : Client :=
  { client with receivedPowerOff := false }

/-- One call of `handle_console`: the client in front of it, and the payload. -/
structure ConsoleCall where
  before : Client
  payload : List UInt8

namespace ConsoleCall

/-- The client behind the call. -/
def after (call : ConsoleCall) : Client :=
  finalState (handleConsole call.payload call.before)

/-- `received_power_off = true` is executed during the call. -/
def Raises (call : ConsoleCall) : Prop :=
  (finalState (handleConsole call.payload
    call.before.clearPowerOff)).receivedPowerOff = true

end ConsoleCall

/-- The bytes that have been written to standard output. -/
def stdoutBytes (log : List ClientEvent) : List UInt8 :=
  log.flatMap fun event =>
    match event with
    | .stdout bytes => bytes
    | _ => []

/-- What a call adds to standard output. -/
def ConsoleCall.printed (call : ConsoleCall) : List UInt8 :=
  stdoutBytes (call.after.log.drop call.before.log.length)

/--
Calls of `handle_console` one after the other, with `power_cycles` not
negative, and a counter that only they change.
-/
inductive ConsoleCalls : Nat → List ConsoleCall → Prop where
  | nil (chars : Nat) : ConsoleCalls chars []
  | cons
      {call : ConsoleCall}
      {rest : List ConsoleCall}
      (cycles : call.before.powerCycles ≥ 0)
      (later : ConsoleCalls call.after.powerOffChars rest) :
      ConsoleCalls call.before.powerOffChars (call :: rest)

/-- The stream that some calls are given. -/
def consoleStream (calls : List ConsoleCall) : List UInt8 :=
  calls.flatMap ConsoleCall.payload

/-! ## Counting -/

/-- One character, behind a text that the counter has seen. -/
theorem countTilde_run
    {client : Client}
    {seen : List UInt8}
    (counted : client.powerOffChars = TrailingRun.run 0x7e seen % 20)
    (char : UInt8) :
    let run := TrailingRun.run 0x7e (seen ++ [char])
    (countTilde client char).powerOffChars = run % 20 ∧
      ((countTilde client char).receivedPowerOff = true ↔
        client.receivedPowerOff = true ∨ 0 < run ∧ 20 ∣ run) := by
  intro run
  unfold countTilde
  by_cases tilde : char = 0x7e
  · have longer : run = TrailingRun.run 0x7e seen + 1 := by
      show TrailingRun.run 0x7e (seen ++ [char]) = _
      rw [tilde, TrailingRun.run_append_same]
    rw [if_pos tilde]
    by_cases last : client.powerOffChars = 19
    · have multiple : run % 20 = 0 := by omega
      rw [if_pos last]
      exact ⟨multiple.symm, iff_of_true rfl
        (.inr ⟨by omega, Nat.dvd_of_mod_eq_zero multiple⟩)⟩
    · rw [if_neg last]
      refine ⟨?_, Iff.symm (or_iff_left ?_)⟩
      · dsimp only
        omega
      · rintro ⟨_, multiple⟩
        omega
  · have none : run = 0 :=
      TrailingRun.run_append_other tilde seen
    rw [if_neg tilde, none]
    exact ⟨rfl, Iff.symm (or_iff_left fun positive =>
      Nat.lt_irrefl 0 positive.1)⟩

/-- A payload, behind a text that the counter has seen. -/
theorem foldl_countTilde_run
    (payload : List UInt8)
    {client : Client}
    {seen : List UInt8}
    (counted : client.powerOffChars = TrailingRun.run 0x7e seen % 20) :
    (payload.foldl countTilde client).powerOffChars =
        TrailingRun.run 0x7e (seen ++ payload) % 20 ∧
      ((payload.foldl countTilde client).receivedPowerOff = true ↔
        client.receivedPowerOff = true ∨
          TrailingRun.Completes 20 0x7e seen payload) := by
  induction payload generalizing client seen with
  | nil =>
      rw [List.append_nil]
      exact ⟨counted, Iff.symm
        (or_iff_left (TrailingRun.not_completes_nil 20 0x7e seen))⟩
  | cons char payload inductionHypothesis =>
      obtain ⟨charCounted, charRaised⟩ := countTilde_run counted char
      obtain ⟨restCounted, restRaised⟩ := inductionHypothesis charCounted
      rw [List.append_assoc, List.singleton_append] at restCounted
      refine ⟨restCounted, ?_⟩
      rw [List.foldl_cons, restRaised, charRaised,
        TrailingRun.completes_cons, or_assoc]

/-! ## Calls -/

theorem handleConsole_cycles
    (payload : List UInt8)
    {client : Client}
    (cycles : client.powerCycles ≥ 0) :
    handleConsole payload client =
      .ok () { payload.foldl countTilde client with
        log := client.log ++ [.stdout payload] } := by
  obtain ⟨_, _, counted⟩ := foldl_countTilde payload client
  unfold handleConsole record
  rw [bind_of_ok (update_apply _ _), update_apply, if_pos cycles]
  rw [counted]

/-- A call behind a text that the counter has seen. -/
theorem ConsoleCall.counts
    {call : ConsoleCall}
    (cycles : call.before.powerCycles ≥ 0)
    {seen : List UInt8}
    (counted :
      call.before.powerOffChars = TrailingRun.run 0x7e seen % 20) :
    call.after.powerOffChars =
        TrailingRun.run 0x7e (seen ++ call.payload) % 20 ∧
      (call.Raises ↔
        TrailingRun.Completes 20 0x7e seen call.payload) ∧
      (call.after.receivedPowerOff = true ↔
        call.before.receivedPowerOff = true ∨ call.Raises) ∧
      call.after.log = call.before.log ++ [.stdout call.payload] := by
  obtain ⟨chars, received⟩ :=
    foldl_countTilde_run call.payload counted
  have cleared :=
    (@foldl_countTilde_run call.payload call.before.clearPowerOff seen
      counted).2
  have raises : call.Raises ↔
      TrailingRun.Completes 20 0x7e seen call.payload := by
    unfold Raises
    rw [@handleConsole_cycles _ call.before.clearPowerOff cycles]
    exact cleared.trans (or_iff_right Bool.false_ne_true)
  unfold after
  rw [handleConsole_cycles _ cycles]
  exact ⟨chars, raises, received.trans (or_congr_right raises.symm), rfl⟩

/-- Calls behind a text that the counter has seen. -/
theorem ConsoleCalls.raises_from
    {chars : Nat}
    {calls : List ConsoleCall}
    (run : ConsoleCalls chars calls)
    {seen : List UInt8}
    (counted : chars = TrailingRun.run 0x7e seen % 20) :
    (∀ earlier call later, calls = earlier ++ call :: later →
      (call.Raises ↔
        TrailingRun.Completes 20 0x7e (seen ++ consoleStream earlier)
          call.payload) ∧
      (call.after.receivedPowerOff = true ↔
        call.before.receivedPowerOff = true ∨ call.Raises)) ∧
    ((∃ call ∈ calls, call.Raises) ↔
      TrailingRun.Completes 20 0x7e seen (consoleStream calls)) ∧
    calls.flatMap ConsoleCall.printed = consoleStream calls := by
  induction run generalizing seen with
  | nil chars =>
      refine ⟨?_, ?_, rfl⟩
      · intro earlier call later shape
        exact absurd shape (by simp)
      · refine iff_of_false ?_ (TrailingRun.not_completes_nil 20 0x7e seen)
        rintro ⟨call, member, _⟩
        exact absurd member List.not_mem_nil
  | @cons first rest cycles later inductionHypothesis =>
      obtain ⟨chars, raises, received, log⟩ := first.counts cycles counted
      obtain ⟨each, any, printed⟩ := inductionHypothesis chars
      have stream : consoleStream (first :: rest) =
          first.payload ++ consoleStream rest :=
        List.flatMap_cons
      refine ⟨?_, ?_, ?_⟩
      · intro earlier call later shape
        cases earlier with
        | nil =>
            obtain ⟨rfl, rfl⟩ := List.cons.inj shape
            have same : seen ++ consoleStream [] = seen :=
              List.append_nil seen
            rw [same]
            exact ⟨raises, received⟩
        | cons head earlier =>
            obtain ⟨rfl, behind⟩ := List.cons.inj shape
            have front : consoleStream (first :: earlier) =
                first.payload ++ consoleStream earlier :=
              List.flatMap_cons
            rw [front, ← List.append_assoc]
            exact each earlier call later behind
      · rw [stream, TrailingRun.completes_append, ← raises, ← any]
        simp
      · have own : first.printed = first.payload := by
          rw [ConsoleCall.printed, log, List.drop_left]
          exact List.append_nil first.payload
        rw [stream, List.flatMap_cons, own, printed]

/--
The power off is reported in a payload exactly if a run of tildes in the whole
stream is brought to a positive multiple of 20 there, and at all exactly if
the stream has 20 tildes in a row.  The stream is printed as it is.
-/
theorem ConsoleCalls.raises_iff
    {calls : List ConsoleCall}
    (run : ConsoleCalls 0 calls) :
    (∀ earlier call later, calls = earlier ++ call :: later →
      (call.Raises ↔
        ∃ front rest,
          call.payload = front ++ rest ∧
            front ≠ [] ∧
              0 < TrailingRun.run 0x7e (consoleStream earlier ++ front) ∧
                20 ∣ TrailingRun.run 0x7e
                  (consoleStream earlier ++ front)) ∧
      (call.after.receivedPowerOff = true ↔
        call.before.receivedPowerOff = true ∨ call.Raises)) ∧
    ((∃ call ∈ calls, call.Raises) ↔
      List.replicate 20 0x7e <:+: consoleStream calls) ∧
    calls.flatMap ConsoleCall.printed = consoleStream calls := by
  have fromStart := @ConsoleCalls.raises_from 0 calls run [] rfl
  rwa [TrailingRun.completes_iff_infix (by decide)] at fromStart

/-- Twelve tildes arrive at a client that has just been started. -/
def twelveTildes : ConsoleCall where
  before :=
    initial ⟨0, 0, true, false, none, false, []⟩ 0 [] ⟨⟨[], false⟩, []⟩ ⟨0, []⟩ 0
  payload := List.replicate 12 0x7e

/-- Eight more arrive in the next message. -/
def eightTildes : ConsoleCall where
  before := twelveTildes.after
  payload := List.replicate 8 0x7e

theorem splitTildes_raises :
    ConsoleCalls 0 [twelveTildes, eightTildes] ∧
      ((∃ call ∈ [twelveTildes, eightTildes], call.Raises) ↔
        List.replicate 20 0x7e <:+:
          consoleStream [twelveTildes, eightTildes]) := by
  have run : ConsoleCalls 0 [twelveTildes, eightTildes] :=
    @ConsoleCalls.cons twelveTildes _ (by decide)
      (@ConsoleCalls.cons eightTildes _ (by decide) (.nil _))
  exact ⟨run, (ConsoleCalls.raises_iff run).2.1⟩

end Client

end Cdba
