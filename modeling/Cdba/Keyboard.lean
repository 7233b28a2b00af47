import Cdba.Transducer
import Cdba.WorkQueue
import Mathlib.Data.List.Chain

namespace Cdba

/-!
# The keyboard

`tty_callback` over everything that is typed.  The terminal hands the client
its input in reads of any size, and each character may send a message whose
writes may fail; what the characters mean depends on neither.  The keyboard is
a machine that reads characters and writes keystrokes: messages to be sent, and
the wish to quit.
-/

open Program

namespace Client

/-! ## The machine -/

/-- What a key behind `^A` is for. -/
inductive Shortcut where
  | quit
  | message (type : MsgType) (payload : List UInt8)
  | toggle (key : UInt8)
  deriving DecidableEq, Repr

/-- The shortcuts of `tty_callback`. -/
def shortcut? (char : UInt8) : Option Shortcut :=
  if char = 0x71 then some .quit
  else if char = 0x50 then some (.message .powerOn [])
  else if char = 0x70 then some (.message .powerOff [])
  else if char = 0x73 then some (.message .statusUpdate [])
  else if char = 0x56 then some (.message .vbusOn [])
  else if char = 0x76 then some (.message .vbusOff [])
  else if char = 0x61 then some (.message .console [0x01])
  else if char = 0x42 then some (.message .sendBreak [])
  else if char = 0x6f then some (.message .keyPress [1, 2])
  else if char = 0x4f then some (.toggle 1)
  else if char = 0x66 then some (.message .keyPress [0, 2])
  else if char = 0x46 then some (.toggle 0)
  else none

/-- The messages that shortcuts send as they are. -/
def shortcutMessages : List (MsgType × List UInt8) :=
  [(.powerOn, []), (.powerOff, []), (.statusUpdate, []), (.vbusOn, []),
    (.vbusOff, []), (.console, [0x01]), (.sendBreak, []),
    (.keyPress, [1, 2]), (.keyPress, [0, 2])]

theorem mem_shortcutMessages
    {char : UInt8}
    {type : MsgType}
    {payload : List UInt8}
    (found : shortcut? char = some (.message type payload)) :
    (type, payload) ∈ shortcutMessages := by
  have either :
      ∀ {condition : Prop} [Decidable condition]
        {first later : Option Shortcut},
        (first = some (.message type payload) →
          (type, payload) ∈ shortcutMessages) →
        (later = some (.message type payload) →
          (type, payload) ∈ shortcutMessages) →
        (if condition then first else later) =
            some (.message type payload) →
          (type, payload) ∈ shortcutMessages := by
    intro condition _ first later inFirst inLater
    split
    · exact inFirst
    · exact inLater
  have other :
      ∀ {shortcut : Option Shortcut},
        (∀ type payload, shortcut ≠ some (.message type payload)) →
        shortcut = some (.message type payload) →
          (type, payload) ∈ shortcutMessages :=
    fun differs same => absurd same (differs type payload)
  have listed :
      ∀ content, content ∈ shortcutMessages →
        some (Shortcut.message content.1 content.2) =
            some (.message type payload) →
          (type, payload) ∈ shortcutMessages := by
    rintro content member ⟨⟩
    exact member
  exact either (other (by simp))
    (either (listed (.powerOn, []) (by decide))
    (either (listed (.powerOff, []) (by decide))
    (either (listed (.statusUpdate, []) (by decide))
    (either (listed (.vbusOn, []) (by decide))
    (either (listed (.vbusOff, []) (by decide))
    (either (listed (.console, [0x01]) (by decide))
    (either (listed (.sendBreak, []) (by decide))
    (either (listed (.keyPress, [1, 2]) (by decide))
    (either (other (by simp))
    (either (listed (.keyPress, [0, 2]) (by decide))
    (either (other (by simp)) (other (by simp))))))))))))) found

/-- What is typed: a message, or that the client is to quit. -/
inductive Keystroke where
  | quit
  | send (type : MsgType) (payload : List UInt8)
  deriving DecidableEq, Repr

/-- The static variables of `tty_callback`. -/
structure Keyboard where
  special : Bool
  keyState : Nat → Bool

/-- No key is held, and `^A` was not typed. -/
def Keyboard.idle : Keyboard where
  special := false
  keyState := fun _ => false

/-- `key_state[key] = !key_state[key]` -/
def Keyboard.toggle (keyboard : Keyboard) (key : UInt8) : Keyboard where
  special := keyboard.special
  keyState := fun query =>
    if query = key.toNat then
      !keyboard.keyState query
    else
      keyboard.keyState query

/-- The `uint8_t state` of a key that has been toggled. -/
def Keyboard.pressed (keyboard : Keyboard) (key : UInt8) : UInt8 :=
  if keyboard.keyState key.toNat then 1 else 0

/-- A key behind `^A`. -/
def Keyboard.use :
    Keyboard → Option Shortcut → Keyboard × List Keystroke
  | keyboard, none => (keyboard, [])
  | keyboard, some .quit => (keyboard, [.quit])
  | keyboard, some (.message type payload) =>
      (keyboard, [.send type payload])
  | keyboard, some (.toggle key) =>
      (keyboard.toggle key,
        [.send .keyPress [key, (keyboard.toggle key).pressed key]])

/-- The keyboard reads one character. -/
def Keyboard.read (keyboard : Keyboard) (char : UInt8) :
    Keyboard × List Keystroke :=
  if char = 0x01 then
    ({ keyboard with special := true }, [])
  else if keyboard.special then
    ({ (keyboard.use (shortcut? char)).1 with special := false },
      (keyboard.use (shortcut? char)).2)
  else
    (keyboard, [.send .console [char]])

/-- The machine of `tty_callback`. -/
def typing : Transducer Keyboard UInt8 Keystroke where
  step := Keyboard.read

/-! ## The code runs the machine -/

/-- The keyboard in the state of the client. -/
def keyboard (client : Client) : Keyboard where
  special := client.special
  keyState := client.keyState

/-- The client with another keyboard. -/
def withKeyboard (client : Client) (keyboard : Keyboard) : Client :=
  { client with
    special := keyboard.special
    keyState := keyboard.keyState }

/-- What a keystroke does, given how the next writes end. -/
def perform (client : Client) : Keystroke → Client
  | .quit => { client with quit := true }
  | .send type payload =>
      { client with
        sshStdin :=
          client.sshStdin ++ (sendResult type payload client.writes).2.1
        writes := (sendResult type payload client.writes).2.2 }

/-- What keystrokes do, one after the other. -/
def performAll (client : Client) (strokes : List Keystroke) : Client :=
  strokes.foldl perform client

/-- No keystroke changes the keyboard, whose state is the program's own. -/
theorem perform_withKeyboard
    (client : Client)
    (keyboard : Keyboard)
    (stroke : Keystroke) :
    perform (client.withKeyboard keyboard) stroke =
      (perform client stroke).withKeyboard keyboard := by
  cases stroke <;> rfl

theorem performAll_withKeyboard
    (client : Client)
    (keyboard : Keyboard)
    (strokes : List Keystroke) :
    performAll (client.withKeyboard keyboard) strokes =
      (performAll client strokes).withKeyboard keyboard := by
  induction strokes generalizing client with
  | nil =>
      rfl
  | cons stroke rest inductionHypothesis =>
      rw [performAll, List.foldl_cons, perform_withKeyboard]
      exact inductionHypothesis _

theorem performAll_append
    (client : Client)
    (before after : List Keystroke) :
    performAll client (before ++ after) =
      performAll (performAll client before) after :=
  List.foldl_append

/-- What `tty_callback` does for a shortcut. -/
def runShortcut : Option Shortcut → ClientM Unit
  | none => pure ()
  | some .quit => update fun client => { client with quit := true }
  | some (.message type payload) => discard (cdbaSendBuf type payload)
  | some (.toggle key) => cdbaToggleKey key

/-- The `switch` looks a character up in the table of shortcuts. -/
theorem ttyCommand_eq_runShortcut
    (char : UInt8) :
    ttyCommand char = runShortcut (shortcut? char) := by
  unfold ttyCommand shortcut?
  simp only [apply_ite runShortcut]
  rfl

/-- A message is sent, whatever becomes of its writes. -/
theorem discard_cdbaSendBuf_eq
    (type : MsgType)
    (payload : List UInt8)
    (client : Client) :
    discard (cdbaSendBuf type payload) client =
      .ok () (perform client (.send type payload)) :=
  bind_of_ok (cdbaSendBuf_eq type payload client) _

theorem cdbaToggleKey_eq
    (key : UInt8)
    (client : Client) :
    cdbaToggleKey key client =
      .ok ()
        ((perform client
            (.send .keyPress
              [key, (client.keyboard.toggle key).pressed key])).withKeyboard
          (client.keyboard.toggle key)) := by
  rw [cdbaToggleKey, bind_of_ok (update_apply _ _),
    bind_of_ok (read_apply _ _), bind_of_ok (cdbaSendBuf_eq _ _ _)]
  rfl

theorem runShortcut_eq
    (shortcut : Option Shortcut)
    (client : Client) :
    runShortcut shortcut client =
      .ok ()
        ((performAll client (client.keyboard.use shortcut).2).withKeyboard
          (client.keyboard.use shortcut).1) := by
  cases shortcut with
  | none => rfl
  | some shortcut =>
      cases shortcut with
      | quit => rfl
      | message type payload => exact discard_cdbaSendBuf_eq _ _ _
      | toggle key => exact cdbaToggleKey_eq key client

/-- One character. -/
theorem ttyChar_eq
    (char : UInt8)
    (client : Client) :
    ttyChar char client =
      .ok ()
        ((performAll client (client.keyboard.read char).2).withKeyboard
          (client.keyboard.read char).1) := by
  unfold ttyChar Keyboard.read
  rw [bind_of_ok (read_apply _ _)]
  split
  · rfl
  · rw [show client.keyboard.special = client.special from rfl]
    split
    · rw [ttyCommand_eq_runShortcut, bind_of_ok (runShortcut_eq _ client)]
      rfl
    · exact discard_cdbaSendBuf_eq _ _ _

/-- One read of the terminal. -/
theorem ttyCallback_eq
    (buf : List UInt8)
    (client : Client) :
    ttyCallback (some buf) client =
      .ok ()
        ((performAll client
            (typing.output client.keyboard buf)).withKeyboard
          (typing.after client.keyboard buf)) := by
  rw [ttyCallback, Option.getD_some]
  induction buf generalizing client with
  | nil =>
      rfl
  | cons char rest inductionHypothesis =>
      rw [each, bind_of_ok (ttyChar_eq char client), inductionHypothesis,
        performAll_withKeyboard, ← performAll_append]
      rfl

/--
However the terminal's input is cut into reads, and however the writes of the
messages end: `tty_callback` does what the machine writes for the whole input,
and leaves the keyboard in the state of the machine.
-/
theorem ttyCallbacks_eq
    (reads : List (List UInt8))
    (client : Client) :
    each (fun buf => ttyCallback (some buf)) reads client =
      .ok ()
        ((performAll client
            (typing.output client.keyboard reads.flatten)).withKeyboard
          (typing.after client.keyboard reads.flatten)) := by
  rw [← Transducer.outputs_eq]
  induction reads generalizing client with
  | nil =>
      rfl
  | cons buf rest inductionHypothesis =>
      rw [each, bind_of_ok (ttyCallback_eq buf client), inductionHypothesis,
        performAll_withKeyboard, ← performAll_append,
        List.flatten_cons, Transducer.after_append]
      rfl

/-! ## Typing a text -/

/-- What is typed to send a text to the console: `^A` is typed as `^A a`. -/
def escaped (text : List UInt8) : List UInt8 :=
  text.flatMap fun char => if char = 0x01 then [0x01, 0x61] else [char]

/-- The console message of one character. -/
def typedByte (char : UInt8) : Keystroke :=
  .send .console [char]

/-- An escaped text is typed as it is, and leaves the keyboard alone. -/
theorem typing_escaped
    {keyboard : Keyboard}
    (ready : keyboard.special = false)
    (text : List UInt8) :
    typing.Reads keyboard (escaped text) keyboard
      (text.map typedByte) := by
  induction text with
  | nil =>
      exact ⟨rfl, rfl⟩
  | cons char rest inductionHypothesis =>
      have first :
          typing.Reads keyboard
            (if char = 0x01 then [0x01, 0x61] else [char]) keyboard
            [typedByte char] := by
        obtain ⟨special, keyState⟩ := keyboard
        cases ready
        by_cases control : char = 0x01
        · rw [if_pos control, control]
          exact ⟨rfl, rfl⟩
        · rw [if_neg control]
          have step :
              typing.step ⟨false, keyState⟩ char =
                (⟨false, keyState⟩, [typedByte char]) := by
            simp [typing, Keyboard.read, control, typedByte]
          exact ⟨by rw [Transducer.after, step]; rfl,
            by rw [Transducer.output, step]; rfl⟩
      exact first.append inductionHypothesis

/-- The frame of one console character. -/
def consoleFrame (char : UInt8) : Msg where
  type := MsgType.console.code
  len := 1
  data := [char]
  data_length := rfl

/-- Console characters whose writes succeed go out as one frame each. -/
theorem performAll_typedBytes
    (text : List UInt8)
    (client : Client)
    (writable : ∀ outcome, outcome ∈ client.writes → outcome = .done) :
    ∃ writes,
      performAll client (text.map typedByte) =
        { client with
          sshStdin :=
            client.sshStdin ++ wire.encodeAll (text.map consoleFrame)
          writes := writes } := by
  induction text generalizing client with
  | nil =>
      exact ⟨client.writes, by simp [performAll]⟩
  | cons char rest inductionHypothesis =>
      have sent := congrArg (fun result => result.2.1)
        (sendResult_writable writable .console [char])
      have left :
          ∀ outcome,
            outcome ∈ (perform client (typedByte char)).writes →
            outcome = .done :=
        fun outcome member =>
          writable outcome ((sendResult_suffix _ _ _).subset member)
      obtain ⟨writes, others⟩ := inductionHypothesis _ left
      refine ⟨writes, ?_⟩
      rw [List.map_cons, performAll, List.foldl_cons]
      refine others.trans ?_
      simp only [perform, typedByte, sent, List.map_cons,
        FrameFormat.encodeAll_cons, List.append_assoc]
      rfl

/--
Whatever text is typed escaped, in reads of any size: as long as the writes
succeed, the server is sent exactly the text, one frame for each character, and
the keyboard is left as it was.
-/
theorem ttyCallbacks_typeText
    {client : Client}
    (ready : client.special = false)
    (writable : ∀ outcome, outcome ∈ client.writes → outcome = .done)
    {text : List UInt8}
    {reads : List (List UInt8)}
    (typed : reads.flatten = escaped text) :
    ∃ writes,
      each (fun buf => ttyCallback (some buf)) reads client =
        .ok ()
          { client with
            sshStdin :=
              client.sshStdin ++ wire.encodeAll (text.map consoleFrame)
            writes := writes } := by
  have types :
      typing.Reads client.keyboard (escaped text) client.keyboard
        (text.map typedByte) :=
    typing_escaped ready text
  obtain ⟨writes, performed⟩ := performAll_typedBytes text client writable
  refine ⟨writes, ?_⟩
  rw [ttyCallbacks_eq, typed, types.output,
    types.after, performed]
  rfl

/-- A client whose writes all succeed. -/
def typist : Client :=
  initial ⟨0, 0, true, false, none, true, []⟩ 0 [] ⟨⟨[], false⟩, []⟩ ⟨0, []⟩ 0

/-- A text that begins with `^A`, of which one read ends inside the escape. -/
theorem typist_typeText :
    ∃ writes,
      each (fun buf => ttyCallback (some buf)) [[0x01], [0x61, 0x68]]
          typist =
        .ok ()
          { typist with
            sshStdin :=
              typist.sshStdin ++ wire.encodeAll ([0x01, 0x68].map consoleFrame)
            writes := writes } :=
  ttyCallbacks_typeText rfl (by simp [typist, initial]) (by decide)

/-! ## Held keys -/

/-- Whether a keystroke presses or releases a key for good. -/
def Keystroke.holds? (key : UInt8) : Keystroke → Option Bool
  | .send .keyPress [pressed, state] =>
      if pressed = key ∧ state ≠ 2 then some (state = 1) else none
  | _ => none

/-- The presses and releases of a key, in order. -/
def heldChanges (key : UInt8) (strokes : List Keystroke) : List Bool :=
  strokes.filterMap (Keystroke.holds? key)

/-- Toggling another key is nothing to this one. -/
theorem keyState_toggle
    (keyboard : Keyboard)
    (key other : UInt8) :
    (keyboard.toggle other).keyState key.toNat =
      if key = other then
        !keyboard.keyState key.toNat
      else
        keyboard.keyState key.toNat := by
  have same : key.toNat = other.toNat ↔ key = other :=
    ⟨UInt8.toNat.inj, congrArg UInt8.toNat⟩
  simp only [Keyboard.toggle, same]

/-- The shortcuts that send a message neither press nor release for good. -/
theorem shortcut?_message
    {char : UInt8}
    {type : MsgType}
    {payload : List UInt8}
    (found : shortcut? char = some (.message type payload))
    (key : UInt8) :
    (Keystroke.send type payload).holds? key = none := by
  have member := mem_shortcutMessages found
  simp only [shortcutMessages, List.mem_cons, Prod.mk.injEq,
    List.not_mem_nil, or_false] at member
  rcases member with ⟨rfl, rfl⟩ | ⟨rfl, rfl⟩ | ⟨rfl, rfl⟩ | ⟨rfl, rfl⟩ |
    ⟨rfl, rfl⟩ | ⟨rfl, rfl⟩ | ⟨rfl, rfl⟩ | ⟨rfl, rfl⟩ | ⟨rfl, rfl⟩
  all_goals simp [Keystroke.holds?]

/-- One character changes a key with a message that tells its new state. -/
theorem heldChanges_read
    (keyboard : Keyboard)
    (char key : UInt8) :
    (heldChanges key (keyboard.read char).2 = [] ∧
        (keyboard.read char).1.keyState key.toNat =
          keyboard.keyState key.toNat) ∨
      (heldChanges key (keyboard.read char).2 =
          [!keyboard.keyState key.toNat] ∧
        (keyboard.read char).1.keyState key.toNat =
          !keyboard.keyState key.toNat) := by
  unfold Keyboard.read
  split
  · exact .inl ⟨rfl, rfl⟩
  · split
    · cases found : shortcut? char with
      | none => exact .inl ⟨rfl, rfl⟩
      | some shortcut =>
          cases shortcut with
          | quit => exact .inl ⟨rfl, rfl⟩
          | message type payload =>
              have silent := shortcut?_message found key
              exact .inl ⟨by simp [Keyboard.use, heldChanges, silent], rfl⟩
          | toggle other =>
              have toggled := keyState_toggle keyboard key other
              by_cases same : other = key
              · subst same
                rw [if_pos rfl] at toggled
                refine .inr ⟨?_, toggled⟩
                cases state : keyboard.keyState other.toNat
                all_goals
                  rw [state] at toggled
                  simp [Keyboard.use, heldChanges, Keystroke.holds?,
                    Keyboard.pressed, toggled]
              · rw [if_neg fun equal => same equal.symm] at toggled
                refine .inl ⟨?_, toggled⟩
                simp [Keyboard.use, heldChanges, Keystroke.holds?, same]
    · exact .inl ⟨rfl, rfl⟩

/--
Whatever is typed, the messages that press and release a key take turns, and
the last of them tells the state that the keyboard remembers.
-/
theorem heldChanges_alternate
    (keyboard : Keyboard)
    (chars : List UInt8)
    (key : UInt8) :
    let changes := heldChanges key (typing.output keyboard chars)
    (keyboard.keyState key.toNat :: changes).IsChain (· ≠ ·) ∧
      (typing.after keyboard chars).keyState key.toNat =
        changes.getLastD (keyboard.keyState key.toNat) := by
  induction chars generalizing keyboard with
  | nil =>
      exact ⟨.singleton _, rfl⟩
  | cons char rest inductionHypothesis =>
      obtain ⟨chain, last⟩ := inductionHypothesis (keyboard.read char).1
      have split :
          heldChanges key (typing.output keyboard (char :: rest)) =
            heldChanges key (keyboard.read char).2 ++
              heldChanges key (typing.output (keyboard.read char).1 rest) :=
        List.filterMap_append
      dsimp only
      rw [split]
      rcases heldChanges_read keyboard char key with
        ⟨none, same⟩ | ⟨one, changed⟩
      · rw [none, List.nil_append, ← same]
        exact ⟨chain, last⟩
      · rw [one, List.singleton_append, List.getLastD_cons, ← changed]
        refine ⟨.cons_cons ?_ chain, last⟩
        rw [changed]
        cases keyboard.keyState key.toNat <;> decide

end Client

end Cdba
