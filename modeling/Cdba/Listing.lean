import Cdba.Client
import Cdba.Operations
import Cdba.Outgoing

namespace Cdba

/-!
# Listing the boards

The reply to `MSG_LIST_DEVICES` and what the client makes of it.  The server
formats a line into a buffer of 80 bytes, but sends as many bytes as the whole
text has; the client takes an empty message for the end of the list.
-/

open Program

variable {n : Nat}

/-! ## The server's reply -/

/-- The devices the user may use, in the order of the configuration. -/
def listedDevices
    (devices : Fin n → Device)
    (username : CString) :
    List (Fin n) :=
  (List.finRange n).filter fun device =>
    deviceCheckAccess (devices device) (some username)

/-- A list of payloads, and the empty message behind them. -/
def listingMessages (lines : List (List UInt8)) : List (Event n) :=
  lines.map (.send .listDevices) ++ [.send .listDevices []]

/-- The loop sends the line of each device that may be used. -/
theorem listDevices_run
    (username : CString)
    (devices : List (Fin n))
    (hw : Hw n) :
    ∃ final,
      Does (each (listDevice (some username)) devices) hw final
        ((devices.filter fun device =>
            deviceCheckAccess (hw.devices device) (some username)).map
          fun device =>
            .send .listDevices
              (listingFrame hw.beyond (hw.devices device))) := by
  induction devices generalizing hw with
  | nil =>
      exact ⟨hw, .pure hw⟩
  | cons device rest inductionHypothesis =>
      cases access : deviceCheckAccess (hw.devices device) (some username) with
      | false =>
          have skips : Does (listDevice (some username) device) hw hw [] :=
            ⟨by simp [listDevice, bind_apply, access, onlyIf],
              (Does.pure hw).logged⟩
          obtain ⟨final, others⟩ := inductionHypothesis hw
          rw [List.filter_cons_of_neg (by simp [access])]
          exact ⟨final, skips.cons others⟩
      | true =>
          let frame : Event n :=
            .send .listDevices (listingFrame hw.beyond (hw.devices device))
          let sent : Hw n := finalState (emit frame hw)
          have sends :
              Does (listDevice (some username) device) hw sent [frame] :=
            ⟨by simp [listDevice, bind_apply, access, onlyIf, cdbaSendBuf,
                emit, sent, frame, listingFrame, finalState],
              (Does.emit frame hw).logged⟩
          obtain ⟨final, others⟩ := inductionHypothesis sent
          rw [List.filter_cons_of_pos (by simp [access]), List.map_cons]
          exact ⟨final, sends.cons others⟩

/-- The reply: one message for each accessible device, then an empty one. -/
theorem deviceListDevices_did
    (username : CString)
    (hw : Hw n) :
    hw.did (finalState (deviceListDevices (some username) hw)) =
      listingMessages
        ((listedDevices hw.devices username).map fun device =>
          listingFrame hw.beyond (hw.devices device)) := by
  obtain ⟨middle, lists⟩ :=
    listDevices_run username (List.finRange n) hw
  have ends := Does.emit (.send .listDevices []) middle
  rw [deviceListDevices, cdbaSendBuf, (lists.seq ends).did, listingMessages,
    List.map_map]
  rfl

/-! ## One line -/

/-- What fits into the buffer is sent as it is. -/
theorem listingFrame_of_short
    {dev : Device}
    (short : (listingText dev).length < 80)
    (beyond : Nat → UInt8) :
    listingFrame beyond dev = listingText dev := by
  have whole : (listingText dev).take 79 = listingText dev :=
    List.take_of_length_le (by omega)
  rw [listingFrame, snprintfBuf, readMemory_memoryAt (by simp; omega), whole,
    List.take_append_of_le_length (Nat.le_refl _), List.take_length]

/-- Of a longer text, the NUL that ends the buffer is sent too. -/
theorem getElem_listingFrame_of_long
    {dev : Device}
    (long : 80 ≤ (listingText dev).length)
    (beyond : Nat → UInt8) :
    (listingFrame beyond dev)[79]? = some 0 := by
  have buffer : (snprintfBuf 80 (listingText dev))[79]? = some 0 := by
    have cut : ((listingText dev).take (80 - 1)).length = 79 := by
      simp
      omega
    rw [snprintfBuf, List.getElem?_append_right (by omega), cut]
    rfl
  have inside : 79 < (listingText dev).length := by omega
  simp [listingFrame, readMemory, memoryAt, buffer, inside]

/-! ## The client -/

namespace Client

/-- A line of the list is printed. -/
theorem dispatch_line
    {msg : Msg}
    (type : msg.type = MsgType.listDevices.code)
    (line : msg.data ≠ [])
    (client : Client) :
    dispatch msg client =
      .ok ()
        { client with
          dispatched := client.dispatched ++ [msg]
          log := client.log ++ [.stdout (msg.data ++ [0x0a])] } := by
  simp [dispatch, bind_apply, type, handleType, handleListDevices, line, record]

/-- The end of the list makes the client quit. -/
theorem dispatch_listEnd
    {msg : Msg}
    (type : msg.type = MsgType.listDevices.code)
    (empty : msg.data = [])
    (client : Client) :
    dispatch msg client =
      .ok ()
        { client with
          dispatched := client.dispatched ++ [msg]
          quit := true } := by
  simp [dispatch, bind_apply, type, handleType, handleListDevices, empty]

/-- The client prints the lines of a list and goes on. -/
theorem dispatch_lines
    {messages : List Msg}
    (types :
      ∀ msg, msg ∈ messages → msg.type = MsgType.listDevices.code)
    (lines : ∀ msg, msg ∈ messages → msg.data ≠ [])
    (client : Client) :
    ∃ final,
      each dispatch messages client = .ok () final ∧
        final.quit = client.quit ∧
        final.log =
          client.log ++
            messages.map fun msg => .stdout (msg.data ++ [0x0a]) := by
  induction messages generalizing client with
  | nil =>
      exact ⟨client, rfl, rfl, (List.append_nil _).symm⟩
  | cons msg rest inductionHypothesis =>
      have first :=
        dispatch_line (types msg List.mem_cons_self)
          (lines msg List.mem_cons_self) client
      obtain ⟨final, run, quit, log⟩ :=
        inductionHypothesis
          (fun later member => types later (List.mem_cons_of_mem _ member))
          (fun later member => lines later (List.mem_cons_of_mem _ member))
          { client with
            dispatched := client.dispatched ++ [msg]
            log := client.log ++ [.stdout (msg.data ++ [0x0a])] }
      refine ⟨final, ?_, quit, ?_⟩
      · rw [each, bind_of_ok first]
        exact run
      · rw [log, List.append_assoc]
        rfl

end Client

/-! ## A complete list -/

/--
A line about a device: not empty, and the formatted text or as much of it as
the buffer holds.
-/
def Device.ShownAs (dev : Device) (line : List UInt8) : Prop :=
  line ≠ [] ∧ (line = listingText dev ∨ line = (listingText dev).take 79)

/--
What the client makes of a list: it prints the lines, and quits with the last
message and not before.
-/
def PrintsList
    (bytes : List UInt8)
    (lines : List (List UInt8))
    (client : Client) :
    Prop :=
  let messages := wire.parse bytes
  let final := finalState (each Client.dispatch messages client)
  final.log = client.log ++ lines.map (fun line => .stdout (line ++ [0x0a])) ∧
    final.quit = true ∧
    ∀ before after,
      messages = before ++ after →
      after ≠ [] →
      (finalState (each Client.dispatch before client)).quit = false

/--
The reply is complete and contains nothing else: one line for each accessible
device in the order of the configuration, and one empty message at the end.
-/
structure ListsBoards
    (hw : Hw n)
    (username : CString)
    (reply : List (Event n))
    (line : Fin n → List UInt8) :
    Prop where
  messages :
    reply = listingMessages ((listedDevices hw.devices username).map line)
  shown :
    ∀ device,
      device ∈ listedDevices hw.devices username →
      (hw.devices device).ShownAs (line device)
  printed :
    ∀ client,
      client.quit = false →
      PrintsList (reply.flatMap Event.written)
        ((listedDevices hw.devices username).map line) client

/-- The frame of a line shows its device when the buffer holds its text. -/
theorem shownAs_listingFrame_iff
    {dev : Device}
    (string : 0 ∉ listingText dev)
    (beyond : Nat → UInt8) :
    dev.ShownAs (listingFrame beyond dev) ↔
      0 < (listingText dev).length ∧ (listingText dev).length < 80 := by
  constructor
  · rintro ⟨nonempty, text⟩
    have inside : (listingText dev).length < 80 := by
      apply Nat.lt_of_not_le
      intro long
      -- The frame holds a NUL, which the text does not.
      have terminator : 0 ∈ listingFrame beyond dev :=
        List.mem_of_getElem? (getElem_listingFrame_of_long long beyond)
      rcases text with whole | cut
      · rw [whole] at terminator
        exact string terminator
      · rw [cut] at terminator
        exact string (List.mem_of_mem_take terminator)
    rw [listingFrame_of_short inside] at nonempty
    exact ⟨List.length_pos_iff.mpr nonempty, inside⟩
  · rintro ⟨nonempty, short⟩
    rw [listingFrame_of_short short]
    exact ⟨List.length_pos_iff.mp nonempty, .inl rfl⟩

theorem listingMessages_inj
    {first second : List (List UInt8)}
    (same :
      (listingMessages first : List (Event n)) = listingMessages second) :
    first = second := by
  have sends := List.append_cancel_right same
  refine (List.map_inj_right ?_).mp sends
  intro one other sameSend
  injection sameSend

/-- Non-empty payloads and the empty message at the end print as a list. -/
theorem printsList_listingMessages
    {lines : List (List UInt8)}
    (nonempty : ∀ line, line ∈ lines → line ≠ [])
    (fit : ∀ line, line ∈ lines → line.length < 2 ^ 16)
    {client : Client}
    (running : client.quit = false) :
    PrintsList
      ((listingMessages lines : List (Event n)).flatMap Event.written)
      lines client := by
  obtain ⟨messages, bytes, payloads, types⟩ :=
    written_messages (n := n) .listDevices lines fit
  let last := Msg.ofData MsgType.listDevices.code [] (by decide)
  have parsed :
      wire.parse
          ((listingMessages lines : List (Event n)).flatMap Event.written) =
        messages ++ [last] := by
    rw [listingMessages, List.flatMap_append, bytes]
    have whole :
        wire.parse (wire.encodeAll (messages ++ [last])) =
          messages ++ [last] :=
      FrameFormat.parse_encodeAll _
    rw [FrameFormat.encodeAll_append] at whole
    exact whole
  have printing :
      ∀ msg, msg ∈ messages → msg.data ≠ [] := by
    intro msg member
    exact nonempty _ (payloads ▸ List.mem_map_of_mem member)
  obtain ⟨middle, run, _, log⟩ :=
    Client.dispatch_lines types printing client
  have ends :=
    Client.dispatch_listEnd (show last.type = _ from rfl)
      (show last.data = [] from rfl) middle
  have whole :
      each Client.dispatch (messages ++ [last]) client =
        .ok ()
          { middle with
            dispatched := middle.dispatched ++ [last]
            quit := true } := by
    rw [each_append, bind_of_ok run, each, bind_of_ok ends]
    rfl
  unfold PrintsList
  rw [parsed]
  refine ⟨?_, ?_, ?_⟩
  · rw [whole, ← payloads, List.map_map]
    exact log
  · rw [whole]
    rfl
  · intro before after split more
    have front : before <+: messages := by
      rcases List.prefix_concat_iff.mp ⟨after, split.symm⟩ with all | inside
      · rw [all, List.self_eq_append_right] at split
        exact (more split).elim
      · exact inside
    have inFront :
        ∀ msg, msg ∈ before → msg ∈ messages :=
      fun msg member => front.subset member
    obtain ⟨reached, runs, quit, _⟩ :=
      Client.dispatch_lines
        (fun msg member => types msg (inFront msg member))
        (fun msg member => printing msg (inFront msg member)) client
    rw [runs, finalState, quit, running]

/-- In a complete list, the frame of every accessible device shows it. -/
theorem ListsBoards.shownAs_frame
    {hw : Hw n}
    {username : CString}
    {line : Fin n → List UInt8}
    (lists :
      ListsBoards hw username
        (hw.did (finalState (deviceListDevices (some username) hw))) line)
    {device : Fin n}
    (listed : device ∈ listedDevices hw.devices username) :
    (hw.devices device).ShownAs
      (listingFrame hw.beyond (hw.devices device)) := by
  have messages := lists.messages
  rw [deviceListDevices_did] at messages
  have same := List.map_inj_left.mp (listingMessages_inj messages)
  rw [same device listed]
  exact lists.shown device listed

theorem mem_listedDevices
    {devices : Fin n → Device}
    {username : CString}
    {device : Fin n} :
    device ∈ listedDevices devices username ↔
      deviceCheckAccess (devices device) (some username) = true := by
  simp [listedDevices, List.mem_finRange]

/--
The list is complete, and the client prints it and quits at its end, exactly
when the text of every accessible device is not empty and fits into the buffer
together with its NUL.
-/
theorem deviceListDevices_complete_iff
    (hw : Hw n)
    (username : CString)
    (strings : ∀ device, 0 ∉ listingText (hw.devices device)) :
    (∃ line,
      ListsBoards hw username
        (hw.did (finalState (deviceListDevices (some username) hw))) line) ↔
      ∀ device,
        deviceCheckAccess (hw.devices device) (some username) = true →
        0 < (listingText (hw.devices device)).length ∧
          (listingText (hw.devices device)).length < 80 := by
  constructor
  · rintro ⟨line, lists⟩ device access
    exact (shownAs_listingFrame_iff (strings device) _).mp
      (lists.shownAs_frame (mem_listedDevices.mpr access))
  · intro fits
    have shown :
        ∀ device,
          device ∈ listedDevices hw.devices username →
          (hw.devices device).ShownAs
            (listingFrame hw.beyond (hw.devices device)) :=
      fun device listed =>
        (shownAs_listingFrame_iff (strings device) _).mpr
          (fits device (mem_listedDevices.mp listed))
    refine ⟨fun device => listingFrame hw.beyond (hw.devices device), ?_⟩
    rw [deviceListDevices_did]
    refine ⟨rfl, shown, fun client running => ?_⟩
    refine printsList_listingMessages ?_ ?_ running
    · intro line member
      obtain ⟨device, listed, same⟩ := List.mem_map.mp member
      rw [← same]
      exact (shown device listed).1
    · intro line member
      obtain ⟨device, listed, same⟩ := List.mem_map.mp member
      have short := (fits device (mem_listedDevices.mp listed)).2
      rw [← same, listingFrame, length_readMemory]
      omega

/-- The list of a bench with one board is complete. -/
theorem benchListing_complete :
    ∃ line,
      ListsBoards (Hw.initial fun _ : Fin 1 => ftdiBoard) (ascii "user")
        ((Hw.initial fun _ : Fin 1 => ftdiBoard).did
          (finalState
            (deviceListDevices (some (ascii "user"))
              (Hw.initial fun _ : Fin 1 => ftdiBoard)))) line :=
  (deviceListDevices_complete_iff (Hw.initial fun _ : Fin 1 => ftdiBoard)
    (ascii "user") (by decide)).mpr (by decide)

/-- A board with a name of 60 characters. -/
def longNamedBoard : Device :=
  { ftdiBoard with name := some (List.replicate 60 0x78) }

/-- The line of such a board is longer than the buffer it is sent from. -/
theorem longNamedBoard_incomplete :
    ¬ ∃ line,
      ListsBoards (Hw.initial fun _ : Fin 1 => longNamedBoard) (ascii "user")
        ((Hw.initial fun _ : Fin 1 => longNamedBoard).did
          (finalState
            (deviceListDevices (some (ascii "user"))
              (Hw.initial fun _ : Fin 1 => longNamedBoard)))) line := by
  rintro ⟨line, lists⟩
  have listed :
      (0 : Fin 1) ∈
        listedDevices (fun _ => longNamedBoard) (ascii "user") := by
    decide
  have fits :=
    (shownAs_listingFrame_iff (by decide) _).mp (lists.shownAs_frame listed)
  exact absurd fits.2 (by decide)

end Cdba
