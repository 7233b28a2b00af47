import Mathlib.Data.List.Induction

/-!
# Signals behind shadow registers

Signals are wired to the lines of eight-bit output registers that can only be
written as a whole.  A driver keeps a shadow of each register, changes the bit
of a signal in it and writes the byte.  Signals may be active low; the shadows
start as zero, which is the wrong level for an active-low signal of which
nothing has been requested.
-/

/-! ## Bytes of lines -/

/-- The level of a line. -/
def UInt8.line (byte : UInt8) (line : Nat) : Bool :=
  byte.toNat.testBit line

/-- `1 << line`, as far as it goes into a byte. -/
def lineMask (line : Nat) : UInt8 :=
  UInt8.ofNat (1 <<< line)

/-- Set or clear one line of a byte. -/
def UInt8.drive (byte : UInt8) (line : Nat) (high : Bool) : UInt8 :=
  if high then byte ||| lineMask line else byte &&& ~~~lineMask line

/-- Driving a line changes that line only. -/
theorem UInt8.line_drive
    {driven line : Nat}
    (inside : driven < 8)
    (lineInside : line < 8)
    (byte : UInt8)
    (high : Bool) :
    (byte.drive driven high).line line =
      if line = driven then high else byte.line line := by
  have mask :
      ∀ driven line : Fin 8,
        (lineMask driven).line line = decide (line = driven) ∧
          (~~~lineMask driven).line line = decide (line ≠ driven) := by
    decide
  obtain ⟨set, clear⟩ := mask ⟨driven, inside⟩ ⟨line, lineInside⟩
  simp only [UInt8.line, Fin.mk.injEq, ne_eq] at set clear
  unfold UInt8.line UInt8.drive
  cases high with
  | true =>
      rw [if_pos rfl, UInt8.toNat_or, Nat.testBit_or, set]
      by_cases same : line = driven <;> simp [same]
  | false =>
      rw [if_neg Bool.false_ne_true, UInt8.toNat_and, Nat.testBit_and, clear]
      by_cases same : line = driven <;> simp [same]

/-- No line of the zero byte is high. -/
theorem UInt8.line_zero
    (line : Nat) :
    (0 : UInt8).line line = false :=
  Nat.zero_testBit line

/-! ## Wirings -/

/-- Which signals there are, and where they are wired to. -/
structure Wiring (Signal : Type) where
  present : Signal → Bool
  bank : Signal → Nat
  line : Signal → Nat
  activeLow : Signal → Bool

/-- The shadow registers, and what has been written to the real ones. -/
structure Banks where
  shadow : Nat → UInt8
  written : List (Nat × UInt8)

/-- The registers before anything was written. -/
def Banks.zero : Banks where
  shadow := fun _ => 0
  written := []

/-- The last byte written to a register. -/
def lastWritten (bank : Nat) (written : List (Nat × UInt8)) : Option UInt8 :=
  (written.filterMap fun write =>
    if write.1 = bank then some write.2 else none).getLast?

namespace Wiring

variable {Signal : Type} (wiring : Wiring Signal)

/-- Signals have lines of their own. -/
structure Separate : Prop where
  inside : ∀ signal, wiring.present signal = true → wiring.line signal < 8
  distinct :
    ∀ first second,
      wiring.present first = true →
      wiring.present second = true →
      wiring.bank first = wiring.bank second →
      wiring.line first = wiring.line second →
      first = second

/-- The byte in which a signal has its new level. -/
def nextByte (banks : Banks) (signal : Signal) (on : Bool) : UInt8 :=
  (banks.shadow (wiring.bank signal)).drive (wiring.line signal)
    (on ^^ wiring.activeLow signal)

/-- Request a level of a signal. -/
def request (banks : Banks) (signal : Signal) (on : Bool) : Banks :=
  if wiring.present signal then
    { shadow := fun bank =>
        if bank = wiring.bank signal then
          wiring.nextByte banks signal on
        else
          banks.shadow bank
      written :=
        banks.written ++
          [(wiring.bank signal, wiring.nextByte banks signal on)] }
  else
    banks

/-- Request levels one after the other. -/
def requests (banks : Banks) (made : List (Signal × Bool)) : Banks :=
  made.foldl (fun banks request => wiring.request banks request.1 request.2)
    banks

variable [DecidableEq Signal]

/-- The level last requested of a signal. -/
def lastRequest
    (signal : Signal)
    (made : List (Signal × Bool)) :
    Option Bool :=
  (made.filterMap fun request =>
    if request.1 = signal then some request.2 else none).getLast?

/-- A signal of which nothing was requested is not asserted. -/
def level (signal : Signal) (made : List (Signal × Bool)) : Bool :=
  (lastRequest signal made).getD false

/-- Some present signal of a register has been requested. -/
def Touched (made : List (Signal × Bool)) (bank : Nat) : Prop :=
  ∃ request, request ∈ made ∧
    wiring.present request.1 = true ∧ wiring.bank request.1 = bank

/-- What was last written to each register drives its signals as requested. -/
def Follows
    (made : List (Signal × Bool))
    (written : List (Nat × UInt8)) :
    Prop :=
  ∀ bank byte,
    lastWritten bank written = some byte →
    ∀ signal,
      wiring.present signal = true →
      wiring.bank signal = bank →
      byte.line (wiring.line signal) =
        (level signal made ^^ wiring.activeLow signal)

/-! ## What requests do -/

omit [DecidableEq Signal] in
theorem requests_concat
    (banks : Banks)
    (made : List (Signal × Bool))
    (request : Signal × Bool) :
    wiring.requests banks (made ++ [request]) =
      wiring.request (wiring.requests banks made) request.1 request.2 := by
  rw [requests, List.foldl_append]
  rfl

theorem lastRequest_concat
    (signal : Signal)
    (made : List (Signal × Bool))
    (request : Signal × Bool) :
    lastRequest signal (made ++ [request]) =
      if request.1 = signal then
        some request.2
      else
        lastRequest signal made := by
  rw [lastRequest, List.filterMap_append]
  split <;> simp [lastRequest, *]

theorem lastRequest_isSome_iff
    (signal : Signal)
    (made : List (Signal × Bool)) :
    (lastRequest signal made).isSome = true ↔
      signal ∈ made.map Prod.fst := by
  rw [lastRequest, List.getLast?_isSome, List.mem_map]
  constructor
  · intro nonempty
    obtain ⟨on, member⟩ := List.exists_mem_of_ne_nil _ nonempty
    obtain ⟨request, isMade, found⟩ := List.mem_filterMap.mp member
    exact ⟨request, isMade, (Option.ite_none_right_eq_some.mp found).1⟩
  · rintro ⟨request, isMade, same⟩
    have found :
        request.2 ∈ made.filterMap fun request =>
          if request.1 = signal then some request.2 else none :=
      List.mem_filterMap.mpr ⟨request, isMade, if_pos same⟩
    exact List.ne_nil_of_mem found

theorem lastWritten_concat
    (bank : Nat)
    (written : List (Nat × UInt8))
    (write : Nat × UInt8) :
    lastWritten bank (written ++ [write]) =
      if write.1 = bank then some write.2 else lastWritten bank written := by
  rw [lastWritten, List.filterMap_append]
  split <;> simp [lastWritten, *]

/-- What a run of requests leaves in the registers. -/
structure Requested (made : List (Signal × Bool)) (banks : Banks) : Prop where
  lines :
    ∀ signal, wiring.present signal = true →
      (banks.shadow (wiring.bank signal)).line (wiring.line signal) =
        ((lastRequest signal made).map (· ^^ wiring.activeLow signal)).getD
          false
  touched :
    ∀ bank, wiring.Touched made bank →
      lastWritten bank banks.written = some (banks.shadow bank)
  untouched :
    ∀ bank, ¬ wiring.Touched made bank →
      lastWritten bank banks.written = none

variable {wiring}

theorem requested_nil :
    wiring.Requested [] .zero where
  lines := fun _ _ => UInt8.line_zero _
  touched := fun _ touched => by
    obtain ⟨request, member, _⟩ := touched
    contradiction
  untouched := fun _ _ => rfl

/-- One more request drives the line of its signal and no other. -/
theorem Requested.concat
    {made : List (Signal × Bool)}
    {banks : Banks}
    (separate : wiring.Separate)
    (requested : wiring.Requested made banks)
    (signal : Signal)
    (on : Bool) :
    wiring.Requested (made ++ [(signal, on)])
      (wiring.request banks signal on) := by
  have touched_iff :
      ∀ bank,
        wiring.Touched (made ++ [(signal, on)]) bank ↔
          wiring.Touched made bank ∨
            wiring.present signal = true ∧ wiring.bank signal = bank := by
    intro bank
    simp [Touched, or_and_right, exists_or]
  cases present : wiring.present signal with
  | false =>
      have same : wiring.request banks signal on = banks := by
        rw [request, present]
        rfl
      rw [same]
      refine ⟨?_, ?_, ?_⟩
      · intro other isPresent
        have different : signal ≠ other := by
          rintro rfl
          rw [present] at isPresent
          contradiction
        rw [lastRequest_concat, if_neg different]
        exact requested.lines other isPresent
      · intro bank touched
        rw [touched_iff, present] at touched
        exact requested.touched bank (touched.resolve_right (by simp))
      · intro bank untouched
        rw [touched_iff] at untouched
        exact requested.untouched bank fun touched =>
          untouched (.inl touched)
  | true =>
      rw [request, present, if_pos rfl]
      refine ⟨?_, ?_, ?_⟩
      · intro other isPresent
        rw [lastRequest_concat]
        have before := requested.lines other isPresent
        by_cases same : signal = other
        · subst same
          simp only [↓reduceIte]
          rw [nextByte, UInt8.line_drive (separate.inside _ present)
            (separate.inside _ present), if_pos rfl]
          rfl
        · simp only [same, ↓reduceIte]
          split
          · rename_i sameBank
            have differentLine : wiring.line other ≠ wiring.line signal :=
              fun sameLine => same
                (separate.distinct _ _ isPresent present sameBank
                  sameLine).symm
            rw [nextByte, UInt8.line_drive (separate.inside _ present)
              (separate.inside _ isPresent), if_neg differentLine,
              ← sameBank, before]
          · exact before
      · intro bank touched
        rw [lastWritten_concat]
        dsimp only
        by_cases same : bank = wiring.bank signal
        · rw [if_pos same.symm, if_pos same]
        · rw [if_neg (Ne.symm same), if_neg same]
          rw [touched_iff] at touched
          exact requested.touched bank
            (touched.resolve_right fun new => same new.2.symm)
      · intro bank untouched
        rw [touched_iff] at untouched
        rw [lastWritten_concat, if_neg fun same =>
          untouched (.inr ⟨present, same⟩)]
        exact requested.untouched bank fun touched =>
          untouched (.inl touched)

/-- What any run of requests leaves in the registers. -/
theorem requested_requests
    (separate : wiring.Separate)
    (made : List (Signal × Bool)) :
    wiring.Requested made (wiring.requests .zero made) := by
  induction made using List.reverseRecOn with
  | nil =>
      exact requested_nil
  | append_singleton made request inductionHypothesis =>
      rw [requests_concat]
      exact inductionHypothesis.concat separate _ _

/--
The registers drive all signals as requested exactly when no active-low signal
shares a register that was written and has not itself been requested.
-/
theorem Requested.follows_iff
    {made : List (Signal × Bool)}
    {banks : Banks}
    (requested : wiring.Requested made banks) :
    wiring.Follows made banks.written ↔
      ∀ signal,
        wiring.present signal = true →
        wiring.activeLow signal = true →
        wiring.Touched made (wiring.bank signal) →
        signal ∈ made.map Prod.fst := by
  constructor
  · intro follows signal present activeLow touched
    have line := follows _ _ (requested.touched _ touched) signal present rfl
    rw [requested.lines signal present, level, activeLow] at line
    rw [← lastRequest_isSome_iff]
    cases last : lastRequest signal made with
    | none =>
        rw [last] at line
        contradiction
    | some on => rfl
  · intro settled bank byte written signal present sameBank
    have touched : wiring.Touched made bank :=
      Classical.byContradiction fun untouched => by
        rw [requested.untouched bank untouched] at written
        contradiction
    rw [requested.touched bank touched] at written
    cases written
    rw [← sameBank, requested.lines signal present, level]
    cases last : lastRequest signal made with
    | some on => rfl
    | none =>
        cases activeLow : wiring.activeLow signal with
        | false => rfl
        | true =>
            have member := settled signal present activeLow
              (sameBank ▸ touched)
            rw [← lastRequest_isSome_iff, last] at member
            contradiction

end Wiring
