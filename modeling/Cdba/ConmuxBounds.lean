import Cdba.ConmuxReplies

namespace Cdba

/-!
# The buffers of `parse_response`

`parse_response` never reads behind the NUL of a reply, but it stores keys and
values of any length in buffers of 64 bytes.  It stays inside them exactly when
every key and value that it comes to is short enough.
-/

open PercentEncoding (Writes IsUnit Ends BrokenEscape)

/-- Every access of `parse_response` is inside the reply and its buffers. -/
def StaysInside (reply : CString) : Prop :=
  ∀ fault, parseResponse reply ≠ .error fault

/-! ## Where the items of a reply start -/

/-- What is left of a reply behind some of its items. -/
inductive StartsItem : List UInt8 → List UInt8 → Prop where
  | here
      (text : List UInt8) :
      StartsItem text text
  | next
      (spaces key value : List UInt8)
      (units : List (List UInt8))
      (rest start : List UInt8)
      (blank : ∀ ch, ch ∈ spaces → isSpace ch = true)
      (letters : ∀ ch, ch ∈ key → isAlpha ch = true)
      (writes : List.Forall₂ (Writes isGraphic) value units)
      (ends : Ends isGraphic rest)
      (later : StartsItem rest start) :
      StartsItem (spaces ++ (key ++ 0x3d :: (units.flatten ++ rest))) start

/--
A key of less than 64 letters, and a value of less than 64 bytes as written,
or of 64 when a broken escape follows them.
-/
def ItemFits (start : List UInt8) : Prop :=
  ∀ spaces key rest,
    start = spaces ++ (key ++ rest) →
    (∀ ch, ch ∈ spaces → isSpace ch = true) →
    (∀ ch, ch ∈ key → isAlpha ch = true) →
    key.length < 64 ∧
      ∀ (units : List (List UInt8)) (tail : List UInt8),
        rest = 0x3d :: (units.flatten ++ tail) →
        (∀ unit, unit ∈ units → IsUnit isGraphic unit) →
        units.length = 64 →
        BrokenEscape tail

/-! ## Faults -/

/-- Only a store behind a buffer goes wrong, at its end. -/
theorem parseItems_fault
    {text : List UInt8}
    (terminated : 0 ∉ text)
    {fuel : Nat}
    (enough : text.length < fuel)
    {resp : ConmuxResponse}
    {fault : ReplyFault}
    (stops : parseItems fuel (text ++ [0]) resp = .error fault) :
    ∃ buffer, fault = .store buffer 64 := by
  induction fuel generalizing text resp with
  | zero => exact absurd enough (Nat.not_lt_zero _)
  | succ fuel inductionHypothesis =>
      cases replyShape terminated with
      | blank spaces blank =>
          rw [parseItems_blank blank] at stops
          cases stops
      | noEquals spaces key rest first blank letters ends noEquals begins
          notNul notSpace =>
          rw [parseItems_noEquals blank letters ends noEquals begins notNul
            notSpace] at stops
          split at stops
          · cases stops
          · cases stops
            exact ⟨.key, rfl⟩
      | value spaces key value units rest blank letters writes last =>
          rw [parseItems_item blank letters] at stops
          split at stops
          · rcases last with broken | ends
            · rw [parseValue_broken writes broken] at stops
              split at stops
              · cases stops
              · cases stops
                exact ⟨.value, rfl⟩
            · rw [parseValue_ends writes ends] at stops
              split at stops
              · have less :=
                  Nat.lt_of_lt_of_le (length_behindItem spaces key rest units)
                    (Nat.le_of_lt_succ enough)
                exact inductionHypothesis (not_mem_behindItem terminated) less
                  stops
              · cases stops
                exact ⟨.value, rfl⟩
          · cases stops
            exact ⟨.key, rfl⟩

/-- `parse_response` never reads behind the NUL of a reply. -/
theorem parseResponse_reads_inside
    (bytes : List UInt8) :
    parseResponse (cstr bytes) ≠ .error .read := by
  intro reads
  obtain ⟨buffer, isStore⟩ :=
    parseItems_fault (not_mem_cstr bytes) (Nat.lt_succ_self _) reads
  cases isStore

/-! ## Items that fit -/

/-- A run without a fault goes on without one behind each item. -/
theorem StartsItem.run
    {text start : List UInt8}
    (starts : StartsItem text start)
    {fuel : Nat}
    {resp : ConmuxResponse}
    (inside :
      ∀ fault, parseItems fuel (text ++ [0]) resp ≠ .error fault) :
    ∃ fuel resp,
      ∀ fault, parseItems fuel (start ++ [0]) resp ≠ .error fault := by
  induction starts generalizing fuel resp with
  | here text => exact ⟨fuel, resp, inside⟩
  | next spaces key value units rest start blank letters writes ends later
      inductionHypothesis =>
      cases fuel with
      | zero => exact absurd rfl (inside .read)
      | succ fuel =>
          rw [parseItems_item blank letters] at inside
          split at inside
          · rw [parseValue_ends writes ends] at inside
            split at inside
            · exact inductionHypothesis inside
            · exact absurd rfl (inside _)
          · exact absurd rfl (inside _)

/-- Behind 64 bytes of a value nothing but a broken escape stays inside. -/
theorem brokenEscape_of_scanValue
    {tail : List UInt8}
    {d : List UInt8}
    (full : d.length = 64)
    (inside : ∀ fault, scanValue (tail ++ [0]) d ≠ .error fault) :
    BrokenEscape tail := by
  rcases @PercentEncoding.next_unit isGraphic tail with
    ⟨unit, rest, ⟨byte, writes⟩, shape⟩ | broken | ends
  · rw [shape, List.append_assoc, scanValue_unit writes, storeChar,
      if_neg (by omega)] at inside
    exact absurd rfl (inside _)
  · exact broken
  · rw [scanValue_ends ends (by omega), if_neg (by omega)] at inside
    exact absurd rfl (inside _)

/-- A key of 64 letters does not fit, whatever follows it. -/
theorem parseItems_longKey
    {spaces key rest : List UInt8}
    (blank : ∀ ch, ch ∈ spaces → isSpace ch = true)
    (letters : ∀ ch, ch ∈ key → isAlpha ch = true)
    (long : 64 ≤ key.length)
    (fuel : Nat)
    (resp : ConmuxResponse) :
    parseItems (fuel + 1) (spaces ++ (key ++ rest) ++ [0]) resp =
      .error (.store .key 64) := by
  obtain ⟨more, behind, shape, moreLetters, stops⟩ := split_run isAlpha rest
  have allLetters : ∀ ch, ch ∈ key ++ more → isAlpha ch = true := by
    intro ch member
    rcases List.mem_append.mp member with early | late
    · exact letters ch early
    · exact moreLetters ch late
  obtain ⟨first, begins, letter⟩ :
      ∃ first, (key ++ rest).head? = some first ∧ isAlpha first = true := by
    cases key with
    | nil => exact absurd long (by decide)
    | cons ch key => exact ⟨ch, rfl, letters ch List.mem_cons_self⟩
  rw [List.append_assoc,
    parseItems_start blank begins (isAlpha_ne_zero first letter)
      (isAlpha_not_isSpace first letter),
    shape, ← List.append_assoc, List.append_assoc (key ++ more),
    scanKey_append allLetters stops (Nat.zero_le _),
    if_neg (by rw [List.length_append]; omega)]
  rfl

/-- An item from which a run goes on without a fault fits. -/
theorem itemFits_of_run
    {start : List UInt8}
    {fuel : Nat}
    {resp : ConmuxResponse}
    (inside :
      ∀ fault, parseItems fuel (start ++ [0]) resp ≠ .error fault) :
    ItemFits start := by
  cases fuel with
  | zero => exact absurd rfl (inside .read)
  | succ fuel =>
      intro spaces key rest shape blank letters
      subst shape
      have shortKey : key.length < 64 := by
        apply Nat.lt_of_not_le
        intro long
        exact inside _ (parseItems_longKey blank letters long fuel resp)
      refine ⟨shortKey, ?_⟩
      intro units tail restIs areUnits count
      subst restIs
      obtain ⟨value, writes⟩ := PercentEncoding.exists_bytes areUnits
      have length : value.length = 64 := writes.length_eq.trans count
      rw [parseItems_item blank letters, if_pos shortKey, parseValue,
        List.append_assoc, scanValue_append writes (Nat.zero_le _),
        List.length_nil, Nat.zero_add, if_pos (Nat.le_of_eq length)]
        at inside
      refine brokenEscape_of_scanValue length ?_
      intro fault stops
      rw [List.nil_append, stops] at inside
      exact inside fault rfl

/-- A value that fits has 64 bytes only in front of a broken escape. -/
theorem length_of_fits
    {units : List (List UInt8)}
    {rest : List UInt8}
    (areUnits : ∀ unit, unit ∈ units → IsUnit isGraphic unit)
    (fits :
      ∀ (front : List (List UInt8)) (tail : List UInt8),
        units.flatten ++ rest = front.flatten ++ tail →
        (∀ unit, unit ∈ front → IsUnit isGraphic unit) →
        front.length = 64 →
        BrokenEscape tail) :
    units.length < 64 ∨ units.length = 64 ∧ BrokenEscape rest := by
  by_cases short : units.length < 64
  · exact .inl short
  · right
    have broken := fits (units.take 64) ((units.drop 64).flatten ++ rest)
      (by
        rw [← List.append_assoc, ← List.flatten_append,
          List.take_append_drop])
      (fun unit member => areUnits unit (List.mem_of_mem_take member))
      (by rw [List.length_take]; omega)
    cases behind : units.drop 64 with
    | nil =>
        rw [behind] at broken
        have atMost := List.drop_eq_nil_iff.mp behind
        exact ⟨Nat.le_antisymm atMost (Nat.le_of_not_lt short), broken⟩
    | cons unit later =>
        rw [behind, List.flatten_cons, List.append_assoc] at broken
        have isUnit : IsUnit isGraphic unit :=
          areUnits unit (List.mem_of_mem_drop (behind ▸ List.mem_cons_self))
        exact absurd broken (isUnit.not_broken _)

/-- A run over items that fit meets no fault. -/
theorem run_of_itemFits
    {text : List UInt8}
    (terminated : 0 ∉ text)
    {fuel : Nat}
    (enough : text.length < fuel)
    {resp : ConmuxResponse}
    (fits : ∀ start, StartsItem text start → ItemFits start)
    (fault : ReplyFault) :
    parseItems fuel (text ++ [0]) resp ≠ .error fault := by
  induction fuel generalizing text resp with
  | zero => exact absurd enough (Nat.not_lt_zero _)
  | succ fuel inductionHypothesis =>
      have first := fits text (.here text)
      cases replyShape terminated with
      | blank spaces blank =>
          rw [parseItems_blank blank]
          nofun
      | noEquals spaces key rest ch blank letters stops noEquals begins
          notNul notSpace =>
          have shortKey := (first spaces key rest rfl blank letters).1
          rw [parseItems_noEquals blank letters stops noEquals begins notNul
            notSpace, if_pos shortKey]
          nofun
      | value spaces key value units rest blank letters writes stops =>
          obtain ⟨shortKey, shortValue⟩ :=
            first spaces key _ rfl blank letters
          have length := writes.length_eq
          have areUnits := PercentEncoding.isUnit_of_forall₂ writes
          have count := length_of_fits areUnits fun front tail shape =>
            shortValue front tail (congrArg (0x3d :: ·) shape)
          rw [parseItems_item blank letters, if_pos shortKey]
          rcases stops with broken | ends
          · rw [parseValue_broken writes broken, if_pos (by omega)]
            nofun
          · have shorter : value.length < 64 := by
              rcases count with short | ⟨_, broken⟩
              · exact length ▸ short
              · exact absurd ends (broken.not_ends (by decide))
            have less :=
              Nat.lt_of_lt_of_le (length_behindItem spaces key rest units)
                (Nat.le_of_lt_succ enough)
            rw [parseValue_ends writes ends, if_pos shorter]
            exact inductionHypothesis (not_mem_behindItem terminated) less
              fun start starts =>
                fits start (.next spaces key value units rest start blank
                  letters writes ends starts)

/--
`parse_response` of what a buffer holds stays inside its buffers exactly when
each key and value that it comes to fits.
-/
theorem parseResponse_staysInside_iff
    (bytes : List UInt8) :
    StaysInside (cstr bytes) ↔
      ∀ start, StartsItem (cstr bytes) start → ItemFits start := by
  constructor
  · intro inside start starts
    obtain ⟨fuel, resp, later⟩ := starts.run inside
    exact itemFits_of_run later
  · intro fits fault
    exact run_of_itemFits (not_mem_cstr bytes) (Nat.lt_succ_self _) fits fault

/-- A key of 64 letters puts its NUL behind the buffer. -/
theorem longReplyKey_overruns :
    ¬ ∀ bytes : List UInt8, bytes.length ≤ 255 → StaysInside (cstr bytes) := by
  intro inside
  refine inside (List.replicate 64 0x61) (by decide) (.store .key 64) ?_
  rfl

end Cdba
