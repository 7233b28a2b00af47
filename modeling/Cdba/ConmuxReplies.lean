import Cdba.Conmux
import Cdba.PercentEncoding

namespace Cdba

/-!
# What a conmux reply says

A reply is a list of items, each a key and a percent-encoded value, between
white space.  `parse_response` reads such a reply back, and what it accepts is
such a reply.
-/

open PercentEncoding (Writes IsUnit Ends BrokenEscape)

/-! ## Replies -/

/-- The text of some keys and values. -/
inductive ReplyItems :
    List (CString × List UInt8) → List UInt8 → Prop where
  | blank
      (spaces : List UInt8)
      (blank : ∀ ch, ch ∈ spaces → isSpace ch = true) :
      ReplyItems [] spaces
  | item
      (spaces key value : List UInt8)
      (units : List (List UInt8))
      (items : List (CString × List UInt8))
      (rest : List UInt8)
      (blank : ∀ ch, ch ∈ spaces → isSpace ch = true)
      (letters : ∀ ch, ch ∈ key → isAlpha ch = true)
      (writes : List.Forall₂ (Writes isGraphic) value units)
      (separated : ∀ ch, rest.head? = some ch → isSpace ch = true)
      (later : ReplyItems items rest) :
      ReplyItems ((key, value) :: items)
        (spaces ++ (key ++ 0x3d :: (units.flatten ++ rest)))

/-- The last value under a key, as the C string that `strdup` makes of it. -/
def lastValue
    (items : List (CString × List UInt8))
    (key : CString) :
    Option CString :=
  ((items.filter (·.1 = key)).getLast?).map (cstr ·.2)

/-- The fields that some items leave, from those before them. -/
def assignAll
    (resp : ConmuxResponse)
    (items : List (CString × List UInt8)) :
    ConmuxResponse :=
  items.foldl (fun resp item => resp.assign item.1 (cstr item.2)) resp

/-! ## Characters -/

/-- What the kinds of characters have to do with each other. -/
theorem kinds_of_char :
    ∀ ch,
      (isSpace ch = true → ch ≠ 0 ∧ isGraphic ch = false) ∧
        (isAlpha ch = true →
          ch ≠ 0 ∧ isSpace ch = false ∧ isGraphic ch = true) :=
  forall_char (by decide +kernel)

theorem isSpace_ne_zero : ∀ ch, isSpace ch = true → ch ≠ 0 :=
  fun ch isBlank => ((kinds_of_char ch).1 isBlank).1

theorem isAlpha_ne_zero : ∀ ch, isAlpha ch = true → ch ≠ 0 :=
  fun ch isLetter => ((kinds_of_char ch).2 isLetter).1

theorem isAlpha_not_isSpace : ∀ ch, isAlpha ch = true → isSpace ch = false :=
  fun ch isLetter => ((kinds_of_char ch).2 isLetter).2.1

theorem isAlpha_isGraphic : ∀ ch, isAlpha ch = true → isGraphic ch = true :=
  fun ch isLetter => ((kinds_of_char ch).2 isLetter).2.2

theorem isSpace_not_isGraphic :
    ∀ ch, isSpace ch = true → isGraphic ch = false :=
  fun ch isBlank => ((kinds_of_char ch).1 isBlank).2

/-- `nibble` is the value of a hexadecimal digit. -/
theorem nibble_of_hexDigit :
    ∀ ch, (hexDigit? ch).all fun digit =>
      digit < 16 && nibble ch = UInt8.ofNat digit :=
  forall_char (by decide +kernel)

theorem shift_or_of_digits :
    ∀ high low : Fin 16,
      UInt8.ofNat high.val <<< 4 ||| UInt8.ofNat low.val =
        UInt8.ofNat (16 * high.val + low.val) := by
  decide +kernel

/-- An escape decodes to the byte it writes. -/
theorem nibbles_of_digits
    {high low : UInt8}
    {highValue lowValue : Nat}
    (highDigit : hexDigit? high = some highValue)
    (lowDigit : hexDigit? low = some lowValue) :
    nibble high <<< 4 ||| nibble low =
      UInt8.ofNat (16 * highValue + lowValue) := by
  have highRead := nibble_of_hexDigit high
  have lowRead := nibble_of_hexDigit low
  rw [highDigit] at highRead
  rw [lowDigit] at lowRead
  simp only [Option.all_some, Bool.and_eq_true, decide_eq_true_eq]
    at highRead lowRead
  rw [highRead.2, lowRead.2]
  exact shift_or_of_digits ⟨highValue, highRead.1⟩ ⟨lowValue, lowRead.1⟩

/-! ## The scanner's loops -/

theorem skipSpaces_append
    {spaces rest : List UInt8}
    (blank : ∀ ch, ch ∈ spaces → isSpace ch = true)
    (stops : ∀ ch, rest.head? = some ch → isSpace ch = false) :
    skipSpaces (spaces ++ (rest ++ [0])) = .ok (rest ++ [0]) := by
  induction spaces with
  | nil =>
      cases rest with
      | nil => rfl
      | cons ch rest =>
          rw [List.nil_append, List.cons_append, skipSpaces, stops ch rfl]
          rfl
  | cons ch spaces inductionHypothesis =>
      rw [List.cons_append, skipSpaces, if_pos (blank ch List.mem_cons_self)]
      exact inductionHypothesis fun ch member =>
        blank ch (List.mem_cons_of_mem _ member)

/-- Bytes are stored one by one, while there is room. -/
theorem foldlM_storeChar
    (buffer : ReplyBuffer)
    (run : List UInt8)
    {d : List UInt8}
    (room : d.length ≤ 64) :
    run.foldlM (storeChar buffer) d =
      if d.length + run.length ≤ 64 then
        .ok (d ++ run)
      else
        .error (.store buffer 64) := by
  induction run generalizing d with
  | nil =>
      rw [List.length_nil, Nat.add_zero, if_pos room, List.append_nil]
      rfl
  | cons ch run inductionHypothesis =>
      rw [List.foldlM_cons, storeChar]
      by_cases fits : d.length < 64
      · have longer : (d ++ [ch]).length = d.length + 1 :=
          List.length_append
        have later := @inductionHypothesis (d ++ [ch]) (longer ▸ fits)
        rw [longer, Nat.add_assoc, Nat.add_comm 1, List.append_assoc,
          List.singleton_append] at later
        rw [if_pos fits]
        exact later
      · have full : d.length = 64 := by omega
        rw [if_neg fits, if_neg (by rw [List.length_cons]; omega), full]
        rfl

/-- The NUL needs room as well. -/
theorem storeNul_eq
    (buffer : ReplyBuffer)
    {d : List UInt8}
    (room : d.length ≤ 64) :
    storeNul buffer d =
      if d.length < 64 then
        .ok (cstr d)
      else
        .error (.store buffer 64) := by
  rw [storeNul, storeChar]
  split
  · rfl
  · have full : d.length = 64 := by omega
    rw [full]
    rfl

/-- Letters are stored in the key. -/
theorem scanKey_run
    {key : List UInt8}
    (letters : ∀ ch, ch ∈ key → isAlpha ch = true)
    (p d : List UInt8) :
    scanKey (key ++ p) d =
      (key.foldlM (storeChar .key) d).bind (scanKey p) := by
  induction key generalizing d with
  | nil => rfl
  | cons ch key inductionHypothesis =>
      rw [List.cons_append, scanKey, if_pos (letters ch List.mem_cons_self),
        List.foldlM_cons]
      have later := inductionHypothesis
        fun ch member => letters ch (List.mem_cons_of_mem _ member)
      cases storeChar .key d ch with
      | error fault => rfl
      | ok d => exact later d

/-- Another character ends the key. -/
theorem scanKey_ends
    {rest : List UInt8}
    (stops : ∀ ch, rest.head? = some ch → isAlpha ch = false)
    (d : List UInt8) :
    scanKey (rest ++ [0]) d =
      (storeNul .key d).bind fun key => .ok (key, rest ++ [0]) := by
  cases rest with
  | nil => rfl
  | cons ch rest =>
      rw [List.cons_append, scanKey, stops ch rfl]
      rfl

/-- Letters in front of another character are the key, if there is room. -/
theorem scanKey_append
    {key rest : List UInt8}
    (letters : ∀ ch, ch ∈ key → isAlpha ch = true)
    (stops : ∀ ch, rest.head? = some ch → isAlpha ch = false)
    {d : List UInt8}
    (room : d.length ≤ 64) :
    scanKey (key ++ (rest ++ [0])) d =
      if d.length + key.length < 64 then
        .ok (cstr (d ++ key), rest ++ [0])
      else
        .error (.store .key 64) := by
  rw [scanKey_run letters, foldlM_storeChar .key key room]
  by_cases stored : d.length + key.length ≤ 64
  · have held : (d ++ key).length = d.length + key.length :=
      List.length_append
    rw [if_pos stored, Except.bind, scanKey_ends stops,
      storeNul_eq .key (held ▸ stored), held]
    split <;> rfl
  · rw [if_neg stored, if_neg (by omega)]
    rfl

/-- A written byte goes to the end of the buffer. -/
theorem scanValue_unit
    {byte : UInt8}
    {unit : List UInt8}
    (writes : Writes isGraphic byte unit)
    (p d : List UInt8) :
    scanValue (unit ++ p) d = (storeChar .value d byte).bind (scanValue p) := by
  cases writes with
  | itself _ shown plain =>
      rw [List.singleton_append, scanValue.eq_def]
      simp only [shown, plain, if_true, if_false]
      rfl
  | escape high low highValue lowValue highDigit lowDigit =>
      rw [List.cons_append, scanValue.eq_def]
      have percent : isGraphic 0x25 = true := by decide
      simp only [percent, List.cons_append, List.nil_append, isXDigit,
        highDigit, lowDigit, Option.isSome_some, Bool.not_true,
        Bool.false_eq_true, if_true, if_false,
        nibbles_of_digits highDigit lowDigit]
      rfl

/-- Written bytes are stored one by one. -/
theorem scanValue_run
    {value : List UInt8}
    {units : List (List UInt8)}
    (writes : List.Forall₂ (Writes isGraphic) value units)
    (p d : List UInt8) :
    scanValue (units.flatten ++ p) d =
      (value.foldlM (storeChar .value) d).bind (scanValue p) := by
  induction writes generalizing d with
  | nil => rfl
  | @cons byte unit value units here _ inductionHypothesis =>
      rw [List.flatten_cons, List.append_assoc, scanValue_unit here,
        List.foldlM_cons]
      cases storeChar .value d byte with
      | error fault => rfl
      | ok d => exact inductionHypothesis d

/-- Written bytes are the value, while there is room. -/
theorem scanValue_append
    {value : List UInt8}
    {units : List (List UInt8)}
    (writes : List.Forall₂ (Writes isGraphic) value units)
    {d : List UInt8}
    (room : d.length ≤ 64)
    (p : List UInt8) :
    scanValue (units.flatten ++ p) d =
      if d.length + value.length ≤ 64 then
        scanValue p (d ++ value)
      else
        .error (.store .value 64) := by
  rw [scanValue_run writes, foldlM_storeChar .value value room]
  split <;> rfl

/-- A value ends with its NUL, if there is room. -/
theorem scanValue_ends
    {rest : List UInt8}
    (ends : Ends isGraphic rest)
    {d : List UInt8}
    (room : d.length ≤ 64) :
    scanValue (rest ++ [0]) d =
      if d.length < 64 then
        .ok (some (cstr d, rest ++ [0]))
      else
        .error (.store .value 64) := by
  have stored :
      scanValue (rest ++ [0]) d =
        (storeNul .value d).bind fun value =>
          .ok (some (value, rest ++ [0])) := by
    rw [scanValue.eq_def]
    cases rest with
    | nil => rfl
    | cons ch rest =>
        simp only [List.cons_append, ends ch rfl]
        rfl
  rw [stored, storeNul_eq .value room]
  split <;> rfl

/-- A broken escape ends the run without another store. -/
theorem scanValue_broken
    {rest : List UInt8}
    (broken : BrokenEscape rest)
    (d : List UInt8) :
    scanValue (rest ++ [0]) d = .ok none := by
  obtain ⟨later, rfl, missing⟩ := broken
  have percent : isGraphic 0x25 = true := by decide
  have noDigit : isXDigit 0 = false := by decide
  rw [List.cons_append, scanValue.eq_def]
  simp only [percent, if_true]
  cases later with
  | nil =>
      simp only [List.nil_append, noDigit]
      rfl
  | cons high later =>
      cases highDigit : hexDigit? high with
      | none =>
          simp only [List.cons_append, isXDigit, highDigit]
          rfl
      | some highValue =>
          simp only [List.cons_append, isXDigit, highDigit]
          cases later with
          | nil => rfl
          | cons low later =>
              rcases missing high low later rfl with noHigh | noLow
              · rw [highDigit] at noHigh
                cases noHigh
              · simp only [List.cons_append, noLow]
                rfl

/-! ## One item of a reply -/

/-- What follows the key of an item. -/
def parseValue
    (fuel : Nat)
    (p : List UInt8)
    (resp : ConmuxResponse)
    (key : CString) :
    Except ReplyFault (Int × ConmuxResponse) :=
  (scanValue p []).bind fun
    | none => .ok (-1, resp)
    | some (value, p) => parseItems fuel p (resp.assign key value)

theorem parseItems_blank
    {spaces : List UInt8}
    (blank : ∀ ch, ch ∈ spaces → isSpace ch = true)
    (fuel : Nat)
    (resp : ConmuxResponse) :
    parseItems (fuel + 1) (spaces ++ [0]) resp = .ok (0, resp) := by
  have skipped : skipSpaces (spaces ++ ([] ++ [0])) = .ok [0] :=
    skipSpaces_append blank nofun
  rw [List.nil_append] at skipped
  rw [parseItems, skipped]
  cases spaces with
  | nil => rfl
  | cons ch spaces =>
      have notNul := isSpace_ne_zero ch (blank ch List.mem_cons_self)
      simp [peek, notNul, bind, Except.bind, pure, Except.pure]

/-- An item begins behind the white space in front of it. -/
theorem parseItems_start
    {spaces start : List UInt8}
    (blank : ∀ ch, ch ∈ spaces → isSpace ch = true)
    {first : UInt8}
    (begins : start.head? = some first)
    (notNul : first ≠ 0)
    (notSpace : isSpace first = false)
    (fuel : Nat)
    (resp : ConmuxResponse) :
    parseItems (fuel + 1) (spaces ++ (start ++ [0])) resp =
      (scanKey (start ++ [0]) []).bind fun scanned =>
        (peek scanned.2).bind fun ch =>
          if ch = 0x3d then
            parseValue fuel scanned.2.tail resp scanned.1
          else
            .ok (-1, resp) := by
  have skipped : skipSpaces (spaces ++ (start ++ [0])) = .ok (start ++ [0]) :=
    skipSpaces_append blank fun ch isHead => by
      rw [begins] at isHead
      cases isHead
      exact notSpace
  have here : peek (start ++ [0]) = .ok first := by
    cases start with
    | nil => cases begins
    | cons ch start =>
        cases begins
        rfl
  have ahead : ∃ ch, peek (spaces ++ (start ++ [0])) = .ok ch ∧ ch ≠ 0 := by
    cases spaces with
    | nil => exact ⟨first, here, notNul⟩
    | cons ch spaces =>
        exact ⟨ch, rfl, isSpace_ne_zero ch (blank ch List.mem_cons_self)⟩
  obtain ⟨ch, isAhead, chNotNul⟩ := ahead
  rw [parseItems, isAhead, skipped]
  simp only [bind, Except.bind, pure, Except.pure, here, chNotNul, notNul,
    if_false]
  cases scanKey (start ++ [0]) [] with
  | error fault => rfl
  | ok scanned =>
      dsimp only
      cases peek scanned.2 with
      | error fault => rfl
      | ok ch =>
          dsimp only
          by_cases equals : ch = 0x3d
          · rw [if_neg (by simp [equals]), if_pos equals]
            rfl
          · rw [if_pos equals, if_neg equals]

/-- An item whose key fits goes on with its value. -/
theorem parseItems_item
    {spaces key : List UInt8}
    (blank : ∀ ch, ch ∈ spaces → isSpace ch = true)
    (letters : ∀ ch, ch ∈ key → isAlpha ch = true)
    (fuel : Nat)
    (p : List UInt8)
    (resp : ConmuxResponse) :
    parseItems (fuel + 1) (spaces ++ (key ++ 0x3d :: p) ++ [0]) resp =
      if key.length < 64 then
        parseValue fuel (p ++ [0]) resp key
      else
        .error (.store .key 64) := by
  have first :
      ∃ ch, (key ++ 0x3d :: p).head? = some ch ∧ ch ≠ 0 ∧
        isSpace ch = false := by
    cases key with
    | nil => exact ⟨0x3d, rfl, by decide, by decide⟩
    | cons ch key =>
        have letter := letters ch List.mem_cons_self
        exact ⟨ch, rfl, isAlpha_ne_zero ch letter,
          isAlpha_not_isSpace ch letter⟩
  obtain ⟨ch, begins, notNul, notSpace⟩ := first
  have keyString : cstr key = key :=
    cstr_eq_self fun member => isAlpha_ne_zero 0 (letters 0 member) rfl
  have stops :
      ∀ ch, (0x3d :: p).head? = some ch → isAlpha ch = false := by
    intro ch isHead
    cases isHead
    decide
  rw [List.append_assoc, parseItems_start blank begins notNul notSpace,
    List.append_assoc, scanKey_append letters stops (Nat.zero_le _),
    List.length_nil, Nat.zero_add, List.nil_append, keyString]
  split <;> rfl

/-- Without `=` behind the key the reply is refused. -/
theorem parseItems_noEquals
    {spaces key rest : List UInt8}
    (blank : ∀ ch, ch ∈ spaces → isSpace ch = true)
    (letters : ∀ ch, ch ∈ key → isAlpha ch = true)
    (stops : ∀ ch, rest.head? = some ch → isAlpha ch = false)
    (noEquals : rest.head? ≠ some 0x3d)
    {first : UInt8}
    (begins : (key ++ rest).head? = some first)
    (notNul : first ≠ 0)
    (notSpace : isSpace first = false)
    (fuel : Nat)
    (resp : ConmuxResponse) :
    parseItems (fuel + 1) (spaces ++ (key ++ rest) ++ [0]) resp =
      if key.length < 64 then
        .ok (-1, resp)
      else
        .error (.store .key 64) := by
  have behind : ∃ ch, peek (rest ++ [0]) = .ok ch ∧ ch ≠ 0x3d := by
    cases rest with
    | nil => exact ⟨0, rfl, by decide⟩
    | cons ch rest => exact ⟨ch, rfl, fun equals => noEquals (equals ▸ rfl)⟩
  obtain ⟨ch, isBehind, notEquals⟩ := behind
  rw [List.append_assoc, parseItems_start blank begins notNul notSpace,
    List.append_assoc, scanKey_append letters stops (Nat.zero_le _),
    List.length_nil, Nat.zero_add, List.nil_append]
  split
  · change ((peek (rest ++ [0])).bind fun ch => _) = _
    rw [isBehind]
    exact if_neg notEquals
  · rfl

theorem parseValue_ends
    {value : List UInt8}
    {units : List (List UInt8)}
    (writes : List.Forall₂ (Writes isGraphic) value units)
    {rest : List UInt8}
    (ends : Ends isGraphic rest)
    (fuel : Nat)
    (resp : ConmuxResponse)
    (key : CString) :
    parseValue fuel (units.flatten ++ rest ++ [0]) resp key =
      if value.length < 64 then
        parseItems fuel (rest ++ [0]) (resp.assign key (cstr value))
      else
        .error (.store .value 64) := by
  rw [parseValue, List.append_assoc,
    scanValue_append writes (Nat.zero_le _), List.length_nil, Nat.zero_add,
    List.nil_append]
  by_cases within : value.length ≤ 64
  · rw [if_pos within, scanValue_ends ends within]
    split <;> rfl
  · rw [if_neg within, if_neg (by omega)]
    rfl

theorem parseValue_broken
    {value : List UInt8}
    {units : List (List UInt8)}
    (writes : List.Forall₂ (Writes isGraphic) value units)
    {rest : List UInt8}
    (broken : BrokenEscape rest)
    (fuel : Nat)
    (resp : ConmuxResponse)
    (key : CString) :
    parseValue fuel (units.flatten ++ rest ++ [0]) resp key =
      if value.length ≤ 64 then
        .ok (-1, resp)
      else
        .error (.store .value 64) := by
  rw [parseValue, List.append_assoc,
    scanValue_append writes (Nat.zero_le _), List.length_nil, Nat.zero_add,
    List.nil_append]
  split
  · rw [scanValue_broken broken]
    rfl
  · rfl

/-! ## Any reply -/

/-- What any reply is up to the end of its first item. -/
inductive ReplyShape : List UInt8 → Prop where
  | blank
      (spaces : List UInt8)
      (blank : ∀ ch, ch ∈ spaces → isSpace ch = true) :
      ReplyShape spaces
  | noEquals
      (spaces key rest : List UInt8)
      (first : UInt8)
      (blank : ∀ ch, ch ∈ spaces → isSpace ch = true)
      (letters : ∀ ch, ch ∈ key → isAlpha ch = true)
      (stops : ∀ ch, rest.head? = some ch → isAlpha ch = false)
      (noEquals : rest.head? ≠ some 0x3d)
      (begins : (key ++ rest).head? = some first)
      (notNul : first ≠ 0)
      (notSpace : isSpace first = false) :
      ReplyShape (spaces ++ (key ++ rest))
  | value
      (spaces key value : List UInt8)
      (units : List (List UInt8))
      (rest : List UInt8)
      (blank : ∀ ch, ch ∈ spaces → isSpace ch = true)
      (letters : ∀ ch, ch ∈ key → isAlpha ch = true)
      (writes : List.Forall₂ (Writes isGraphic) value units)
      (stops : BrokenEscape rest ∨ Ends isGraphic rest) :
      ReplyShape (spaces ++ (key ++ 0x3d :: (units.flatten ++ rest)))

/-- The characters of a run, and the text that does not go on with it. -/
theorem split_run
    (isRun : UInt8 → Bool)
    (text : List UInt8) :
    ∃ front rest,
      text = front ++ rest ∧
        (∀ ch, ch ∈ front → isRun ch = true) ∧
        ∀ ch, rest.head? = some ch → isRun ch = false := by
  refine ⟨text.takeWhile isRun, text.dropWhile isRun,
    List.takeWhile_append_dropWhile.symm, ?_, ?_⟩
  · intro ch member
    exact List.mem_takeWhile_imp member
  · intro ch isHead
    have stopped := List.head?_dropWhile_not isRun text
    rw [isHead] at stopped
    simpa using stopped

/-- What follows an item is terminated like the reply. -/
theorem not_mem_behindItem
    {spaces key rest : List UInt8}
    {units : List (List UInt8)}
    (terminated :
      0 ∉ spaces ++ (key ++ 0x3d :: (units.flatten ++ rest))) :
    0 ∉ rest :=
  fun member => terminated (by simp [member])

/-- What follows an item is shorter than the reply. -/
theorem length_behindItem
    (spaces key rest : List UInt8)
    (units : List (List UInt8)) :
    rest.length <
      (spaces ++ (key ++ 0x3d :: (units.flatten ++ rest))).length := by
  simp only [List.length_append, List.length_cons]
  omega

theorem replyShape
    {reply : List UInt8}
    (terminated : 0 ∉ reply) :
    ReplyShape reply := by
  obtain ⟨spaces, start, replyIs, blank, notSpace⟩ := split_run isSpace reply
  obtain ⟨key, rest, startIs, letters, stops⟩ := split_run isAlpha start
  subst replyIs
  subst startIs
  by_cases equals : rest.head? = some 0x3d
  · obtain ⟨p, restIs⟩ : ∃ p, rest = 0x3d :: p := by
      cases rest with
      | nil => cases equals
      | cons ch rest =>
          cases equals
          exact ⟨rest, rfl⟩
    obtain ⟨units, last, areUnits, pIs, ends⟩ :=
      @PercentEncoding.exists_units isGraphic p
    obtain ⟨value, writes⟩ := PercentEncoding.exists_bytes areUnits
    rw [restIs, pIs]
    exact .value spaces key value units last blank letters writes ends
  · cases begins : (key ++ rest).head? with
    | none =>
        rw [List.head?_eq_none_iff] at begins
        rw [begins, List.append_nil]
        exact .blank spaces blank
    | some first =>
        have notNul : first ≠ 0 := by
          intro isNul
          rw [isNul] at begins
          exact terminated
            (List.mem_append_right _ (List.mem_of_head? begins))
        exact .noEquals spaces key rest first blank letters stops equals
          begins notNul (notSpace first begins)

/-! ## Well-formed replies -/

/-- The white space behind a value ends it. -/
theorem ends_of_separated
    {rest : List UInt8}
    (separated : ∀ ch, rest.head? = some ch → isSpace ch = true) :
    Ends isGraphic rest :=
  fun ch isHead => isSpace_not_isGraphic ch (separated ch isHead)

/-- Keys and values that fit in the buffers with their NUL. -/
def ShortItems (items : List (CString × List UInt8)) : Prop :=
  ∀ item, item ∈ items → item.1.length < 64 ∧ item.2.length < 64

/-- A reply of short items is parsed and leaves their values. -/
theorem ReplyItems.parse
    {items : List (CString × List UInt8)}
    {text : List UInt8}
    (isReply : ReplyItems items text)
    (short : ShortItems items)
    {fuel : Nat}
    (enough : text.length < fuel)
    (resp : ConmuxResponse) :
    parseItems fuel (text ++ [0]) resp = .ok (0, assignAll resp items) := by
  induction isReply generalizing fuel resp with
  | blank spaces blank =>
      obtain ⟨fuel, rfl⟩ := Nat.exists_eq_add_of_lt enough
      exact parseItems_blank blank _ resp
  | item spaces key value units items rest blank letters writes separated
      later inductionHypothesis =>
      cases fuel with
      | zero => exact absurd enough (Nat.not_lt_zero _)
      | succ fuel =>
          obtain ⟨shortKey, shortValue⟩ := short _ List.mem_cons_self
          have less : rest.length < fuel := by
            simp only [List.length_append, List.length_cons] at enough
            omega
          rw [parseItems_item blank letters, if_pos shortKey,
            parseValue_ends writes (ends_of_separated separated),
            if_pos shortValue,
            inductionHypothesis
              (fun item member => short item (List.mem_cons_of_mem _ member))
              less]
          rfl

/-- A reply goes on with white space behind a value. -/
theorem ReplyItems.head
    {items : List (CString × List UInt8)}
    {text : List UInt8}
    (isReply : ReplyItems items text)
    {ch : UInt8}
    (isHead : text.head? = some ch)
    (notGraphic : isGraphic ch = false) :
    isSpace ch = true := by
  cases isReply with
  | blank spaces blank =>
      exact blank ch (List.mem_of_head? isHead)
  | item spaces key value units items rest blank letters =>
      cases spaces with
      | cons first spaces =>
          cases isHead
          exact blank ch List.mem_cons_self
      | nil =>
          cases key with
          | cons first key =>
              cases isHead
              have graphic :=
                isAlpha_isGraphic ch (letters ch List.mem_cons_self)
              rw [graphic] at notGraphic
              cases notGraphic
          | nil =>
              cases isHead
              exact absurd notGraphic (by decide)

/-- What is parsed without an error is a reply of short items. -/
theorem replyItems_of_parse
    {text : List UInt8}
    (terminated : 0 ∉ text)
    {fuel : Nat}
    {resp parsed : ConmuxResponse}
    (parses : parseItems fuel (text ++ [0]) resp = .ok (0, parsed)) :
    ∃ items,
      ReplyItems items text ∧ ShortItems items ∧
        parsed = assignAll resp items := by
  induction fuel generalizing text resp with
  | zero => cases parses
  | succ fuel inductionHypothesis =>
      cases replyShape terminated with
      | blank spaces blank =>
          rw [parseItems_blank blank] at parses
          cases parses
          exact ⟨[], .blank text blank, nofun, rfl⟩
      | noEquals spaces key rest first blank letters stops noEquals begins
          notNul notSpace =>
          rw [parseItems_noEquals blank letters stops noEquals begins notNul
            notSpace] at parses
          split at parses <;> cases parses
      | value spaces key value units rest blank letters writes stops =>
          rw [parseItems_item blank letters] at parses
          split at parses
          · rename_i shortKey
            rcases stops with broken | ends
            · rw [parseValue_broken writes broken] at parses
              split at parses <;> cases parses
            · rw [parseValue_ends writes ends] at parses
              split at parses
              · rename_i shortValue
                obtain ⟨items, isReply, short, isParsed⟩ :=
                  inductionHypothesis (not_mem_behindItem terminated) parses
                have separated :
                    ∀ ch, rest.head? = some ch → isSpace ch = true :=
                  fun ch isHead => isReply.head isHead (ends ch isHead)
                refine ⟨(key, value) :: items,
                  .item spaces key value units items rest blank letters
                    writes separated isReply, ?_, isParsed⟩
                intro item member
                rcases List.mem_cons.mp member with rfl | later
                · exact ⟨shortKey, shortValue⟩
                · exact short item later
              · cases parses
          · cases parses

/-! ## The fields of a reply -/

/-- The keys that `parse_response` knows. -/
inductive ReplyKey where
  | result
  | status
  | title
  | state
  deriving DecidableEq, Repr

namespace ReplyKey

/-- How a key is written. -/
def word : ReplyKey → CString
  | result => ascii "result"
  | status => ascii "status"
  | title => ascii "title"
  | state => ascii "state"

/-- The field that a key stands for. -/
def field (resp : ConmuxResponse) : ReplyKey → Option CString
  | result => resp.result
  | status => resp.status
  | title => resp.title
  | state => resp.state

theorem word_inj : ∀ one other : ReplyKey, one.word = other.word ↔ one = other := by
  intro one other
  cases one <;> cases other <;> decide

theorem word_length (key : ReplyKey) : key.word.length < 64 := by
  cases key <;> decide

/-- An item changes the field of its key and no other. -/
theorem field_assign
    (resp : ConmuxResponse)
    (key value : CString)
    (name : ReplyKey) :
    name.field (resp.assign key value) =
      if key = name.word then some value else name.field resp := by
  have distinct :
      ∀ other : ReplyKey, key = other.word →
        (key = name.word ↔ other = name) := by
    intro other isOther
    rw [isOther]
    exact word_inj other name
  have isResult := distinct .result
  have isStatus := distinct .status
  have isTitle := distinct .title
  have isState := distinct .state
  unfold ConmuxResponse.assign
  cases name <;> simp only [word, field] at * <;> grind

end ReplyKey

/-- The last item of a key decides its field. -/
theorem field_assignAll
    (resp : ConmuxResponse)
    (items : List (CString × List UInt8))
    (name : ReplyKey) :
    name.field (assignAll resp items) =
      (lastValue items name.word).or (name.field resp) := by
  induction items generalizing resp with
  | nil => rfl
  | cons item items inductionHypothesis =>
      change name.field
        (assignAll (resp.assign item.1 (cstr item.2)) items) = _
      rw [inductionHypothesis, ReplyKey.field_assign, lastValue, lastValue]
      by_cases here : item.1 = name.word
      · rw [if_pos here, List.filter_cons_of_pos (by simp [here]),
          List.getLast?_cons]
        cases (items.filter (·.1 = name.word)).getLast? <;> rfl
      · rw [if_neg here, List.filter_cons_of_neg (by simp [here])]

/-! ## The round trip -/

/-- Some items with their keys as words. -/
def itemWords
    (items : List (ReplyKey × CString)) :
    List (CString × List UInt8) :=
  items.map fun item => (item.1.word, item.2)

/-- The value of the last item with a key. -/
def lastItem
    (items : List (ReplyKey × CString))
    (key : ReplyKey) :
    Option CString :=
  ((items.filter (·.1 = key)).getLast?).map (·.2)

theorem lastValue_itemWords
    {items : List (ReplyKey × CString)}
    (strings : ∀ item, item ∈ items → 0 ∉ item.2)
    (key : ReplyKey) :
    lastValue (itemWords items) key.word = lastItem items key := by
  have same :
      (itemWords items).filter (·.1 = key.word) =
        itemWords (items.filter (·.1 = key)) := by
    rw [itemWords, List.filter_map]
    congr 1
    apply List.filter_congr
    intro item _
    simp [ReplyKey.word_inj]
  rw [lastValue, lastItem, same, itemWords, List.getLast?_map,
    Option.map_map]
  cases last : (items.filter (·.1 = key)).getLast? with
  | none => rfl
  | some item =>
      have member := (List.mem_filter.mp (List.mem_of_getLast? last)).1
      exact congrArg some (cstr_eq_self (strings item member))

/--
`parse_response` inverts the encoding: for NUL-free values of at most 63
bytes it returns 0, and each field is the value of the last item with its key.
-/
theorem parseResponse_inverts
    {items : List (ReplyKey × CString)}
    {text : List UInt8}
    (strings : ∀ item, item ∈ items → 0 ∉ item.2)
    (short : ∀ item, item ∈ items → item.2.length ≤ 63)
    (rendered : ReplyItems (itemWords items) text) :
    ∃ resp,
      parseResponse text = .ok (0, resp) ∧
        ∀ key : ReplyKey, key.field resp = lastItem items key := by
  have shortItems : ShortItems (itemWords items) := by
    intro item member
    obtain ⟨source, isSource, rfl⟩ := List.mem_map.mp member
    exact ⟨source.1.word_length, Nat.lt_succ_of_le (short source isSource)⟩
  refine ⟨_, rendered.parse shortItems (Nat.lt_succ_self _) .empty, ?_⟩
  intro key
  have none : key.field .empty = none := by
    cases key <;> rfl
  rw [field_assignAll, none, Option.or_none,
    lastValue_itemWords strings]

/-- An item with an escaped blank, one with an empty value, a repeated key. -/
theorem exampleReply_inverted :
    ∃ resp,
      parseResponse
          (ascii " status=no title= status=a%2Fb%20c\n") = .ok (0, resp) ∧
        ∀ key : ReplyKey,
          key.field resp =
            lastItem
              [(.status, ascii "no"), (.title, []),
                (.status, ascii "a/b c")] key := by
  refine parseResponse_inverts (by decide) (by decide) ?_
  have itself :
      ∀ ch, isGraphic ch = true → ch ≠ 0x25 → Writes isGraphic ch [ch] :=
    fun ch shown plain => .itself ch shown plain
  have slash : Writes isGraphic 0x2f (ascii "%2F") :=
    .escape 0x32 0x46 2 15 rfl rfl
  have blank : Writes isGraphic 0x20 (ascii "%20") :=
    .escape 0x32 0x30 2 0 rfl rfl
  have blankBehind :
      ∀ (rest : List UInt8) ch,
        (0x20 :: rest).head? = some ch → isSpace ch = true := by
    rintro rest _ ⟨rfl⟩
    rfl
  exact
    .item (ascii " ") (ascii "status") (ascii "no") [ascii "n", ascii "o"] _ _
      (List.all_eq_true.mp (by decide)) (List.all_eq_true.mp (by decide))
      (.cons (itself 0x6e rfl (by decide))
        (.cons (itself 0x6f rfl (by decide)) .nil))
      (blankBehind _)
      (.item (ascii " ") (ascii "title") [] [] _ _
        (List.all_eq_true.mp (by decide)) (List.all_eq_true.mp (by decide))
        .nil (blankBehind _)
        (.item (ascii " ") (ascii "status") (ascii "a/b c")
          [ascii "a", ascii "%2F", ascii "b", ascii "%20", ascii "c"] _ _
          (List.all_eq_true.mp (by decide)) (List.all_eq_true.mp (by decide))
          (.cons (itself 0x61 rfl (by decide))
            (.cons slash
              (.cons (itself 0x62 rfl (by decide))
                (.cons blank
                  (.cons (itself 0x63 rfl (by decide)) .nil)))))
          (by
            rintro _ ⟨rfl⟩
            rfl)
          (.blank (ascii "\n") (List.all_eq_true.mp (by decide)))))

end Cdba
