import Cdba.CdbAssist

namespace Cdba

/-!
# Keys that are too long for the parser

The parser stores a key character by character and never compares its index
with the size of the array.  Which texts have a key that does not fit can be
told from the texts alone: a report ends with its last character or with the
first one that does not belong to it, and the next one is looked for behind.
-/

/-! ## Texts of reports -/

/--
What is left of a text behind a character of some kind and what comes later; a
character of another kind breaks the report off.
-/
def behindChar
    (kind : UInt8 → Bool)
    (later : List UInt8 → List UInt8) :
    List UInt8 → List UInt8
  | [] => []
  | ch :: rest => if kind ch then later rest else rest

/-- Behind the last character of a report, whichever it is. -/
def behindLast : List UInt8 → List UInt8 :=
  List.drop 1

/-- Behind the rest of a number, an `m` and the last character. -/
def behindLastNumber (text : List UInt8) : List UInt8 :=
  behindChar (· = 0x6d) behindLast (text.dropWhile isDigit)

/-- Behind a `/` and the second number. -/
def behindSlash : List UInt8 → List UInt8 :=
  behindChar (· = 0x2f) behindLastNumber

/-- Behind the unit of the first number, `v` or `a`, and the second number. -/
def behindUnit : List UInt8 → List UInt8 :=
  behindChar (fun ch => ch = 0x76 || ch = 0x61) behindSlash

/-- Behind the rest of a number, and the report that begins with it. -/
def behindNumber (text : List UInt8) : List UInt8 :=
  behindChar (· = 0x6d) behindUnit (text.dropWhile isDigit)

/-- Behind `n`, or `f` and another character. -/
def behindOnOff : List UInt8 → List UInt8 :=
  behindChar (· = 0x66) behindLast

/-- Behind `on` or `off`. -/
def behindSwitch : List UInt8 → List UInt8 :=
  behindChar (· = 0x6f) behindOnOff

/-- Behind the value of a key. -/
def behindValue : List UInt8 → List UInt8 :=
  behindChar isDigit behindLastNumber

/-- Behind the rest of a key, and the report that begins with it. -/
def behindKey (text : List UInt8) : List UInt8 :=
  match text.dropWhile isAlnum with
  | [] => []
  | ch :: rest =>
      if ch = 0x3a then
        behindSwitch rest
      else if ch = 0x3d then
        behindValue rest
      else
        rest

/-- Behind the report that begins with a character, if one does. -/
def behindReport (ch : UInt8) (rest : List UInt8) : List UInt8 :=
  if isDigit ch then
    behindNumber rest
  else if isAlpha ch then
    behindKey rest
  else
    rest

/--
The rest of a key of which some characters have been read is too long: its
characters are more than 32, or exactly 32 and the key is going to be ended.
-/
def LongKey (before : Nat) (text : List UInt8) : Prop :=
  32 < before + (text.takeWhile isAlnum).length ∨
    before + (text.takeWhile isAlnum).length = 32 ∧
      ((text.dropWhile isAlnum).head? = some 0x3a ∨
        (text.dropWhile isAlnum).head? = some 0x3d)

/-- A text has a key that is too long. -/
inductive HasLongKey : List UInt8 → Prop where
  | here
      {ch : UInt8}
      {rest : List UInt8}
      (begins : isAlpha ch = true)
      (long : LongKey 1 rest) :
      HasLongKey (ch :: rest)
  | later
      {ch : UInt8}
      {rest : List UInt8}
      (behind : HasLongKey (behindReport ch rest)) :
      HasLongKey (ch :: rest)

theorem not_hasLongKey_nil :
    ¬ HasLongKey [] :=
  nofun

theorem hasLongKey_cons
    (ch : UInt8)
    (rest : List UInt8) :
    HasLongKey (ch :: rest) ↔
      isAlpha ch = true ∧ LongKey 1 rest ∨
        HasLongKey (behindReport ch rest) := by
  constructor
  · intro has
    cases has with
    | here begins long => exact .inl ⟨begins, long⟩
    | later behind => exact .inr behind
  · rintro (⟨begins, long⟩ | behind)
    · exact .here begins long
    · exact .later behind

/-! ## What awaits the parser -/

/-- The text ahead of the parser has a key that it is going to overrun with. -/
def CdbAssist.Overruns (cdb : CdbAssist) (text : List UInt8) : Prop :=
  match cdb.state with
  | .empty => HasLongKey text
  | .key => LongKey cdb.keyIdx text ∨ HasLongKey (behindKey text)
  | .keyBool => HasLongKey (behindSwitch text)
  | .keyValue => HasLongKey (behindValue text)
  | .keyO => HasLongKey (behindOnOff text)
  | .keyOf => HasLongKey (behindLast text)
  | .keyNum => HasLongKey (behindLastNumber text)
  | .keyNumM => HasLongKey (behindLast text)
  | .num => HasLongKey (behindNumber text)
  | .numM => HasLongKey (behindUnit text)
  | .numMX => HasLongKey (behindSlash text)
  | .numMXSlash => HasLongKey (behindLastNumber text)
  | .numNumM => HasLongKey (behindLast text)

/-- What one character does to a parser that has stored what fits. -/
inductive CdbAssist.Pushes (cdb : CdbAssist) (ch : UInt8) : Prop where
  | overrun
      (index : Nat)
      (outside : 32 ≤ index)
      (fails : cdbParserPush cdb ch = .error (.key index))
      (overruns : ∀ rest, cdb.Overruns (ch :: rest))
  | ok
      (next : CdbAssist)
      (pushed : cdbParserPush cdb ch = .ok next)
      (fits : next.keyIdx ≤ 32)
      (overruns : ∀ rest, cdb.Overruns (ch :: rest) ↔ next.Overruns rest)

theorem storeKey_inside
    {cdb : CdbAssist}
    {index : Nat}
    (inside : index < 32)
    (ch : UInt8) :
    cdb.storeKey index ch =
      .ok { cdb with key := cdb.key.set index ch inside } :=
  dif_pos inside

theorem storeKey_outside
    {cdb : CdbAssist}
    {index : Nat}
    (outside : 32 ≤ index)
    (ch : UInt8) :
    cdb.storeKey index ch = .error (.key index) :=
  dif_neg (Nat.not_lt_of_le outside)

/-- Every key has its place in the structure. -/
theorem cdbParserBool_eq
    (cdb : CdbAssist)
    (key : CString)
    (set : Bool) :
    ∃ values, cdbParserBool cdb key set = .ok { cdb with values := values } := by
  have inside : szKeys.findIdx (· = key) ≤ 5 := List.findIdx_le_length
  unfold cdbParserBool
  generalize szKeys.findIdx (· = key) = index at inside
  match index with
  | 0 => exact ⟨_, rfl⟩
  | 1 => exact ⟨_, rfl⟩
  | 2 => exact ⟨_, rfl⟩
  | 3 => exact ⟨_, rfl⟩
  | 4 => exact ⟨_, rfl⟩
  | 5 => exact ⟨_, rfl⟩

/-- Behind digits, the next one makes no difference. -/
theorem dropWhile_digit
    {ch : UInt8}
    (digit : isDigit ch = true)
    (rest : List UInt8) :
    (ch :: rest).dropWhile isDigit = rest.dropWhile isDigit := by
  rw [List.dropWhile_cons, if_pos digit]

theorem dropWhile_other
    {kind : UInt8 → Bool}
    {ch : UInt8}
    (other : ¬ kind ch = true)
    (rest : List UInt8) :
    (ch :: rest).dropWhile kind = ch :: rest := by
  rw [List.dropWhile_cons, if_neg other]

/-- One more character of a key counts as read or as ahead. -/
theorem longKey_alnum
    {ch : UInt8}
    (alnum : isAlnum ch = true)
    (before : Nat)
    (rest : List UInt8) :
    LongKey before (ch :: rest) ↔ LongKey (before + 1) rest := by
  have length :
      before + (rest.takeWhile isAlnum).length.succ =
        before + 1 + (rest.takeWhile isAlnum).length := by
    omega
  simp only [LongKey, List.takeWhile_cons, List.dropWhile_cons, alnum,
    ↓reduceIte, List.length_cons]
  rw [← length]

/-- Where a key ends, what has been read of it decides. -/
theorem longKey_other
    {ch : UInt8}
    (other : ¬ isAlnum ch = true)
    (before : Nat)
    (rest : List UInt8) :
    LongKey before (ch :: rest) ↔
      32 < before ∨ before = 32 ∧ (ch = 0x3a ∨ ch = 0x3d) := by
  simp [LongKey, other]

theorem behindKey_alnum
    {ch : UInt8}
    (alnum : isAlnum ch = true)
    (rest : List UInt8) :
    behindKey (ch :: rest) = behindKey rest := by
  rw [behindKey, List.dropWhile_cons, if_pos alnum]
  rfl

theorem behindKey_other
    {ch : UInt8}
    (other : ¬ isAlnum ch = true)
    (rest : List UInt8) :
    behindKey (ch :: rest) =
      if ch = 0x3a then
        behindSwitch rest
      else if ch = 0x3d then
        behindValue rest
      else
        rest := by
  rw [behindKey, dropWhile_other other]

theorem overruns_key
    {cdb : CdbAssist}
    (state : cdb.state = .key)
    (text : List UInt8) :
    cdb.Overruns text ↔
      LongKey cdb.keyIdx text ∨ HasLongKey (behindKey text) := by
  simp only [CdbAssist.Overruns, state]

/-- A letter or digit of a key is stored, or does not fit. -/
theorem pushes_alnum
    {cdb : CdbAssist}
    (state : cdb.state = .key)
    {ch : UInt8}
    (alnum : isAlnum ch = true) :
    cdb.Pushes ch := by
  by_cases inside : cdb.keyIdx < 32
  · refine .ok
      { cdb with
        key := cdb.key.set cdb.keyIdx ch inside
        keyIdx := cdb.keyIdx + 1 } ?_ inside fun rest => ?_
    · simp only [cdbParserPush, state, alnum, ↓reduceIte,
        storeKey_inside inside]
      rfl
    · rw [overruns_key state, longKey_alnum alnum, behindKey_alnum alnum]
      simp only [CdbAssist.Overruns, state]
  · have outside : 32 ≤ cdb.keyIdx := Nat.le_of_not_lt inside
    refine .overrun cdb.keyIdx outside ?_ fun rest => ?_
    · simp only [cdbParserPush, state, alnum, ↓reduceIte,
        storeKey_outside outside]
      rfl
    · rw [overruns_key state, longKey_alnum alnum]
      exact .inl (.inl (by omega))

/-- The terminating NUL is stored, or does not fit. -/
theorem pushes_endsKey
    {cdb : CdbAssist}
    (state : cdb.state = .key)
    (fits : cdb.keyIdx ≤ 32)
    {ch : UInt8}
    (ends : ch = 0x3a ∨ ch = 0x3d)
    (next : CdbState)
    (behind : List UInt8 → List UInt8)
    (push :
      cdbParserPush cdb ch =
        cdb.storeKey cdb.keyIdx 0 >>= fun cdb => .ok (cdb.enter next))
    (follows : ∀ rest, behindKey (ch :: rest) = behind rest)
    (awaits :
      ∀ (entered : CdbAssist) (rest : List UInt8),
        (entered.enter next).Overruns rest ↔ HasLongKey (behind rest)) :
    cdb.Pushes ch := by
  have other : ¬ isAlnum ch = true := by
    rcases ends with rfl | rfl <;> decide
  by_cases inside : cdb.keyIdx < 32
  · have notFull :
        ¬ (32 < cdb.keyIdx ∨
          cdb.keyIdx = 32 ∧ (ch = 0x3a ∨ ch = 0x3d)) := by
      rintro (more | ⟨full, _⟩) <;> omega
    refine .ok
      (CdbAssist.enter
        { cdb with key := cdb.key.set cdb.keyIdx 0 inside } next)
      ?_ fits fun rest => ?_
    · rw [push, storeKey_inside inside]
      rfl
    rw [overruns_key state, longKey_other other, or_iff_right notFull,
      follows, awaits]
  · have outside : 32 ≤ cdb.keyIdx := Nat.le_of_not_lt inside
    refine .overrun cdb.keyIdx outside ?_ fun rest => ?_
    · rw [push, storeKey_outside outside]
      rfl
    rw [overruns_key state, longKey_other other]
    exact .inl (.inr ⟨Nat.le_antisymm fits outside, ends⟩)

/-- In a key, only what is stored can overrun. -/
theorem pushes_key
    {cdb : CdbAssist}
    (state : cdb.state = .key)
    (fits : cdb.keyIdx ≤ 32)
    (ch : UInt8) :
    cdb.Pushes ch := by
  by_cases alnum : isAlnum ch = true
  · exact pushes_alnum state alnum
  by_cases colon : ch = 0x3a
  · subst colon
    refine pushes_endsKey state fits (.inl rfl) .keyBool behindSwitch ?_
      (fun rest => ?_) fun _ _ => Iff.rfl
    · simp [cdbParserPush, state, alnum]
    · simp [behindKey_other alnum]
  by_cases equals : ch = 0x3d
  · subst equals
    refine pushes_endsKey state fits (.inr rfl) .keyValue behindValue ?_
      (fun rest => ?_) fun _ _ => Iff.rfl
    · simp [cdbParserPush, state, alnum]
    · simp [behindKey_other alnum]
  refine .ok (cdb.enter .empty) ?_ fits fun rest => ?_
  · simp [cdbParserPush, state, alnum, colon, equals]
  · have notFull : ¬ (32 < cdb.keyIdx ∨
        cdb.keyIdx = 32 ∧ (ch = 0x3a ∨ ch = 0x3d)) := by
      rintro (more | ⟨_, isColon | isEquals⟩)
      · omega
      · exact colon isColon
      · exact equals isEquals
    rw [overruns_key state, longKey_other alnum, or_iff_right notFull,
      behindKey_other alnum, if_neg colon, if_neg equals]
    rfl

/-- Between reports, the first character of a key always fits. -/
theorem pushes_empty
    {cdb : CdbAssist}
    (state : cdb.state = .empty)
    (fits : cdb.keyIdx ≤ 32)
    (ch : UInt8) :
    cdb.Pushes ch := by
  have awaits :
      ∀ rest, cdb.Overruns (ch :: rest) ↔
        isAlpha ch = true ∧ LongKey 1 rest ∨
          HasLongKey (behindReport ch rest) := by
    intro rest
    simp only [CdbAssist.Overruns, state, hasLongKey_cons]
  by_cases digit : isDigit ch = true
  · have notAlpha : ¬ isAlpha ch = true := by
      simp only [isDigit, isAlpha, Bool.and_eq_true, Bool.or_eq_true,
        decide_eq_true_eq, UInt8.le_iff_toNat_le] at digit ⊢
      rintro (upper | lower)
      · exact absurd (Nat.le_trans upper.1 digit.2) (by decide)
      · exact absurd (Nat.le_trans lower.1 digit.2) (by decide)
    refine .ok { cdb with num0 := digitOf ch, state := .num } ?_ fits
      fun rest => ?_
    · simp [cdbParserPush, state, digit]
    · rw [awaits]
      simp [notAlpha, behindReport, digit, CdbAssist.Overruns]
  by_cases alpha : isAlpha ch = true
  · have first : (0 : Nat) < 32 := by decide
    refine .ok
      { cdb with
        key := cdb.key.set 0 ch first
        keyIdx := 1
        state := .key } ?_ (show 1 ≤ 32 by decide) fun rest => ?_
    · simp only [cdbParserPush, state, digit, alpha, ↓reduceIte,
        storeKey_inside first]
      rfl
    · rw [awaits]
      simp [alpha, behindReport, digit, CdbAssist.Overruns]
  · refine .ok cdb ?_ fits fun rest => ?_
    · simp [cdbParserPush, state, digit, alpha]
    · rw [awaits]
      simp [alpha, behindReport, digit, CdbAssist.Overruns, state]

/-- A character that a report needs is taken, another one breaks it off. -/
theorem pushes_char
    {cdb : CdbAssist}
    {ch : UInt8}
    (fits : cdb.keyIdx ≤ 32)
    (kind : UInt8 → Bool)
    (later : List UInt8 → List UInt8)
    (taken broken : CdbAssist)
    (push : cdbParserPush cdb ch = .ok (if kind ch then taken else broken))
    (awaits :
      ∀ rest, cdb.Overruns (ch :: rest) ↔
        HasLongKey (behindChar kind later (ch :: rest)))
    (takes :
      taken.keyIdx = cdb.keyIdx ∧
        ∀ rest, taken.Overruns rest ↔ HasLongKey (later rest))
    (breaks : broken.keyIdx = cdb.keyIdx ∧ broken.state = .empty) :
    cdb.Pushes ch := by
  refine .ok _ push ?_ fun rest => ?_
  · split
    · rwa [takes.1]
    · rwa [breaks.1]
  · rw [awaits, behindChar]
    split
    · exact (takes.2 rest).symm
    · simp only [CdbAssist.Overruns, breaks.2]

/-- A number goes on, or a character that the report needs follows it. -/
theorem pushes_number
    {cdb : CdbAssist}
    {ch : UInt8}
    (fits : cdb.keyIdx ≤ 32)
    (later : List UInt8 → List UInt8)
    (counted taken broken : CdbAssist)
    (push :
      cdbParserPush cdb ch =
        .ok (if isDigit ch then
            counted
          else if ch = 0x6d then
            taken
          else
            broken))
    (awaits :
      ∀ (waiting : CdbAssist) (rest : List UInt8),
        waiting.state = cdb.state →
        (waiting.Overruns rest ↔
          HasLongKey
            (behindChar (· = 0x6d) later (rest.dropWhile isDigit))))
    (counts : counted.keyIdx = cdb.keyIdx ∧ counted.state = cdb.state)
    (takes :
      taken.keyIdx = cdb.keyIdx ∧
        ∀ rest, taken.Overruns rest ↔ HasLongKey (later rest))
    (breaks : broken.keyIdx = cdb.keyIdx ∧ broken.state = .empty) :
    cdb.Pushes ch := by
  by_cases digit : isDigit ch = true
  · rw [if_pos digit] at push
    refine .ok counted push (counts.1 ▸ fits) fun rest => ?_
    rw [awaits cdb _ rfl, awaits counted _ counts.2, dropWhile_digit digit]
  · rw [if_neg digit] at push
    refine pushes_char fits (· = 0x6d) later taken broken ?_
      (fun rest => ?_) takes breaks
    · simpa using push
    · rw [awaits cdb _ rfl, dropWhile_other digit]

/-- The last character of a report ends it in any case. -/
theorem pushes_last
    {cdb : CdbAssist}
    {ch : UInt8}
    (fits : cdb.keyIdx ≤ 32)
    (next : CdbAssist)
    (push : cdbParserPush cdb ch = .ok next)
    (awaits :
      ∀ text, cdb.Overruns text ↔ HasLongKey (behindLast text))
    (ends : next.keyIdx = cdb.keyIdx ∧ next.state = .empty) :
    cdb.Pushes ch := by
  refine .ok next push (ends.1 ▸ fits) fun rest => ?_
  rw [awaits]
  simp only [CdbAssist.Overruns, ends.2]
  rfl

section States

variable {cdb : CdbAssist}

/-- Behind `key:`, an `o` begins `on` and `off`. -/
theorem pushes_keyBool
    (state : cdb.state = .keyBool)
    (fits : cdb.keyIdx ≤ 32)
    (ch : UInt8) :
    cdb.Pushes ch := by
  refine pushes_char fits (· = 0x6f) behindOnOff (cdb.enter .keyO)
    (cdb.enter .empty) ?_ ?_ ⟨rfl, fun _ => Iff.rfl⟩ ⟨rfl, rfl⟩
  · by_cases taken : ch = 0x6f <;> simp [cdbParserPush, state, taken]
  · simp [CdbAssist.Overruns, state, behindSwitch]

/-- Behind the `o`, an `n` switches on, and an `f` goes on. -/
theorem pushes_keyO
    (state : cdb.state = .keyO)
    (fits : cdb.keyIdx ≤ 32)
    (ch : UInt8) :
    cdb.Pushes ch := by
  obtain ⟨values, switched⟩ :=
    cdbParserBool_eq cdb (cstr cdb.key.toList) true
  refine pushes_char fits (· = 0x66) behindLast (cdb.enter .keyOf)
    (if ch = 0x6e then
      CdbAssist.enter { cdb with values := values } .empty
    else
      cdb.enter .empty) ?_ ?_ ⟨rfl, fun _ => Iff.rfl⟩ ?_
  · by_cases taken : ch = 0x66
    · simp [cdbParserPush, state, taken]
    · by_cases on : ch = 0x6e
      · simp [cdbParserPush, state, on, switched]
        rfl
      · simp [cdbParserPush, state, taken, on]
  · simp [CdbAssist.Overruns, state, behindOnOff]
  · split <;> exact ⟨rfl, rfl⟩

/-- Behind `of`, another `f` switches off. -/
theorem pushes_keyOf
    (state : cdb.state = .keyOf)
    (fits : cdb.keyIdx ≤ 32)
    (ch : UInt8) :
    cdb.Pushes ch := by
  obtain ⟨values, switched⟩ :=
    cdbParserBool_eq cdb (cstr cdb.key.toList) false
  have awaits :
      ∀ text, cdb.Overruns text ↔ HasLongKey (behindLast text) := by
    simp [CdbAssist.Overruns, state]
  by_cases off : ch = 0x66
  · refine pushes_last fits
      (CdbAssist.enter { cdb with values := values } .empty) ?_ awaits
      ⟨rfl, rfl⟩
    simp [cdbParserPush, state, off, switched]
    rfl
  · refine pushes_last fits (cdb.enter .empty) ?_ awaits ⟨rfl, rfl⟩
    simp [cdbParserPush, state, off]

/-- Behind `key=`, a digit begins the value. -/
theorem pushes_keyValue
    (state : cdb.state = .keyValue)
    (fits : cdb.keyIdx ≤ 32)
    (ch : UInt8) :
    cdb.Pushes ch := by
  refine pushes_char fits isDigit behindLastNumber
    { cdb with num0 := digitOf ch, state := .keyNum }
    (cdb.enter .empty) ?_ ?_ ⟨rfl, fun _ => Iff.rfl⟩ ⟨rfl, rfl⟩
  · by_cases taken : isDigit ch = true <;>
      simp [cdbParserPush, state, taken]
  · simp [CdbAssist.Overruns, state, behindValue]

/-- The value of a key goes on up to its `m`. -/
theorem pushes_keyNum
    (state : cdb.state = .keyNum)
    (fits : cdb.keyIdx ≤ 32)
    (ch : UInt8) :
    cdb.Pushes ch := by
  refine pushes_number fits behindLast
    { cdb with num0 := cdb.num0 * 10 + digitOf ch }
    (cdb.enter .keyNumM) (cdb.enter .empty) ?_ ?_ ⟨rfl, rfl⟩
    ⟨rfl, fun _ => Iff.rfl⟩ ⟨rfl, rfl⟩
  · simp only [cdbParserPush, state]
    split
    · rfl
    · split <;> rfl
  · rintro waiting rest same
    simp only [CdbAssist.Overruns, same, state]
    rfl

/-- Behind the `m` of a value, a `v` ends the report. -/
theorem pushes_keyNumM
    (state : cdb.state = .keyNumM)
    (fits : cdb.keyIdx ≤ 32)
    (ch : UInt8) :
    cdb.Pushes ch := by
  refine pushes_last fits
    (if ch = 0x76 then
      (cdbParserVref cdb cdb.num0).enter .empty
    else
      cdb.enter .empty) ?_ ?_ ?_
  · simp only [cdbParserPush, state]
    split <;> rfl
  · simp [CdbAssist.Overruns, state]
  · split <;> exact ⟨rfl, rfl⟩

/-- The first number of a report goes on up to its `m`. -/
theorem pushes_num
    (state : cdb.state = .num)
    (fits : cdb.keyIdx ≤ 32)
    (ch : UInt8) :
    cdb.Pushes ch := by
  refine pushes_number fits behindUnit
    { cdb with num0 := cdb.num0 * 10 + digitOf ch }
    (cdb.enter .numM) (cdb.enter .empty) ?_ ?_ ⟨rfl, state.symm ▸ rfl⟩
    ⟨rfl, fun _ => Iff.rfl⟩ ⟨rfl, rfl⟩
  · simp only [cdbParserPush, state]
    split
    · rfl
    · split <;> rfl
  · rintro waiting rest same
    simp only [CdbAssist.Overruns, same, state]
    rfl

/-- Behind the `m` of the first number, there is a unit. -/
theorem pushes_numM
    (state : cdb.state = .numM)
    (fits : cdb.keyIdx ≤ 32)
    (ch : UInt8) :
    cdb.Pushes ch := by
  refine pushes_char fits (fun ch => ch = 0x76 || ch = 0x61) behindSlash
    { cdb with voltage := decide (ch = 0x76), state := .numMX }
    (cdb.enter .empty) ?_ ?_ ⟨rfl, fun _ => Iff.rfl⟩ ⟨rfl, rfl⟩
  · by_cases volt : ch = 0x76
    · simp [cdbParserPush, state, volt]
    · by_cases ampere : ch = 0x61
      · simp [cdbParserPush, state, ampere]
      · simp [cdbParserPush, state, volt, ampere]
  · simp [CdbAssist.Overruns, state, behindUnit]

/-- Behind the unit of the first number, there is a `/`. -/
theorem pushes_numMX
    (state : cdb.state = .numMX)
    (fits : cdb.keyIdx ≤ 32)
    (ch : UInt8) :
    cdb.Pushes ch := by
  refine pushes_char fits (· = 0x2f) behindLastNumber
    { cdb with num1 := 0, state := .numMXSlash }
    (cdb.enter .empty) ?_ ?_ ⟨rfl, fun _ => Iff.rfl⟩ ⟨rfl, rfl⟩
  · by_cases taken : ch = 0x2f <;> simp [cdbParserPush, state, taken]
  · simp [CdbAssist.Overruns, state, behindSlash]

/-- The second number of a report goes on up to its `m`. -/
theorem pushes_numMXSlash
    (state : cdb.state = .numMXSlash)
    (fits : cdb.keyIdx ≤ 32)
    (ch : UInt8) :
    cdb.Pushes ch := by
  refine pushes_number fits behindLast
    { cdb with num1 := cdb.num1 * 10 + digitOf ch }
    (cdb.enter .numNumM) (cdb.enter .empty) ?_ ?_ ⟨rfl, rfl⟩
    ⟨rfl, fun _ => Iff.rfl⟩ ⟨rfl, rfl⟩
  · simp only [cdbParserPush, state]
    split
    · rfl
    · split <;> rfl
  · rintro waiting rest same
    simp only [CdbAssist.Overruns, same, state]
    rfl

/-- Behind the `m` of the second number, its unit ends the report. -/
theorem pushes_numNumM
    (state : cdb.state = .numNumM)
    (fits : cdb.keyIdx ≤ 32)
    (ch : UInt8) :
    cdb.Pushes ch := by
  refine pushes_last fits
    (if ch = 0x76 && cdb.voltage then
      (cdbParserVoltage cdb cdb.num0 cdb.num1).enter .empty
    else if ch = 0x61 && !cdb.voltage then
      (cdbParserCurrent cdb cdb.num0 cdb.num1).enter .empty
    else
      cdb.enter .empty) ?_ ?_ ?_
  · simp only [cdbParserPush, state]
    split
    · rfl
    · split <;> rfl
  · simp [CdbAssist.Overruns, state]
  · split
    · exact ⟨rfl, rfl⟩
    · split <;> exact ⟨rfl, rfl⟩

end States

/-- Each character keeps the parser inside its arrays, or ends a long key. -/
theorem pushes
    {cdb : CdbAssist}
    (fits : cdb.keyIdx ≤ 32)
    (ch : UInt8) :
    cdb.Pushes ch := by
  cases state : cdb.state with
  | empty => exact pushes_empty state fits ch
  | key => exact pushes_key state fits ch
  | keyBool => exact pushes_keyBool state fits ch
  | keyO => exact pushes_keyO state fits ch
  | keyOf => exact pushes_keyOf state fits ch
  | keyValue => exact pushes_keyValue state fits ch
  | keyNum => exact pushes_keyNum state fits ch
  | keyNumM => exact pushes_keyNumM state fits ch
  | num => exact pushes_num state fits ch
  | numM => exact pushes_numM state fits ch
  | numMX => exact pushes_numMX state fits ch
  | numMXSlash => exact pushes_numMXSlash state fits ch
  | numNumM => exact pushes_numNumM state fits ch

/-! ## Which texts stay inside -/

/-- From a parser that has stored what fits, a text overruns as it awaits it. -/
theorem cdbParserPushAll_cases
    {cdb : CdbAssist}
    (fits : cdb.keyIdx ≤ 32)
    (text : List UInt8) :
    (∃ next,
      cdbParserPushAll cdb text = .ok next ∧
        ¬ cdb.Overruns (text.map toLower)) ∨
      ∃ index,
        cdbParserPushAll cdb text = .error (.key index) ∧
          32 ≤ index ∧ cdb.Overruns (text.map toLower) := by
  induction text generalizing cdb with
  | nil =>
      refine .inl ⟨cdb, rfl, ?_⟩
      rw [List.map_nil]
      intro overruns
      cases state : cdb.state
      all_goals
        simp only [CdbAssist.Overruns, state] at overruns
      case key =>
        rcases overruns with long | has
        · simp only [LongKey, List.takeWhile_nil, List.dropWhile_nil,
            List.length_nil, List.head?_nil, reduceCtorEq, or_self,
            and_false, or_false] at long
          omega
        · exact not_hasLongKey_nil has
      all_goals exact not_hasLongKey_nil overruns
  | cons ch rest inductionHypothesis =>
      rw [List.map_cons]
      cases pushes fits (toLower ch) with
      | overrun index outside fails overruns =>
          refine .inr ⟨index, ?_, outside, overruns _⟩
          rw [cdbParserPushAll, List.foldlM_cons, fails]
          rfl
      | ok next pushed nextFits overruns =>
          rw [cdbParserPushAll_cons pushed, overruns]
          exact inductionHypothesis nextFits

/-- Nothing that is stored while portions are read lies behind an array. -/
def CdbStaysInside (portions : List CdbPortion) : Prop :=
  ∀ overrun, cdbAssistReads .zero portions ≠ .error overrun

/--
However the bytes of a control line are split across reads, the index into
`btn` is inside; that into `key` is inside exactly when no key of the text has
more than 32 characters, nor 32 with a `:` or a `=` behind them.
-/
theorem cdbAssist_staysInside_iff
    (portions : List CdbPortion) :
    (∀ index, cdbAssistReads .zero portions ≠ .error (.btn index)) ∧
      (CdbStaysInside portions ↔
        ¬ HasLongKey ((portionsText portions).map toLower)) := by
  have fits : CdbAssist.zero.keyIdx ≤ 32 := Nat.zero_le 32
  unfold CdbStaysInside
  rw [cdbAssistReads_eq]
  rcases cdbParserPushAll_cases fits (portionsText portions) with
    ⟨next, pushed, noLongKey⟩ | ⟨index, overran, _, longKey⟩
  · rw [pushed]
    exact ⟨nofun, fun _ => noLongKey, fun _ => nofun⟩
  · rw [overran]
    exact ⟨nofun, fun inside => absurd rfl (inside (.key index)),
      fun noLongKey => absurd longKey noLongKey⟩

/-- A key of 33 letters, as four reads deliver it. -/
def longKeyPortions : List CdbPortion :=
  [⟨List.replicate 9 0x61, by decide⟩, ⟨List.replicate 9 0x61, by decide⟩,
    ⟨List.replicate 9 0x61, by decide⟩, ⟨List.replicate 6 0x61, by decide⟩]

/-- The last letter is stored behind `key`. -/
theorem longKey_overruns :
    cdbAssistReads .zero longKeyPortions = .error (.key 32) ∧
      ¬ CdbStaysInside longKeyPortions := by
  have overruns : cdbAssistReads .zero longKeyPortions = .error (.key 32) :=
    rfl
  exact ⟨overruns, fun inside => inside _ overruns⟩

end Cdba
