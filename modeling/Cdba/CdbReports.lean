import Cdba.CdbAssist

namespace Cdba

/-!
# What the reports of a CDB Assist say

A whitespace character brings the parser between reports from wherever it is.
The reports that follow, in any letter case and separated by whitespace, are
decoded one by one: each value is that of the last report about it.
-/

/-! ## Reports -/

/-- A non-empty decimal string. -/
structure DecimalString where
  first : Fin 10
  rest : List (Fin 10)
  deriving DecidableEq

namespace DecimalString

/-- `'0'` to `'9'` -/
def digitChar (digit : Fin 10) : UInt8 :=
  0x30 + UInt8.ofNat digit.val

def text (number : DecimalString) : List UInt8 :=
  (number.first :: number.rest).map digitChar

/-- The number that digits add up to, behind those read before. -/
def valueFrom (value : Nat) (digits : List (Fin 10)) : Nat :=
  digits.foldl (fun value digit => value * 10 + digit.val) value

def value (number : DecimalString) : Nat :=
  valueFrom 0 (number.first :: number.rest)

end DecimalString

/-- A letter, and at most 30 letters or digits. -/
structure CdbKey where
  first : UInt8
  rest : List UInt8
  letter : isAlpha first = true
  alnum : ∀ ch, ch ∈ rest → isAlnum ch = true
  short : rest.length ≤ 30

/-- The characters of a key. -/
def CdbKey.text (key : CdbKey) : List UInt8 :=
  key.first :: key.rest

/-- Two keys that differ in letter case only have the same name. -/
def CdbKey.name (key : CdbKey) : List UInt8 :=
  key.text.map toLower

/-- What a CDB Assist reports. -/
inductive CdbReport where
  | voltage (set actual : DecimalString)
  | current (set actual : DecimalString)
  | switch (key : CdbKey) (on : Bool)
  | vref (number : DecimalString)

namespace CdbReport

def text : CdbReport → List UInt8
  | .voltage set actual =>
      set.text ++ ascii "mV/" ++ actual.text ++ ascii "mV"
  | .current set actual =>
      set.text ++ ascii "mA/" ++ actual.text ++ ascii "mA"
  | .switch key true => key.text ++ ascii ":on"
  | .switch key false => key.text ++ ascii ":off"
  | .vref number => ascii "vref=" ++ number.text ++ ascii "mV"

/-- The voltages of a report, if it has some. -/
def voltage? : CdbReport → Option (UInt32 × UInt32)
  | .voltage set actual =>
      some (UInt32.ofNat set.value, UInt32.ofNat actual.value)
  | _ => none

/-- The currents of a report, if it has some. -/
def current? : CdbReport → Option (UInt32 × UInt32)
  | .current set actual =>
      some (UInt32.ofNat set.value, UInt32.ofNat actual.value)
  | _ => none

/-- The reference voltage of a report, if it has one. -/
def vref? : CdbReport → Option UInt32
  | .vref number => some (UInt32.ofNat number.value)
  | _ => none

/-- Whether a report has a key on, if it is about that key. -/
def switch? (name : String) : CdbReport → Option Bool
  | .switch key on => if key.name = ascii name then some on else none
  | _ => none

end CdbReport

/-- What the last report about something says, if there is one. -/
def lastReported
    (about : CdbReport → Option α)
    (reports : List CdbReport)
    (before : α) :
    α :=
  (reports.filterMap about).getLast?.getD before

/-- The values after some reports: each as in the last report about it. -/
def CdbValues.reported
    (values : CdbValues)
    (reports : List CdbReport) :
    CdbValues :=
  let voltages :=
    lastReported CdbReport.voltage? reports
      (values.voltageSet, values.voltageActual)
  let currents :=
    lastReported CdbReport.current? reports
      (values.currentSet, values.currentActual)
  { currentActual := currents.2
    currentSet := currents.1
    voltageActual := voltages.2
    voltageSet := voltages.1
    vbat := lastReported (CdbReport.switch? "vbat") reports values.vbat
    btn :=
      #v[lastReported (CdbReport.switch? "btn1") reports values.btn[0],
        lastReported (CdbReport.switch? "btn2") reports values.btn[1],
        lastReported (CdbReport.switch? "btn3") reports values.btn[2]]
    vbus := lastReported (CdbReport.switch? "vbus") reports values.vbus
    vref := lastReported CdbReport.vref? reports values.vref }

/-- Whitespace that separates reports. -/
structure Gap where
  chars : List UInt8
  some_ : chars ≠ []
  spaces : ∀ ch, ch ∈ chars → isSpace ch = true

/-- Reports with whitespace in front of each. -/
def spacedText (spaced : List (Gap × CdbReport)) : List UInt8 :=
  spaced.flatMap fun report => report.1.chars ++ report.2.text

theorem lastReported_append
    (about : CdbReport → Option α)
    (earlier later : List CdbReport)
    (before : α) :
    lastReported about (earlier ++ later) before =
      lastReported about later (lastReported about earlier before) := by
  unfold lastReported
  rw [List.filterMap_append, List.getLast?_append]
  cases (later.filterMap about).getLast? <;> simp

/-- Reports behind others change the values that those have left. -/
theorem CdbValues.reported_append
    (values : CdbValues)
    (earlier later : List CdbReport) :
    values.reported (earlier ++ later) =
      (values.reported earlier).reported later := by
  simp [CdbValues.reported, lastReported_append]

theorem lastReported_singleton
    (about : CdbReport → Option α)
    (report : CdbReport)
    (before : α) :
    lastReported about [report] before = (about report).getD before := by
  unfold lastReported
  cases reported : about report <;> simp [reported]

/-! ## Reading pieces of a report -/

/-- From one parser to another over text in lower case. -/
def CdbAssist.Takes (cdb : CdbAssist) (text : List UInt8) (next : CdbAssist) :
    Prop :=
  text.foldlM cdbParserPush cdb = .ok next

namespace CdbAssist

theorem Takes.append
    {cdb middle next : CdbAssist}
    {before behind : List UInt8}
    (first : cdb.Takes before middle)
    (second : middle.Takes behind next) :
    cdb.Takes (before ++ behind) next := by
  unfold Takes at first second ⊢
  rw [List.foldlM_append, first]
  exact second

theorem Takes.cons
    {cdb middle next : CdbAssist}
    {ch : UInt8}
    {rest : List UInt8}
    (first : cdbParserPush cdb ch = .ok middle)
    (second : middle.Takes rest next) :
    cdb.Takes (ch :: rest) next := by
  unfold Takes at second ⊢
  rw [List.foldlM_cons, first]
  exact second

theorem Takes.one
    {cdb next : CdbAssist}
    {ch : UInt8}
    (pushed : cdbParserPush cdb ch = .ok next) :
    cdb.Takes [ch] next :=
  .cons pushed rfl

end CdbAssist

/-- The callback takes text as it is in lower case. -/
theorem pushAll_of_takes
    {cdb next : CdbAssist}
    {text : List UInt8}
    (takes : cdb.Takes (text.map toLower) next) :
    cdbParserPushAll cdb text = .ok next := by
  unfold CdbAssist.Takes at takes
  rw [List.foldlM_map] at takes
  exact takes

/-- Whitespace is none of the characters of a report. -/
theorem space_char :
    ∀ ch, isSpace ch = true →
      isDigit ch = false ∧ isAlpha ch = false ∧ isAlnum ch = false ∧
        ch ≠ 0x6d ∧ ch ≠ 0x76 ∧ ch ≠ 0x61 ∧ ch ≠ 0x2f ∧ ch ≠ 0x3a ∧
          ch ≠ 0x3d ∧ ch ≠ 0x6f ∧ ch ≠ 0x66 ∧ ch ≠ 0x6e :=
  forall_char (by decide +kernel)

theorem lower_space :
    ∀ ch, isSpace ch = true → toLower ch = ch :=
  forall_char (by decide +kernel)

/-- Whitespace has no case. -/
theorem lower_spaces
    {chars : List UInt8}
    (spaces : ∀ ch, ch ∈ chars → isSpace ch = true) :
    chars.map toLower = chars :=
  (List.map_congr_left fun ch member =>
    lower_space ch (spaces ch member)).trans (List.map_id chars)

/-- Whitespace belongs to no report, and begins none. -/
theorem push_space
    (cdb : CdbAssist)
    {ch : UInt8}
    (space : isSpace ch = true) :
    cdbParserPush cdb ch = .ok (cdb.enter .empty) := by
  obtain ⟨digit, alpha, alnum, m, v, a, slash, colon, equals, o, f, n⟩ :=
    space_char ch space
  cases state : cdb.state <;>
    simp only [cdbParserPush, state, digit, alpha, alnum, m, v, a, slash,
      colon, equals, o, f, n, Bool.false_eq_true, ↓reduceIte, decide_false,
      Bool.false_and]
  rw [CdbAssist.enter, ← state]

/-- Behind whitespace the parser is between reports. -/
theorem takes_spaces
    {cdb : CdbAssist}
    {chars : List UInt8}
    (some_ : chars ≠ [])
    (spaces : ∀ ch, ch ∈ chars → isSpace ch = true) :
    cdb.Takes chars (cdb.enter .empty) := by
  induction chars generalizing cdb with
  | nil =>
      exact absurd rfl some_
  | cons ch rest inductionHypothesis =>
      have first := push_space cdb (spaces ch List.mem_cons_self)
      refine .cons first ?_
      by_cases last : rest = []
      · rw [last]
        rfl
      · exact inductionHypothesis last
          fun ch member => spaces ch (List.mem_cons_of_mem _ member)

/-- What the digits of a number add up to in the parser. -/
theorem digit_step
    (value : Nat)
    (digit : Fin 10) :
    isDigit (DecimalString.digitChar digit) = true ∧
      UInt32.ofNat value * 10 + digitOf (DecimalString.digitChar digit) =
        UInt32.ofNat (value * 10 + digit.val) := by
  have codes :
      ∀ digit : Fin 10,
        isDigit (DecimalString.digitChar digit) = true ∧
          digitOf (DecimalString.digitChar digit) =
            UInt32.ofNat digit.val := by
    decide
  rw [(codes digit).2, UInt32.ofNat_add, UInt32.ofNat_mul]
  exact ⟨(codes digit).1, rfl⟩

/-- Digits that the parser counts one by one add up to their number. -/
theorem takes_counted
    (counting : Nat → CdbAssist)
    (counts :
      ∀ (value : Nat) (digit : Fin 10),
        cdbParserPush (counting value) (DecimalString.digitChar digit) =
          .ok (counting (value * 10 + digit.val)))
    (digits : List (Fin 10))
    (value : Nat) :
    (counting value).Takes (digits.map DecimalString.digitChar)
      (counting (DecimalString.valueFrom value digits)) := by
  induction digits generalizing value with
  | nil =>
      rfl
  | cons digit rest inductionHypothesis =>
      exact .cons (counts value digit)
        (inductionHypothesis (value * 10 + digit.val))

/-- The first number of a report, behind its first digit. -/
theorem takes_digits
    {state : CdbState}
    (counts : state = .num ∨ state = .keyNum)
    (digits : List (Fin 10))
    (cdb : CdbAssist)
    (value : Nat) :
    CdbAssist.Takes { cdb with num0 := UInt32.ofNat value, state := state }
      (digits.map DecimalString.digitChar)
      { cdb with
        num0 := UInt32.ofNat (DecimalString.valueFrom value digits)
        state := state } := by
  refine takes_counted
    (fun value =>
      { cdb with num0 := UInt32.ofNat value, state := state })
    (fun value digit => ?_) digits value
  obtain ⟨isDigit, sum⟩ := digit_step value digit
  rcases counts with rfl | rfl <;>
    simp only [cdbParserPush, isDigit, ↓reduceIte, sum]

/-- The second number of a report. -/
theorem takes_lastDigits
    (digits : List (Fin 10))
    (cdb : CdbAssist)
    (value : Nat) :
    CdbAssist.Takes
      { cdb with num1 := UInt32.ofNat value, state := .numMXSlash }
      (digits.map DecimalString.digitChar)
      { cdb with
        num1 := UInt32.ofNat (DecimalString.valueFrom value digits)
        state := .numMXSlash } := by
  refine takes_counted
    (fun value =>
      { cdb with num1 := UInt32.ofNat value, state := .numMXSlash })
    (fun value digit => ?_) digits value
  obtain ⟨isDigit, sum⟩ := digit_step value digit
  simp only [cdbParserPush, isDigit, ↓reduceIte, sum]

/-- A number at the beginning of a report or of a value. -/
theorem takes_number
    {before counting : CdbState}
    (begins :
      before = .empty ∧ counting = .num ∨
        before = .keyValue ∧ counting = .keyNum)
    (number : DecimalString)
    (cdb : CdbAssist) :
    CdbAssist.Takes { cdb with state := before } number.text
      { cdb with num0 := UInt32.ofNat number.value, state := counting } := by
  obtain ⟨isDigit, first⟩ := digit_step 0 number.first
  rw [Nat.zero_mul, Nat.zero_add] at first
  have zero :
      UInt32.ofNat 0 * 10 +
          digitOf (DecimalString.digitChar number.first) =
        digitOf (DecimalString.digitChar number.first) := by
    simp
  rw [zero] at first
  have value :
      number.value =
        DecimalString.valueFrom number.first.val number.rest := by
    simp [DecimalString.value, DecimalString.valueFrom]
  rw [value]
  refine .cons ?_ (takes_digits ?_ number.rest cdb number.first.val)
  · rcases begins with ⟨rfl, rfl⟩ | ⟨rfl, rfl⟩ <;>
      simp only [cdbParserPush, isDigit, ↓reduceIte, first]
  · rcases begins with ⟨_, rfl⟩ | ⟨_, rfl⟩
    · exact .inl rfl
    · exact .inr rfl

/-! ## Reading keys -/

/-- A letter or digit in lower case is neither NUL nor anything else. -/
theorem lower_alnum :
    ∀ ch, isAlnum ch = true →
      isAlnum (toLower ch) = true ∧ toLower ch ≠ 0 :=
  forall_char (by decide +kernel)

theorem lower_alpha :
    ∀ ch, isAlpha ch = true →
      isAlpha (toLower ch) = true ∧ isDigit (toLower ch) = false ∧
        isAlnum ch = true :=
  forall_char (by decide +kernel)

/-- Behind the characters of a key, the next one is stored. -/
theorem take_set_key
    (stored : Vector UInt8 32)
    {name : List UInt8}
    (stores : stored.toList.take name.length = name)
    (inside : name.length < 32)
    (ch : UInt8) :
    (stored.set name.length ch inside).toList =
      name ++ ch :: stored.toList.drop (name.length + 1) := by
  have within : name.length < stored.toList.length := by
    rwa [Vector.length_toList]
  rw [Vector.toList_set, List.set_eq_take_append_cons_drop,
    if_pos within, stores]

/-- The characters of a key behind those that have been stored. -/
theorem takes_keyRest
    (rest : List UInt8)
    (alnum : ∀ ch, ch ∈ rest → isAlnum ch = true)
    (cdb : CdbAssist)
    (stored : Vector UInt8 32)
    (name : List UInt8)
    (stores : stored.toList.take name.length = name)
    (short : name.length + rest.length ≤ 31) :
    ∃ last : Vector UInt8 32,
      CdbAssist.Takes
        { cdb with key := stored, keyIdx := name.length, state := .key }
        rest
        { cdb with
          key := last
          keyIdx := (name ++ rest).length
          state := .key } ∧
        last.toList.take (name ++ rest).length = name ++ rest := by
  induction rest generalizing stored name with
  | nil =>
      refine ⟨stored, ?_, ?_⟩
      · rw [List.append_nil]
        rfl
      · rwa [List.append_nil]
  | cons ch rest inductionHypothesis =>
      rw [List.length_cons] at short
      have inside : name.length < 32 := by omega
      have one : (name ++ [ch]).length = name.length + 1 := by
        rw [List.length_append, List.length_singleton]
      have next :
          (stored.set name.length ch inside).toList.take
              (name ++ [ch]).length =
            name ++ [ch] := by
        rw [take_set_key stored stores,
          List.append_cons name ch (stored.toList.drop _)]
        exact List.take_left
      obtain ⟨last, takes, storesAll⟩ := inductionHypothesis
        (fun ch member => alnum ch (List.mem_cons_of_mem _ member))
        (stored.set name.length ch inside) (name ++ [ch]) next
        (by rw [one]; omega)
      rw [List.append_assoc, List.singleton_append] at takes storesAll
      rw [one] at takes
      refine ⟨last, .cons ?_ takes, storesAll⟩
      have first := alnum ch List.mem_cons_self
      simp only [cdbParserPush, first, ↓reduceIte, CdbAssist.storeKey,
        inside, ↓reduceDIte]
      rfl

/-- A key in lower case, behind which it is not ended yet. -/
theorem takes_keyName
    (key : CdbKey)
    (cdb : CdbAssist) :
    ∃ stored : Vector UInt8 32,
      CdbAssist.Takes { cdb with state := .empty } key.name
        { cdb with
          key := stored
          keyIdx := key.name.length
          state := .key } ∧
        stored.toList.take key.name.length = key.name := by
  obtain ⟨letter, notDigit, _⟩ := lower_alpha key.first key.letter
  have restAlnum :
      ∀ ch, ch ∈ key.rest.map toLower → isAlnum ch = true := by
    intro ch member
    obtain ⟨upper, isRest, rfl⟩ := List.mem_map.mp member
    exact (lower_alnum upper (key.alnum upper isRest)).1
  have first :
      (cdb.key.set 0 (toLower key.first)).toList.take 1 =
        [toLower key.first] := by
    have nothing : cdb.key.toList.take ([] : List UInt8).length = [] := rfl
    exact congrArg (List.take 1)
      (take_set_key cdb.key nothing (by decide) (toLower key.first))
  obtain ⟨stored, takes, stores⟩ :=
    takes_keyRest (key.rest.map toLower) restAlnum cdb
      (cdb.key.set 0 (toLower key.first)) [toLower key.first] first
      (by
        have short := key.short
        rw [List.length_singleton, List.length_map]
        omega)
  refine ⟨stored, .cons ?_ takes, stores⟩
  simp only [cdbParserPush, notDigit, letter, Bool.false_eq_true, ↓reduceIte]
  rfl

/-- A key and the character that ends it. -/
theorem takes_key
    (key : CdbKey)
    (cdb : CdbAssist)
    {ending : UInt8}
    {awaiting : CdbState}
    (ends :
      ending = 0x3a ∧ awaiting = .keyBool ∨
        ending = 0x3d ∧ awaiting = .keyValue) :
    ∃ stored : Vector UInt8 32,
      CdbAssist.Takes { cdb with state := .empty } (key.name ++ [ending])
        { cdb with
          key := stored
          keyIdx := key.name.length
          state := awaiting } ∧
        cstr stored.toList = key.name := by
  obtain ⟨stored, takes, stores⟩ := takes_keyName key cdb
  have inside : key.name.length < 32 := by
    have short := key.short
    simp only [CdbKey.name, CdbKey.text, List.length_map, List.length_cons]
    omega
  refine ⟨stored.set key.name.length 0 inside, takes.append (.cons ?_ rfl), ?_⟩
  · rcases ends with ⟨rfl, rfl⟩ | ⟨rfl, rfl⟩ <;>
      simp only [cdbParserPush, CdbAssist.storeKey, inside, ↓reduceDIte] <;>
      rfl
  · have noNul : ∀ ch, ch ∈ key.name → decide (ch ≠ 0) = true := by
      intro ch member
      obtain ⟨upper, isChar, rfl⟩ := List.mem_map.mp member
      rcases List.mem_cons.mp isChar with rfl | isRest
      · exact decide_eq_true
          (lower_alnum _ (lower_alpha _ key.letter).2.2).2
      · exact decide_eq_true (lower_alnum _ (key.alnum upper isRest)).2
    rw [take_set_key stored stores, cstr,
      List.takeWhile_append_of_pos noNul]
    simp

/-! ## Reading reports -/

/-- A parser between reports reads some text, and then has some values. -/
def CdbAssist.Decodes
    (cdb : CdbAssist)
    (text : List UInt8)
    (values : CdbValues) :
    Prop :=
  ∃ next,
    CdbAssist.Takes { cdb with state := .empty } (text.map toLower) next ∧
      next.state = .empty ∧ next.values = values

/-- The buttons of the board, one by one. -/
theorem vector_btn
    (btn : Vector Bool 3) :
    #v[btn[0], btn[1], btn[2]] = btn := by
  apply Vector.ext
  intro index inside
  match index, inside with
  | 0, _ => rfl
  | 1, _ => rfl
  | 2, _ => rfl

theorem vector_set_btn
    (btn : Vector Bool 3)
    (on : Bool) :
    btn.set 0 on = #v[on, btn[1], btn[2]] ∧
      btn.set 1 on = #v[btn[0], on, btn[2]] ∧
      btn.set 2 on = #v[btn[0], btn[1], on] := by
  rw [← vector_btn btn]
  exact ⟨rfl, rfl, rfl⟩

/-- The values behind a report about a key of some name. -/
def CdbValues.switched
    (values : CdbValues)
    (name : List UInt8)
    (on : Bool) :
    CdbValues :=
  { values with
    vbat := if name = ascii "vbat" then on else values.vbat
    btn :=
      #v[if name = ascii "btn1" then on else values.btn[0],
        if name = ascii "btn2" then on else values.btn[1],
        if name = ascii "btn3" then on else values.btn[2]]
    vbus := if name = ascii "vbus" then on else values.vbus }

theorem reported_switch
    (values : CdbValues)
    (key : CdbKey)
    (on : Bool) :
    values.reported [.switch key on] = values.switched key.name on := by
  have last :
      ∀ name before,
        lastReported (CdbReport.switch? name) [.switch key on] before =
          if key.name = ascii name then on else before := by
    intro name before
    rw [lastReported_singleton, CdbReport.switch?]
    split <;> rfl
  unfold CdbValues.reported CdbValues.switched
  rw [last "vbat", last "btn1", last "btn2", last "btn3", last "vbus"]
  rfl

theorem reported_nil
    (values : CdbValues) :
    values.reported [] = values := by
  unfold CdbValues.reported
  rw [show
    #v[lastReported (CdbReport.switch? "btn1") [] values.btn[0],
      lastReported (CdbReport.switch? "btn2") [] values.btn[1],
      lastReported (CdbReport.switch? "btn3") [] values.btn[2]] =
      values.btn from vector_btn values.btn]
  rfl

/-- The values behind a report that is not about a key. -/
theorem reported_numbers
    (values : CdbValues)
    (report : CdbReport)
    (noSwitch : ∀ name, report.switch? name = none) :
    values.reported [report] =
      { values with
        currentActual :=
          (report.current?.getD (values.currentSet, values.currentActual)).2
        currentSet :=
          (report.current?.getD (values.currentSet, values.currentActual)).1
        voltageActual :=
          (report.voltage?.getD (values.voltageSet, values.voltageActual)).2
        voltageSet :=
          (report.voltage?.getD (values.voltageSet, values.voltageActual)).1
        vref := report.vref?.getD values.vref } := by
  have last :
      ∀ name before,
        lastReported (CdbReport.switch? name) [report] before = before := by
    intro name before
    rw [lastReported_singleton, noSwitch]
    rfl
  unfold CdbValues.reported
  rw [last "vbat", last "btn1", last "btn2", last "btn3", last "vbus",
    vector_btn]
  simp only [lastReported_singleton]

/-- The name of a key decides which value its report is about. -/
theorem cdbParserBool_switched
    (cdb : CdbAssist)
    (name : List UInt8)
    (on : Bool) :
    cdbParserBool cdb name on =
      .ok { cdb with values := cdb.values.switched name on } := by
  obtain ⟨first, second, third⟩ := vector_set_btn cdb.values.btn on
  have same := vector_btn cdb.values.btn
  by_cases known : name ∈ szKeys
  · simp only [szKeys, List.mem_cons, List.not_mem_nil, or_false] at known
    rcases known with rfl | rfl | rfl | rfl | rfl
    · simp +decide only [CdbValues.switched, ↓reduceIte, same]
      rfl
    · simp +decide only [CdbValues.switched, ↓reduceIte, ← first]
      rfl
    · simp +decide only [CdbValues.switched, ↓reduceIte, ← second]
      rfl
    · simp +decide only [CdbValues.switched, ↓reduceIte, ← third]
      rfl
    · simp +decide only [CdbValues.switched, ↓reduceIte, same]
      rfl
  · have none : szKeys.findIdx (· = name) = 5 := by
      rw [List.findIdx_eq_length_of_false]
      · rfl
      · intro key member
        exact decide_eq_false fun isName => known (isName ▸ member)
    simp only [szKeys, List.mem_cons, List.not_mem_nil, or_false, not_or]
      at known
    obtain ⟨vbat, btn1, btn2, btn3, vbus⟩ := known
    rw [cdbParserBool, none]
    simp only [CdbValues.switched, vbat, btn1, btn2, btn3, vbus, ↓reduceIte,
      same]

/-- The digits of a number have no case. -/
theorem lower_number
    (number : DecimalString) :
    number.text.map toLower = number.text := by
  have digits :
      ∀ digit : Fin 10,
        toLower (DecimalString.digitChar digit) =
          DecimalString.digitChar digit := by
    decide
  rw [DecimalString.text, List.map_map]
  exact List.map_congr_left fun digit _ => digits digit

/-- Two numbers with their units, of which the parser recognises the first. -/
theorem takes_numbers
    (set actual : DecimalString)
    (cdb : CdbAssist)
    {unit : UInt8}
    {volt : Bool}
    (isUnit : unit = 0x76 ∧ volt = true ∨ unit = 0x61 ∧ volt = false) :
    CdbAssist.Takes { cdb with state := .empty }
      (set.text ++ [0x6d, unit, 0x2f] ++ actual.text ++ [0x6d])
      { cdb with
        num0 := UInt32.ofNat set.value
        num1 := UInt32.ofNat actual.value
        voltage := volt
        state := .numNumM } := by
  have slash :
      CdbAssist.Takes
        { cdb with num0 := UInt32.ofNat set.value, state := .num }
        [0x6d, unit, 0x2f]
        { cdb with
          num0 := UInt32.ofNat set.value
          num1 := UInt32.ofNat 0
          voltage := volt
          state := .numMXSlash } := by
    rcases isUnit with ⟨rfl, rfl⟩ | ⟨rfl, rfl⟩ <;> rfl
  have second :=
    takes_lastDigits (actual.first :: actual.rest)
      { cdb with num0 := UInt32.ofNat set.value, voltage := volt } 0
  exact (((takes_number (.inl ⟨rfl, rfl⟩) set cdb).append slash).append
    second).append rfl

/-- What is taken in lower case decodes a text. -/
theorem CdbAssist.Decodes.of_takes
    {cdb next : CdbAssist}
    {text lower : List UInt8}
    {values : CdbValues}
    (takes : CdbAssist.Takes { cdb with state := .empty } lower next)
    (isLower : text.map toLower = lower)
    (ends : next.state = .empty)
    (has : next.values = values) :
    cdb.Decodes text values :=
  ⟨next, isLower ▸ takes, ends, has⟩

/-- The key of a switch, with what follows it. -/
theorem takes_switch
    (key : CdbKey)
    (on : Bool)
    (cdb : CdbAssist) :
    ∃ stored : Vector UInt8 32,
      CdbAssist.Takes { cdb with state := .empty }
        (key.name ++ [0x3a] ++
          if on then ascii "on" else ascii "off")
        { cdb with
          key := stored
          keyIdx := key.name.length
          state := .empty
          values := cdb.values.switched key.name on } := by
  obtain ⟨stored, takes, isName⟩ := takes_key key cdb (.inl ⟨rfl, rfl⟩)
  refine ⟨stored, takes.append ?_⟩
  cases on with
  | true =>
      refine .cons rfl (.one ?_)
      simp only [cdbParserPush, CdbAssist.enter, isName,
        cdbParserBool_switched]
      rfl
  | false =>
      refine .cons rfl (.cons rfl (.one ?_))
      simp only [cdbParserPush, CdbAssist.enter, isName,
        cdbParserBool_switched]
      rfl

/-- The key before the reference voltage. -/
def vrefKey : CdbKey where
  first := 0x76
  rest := [0x72, 0x65, 0x66]
  letter := by decide
  alnum := List.all_eq_true.mp (by decide)
  short := by decide

/-- One report. -/
theorem decodes_report
    (cdb : CdbAssist)
    (report : CdbReport) :
    cdb.Decodes report.text (cdb.values.reported [report]) := by
  cases report with
  | voltage set actual =>
      let numbered : CdbAssist :=
        { cdb with
          num0 := UInt32.ofNat set.value
          num1 := UInt32.ofNat actual.value
          voltage := true
          state := .numNumM }
      have numbers := takes_numbers set actual cdb (.inl ⟨rfl, rfl⟩)
      have last :
          numbered.Takes [0x76]
            ((cdbParserVoltage numbered numbered.num0 numbered.num1).enter
              .empty) :=
        .one rfl
      refine .of_takes (numbers.append last) ?_ rfl ?_
      · simp only [CdbReport.text, List.map_append, lower_number,
          List.append_assoc]
        rfl
      · exact (reported_numbers cdb.values (.voltage set actual)
          fun _ => rfl).symm
  | current set actual =>
      let numbered : CdbAssist :=
        { cdb with
          num0 := UInt32.ofNat set.value
          num1 := UInt32.ofNat actual.value
          voltage := false
          state := .numNumM }
      have numbers := takes_numbers set actual cdb (.inr ⟨rfl, rfl⟩)
      have last :
          numbered.Takes [0x61]
            ((cdbParserCurrent numbered numbered.num0 numbered.num1).enter
              .empty) :=
        .one rfl
      refine .of_takes (numbers.append last) ?_ rfl ?_
      · simp only [CdbReport.text, List.map_append, lower_number,
          List.append_assoc]
        rfl
      · exact (reported_numbers cdb.values (.current set actual)
          fun _ => rfl).symm
  | switch key on =>
      obtain ⟨stored, takes⟩ := takes_switch key on cdb
      refine .of_takes takes ?_ rfl (reported_switch _ key on).symm
      cases on <;>
        simp only [CdbReport.text, List.map_append, List.append_assoc] <;>
        rfl
  | vref number =>
      obtain ⟨stored, takes, _⟩ := takes_key vrefKey cdb (.inr ⟨rfl, rfl⟩)
      let keyed : CdbAssist :=
        { cdb with key := stored, keyIdx := vrefKey.name.length }
      let numbered : CdbAssist :=
        { keyed with
          num0 := UInt32.ofNat number.value
          state := .keyNumM }
      have counts := takes_number (.inr ⟨rfl, rfl⟩) number keyed
      have unit : CdbAssist.Takes
          { numbered with state := .keyNum } [0x6d, 0x76]
          ((cdbParserVref numbered numbered.num0).enter .empty) :=
        .cons rfl (.one rfl)
      refine .of_takes ((takes.append counts).append unit) ?_ rfl ?_
      · simp only [CdbReport.text, List.map_append, lower_number,
          List.append_assoc]
        rfl
      · exact (reported_numbers cdb.values (.vref number)
          fun _ => rfl).symm

/-! ## Reading streams of reports -/

/-- Reports with whitespace in front of each. -/
theorem decodes_spaced
    (spaced : List (Gap × CdbReport))
    (cdb : CdbAssist) :
    ∃ next,
      cdb.Takes ((spacedText spaced).map toLower) next ∧
        next.values = cdb.values.reported (spaced.map Prod.snd) := by
  induction spaced generalizing cdb with
  | nil =>
      exact ⟨cdb, rfl, (reported_nil cdb.values).symm⟩
  | cons first rest inductionHypothesis =>
      obtain ⟨gap, report⟩ := first
      have spaces : cdb.Takes (gap.chars.map toLower) (cdb.enter .empty) := by
        rw [lower_spaces gap.spaces]
        exact takes_spaces gap.some_ gap.spaces
      obtain ⟨middle, takes, _, values⟩ := decodes_report cdb report
      obtain ⟨next, later, reported⟩ := inductionHypothesis middle
      refine ⟨next, ?_, ?_⟩
      · simp only [spacedText, List.flatMap_cons, List.map_append]
        exact (spaces.append takes).append later
      · rw [reported, values, ← CdbValues.reported_append]
        rfl

/--
Whatever a parser has read before, and however the bytes are split across
reads: after reports in any letter case, each with whitespace in front of it,
each value is that of the last report about it, or the same as before.
-/
theorem cdbAssist_decodes
    (cdb : CdbAssist)
    (spaced : List (Gap × CdbReport))
    (behind : List UInt8)
    (spaces : ∀ ch, ch ∈ behind → isSpace ch = true)
    (portions : List CdbPortion)
    (arrive :
      (portionsText portions).map toLower =
        (spacedText spaced ++ behind).map toLower) :
    ∃ next,
      cdbAssistReads cdb portions = .ok next ∧
        next.values = cdb.values.reported (spaced.map Prod.snd) := by
  obtain ⟨middle, takes, values⟩ := decodes_spaced spaced cdb
  have reads :
      ∀ next,
        cdb.Takes ((spacedText spaced ++ behind).map toLower) next →
        cdbAssistReads cdb portions = .ok next := by
    intro next takesAll
    rw [cdbAssistReads_eq]
    rw [← arrive] at takesAll
    exact pushAll_of_takes takesAll
  rw [List.map_append, lower_spaces spaces] at reads
  by_cases none : behind = []
  · rw [none, List.append_nil] at reads
    exact ⟨middle, reads middle takes, values⟩
  · exact ⟨middle.enter .empty,
      reads _ (takes.append (takes_spaces none spaces)), values⟩

/-- A voltage, an unknown key and the battery, in mixed case. -/
def exampleReports : List (Gap × CdbReport) :=
  [(⟨[0x20], by decide, List.all_eq_true.mp (by decide)⟩,
      .voltage ⟨5, [0]⟩ ⟨4, [9]⟩),
    (⟨[0x0d, 0x0a], by decide, List.all_eq_true.mp (by decide)⟩,
      .switch
        ⟨0x4c, [0x65, 0x64, 0x31], by decide,
          List.all_eq_true.mp (by decide), by decide⟩
        true),
    (⟨[0x0a], by decide, List.all_eq_true.mp (by decide)⟩,
      .switch
        ⟨0x56, [0x42, 0x61, 0x74], by decide,
          List.all_eq_true.mp (by decide), by decide⟩
        true)]

/-- Three reads of these reports. -/
def examplePortions : List CdbPortion :=
  [⟨ascii " 50MV/49m", by decide⟩, ⟨ascii "v\r\nled1:O", by decide⟩,
    ⟨ascii "N\nvBAT:oN", by decide⟩]

/-- The parser takes up the voltage and the battery. -/
theorem exampleReports_decoded :
    ∃ next,
      cdbAssistReads .zero examplePortions = .ok next ∧
        next.values =
          { CdbAssist.zero.values with
            voltageSet := 50
            voltageActual := 49
            vbat := true } := by
  obtain ⟨next, reads, values⟩ :=
    cdbAssist_decodes .zero exampleReports [] nofun examplePortions rfl
  exact ⟨next, reads, values.trans (by decide +kernel)⟩

end Cdba
