import Mathlib.Algebra.Group.Int.Defs
import Mathlib.Algebra.GroupWithZero.Nat
import Mathlib.Data.List.TakeWhile

namespace Cdba

/-!
# C strings

The string functions the program uses, on byte strings without their
terminating NUL and on memory that may extend beyond an object.
-/

/-- The bytes of a C string before its terminating NUL. -/
abbrev CString :=
  List UInt8

/-- Memory from some address on: an object followed by whatever lies behind it. -/
def memoryAt
    (object : List UInt8)
    (beyond : Nat → UInt8) :
    Nat → UInt8 :=
  fun offset => object[offset]?.getD (beyond offset)

/-- `len` bytes of memory. -/
def readMemory
    (memory : Nat → UInt8)
    (len : Nat) :
    List UInt8 :=
  (List.range len).map memory

@[simp] theorem length_readMemory
    (memory : Nat → UInt8)
    (len : Nat) :
    (readMemory memory len).length = len := by
  simp [readMemory]

theorem readMemory_take
    {memory : Nat → UInt8}
    {len longer : Nat}
    (shorter : len ≤ longer) :
    (readMemory memory longer).take len = readMemory memory len := by
  rw [readMemory, ← List.map_take, List.take_range, Nat.min_eq_left shorter]
  rfl

/-- Within the object, reading memory reads the object. -/
theorem readMemory_memoryAt
    {object : List UInt8}
    {len : Nat}
    (inside : len ≤ object.length)
    (beyond : Nat → UInt8) :
    readMemory (memoryAt object beyond) len = object.take len := by
  apply List.ext_getElem
  · simp [inside]
  · intro offset short shortTake
    rw [length_readMemory] at short
    have within : offset < object.length := Nat.lt_of_lt_of_le short inside
    simp [readMemory, memoryAt, within]

/-- `!strcmp(string, memory)` -/
def strcmpEq (string : CString) (memory : Nat → UInt8) : Bool :=
  readMemory memory string.length == string &&
    memory string.length == 0

/-- `!strncmp(string, memory, len)`: equal up to `len` bytes or the NUL. -/
def strncmpEq
    (string : CString)
    (memory : Nat → UInt8)
    (len : Nat) :
    Bool :=
  if len ≤ string.length then
    readMemory memory len == string.take len
  else
    strcmpEq string memory

/-- Strings without a NUL in them are compared as a whole. -/
theorem strcmpEq_name
    {string other : CString}
    (noNul : 0 ∉ string)
    (otherNoNul : 0 ∉ other)
    (beyond : Nat → UInt8) :
    strcmpEq string (memoryAt (other ++ [0]) beyond) = (string == other) := by
  rw [Bool.eq_iff_iff]
  simp only [strcmpEq, Bool.and_eq_true, beq_iff_eq]
  constructor
  · rintro ⟨bytes, terminator⟩
    rcases Nat.lt_or_ge other.length string.length with longer | shorter
    · -- The string would contain the NUL behind the other one.
      have nul : string[other.length]? = some 0 := by
        rw [← bytes]
        simp [readMemory, memoryAt, longer]
      exact (noNul (List.mem_of_getElem? nul)).elim
    · rw [readMemory_memoryAt (by simp; omega),
        List.take_append_of_le_length shorter] at bytes
      rcases Nat.lt_or_ge string.length other.length with inside | whole
      · -- The other one would contain the NUL behind the string.
        have nul : other[string.length] = 0 := by
          simpa [memoryAt, List.getElem_append_left inside,
            Nat.lt_succ_of_lt inside] using terminator
        exact (otherNoNul (nul ▸ List.getElem_mem inside)).elim
      · rw [List.take_of_length_le whole] at bytes
        exact bytes.symm
  · rintro rfl
    constructor
    · rw [readMemory_memoryAt (by simp), List.take_left]
    · simp [memoryAt]

/-- With the NUL, `strncmp()` compares them as a whole as well. -/
theorem strncmpEq_name
    {string other : CString}
    (noNul : 0 ∉ string)
    (otherNoNul : 0 ∉ other)
    (beyond : Nat → UInt8) :
    strncmpEq string (memoryAt (other ++ [0]) beyond) (other.length + 1) =
      (string == other) := by
  unfold strncmpEq
  split
  · rename_i longer
    have different : string ≠ other := by
      rintro rfl
      omega
    rw [readMemory_memoryAt (by simp), List.take_of_length_le (by simp)]
    simp only [beq_eq_false_iff_ne.mpr different, beq_eq_false_iff_ne]
    intro same
    have nul : 0 ∈ string.take (other.length + 1) := by
      rw [← same]
      simp
    exact noNul (List.mem_of_mem_take nul)
  · exact strcmpEq_name noNul otherNoNul beyond

/-- `isspace()` in the C locale. -/
def isSpace (char : UInt8) : Bool :=
  char == 0x20 || (0x09 ≤ char && char ≤ 0x0d)

/-- `isdigit()` -/
def isDigit (char : UInt8) : Bool :=
  0x30 ≤ char && char ≤ 0x39

/-- `isalpha()` in the C locale. -/
def isAlpha (char : UInt8) : Bool :=
  (0x41 ≤ char && char ≤ 0x5a) || (0x61 ≤ char && char ≤ 0x7a)

/-- `isalnum()` in the C locale. -/
def isAlnum (char : UInt8) : Bool :=
  isAlpha char || isDigit char

/-- `isprint()` in the C locale. -/
def isPrint (char : UInt8) : Bool :=
  0x20 ≤ char && char ≤ 0x7e

/-- `tolower()` in the C locale. -/
def toLower (char : UInt8) : UInt8 :=
  if 0x41 ≤ char && char ≤ 0x5a then char + 0x20 else char

/-- What can be checked for each code holds for every character. -/
theorem forall_char
    {holds : UInt8 → Prop}
    (codes : ∀ code : Fin 256, holds (UInt8.ofNat code.val))
    (char : UInt8) :
    holds char := by
  have here := codes ⟨char.toNat, char.toNat_lt⟩
  rwa [UInt8.ofNat_toNat] at here

/-- The value of a hexadecimal digit. -/
def hexDigit? (char : UInt8) : Option Nat :=
  if 0x30 ≤ char && char ≤ 0x39 then
    some (char.toNat - 0x30)
  else if 0x41 ≤ char && char ≤ 0x46 then
    some (char.toNat - 0x41 + 10)
  else if 0x61 ≤ char && char ≤ 0x66 then
    some (char.toNat - 0x61 + 10)
  else
    none

/-- The value of the longest run of hexadecimal digits. -/
def hexValue : List UInt8 → Nat → Nat
  | [], value => value
  | char :: rest, value =>
      match hexDigit? char with
      | some digit => hexValue rest (value * 16 + digit)
      | none => value

/-- Skip `0x` or `0X` when a hexadecimal digit follows. -/
def skipHexPrefix (string : CString) : CString :=
  match string with
  | zero :: x :: digit :: rest =>
      if zero == 0x30 && (x == 0x78 || x == 0x58) &&
          (hexDigit? digit).isSome then
        digit :: rest
      else
        string
  | _ => string

/-- `strtol(string, NULL, 16)` with a 64-bit `long`, saturating on overflow. -/
def strtol16 (string : CString) : Int :=
  let string := string.dropWhile isSpace
  let negative := string.head? == some 0x2d
  let string :=
    if negative || string.head? == some 0x2b then
      string.drop 1
    else
      string
  let magnitude := hexValue (skipHexPrefix string) 0
  if negative then
    max (-(magnitude : Int)) (-(2 : Int) ^ 63)
  else
    min (magnitude : Int) ((2 : Int) ^ 63 - 1)

/-- The value of the longest run of digits below a base of at most 16. -/
def digitsValue (base : Nat) : List UInt8 → Nat → Nat
  | [], value => value
  | char :: rest, value =>
      match (hexDigit? char).filter (· < base) with
      | some digit => digitsValue base rest (value * base + digit)
      | none => value

/-- The base that base 0 stands for, and the digits behind its prefix. -/
def detectBase (string : CString) : Nat × CString :=
  let digits := skipHexPrefix string
  if digits ≠ string then
    (16, digits)
  else if string.head? = some 0x30 then
    (8, string)
  else
    (10, string)

/--
`strtoul(string, NULL, base)` with a 64-bit `unsigned long`, for base 0 and 10:
saturating on overflow, and negated modulo `2^64` behind a minus sign.
-/
def strtoul (base : Nat) (string : CString) : Nat :=
  let string := string.dropWhile isSpace
  let negative := string.head? == some 0x2d
  let string :=
    if negative || string.head? == some 0x2b then
      string.drop 1
    else
      string
  let (base, digits) := if base = 0 then detectBase string else (base, string)
  let magnitude := digitsValue base digits 0
  if 2 ^ 64 ≤ magnitude then
    2 ^ 64 - 1
  else if negative then
    (2 ^ 64 - magnitude) % 2 ^ 64
  else
    magnitude

/-- Conversion of an integer to `int`, which wraps at 32 bits. -/
def toInt32 (value : Int) : Int :=
  (value + 2 ^ 31) % 2 ^ 32 - 2 ^ 31

/-! ## Searching for a character -/

section Separator

variable {α : Type} [DecidableEq α] {separator : α}

/-- Nothing in front of the first separator is one. -/
theorem not_mem_takeWhile_ne
    (text : List α) :
    separator ∉ text.takeWhile (· ≠ separator) := by
  intro member
  simpa using List.mem_takeWhile_imp member

theorem all_ne_of_not_mem
    {text : List α}
    (ends : separator ∉ text) :
    ∀ ch, ch ∈ text → decide (ch ≠ separator) = true :=
  fun _ member => decide_eq_true fun same => ends (same ▸ member)

theorem takeWhile_ne_eq_self
    {text : List α}
    (ends : separator ∉ text) :
    text.takeWhile (· ≠ separator) = text :=
  List.takeWhile_eq_self_iff.mpr (all_ne_of_not_mem ends)

/-- A search goes past a text without a separator. -/
theorem takeWhile_ne_append
    {front : List α}
    (ends : separator ∉ front)
    (rest : List α) :
    (front ++ rest).takeWhile (· ≠ separator) =
      front ++ rest.takeWhile (· ≠ separator) :=
  List.takeWhile_append_of_pos (all_ne_of_not_mem ends)

theorem dropWhile_ne_append
    {front : List α}
    (ends : separator ∉ front)
    (rest : List α) :
    (front ++ rest).dropWhile (· ≠ separator) =
      rest.dropWhile (· ≠ separator) :=
  List.dropWhile_append_of_pos (all_ne_of_not_mem ends)

/-- A search that ends with the text has passed no separator. -/
theorem not_mem_of_dropWhile_ne
    {text : List α}
    (passed : text.dropWhile (· ≠ separator) = []) :
    separator ∉ text := by
  intro member
  have other := List.dropWhile_eq_nil_iff.mp passed separator member
  simp at other

/-- A search that ends within the text is at a separator. -/
theorem eq_append_of_dropWhile_ne
    {text rest : List α}
    {ch : α}
    (found : text.dropWhile (· ≠ separator) = ch :: rest) :
    text = text.takeWhile (· ≠ separator) ++ separator :: rest := by
  have stopped := List.head?_dropWhile_not (· ≠ separator) text
  rw [found] at stopped
  have isSeparator : ch = separator := by simpa using stopped
  rw [isSeparator] at found
  rw [← found, List.takeWhile_append_dropWhile]

end Separator

/-- The C string at the start of a buffer. -/
def cstr (bytes : List UInt8) : CString :=
  bytes.takeWhile (· ≠ 0)

theorem not_mem_cstr (bytes : List UInt8) : 0 ∉ cstr bytes :=
  not_mem_takeWhile_ne bytes

/-- A buffer without a NUL is the C string in it. -/
theorem cstr_eq_self
    {bytes : List UInt8}
    (noNul : 0 ∉ bytes) :
    cstr bytes = bytes :=
  takeWhile_ne_eq_self noNul

/-- The characters of a string literal of the source. -/
def ascii (literal : String) : CString :=
  literal.toList.map fun char => UInt8.ofNat char.toNat

end Cdba
