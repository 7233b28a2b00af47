import Mathlib.Data.List.Forall2
import Mathlib.Tactic.ByContra
import Cdba.Libc

/-!
# Percent-encoding

Texts in which a byte is written as itself or as a percent sign and two
hexadecimal digits.  Which bytes may end such a text is a parameter: the
*graphic* bytes go on with it.
-/

namespace PercentEncoding

open Cdba (hexDigit?)

variable {graphic : UInt8 → Bool}

/-- A byte and one way to write it. -/
inductive Writes (graphic : UInt8 → Bool) : UInt8 → List UInt8 → Prop where
  | itself
      (byte : UInt8)
      (shown : graphic byte = true)
      (plain : byte ≠ 0x25) :
      Writes graphic byte [byte]
  | escape
      (high low : UInt8)
      (highValue lowValue : Nat)
      (highDigit : hexDigit? high = some highValue)
      (lowDigit : hexDigit? low = some lowValue) :
      Writes graphic (UInt8.ofNat (16 * highValue + lowValue))
        [0x25, high, low]

/-- The way one byte is written, whichever byte it is. -/
def IsUnit (graphic : UInt8 → Bool) (unit : List UInt8) : Prop :=
  ∃ byte, Writes graphic byte unit

/-- A text that no further byte of an encoded text begins. -/
def Ends (graphic : UInt8 → Bool) (text : List UInt8) : Prop :=
  ∀ ch, text.head? = some ch → graphic ch = false

/-- A percent sign without two hexadecimal digits behind it. -/
def BrokenEscape (text : List UInt8) : Prop :=
  ∃ rest,
    text = 0x25 :: rest ∧
      ∀ high low later,
        rest = high :: low :: later →
        hexDigit? high = none ∨ hexDigit? low = none

theorem Writes.ne_nil
    {byte : UInt8}
    {unit : List UInt8}
    (writes : Writes graphic byte unit) :
    unit ≠ [] := by
  cases writes <;> exact List.cons_ne_nil _ _

/-- Ways to write bytes are ways to write some bytes. -/
theorem exists_bytes
    {units : List (List UInt8)}
    (written : ∀ unit, unit ∈ units → IsUnit graphic unit) :
    ∃ bytes, List.Forall₂ (Writes graphic) bytes units := by
  induction units with
  | nil =>
      exact ⟨[], .nil⟩
  | cons unit units inductionHypothesis =>
      obtain ⟨byte, writes⟩ := written unit List.mem_cons_self
      obtain ⟨bytes, later⟩ := inductionHypothesis fun unit member =>
        written unit (List.mem_cons_of_mem _ member)
      exact ⟨byte :: bytes, .cons writes later⟩

/-- Each of the units that write some bytes writes one of them. -/
theorem isUnit_of_forall₂
    {bytes : List UInt8}
    {units : List (List UInt8)}
    (writes : List.Forall₂ (Writes graphic) bytes units) :
    ∀ unit, unit ∈ units → IsUnit graphic unit := by
  induction writes with
  | nil => nofun
  | cons here _ inductionHypothesis =>
      intro unit member
      rcases List.mem_cons.mp member with rfl | later
      · exact ⟨_, here⟩
      · exact inductionHypothesis unit later

/-- There are no more encoded bytes than bytes that write them. -/
theorem length_le_flatten
    {units : List (List UInt8)}
    (written : ∀ unit, unit ∈ units → IsUnit graphic unit) :
    units.length ≤ units.flatten.length := by
  induction units with
  | nil =>
      exact Nat.le_refl 0
  | cons unit units inductionHypothesis =>
      obtain ⟨byte, writes⟩ := written unit List.mem_cons_self
      have one := List.length_pos_iff.mpr writes.ne_nil
      have later := inductionHypothesis fun unit member =>
        written unit (List.mem_cons_of_mem _ member)
      rw [List.flatten_cons, List.length_append, List.length_cons]
      omega

/-- An encoded byte is no broken escape. -/
theorem IsUnit.not_broken
    {unit : List UInt8}
    (isUnit : IsUnit graphic unit)
    (rest : List UInt8) :
    ¬ BrokenEscape (unit ++ rest) := by
  rintro ⟨later, shape, missing⟩
  obtain ⟨byte, writes⟩ := isUnit
  cases writes with
  | itself _ _ plain =>
      exact plain (List.cons.inj shape).1
  | escape high low highValue lowValue highDigit lowDigit =>
      rcases missing high low rest (List.cons.inj shape).2.symm with
        noHigh | noLow
      · rw [highDigit] at noHigh
        cases noHigh
      · rw [lowDigit] at noLow
        cases noLow

/-- Encoded text does not end where an escape is broken. -/
theorem BrokenEscape.not_ends
    {text : List UInt8}
    (broken : BrokenEscape text)
    (percent : graphic 0x25 = true) :
    ¬ Ends graphic text := by
  intro ends
  obtain ⟨rest, shape, _⟩ := broken
  have stopped := ends 0x25 (shape ▸ rfl)
  rw [percent] at stopped
  cases stopped

/-- The next byte of a text, a broken escape, or the end of what is encoded. -/
theorem next_unit
    (text : List UInt8) :
    (∃ unit rest, IsUnit graphic unit ∧ text = unit ++ rest) ∨
      BrokenEscape text ∨ Ends graphic text := by
  cases text with
  | nil =>
      exact .inr (.inr nofun)
  | cons ch rest =>
      by_cases percent : ch = 0x25
      · subst percent
        by_cases broken : BrokenEscape (0x25 :: rest)
        · exact .inr (.inl broken)
        · left
          have digits :
              ∃ high low later highValue lowValue,
                rest = high :: low :: later ∧
                  hexDigit? high = some highValue ∧
                  hexDigit? low = some lowValue := by
            by_contra missing
            refine broken ⟨rest, rfl, ?_⟩
            intro high low later shape
            cases highDigit : hexDigit? high with
            | none => exact .inl rfl
            | some highValue =>
                cases lowDigit : hexDigit? low with
                | none => exact .inr rfl
                | some lowValue =>
                    exact absurd
                      ⟨high, low, later, highValue, lowValue, shape,
                        highDigit, lowDigit⟩ missing
          obtain ⟨high, low, later, highValue, lowValue, shape, highDigit,
            lowDigit⟩ := digits
          exact ⟨[0x25, high, low], later,
            ⟨_, .escape high low _ _ highDigit lowDigit⟩, by rw [shape]; rfl⟩
      · cases shown : graphic ch with
        | true => exact .inl ⟨[ch], rest, ⟨ch, .itself ch shown percent⟩, rfl⟩
        | false =>
            right
            right
            intro head isHead
            cases isHead
            exact shown

/-- Every text is some encoded bytes up to a broken escape or their end. -/
theorem exists_units
    (text : List UInt8) :
    ∃ (units : List (List UInt8)) (rest : List UInt8),
      (∀ unit, unit ∈ units → IsUnit graphic unit) ∧
        text = units.flatten ++ rest ∧
        (BrokenEscape rest ∨ Ends graphic rest) := by
  generalize size : text.length = length
  induction length using Nat.strongRecOn generalizing text with
  | ind length inductionHypothesis =>
      rcases @next_unit graphic text with
        ⟨unit, rest, isUnit, shape⟩ | stops
      · have shorter : rest.length < length := by
          obtain ⟨byte, writes⟩ := isUnit
          have := List.length_pos_iff.mpr writes.ne_nil
          rw [← size, shape, List.length_append]
          omega
        obtain ⟨units, last, areUnits, restShape, stops⟩ :=
          inductionHypothesis rest.length shorter rest rfl
        refine ⟨unit :: units, last, ?_, ?_, stops⟩
        · intro other member
          rcases List.mem_cons.mp member with rfl | later
          · exact isUnit
          · exact areUnits other later
        · rw [shape, restShape, List.flatten_cons, List.append_assoc]
      · exact ⟨[], text, nofun, rfl, stops⟩

end PercentEncoding
