namespace Cdba

/-!
# `struct timeval` and the clock

The `timeradd`, `timersub` and `timercmp` macros of `sys/time.h` on pairs of
seconds and microseconds, and their meaning as arithmetic on microseconds.
The clock only moves forward; how long things take is a script that the
theorems quantify over.
-/

/-- `struct timeval` -/
structure Timeval where
  sec : Int
  usec : Int
  deriving DecidableEq, Repr

namespace Timeval

/-- The time in microseconds. -/
def micros (tv : Timeval) : Int :=
  tv.sec * 1000000 + tv.usec

/-- The microseconds part is in range, as in every value the kernel returns. -/
def Normalised (tv : Timeval) : Prop :=
  0 ≤ tv.usec ∧ tv.usec < 1000000

instance (tv : Timeval) : Decidable tv.Normalised :=
  inferInstanceAs (Decidable (_ ∧ _))

/-- A number of microseconds as a `struct timeval`. -/
def ofMicros (micros : Nat) : Timeval where
  sec := micros / 1000000
  usec := micros % 1000000

/-- `timeradd(a, b, result)` -/
def add (a b : Timeval) : Timeval :=
  if a.usec + b.usec ≥ 1000000 then
    ⟨a.sec + b.sec + 1, a.usec + b.usec - 1000000⟩
  else
    ⟨a.sec + b.sec, a.usec + b.usec⟩

/-- `timersub(a, b, result)` -/
def sub (a b : Timeval) : Timeval :=
  if a.usec - b.usec < 0 then
    ⟨a.sec - b.sec - 1, a.usec - b.usec + 1000000⟩
  else
    ⟨a.sec - b.sec, a.usec - b.usec⟩

/-- `timercmp(a, b, <)` -/
def lt (a b : Timeval) : Bool :=
  if a.sec = b.sec then
    decide (a.usec < b.usec)
  else
    decide (a.sec < b.sec)

/-- A timeout that `select()` accepts. -/
def NonNegative (tv : Timeval) : Prop :=
  0 ≤ tv.sec ∧ 0 ≤ tv.usec

instance (tv : Timeval) : Decidable tv.NonNegative :=
  inferInstanceAs (Decidable (_ ∧ _))

@[simp] theorem micros_ofMicros
    (time : Nat) :
    (ofMicros time).micros = time := by
  simp only [micros, ofMicros]
  omega

theorem normalised_ofMicros
    (time : Nat) :
    (ofMicros time).Normalised := by
  simp only [Normalised, ofMicros]
  omega

@[simp] theorem micros_add
    (a b : Timeval) :
    (a.add b).micros = a.micros + b.micros := by
  unfold add
  split <;> simp only [micros] <;> omega

@[simp] theorem micros_sub
    (a b : Timeval) :
    (a.sub b).micros = a.micros - b.micros := by
  unfold sub
  split <;> simp only [micros] <;> omega

theorem normalised_add
    {a b : Timeval}
    (first : a.Normalised)
    (second : b.Normalised) :
    (a.add b).Normalised := by
  unfold Normalised add at *
  split <;> simp only <;> omega

theorem normalised_sub
    {a b : Timeval}
    (first : a.Normalised)
    (second : b.Normalised) :
    (a.sub b).Normalised := by
  unfold Normalised sub at *
  split <;> simp only <;> omega

/-- On normalised times the macro compares microseconds. -/
theorem lt_iff
    {a b : Timeval}
    (first : a.Normalised)
    (second : b.Normalised) :
    a.lt b = true ↔ a.micros < b.micros := by
  unfold Normalised at first second
  unfold lt micros
  split <;> simp only [decide_eq_true_eq] <;> omega

/-- The macro compares seconds first, then microseconds. -/
theorem lt_iff_sec
    {a b : Timeval} :
    a.lt b = true ↔ a.sec < b.sec ∨ a.sec = b.sec ∧ a.usec < b.usec := by
  unfold lt
  split
  · rename_i same
    rw [decide_eq_true_eq]
    omega
  · rename_i differs
    rw [decide_eq_true_eq]
    omega

/-- What has passed stays in the past. -/
theorem lt_of_later
    {tv : Timeval}
    {now later : Nat}
    (before : tv.lt (ofMicros now) = true)
    (elapsed : now ≤ later) :
    tv.lt (ofMicros later) = true := by
  rw [lt_iff_sec] at before ⊢
  simp only [ofMicros] at before ⊢
  omega

/-- Every time passes. -/
theorem exists_later
    (tv : Timeval)
    (now : Nat) :
    ∃ later, now ≤ later ∧ tv.lt (ofMicros later) = true := by
  refine ⟨now + (tv.sec.toNat + 1) * 1000000, Nat.le_add_right _ _, ?_⟩
  rw [lt_iff_sec]
  left
  simp only [ofMicros]
  omega

/-- A time that was put off is not in the past. -/
theorem not_lt_of_delayed
    {now later : Nat}
    (delay : Timeval)
    (ordered : now ≤ later)
    (normalised : delay.Normalised)
    (forward : 0 ≤ delay.micros) :
    ((ofMicros later).add delay).lt (ofMicros now) = false := by
  rw [Bool.eq_false_iff]
  intro before
  rw [lt_iff (normalised_add (normalised_ofMicros later) normalised)
    (normalised_ofMicros now), micros_add, micros_ofMicros,
    micros_ofMicros] at before
  omega

/-- A time that was brought forward is in the past. -/
theorem lt_of_advanced
    {now later : Nat}
    {delay : Timeval}
    (sec : delay.sec ≤ 0)
    (usec : delay.usec ≤ 0)
    (elapsed : now < later) :
    ((ofMicros now).add delay).lt (ofMicros later) = true := by
  have clock := normalised_ofMicros now
  unfold Normalised at clock
  have noCarry : ¬ (ofMicros now).usec + delay.usec ≥ 1000000 := by
    omega
  unfold add
  rw [if_neg noCarry, lt_iff_sec]
  simp only [ofMicros]
  omega

/-- A normalised time is negative exactly when its microseconds are. -/
theorem nonNegative_iff
    {tv : Timeval}
    (normalised : tv.Normalised) :
    tv.NonNegative ↔ 0 ≤ tv.micros := by
  unfold Normalised at normalised
  unfold NonNegative micros
  omega

end Timeval

/-! ## The clock -/

/-- The time in microseconds, and how long the next activities will take. -/
structure Clock where
  now : Nat
  delays : List Nat
  deriving DecidableEq

/-- One activity takes place: time moves on by the next delay of the script. -/
def Clock.tick (clock : Clock) : Clock :=
  match clock.delays with
  | [] => clock
  | delay :: delays => ⟨clock.now + delay, delays⟩

theorem Clock.now_le_tick
    (clock : Clock) :
    clock.now ≤ clock.tick.now := by
  unfold Clock.tick
  split
  · exact Nat.le_refl _
  · exact Nat.le_add_right _ _

/-- An activity that takes at least a given time, such as `sleep()`. -/
def Clock.sleep (clock : Clock) (micros : Nat) : Clock :=
  { clock.tick with now := clock.tick.now + micros }

end Cdba
