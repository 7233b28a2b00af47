import Mathlib.Logic.Function.Basic

/-!
# Output pins

Pins that a program requests for itself and then drives.  A pin in use cannot be
requested again, so signals that were wired to pins one after the other have
pins of their own, and driving one of them leaves the others alone.
-/

/-- The levels of the pins that are in use. -/
abbrev OutputPins (Pin : Type) :=
  Pin → Option Bool

namespace OutputPins

variable {Pin Signal : Type}

/-- A pin drives a level, and all other pins stay as they are. -/
structure Drives
    (before after : OutputPins Pin)
    (pin : Pin)
    (level : Bool) : Prop where
  driven : after pin = some level
  others : ∀ other, other ≠ pin → after other = before other

/-- A pin that nobody uses comes into use, with a first level. -/
structure Requests
    (before after : OutputPins Pin)
    (pin : Pin)
    (level : Bool) : Prop where
  free : before pin = none
  drives : Drives before after pin level

/-- Every wired signal has a pin of its own, which drives the signal's level. -/
structure Carries
    (pins : OutputPins Pin)
    (wire : Signal → Option Pin)
    (level : Signal → Bool) :
    Prop where
  driven :
    ∀ signal pin, wire signal = some pin → pins pin = some (level signal)
  own :
    ∀ first second pin,
      wire first = some pin → wire second = some pin → first = second

theorem Carries.nothing
    (pins : OutputPins Pin)
    (level : Signal → Bool) :
    pins.Carries (fun _ => none) level where
  driven := fun _ _ wired => by cases wired
  own := fun _ _ _ wired => by cases wired

variable {pins later : OutputPins Pin} {wire : Signal → Option Pin}
variable {level : Signal → Bool} [DecidableEq Signal]

/-- A signal is wired to a pin that was requested for it. -/
theorem Carries.request
    (carries : pins.Carries wire level)
    {pin : Pin}
    {first : Bool}
    (requests : Requests pins later pin first)
    (signal : Signal) :
    later.Carries (Function.update wire signal (some pin))
      (Function.update level signal first) := by
  have taken : ∀ other, wire other ≠ some pin := by
    intro other wired
    have used := carries.driven other pin wired
    rw [requests.free] at used
    cases used
  refine ⟨fun other wiredTo wired => ?_, fun one two wiredTo => ?_⟩
  · by_cases same : other = signal
    · subst same
      rw [Function.update_self, Option.some.injEq] at wired
      subst wired
      rw [requests.drives.driven, Function.update_self]
    · rw [Function.update_of_ne same] at wired ⊢
      have apart : wiredTo ≠ pin := fun eq => taken other (eq ▸ wired)
      rw [requests.drives.others wiredTo apart]
      exact carries.driven other wiredTo wired
  · by_cases sameOne : one = signal <;> by_cases sameTwo : two = signal
    · exact fun _ _ => sameOne.trans sameTwo.symm
    · rw [sameOne, Function.update_self, Function.update_of_ne sameTwo]
      intro isPin wired
      exact absurd (wired.trans isPin.symm) (taken two)
    · rw [sameTwo, Function.update_self, Function.update_of_ne sameOne]
      intro wired isPin
      exact absurd (wired.trans isPin.symm) (taken one)
    · rw [Function.update_of_ne sameOne, Function.update_of_ne sameTwo]
      exact carries.own one two wiredTo

/-- Driving the pin of a signal changes the level of this signal alone. -/
theorem Carries.drive
    (carries : pins.Carries wire level)
    {signal : Signal}
    {pin : Pin}
    {next : Bool}
    (wired : wire signal = some pin)
    (drives : Drives pins later pin next) :
    later.Carries wire (Function.update level signal next) where
  driven := by
    intro other wiredTo wiredOther
    by_cases same : wiredTo = pin
    · subst same
      rw [drives.driven, carries.own other signal wiredTo wiredOther wired,
        Function.update_self]
    · have apart : other ≠ signal := by
        rintro rfl
        exact same (Option.some.inj (wiredOther.symm.trans wired))
      rw [drives.others wiredTo same, Function.update_of_ne apart]
      exact carries.driven other wiredTo wiredOther
  own := carries.own

end OutputPins
