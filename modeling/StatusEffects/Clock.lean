import StatusEffects.Ident

/-!
# Clocks

The time an engine reads. A clock moved by hand stands still until it is told to go on and never
goes back; one that follows time cannot be moved.
-/

namespace StatusEffects

/-- A clock. -/
structure Clock where
  /-- What the clock shows, in milliseconds. -/
  now : Nat := 0
  /-- Whether the clock is moved by hand. -/
  manual : Bool := true
deriving DecidableEq, Repr

namespace Clock

/-- Sets a clock moved by hand forward to `t`; an earlier moment changes nothing. -/
def advanceTo (c : Clock) (t : Nat) : Clock :=
  if c.manual then { c with now := max c.now t } else c

/-- Sets a clock forward by a number of milliseconds. -/
def advance (c : Clock) (ms : Nat) : Clock := { c with now := c.now + ms }

/-- The clock after time has passed: one that follows time goes on. -/
def pass (c : Clock) (ms : Nat) : Clock :=
  if c.manual then c else { c with now := later c.now ms }

theorem le_advanceTo (c : Clock) (t : Nat) : c.now ≤ (c.advanceTo t).now := by
  simp only [advanceTo]
  split
  · exact Nat.le_max_left _ _
  · exact Nat.le_refl _

end Clock

end StatusEffects
