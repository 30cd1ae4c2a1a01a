/-!
# Metrics

What an engine counts about its timers.
-/

namespace StatusEffects

/-- Counts of the timers fired so far. -/
structure Metrics where
  /-- Timers that met their effect. -/
  fired : Nat := 0
  /-- Timers whose effect was gone or renewed. -/
  stale : Nat := 0
  /-- Timers after which the effect asked for another one. -/
  rescheduled : Nat := 0
  /-- Timers with which the effect ended. -/
  ended : Nat := 0
  /-- Greatest number of timers pending at a time. -/
  peak : Nat := 0
deriving DecidableEq, Repr

end StatusEffects
