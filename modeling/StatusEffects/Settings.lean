/-!
# Settings

The settings of an engine, with the values that hold where nothing else is said.
-/

namespace StatusEffects

/-- The settings of an engine. -/
structure Settings where
  /-- Milliseconds of one unit of duration of an effect that does not tick. -/
  expiryUnit : UInt64 := 1000
  /-- Greatest number of effects an actor may carry. -/
  maxEffects : UInt64 := 64
  /-- Whether players may cancel dances and songs. -/
  danceCancel : Bool := false
  /-- Whether renewing an effect adopts the enchant level of the new cast. -/
  refreshAdoptsEnchant : Bool := true
deriving DecidableEq, Repr

instance : Inhabited Settings := ⟨{}⟩

end StatusEffects
