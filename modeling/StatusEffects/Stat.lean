import StatusEffects.Named

/-!
# Stats and bonuses

The attributes an effect can change, and the four ways of changing one.
-/

namespace StatusEffects

/-- An attribute of an actor that effects can change. -/
inductive Stat where
  | maxHp | maxMp | physicalAttack | magicAttack | physicalDefense | magicDefense
  | attackSpeed | castSpeed | runSpeed | accuracy | evasion | criticalRate
deriving DecidableEq, Repr

instance : Named Stat where
  all := [.maxHp, .maxMp, .physicalAttack, .magicAttack, .physicalDefense, .magicDefense,
    .attackSpeed, .castSpeed, .runSpeed, .accuracy, .evasion, .criticalRate]
  ident
    | .maxHp => "MaxHp"
    | .maxMp => "MaxMp"
    | .physicalAttack => "PhysicalAttack"
    | .magicAttack => "MagicAttack"
    | .physicalDefense => "PhysicalDefense"
    | .magicDefense => "MagicDefense"
    | .attackSpeed => "AttackSpeed"
    | .castSpeed => "CastSpeed"
    | .runSpeed => "RunSpeed"
    | .accuracy => "Accuracy"
    | .evasion => "Evasion"
    | .criticalRate => "CriticalRate"

/-- A change to one stat: an amount, a percentage added to the others of its kind, or a percentage
that multiplies on its own. -/
inductive Bonus where
  /-- Added to the base value. -/
  | flat (amount : Int32)
  /-- Per cent of the base, summed with the other increases before multiplying. -/
  | increased (percent : Int32)
  /-- Multiplies by one hundred plus this many per cent. -/
  | more (percent : Int32)
  /-- Multiplies by one hundred less this many per cent. -/
  | less (percent : Int32)
deriving DecidableEq, Repr

/-- A bonus to a named stat, as templates declare it. -/
structure StatBonus where
  stat : Stat
  bonus : Bonus
deriving DecidableEq, Repr

end StatusEffects
