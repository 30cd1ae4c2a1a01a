import StatusEffects.Ident

/-!
# Skills

The skill behind a cast, with its enchantment. An enchantment is a route and a level on it, and is
also written as one combined number.

## Main statements

* `Skill.combined_ofCombined` : the combined number survives being taken apart.
-/

namespace StatusEffects

/-- The skill of a cast. -/
structure Skill where
  id : SkillId
  level : UInt32
  enchantRoute : UInt32
  enchantLevel : UInt32
deriving DecidableEq, Repr

namespace Skill

/-- Number of enchant levels that a route has room for in a combined number. -/
def routeFactor : UInt32 := 1000

/-- A skill whose enchantment is written as `route * 1000 + level`. -/
def ofCombined (id : SkillId) (level combined : UInt32) : Skill :=
  ⟨id, level, combined / routeFactor, combined % routeFactor⟩

/-- The enchantment as one number. -/
def combined (s : Skill) : UInt32 := s.enchantRoute * routeFactor + s.enchantLevel

/-- A skill is enchanted when both its route and its enchant level are positive. -/
def isEnchanted (s : Skill) : Bool := 0 < s.enchantRoute && 0 < s.enchantLevel

theorem combined_ofCombined (id : SkillId) (level combined : UInt32) :
    (ofCombined id level combined).combined = combined := by
  apply UInt32.toNat_inj.1
  simp only [Skill.combined, ofCombined, UInt32.toNat_add, UInt32.toNat_mul, UInt32.toNat_div,
    UInt32.toNat_mod]
  have hf : routeFactor.toNat = 1000 := rfl
  have hlt := combined.toNat_lt
  rw [hf]
  omega

end Skill

end StatusEffects
