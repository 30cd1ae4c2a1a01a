/-!
# Identifiers and moments

Keys of the things the engine keeps apart, and the milliseconds its timers count.

## Main definitions

* `ActorId`, `SkillId`, `TemplateId`, `EffectId` : keys, each with the `label` it is shown by.
* `lastMoment`, `later` : the end of time, and the moment a delay after another one.
-/

namespace StatusEffects

/-- Key of an actor in the world. -/
structure ActorId where
  val : UInt32
deriving DecidableEq, Repr, Inhabited

/-- Key of a skill in the skill tables. -/
structure SkillId where
  val : UInt32
deriving DecidableEq, Repr, Inhabited

/-- Key of an effect template. -/
structure TemplateId where
  val : UInt32
deriving DecidableEq, Repr, Inhabited

/-- Key of one running effect. Keys are handed out in increasing order and never reused, so a
late timer can never reach a newer effect. -/
structure EffectId where
  val : Nat
deriving DecidableEq, Repr, Inhabited

/-- An actor is shown by its number behind a hash sign. -/
def ActorId.label (id : ActorId) : String := "#" ++ id.val.toNat.repr

/-- A skill is shown by its number behind the word for it. -/
def SkillId.label (id : SkillId) : String := "skill:" ++ id.val.toNat.repr

/-- A template is shown by its number behind the word for it. -/
def TemplateId.label (id : TemplateId) : String := "template:" ++ id.val.toNat.repr

/-- An effect is shown by its number behind the word for it. -/
def EffectId.label (id : EffectId) : String := "effect:" ++ id.val.repr

/-! ### Moments -/

/-- The last millisecond a clock can show. -/
def lastMoment : Nat := UInt64.size - 1

/-- The moment `delay` milliseconds after `t`; past the end of time it is the last moment. -/
def later (t delay : Nat) : Nat := min (t + delay) lastMoment

theorem later_le_lastMoment (t delay : Nat) : later t delay ≤ lastMoment :=
  Nat.min_le_right _ _

theorem le_later {t : Nat} (delay : Nat) (h : t ≤ lastMoment) : t ≤ later t delay := by
  simp only [later]
  omega

theorem later_eq_add {t delay : Nat} (h : t + delay ≤ lastMoment) : later t delay = t + delay :=
  Nat.min_eq_left h

end StatusEffects
