import StatusEffects.Effect

/-!
# Dispelling

Which effects a request to dispel aims at, and which of them its cause may remove.

## Main definitions

* `Selector`, `Selector.selects` : the effects aimed at.
* `Cause`, `Cause.permits` : whether the cause may remove an effect of a template.
-/

namespace StatusEffects

/-- The effects a request aims at. -/
inductive Selector where
  /-- Those of a skill. -/
  | skill (id : SkillId)
  /-- Those of a group. -/
  | abnormal (group : AbnormalType)
  /-- Those of a caster. -/
  | caster (id : ActorId)
  /-- The one with the key. -/
  | effect (id : EffectId)
  /-- Those that are not harmful. -/
  | allBuffs
  /-- Those that are harmful. -/
  | allDebuffs
  /-- Every effect. -/
  | all
deriving DecidableEq, Repr

/-- Whether the selector aims at the effect. -/
def Selector.selects (e : Effect) : Selector → Bool
  | .skill k => e.template.skill == k
  | .abnormal g => e.abnormalType == g
  | .caster a => e.caster == a
  | .effect i => e.id == i
  | .allBuffs => !e.template.isDebuff
  | .allDebuffs => e.template.isDebuff
  | .all => true

/-- Who asks for a dispel. -/
inductive Cause where
  /-- A cleansing skill or item. -/
  | cleanse
  /-- The death of the actor. -/
  | death
  /-- The player whose effect it is. -/
  | voluntary
deriving DecidableEq, Repr

instance : Named Cause where
  all := [.cleanse, .death, .voluntary]
  ident
    | .cleanse => "Cleanse"
    | .death => "Death"
    | .voluntary => "Voluntary"

/-- Whether the cause may remove an effect of the template. Players keep what is harmful, what
outlives them, forms that are not theirs to end and, unless the settings allow it, dances. -/
def Cause.permits (t : Template) (settings : Settings) (cause : Cause) : Bool :=
  !t.has .cannotBeDispelled &&
    match cause with
    | .cleanse => true
    | .death => !t.has .staysAfterDeath
    | .voluntary =>
      !t.has .staysAfterDeath && !t.isDebuff &&
        (t.kind != .transform || t.has .selfCancelable) &&
        (!t.abnormalType.isDance || settings.danceCancel)

end StatusEffects
