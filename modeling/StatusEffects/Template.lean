import StatusEffects.Actor.Status
import StatusEffects.Condition

/-!
# Effect templates

An effect template is the fixed description of an effect: what it does, how long, how often, and
how it competes with other effects.

## Main definitions

* `AbnormalType` : the group within which effects compete.
* `EffectKind` : what an effect does while it runs.
* `TieBreak` : how an incoming effect competes with the one in its place.
* `Policy` : flags that restrict how an effect may be removed.
* `Template` : the description, with the tests `isDebuff`, `isPeriodic` and `isPermanent`.
-/

namespace StatusEffects

/-- The group of an effect; within a group the effects that do not stack compete. -/
inductive AbnormalType where
  | none | buff | debuff | paralyze | aerialYoke | stun | root | sleep | silence | poison | bleed
  | transform | dance | song | recovery | speedUp | speedDown
deriving DecidableEq, Repr

namespace AbnormalType

instance : Named AbnormalType where
  all := [.none, .buff, .debuff, .paralyze, .aerialYoke, .stun, .root, .sleep, .silence, .poison,
    .bleed, .transform, .dance, .song, .recovery, .speedUp, .speedDown]
  ident
    | .none => "None"
    | .buff => "Buff"
    | .debuff => "Debuff"
    | .paralyze => "Paralyze"
    | .aerialYoke => "AerialYoke"
    | .stun => "Stun"
    | .root => "Root"
    | .sleep => "Sleep"
    | .silence => "Silence"
    | .poison => "Poison"
    | .bleed => "Bleed"
    | .transform => "Transform"
    | .dance => "Dance"
    | .song => "Song"
    | .recovery => "Recovery"
    | .speedUp => "SpeedUp"
    | .speedDown => "SpeedDown"

/-- Whether the group is harmful. -/
def isDebuff : AbnormalType → Bool
  | .debuff | .paralyze | .aerialYoke | .stun | .root | .sleep | .silence | .poison | .bleed
  | .speedDown => true
  | _ => false

/-- Whether the group is that of the dances or of the songs. -/
def isDance : AbnormalType → Bool
  | .dance | .song => true
  | _ => false

end AbnormalType

/-- What an effect does while it runs. -/
inductive EffectKind where
  /-- Grants its bonuses. -/
  | buff
  /-- Inflicts its bonuses. -/
  | debuff
  /-- Holds the actor in place. -/
  | paralyze
  /-- Lifts the actor and holds it in the air. -/
  | liftHold
  /-- Works on players only and is complete with its first tick. -/
  | recovery
  /-- Hurts or heals with every tick. -/
  | periodic
  /-- Changes the actor's appearance. -/
  | transform
  /-- Shows its visual and does nothing else. -/
  | marker
deriving DecidableEq, Repr

instance : Named EffectKind where
  all := [.buff, .debuff, .paralyze, .liftHold, .recovery, .periodic, .transform, .marker]
  ident
    | .buff => "Buff"
    | .debuff => "Debuff"
    | .paralyze => "Paralyze"
    | .liftHold => "LiftHold"
    | .recovery => "Recovery"
    | .periodic => "Periodic"
    | .transform => "Transform"
    | .marker => "Marker"

/-- How an incoming effect competes with the effect in its place; the rule of the incoming one
decides. -/
inductive TieBreak where
  /-- The incoming effect wins with at least the priority of the other. -/
  | higherPriority
  /-- The incoming effect wins with a higher enchant level, or an equal one and at least the
  priority of the other. -/
  | higherEnchant
  /-- The incoming effect wins. -/
  | mostRecent
  /-- The effect in place wins. -/
  | keepExisting
deriving DecidableEq, Repr

instance : Named TieBreak where
  all := [.higherPriority, .higherEnchant, .mostRecent, .keepExisting]
  ident
    | .higherPriority => "HigherPriority"
    | .higherEnchant => "HigherEnchant"
    | .mostRecent => "MostRecent"
    | .keepExisting => "KeepExisting"

/-- Names of the flags that restrict how an effect may be removed. -/
def policyNames : FlagNames where
  width := 8
  names := ["CANNOT_BE_DISPELLED", "STAYS_AFTER_DEATH", "DEBUFF", "SELF_CANCELABLE"]

/-- Flags that restrict how an effect may be removed. -/
abbrev Policy := FlagSet policyNames

namespace Policy

/-- No dispel removes the effect. -/
def cannotBeDispelled : Policy := .single 0

/-- The effect outlives its owner. -/
def staysAfterDeath : Policy := .single 1

/-- The effect is harmful even in a neutral group. -/
def debuff : Policy := .single 2

/-- A transformation that the player may end. -/
def selfCancelable : Policy := .single 3

end Policy

/-- Other parameters for casts on an enchant route from a level on; what a variant does not set
keeps the value of the template. -/
structure Variant where
  route : UInt32
  minLevel : UInt32
  duration : Option UInt32 := none
  power : Option Int32 := none
  priority : Option UInt32 := none
deriving DecidableEq, Repr

/-- The parameters of one application. -/
structure Params where
  /-- Ticks or expiry units until the effect ends; zero for never. -/
  duration : UInt32
  power : Int32
  priority : UInt32
  enchantLevel : UInt32
deriving DecidableEq, Repr

/-- The fixed description of an effect. -/
structure Template where
  id : TemplateId
  name : String
  /-- The skill whose casts apply the template. -/
  skill : SkillId
  kind : EffectKind
  abnormalType : AbnormalType
  /-- Ticks or expiry units until the effect ends; zero for never. -/
  duration : UInt32 := 0
  /-- Milliseconds between two ticks; zero for an effect that does not tick. -/
  tickInterval : UInt64 := 0
  /-- Whether the effect competes with no other. -/
  stackable : Bool := false
  /-- Whether a second cast adds a second instance instead of renewing the first. -/
  stacksWithSelf : Bool := false
  tieBreak : TieBreak := .higherPriority
  priority : UInt32 := 0
  /-- Strength of one tick: negative hurts, positive heals. -/
  power : Int32 := 0
  visual : Visuals := ∅
  icon : UInt32 := 0
  policy : Policy := ∅
  condition : Option Condition := none
  bonuses : List StatBonus := []
  /-- The appearance that an effect of the transforming kind gives. -/
  form : UInt32 := 0
  variants : List Variant := []

namespace Template

/-- The names of the fields of a template in content, in their order. -/
def fieldNames : List String :=
  ["id", "name", "skill_id", "kind", "abnormal_type", "base_duration_ticks", "tick_interval_ms",
    "stackable", "stacks_with_self", "tie_break", "priority", "power", "visual", "icon", "flags",
    "condition", "bonuses", "transform_id", "enchant_variants"]

/-- Whether the template carries all the given flags. -/
def has (t : Template) (flags : Policy) : Bool := t.policy.contains flags

/-- Whether the effect is harmful by its kind, its flags or its group. -/
def isDebuff (t : Template) : Bool :=
  t.kind == .debuff || t.has .debuff || t.abnormalType.isDebuff

/-- Whether the effect ticks. -/
def isPeriodic (t : Template) : Bool := 0 < t.tickInterval

/-- Whether the effect never ends by itself, before any enchantment. -/
def isPermanent (t : Template) : Bool := t.duration == 0

end Template

end StatusEffects
