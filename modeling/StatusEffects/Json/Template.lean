import StatusEffects.Dispel
import StatusEffects.Json.Decoder

/-!
# Templates in JSON

Templates with all that belongs to them, selectors and settings as values of the JSON notation.
What carries a value is an object with one field, named for the alternative.

## Main definitions

* `Condition.toJson`, `Condition.ofJson?` : conditions.
* `Template.toJson`, `Template.ofJson?` : templates. Fields with a usual value may be missing.
* `Selector.toJson`, `Selector.ofJson?` : what a dispel aims at.
* `Settings.toJson`, `Settings.ofJson?` : the settings of an engine.
-/

namespace StatusEffects

open Json

/-- One of a closed list of alternatives, by its identifier. -/
def Json.named {α : Type} [Named α] (a : α) : Json := text (Named.ident a)

/-- A set of flags in its text form. -/
def Json.flags {v : FlagNames} (f : FlagSet v) : Json := text f.render

/-- An alternative that carries a value. -/
def Json.tagged (tag : String) (j : Json) : Json := object [(tag, j)]

namespace Bonus

/-- A bonus: its kind over its number. -/
def toJson : Bonus → Json
  | flat n => tagged "Flat" (int n)
  | increased n => tagged "Increased" (int n)
  | more n => tagged "More" (int n)
  | less n => tagged "Less" (int n)

/-- The bonus that a value stands for. -/
def ofJson? : Json → Option Bonus
  | object [("Flat", j)] => j.asInt.map flat
  | object [("Increased", j)] => j.asInt.map increased
  | object [("More", j)] => j.asInt.map more
  | object [("Less", j)] => j.asInt.map less
  | _ => none

end Bonus

namespace StatBonus

/-- A bonus with its stat. -/
def toJson (b : StatBonus) : Json := object [("stat", named b.stat), ("bonus", b.bonus.toJson)]

/-- The bonus with its stat that a value stands for. -/
def ofJson? (j : Json) : Option StatBonus := do
  let r ← j.record ["stat", "bonus"]
  return ⟨← r.field "stat" asNamed, ← r.field "bonus" Bonus.ofJson?⟩

end StatBonus

namespace Condition

mutual

/-- A condition: the test over what it asks for. -/
def toJson : Condition → Json
  | targetAggro aggressive => tagged "TargetAggro" (object [("aggressive", truth aggressive)])
  | rangeFromNpc npcId radius =>
    tagged "RangeFromNpc" (object [("npc_id", word npcId), ("radius", word radius)])
  | targetInRange radius => tagged "TargetInRange" (object [("radius", word radius)])
  | casterHasTags tags => tagged "CasterHasTags" (flags tags)
  | targetHasTags tags => tagged "TargetHasTags" (flags tags)
  | targetAlive alive => tagged "TargetAlive" (truth alive)
  | casterAlive alive => tagged "CasterAlive" (truth alive)
  | targetLevelAtMost level => tagged "TargetLevelAtMost" (word level)
  | enchantLevelAtLeast level => tagged "EnchantLevelAtLeast" (word level)
  | valueAtLeast threshold => tagged "ValueAtLeast" (float threshold)
  | and conditions => tagged "And" (list (toJsonEach conditions))
  | or conditions => tagged "Or" (list (toJsonEach conditions))
  | not condition => tagged "Not" (toJson condition)

/-- Conditions one by one. -/
def toJsonEach : List Condition → List Json
  | [] => []
  | c :: rest => toJson c :: toJsonEach rest

end

/-- A test without conditions in it, from its name and what it asks for. -/
def ofFields? (test : String) (j : Json) : Option Condition :=
  match test with
  | "TargetAggro" => (j.field "aggressive" asTruth).map targetAggro
  | "RangeFromNpc" => do
    return rangeFromNpc (← j.field "npc_id" asWord) (← j.field "radius" asWord)
  | "TargetInRange" => (j.field "radius" asWord).map targetInRange
  | "CasterHasTags" => j.asFlags.map casterHasTags
  | "TargetHasTags" => j.asFlags.map targetHasTags
  | "TargetAlive" => j.asTruth.map targetAlive
  | "CasterAlive" => j.asTruth.map casterAlive
  | "TargetLevelAtMost" => j.asWord.map targetLevelAtMost
  | "EnchantLevelAtLeast" => j.asWord.map enchantLevelAtLeast
  | "ValueAtLeast" => j.asFloat.map valueAtLeast
  | _ => none

mutual

/-- The condition that a value stands for. -/
def ofJson? : Json → Option Condition
  | object [("And", list items)] => (ofJsonEach? items).map and
  | object [("Or", list items)] => (ofJsonEach? items).map or
  | object [("Not", j)] => (ofJson? j).map not
  | object [(test, j)] => ofFields? test j
  | _ => none

/-- The conditions that values stand for. -/
def ofJsonEach? : List Json → Option (List Condition)
  | [] => some []
  | j :: rest => do
    let c ← ofJson? j
    let cs ← ofJsonEach? rest
    return c :: cs

end

end Condition

namespace Variant

/-- An enchant variant. -/
def toJson (v : Variant) : Json :=
  object [("route", word v.route), ("min_level", word v.minLevel),
    ("duration_ticks", orNull word v.duration), ("power", orNull int v.power),
    ("priority", orNull word v.priority)]

/-- The enchant variant that a value stands for. -/
def ofJson? (j : Json) : Option Variant := do
  let r ← j.record ["route", "min_level", "duration_ticks", "power", "priority"]
  let route ← r.field "route" asWord
  let minLevel ← r.field "min_level" asWord
  let duration ← r.fieldOr "duration_ticks" (asOption asWord) none
  let power ← r.fieldOr "power" (asOption asInt) none
  let priority ← r.fieldOr "priority" (asOption asWord) none
  return { route, minLevel, duration, power, priority }

end Variant

namespace Params

/-- The parameters of an application. -/
def toJson (p : Params) : Json :=
  object [("duration_ticks", word p.duration), ("power", int p.power),
    ("priority", word p.priority), ("enchant_level", word p.enchantLevel)]

/-- The parameters that a value stands for. -/
def ofJson? (j : Json) : Option Params := do
  let r ← j.record ["duration_ticks", "power", "priority", "enchant_level"]
  return ⟨← r.field "duration_ticks" asWord, ← r.field "power" asInt, ← r.field "priority" asWord,
    ← r.field "enchant_level" asWord⟩

end Params

namespace Template

/-- A template with all of its fields. -/
def toJson (t : Template) : Json :=
  object [("id", word t.id.val), ("name", text t.name), ("skill_id", word t.skill.val),
    ("kind", named t.kind), ("abnormal_type", named t.abnormalType),
    ("base_duration_ticks", word t.duration), ("tick_interval_ms", longWord t.tickInterval),
    ("stackable", truth t.stackable), ("stacks_with_self", truth t.stacksWithSelf),
    ("tie_break", named t.tieBreak), ("priority", word t.priority), ("power", int t.power),
    ("visual", flags t.visual), ("icon", word t.icon), ("flags", flags t.policy),
    ("condition", orNull Condition.toJson t.condition),
    ("bonuses", list (t.bonuses.map StatBonus.toJson)), ("transform_id", word t.form),
    ("enchant_variants", list (t.variants.map Variant.toJson))]

/-- The template that a value stands for. -/
def ofJson? (j : Json) : Option Template := do
  let r ← j.record fieldNames
  let id ← r.field "id" asTemplateId
  let name ← r.field "name" asText
  let skill ← r.field "skill_id" asSkillId
  let kind ← r.field "kind" asNamed
  let abnormalType ← r.field "abnormal_type" asNamed
  let duration ← r.fieldOr "base_duration_ticks" asWord 0
  let tickInterval ← r.fieldOr "tick_interval_ms" asLongWord 0
  let stackable ← r.fieldOr "stackable" asTruth false
  let stacksWithSelf ← r.fieldOr "stacks_with_self" asTruth false
  let tieBreak ← r.fieldOr "tie_break" asNamed TieBreak.higherPriority
  let priority ← r.fieldOr "priority" asWord 0
  let power ← r.fieldOr "power" asInt 0
  let visual ← r.fieldOr "visual" asFlags ∅
  let icon ← r.fieldOr "icon" asWord 0
  let policy ← r.fieldOr "flags" asFlags ∅
  let condition ← r.fieldOr "condition" (asOption Condition.ofJson?) none
  let bonuses ← r.fieldOr "bonuses" (asList StatBonus.ofJson?) []
  let form ← r.fieldOr "transform_id" asWord 0
  let variants ← r.fieldOr "enchant_variants" (asList Variant.ofJson?) []
  return { id, name, skill, kind, abnormalType, duration, tickInterval, stackable, stacksWithSelf,
           tieBreak, priority, power, visual, icon, policy, condition, bonuses, form, variants }

end Template

namespace Selector

/-- A selector: its name, over what it aims at if that is needed. -/
def toJson : Selector → Json
  | skill id => tagged "Skill" (word id.val)
  | abnormal group => tagged "Abnormal" (named group)
  | caster id => tagged "Caster" (word id.val)
  | effect id => tagged "Effect" (nat id.val)
  | allBuffs => text "AllBuffs"
  | allDebuffs => text "AllDebuffs"
  | all => text "All"

/-- A selector that needs no more than its name. -/
def ofWord? : String → Option Selector
  | "AllBuffs" => some allBuffs
  | "AllDebuffs" => some allDebuffs
  | "All" => some all
  | _ => none

/-- The selector that a value stands for. -/
def ofJson? : Json → Option Selector
  | text s => ofWord? s
  | object [("Skill", j)] => j.asSkillId.map skill
  | object [("Abnormal", j)] => j.asNamed.map abnormal
  | object [("Caster", j)] => j.asActor.map caster
  | object [("Effect", j)] => j.asEffectId.map effect
  | object [(s, null)] => ofWord? s
  | _ => none

end Selector

namespace Settings

/-- Settings with all of their fields. -/
def toJson (s : Settings) : Json :=
  object [("expiry_unit_ms", longWord s.expiryUnit),
    ("max_effects_per_actor", longWord s.maxEffects),
    ("dance_cancel_buff", truth s.danceCancel),
    ("refresh_resets_enchant", truth s.refreshAdoptsEnchant)]

/-- The settings that a value stands for; what it does not set has its usual value. -/
def ofJson? (j : Json) : Option Settings := do
  let usual : Settings := {}
  let r ← j.record ["expiry_unit_ms", "max_effects_per_actor", "dance_cancel_buff",
    "refresh_resets_enchant"]
  let expiryUnit ← r.fieldOr "expiry_unit_ms" asLongWord usual.expiryUnit
  let maxEffects ← r.fieldOr "max_effects_per_actor" asLongWord usual.maxEffects
  let danceCancel ← r.fieldOr "dance_cancel_buff" asTruth usual.danceCancel
  let refreshAdoptsEnchant ←
    r.fieldOr "refresh_resets_enchant" asTruth usual.refreshAdoptsEnchant
  return { expiryUnit, maxEffects, danceCancel, refreshAdoptsEnchant }

end Settings

end StatusEffects
