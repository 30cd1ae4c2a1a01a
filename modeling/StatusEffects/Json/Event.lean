import StatusEffects.Event
import StatusEffects.Json.Template

/-!
# Events in JSON

Events as they are told to clients, each with the summary of its effect.

## Main definitions

* `Summary.toJson`, `Summary.ofJson?` : summaries.
* `Event.toJson`, `Event.ofJson?` : events.
* `Stamped.toJson`, `Stamped.ofJson?` : events with their moments.
-/

namespace StatusEffects

open Json

namespace Skill

/-- The skill of a cast. -/
def toJson (s : Skill) : Json :=
  object [("id", word s.id.val), ("level", word s.level), ("enchant_route", word s.enchantRoute),
    ("enchant_level", word s.enchantLevel)]

/-- The skill that a value stands for. -/
def ofJson? (j : Json) : Option Skill := do
  let r ← j.record ["id", "level", "enchant_route", "enchant_level"]
  return ⟨← r.field "id" asSkillId, ← r.field "level" asWord, ← r.field "enchant_route" asWord,
    ← r.field "enchant_level" asWord⟩

end Skill

namespace Summary

/-- A summary. -/
def toJson (s : Summary) : Json :=
  object [("id", nat s.id.val), ("template", word s.template.val), ("caster", word s.caster.val),
    ("skill", orNull Skill.toJson s.skill), ("abnormal_type", named s.abnormalType),
    ("remaining_ticks", word s.remaining), ("ticks_fired", word s.ticks),
    ("enchant_level", word s.enchantLevel), ("icon", word s.icon)]

/-- The summary that a value stands for. A missing skill is none. -/
def ofJson? (j : Json) : Option Summary := do
  let r ← j.record ["id", "template", "caster", "skill", "abnormal_type", "remaining_ticks",
    "ticks_fired", "enchant_level", "icon"]
  let id ← r.field "id" asEffectId
  let template ← r.field "template" asTemplateId
  let caster ← r.field "caster" asActor
  let skill ← r.fieldOr "skill" (asOption Skill.ofJson?) none
  let abnormalType ← r.field "abnormal_type" asNamed
  let remaining ← r.field "remaining_ticks" asWord
  let ticks ← r.field "ticks_fired" asWord
  let enchantLevel ← r.field "enchant_level" asWord
  let icon ← r.field "icon" asWord
  return { id, template, caster, skill, abnormalType, remaining, ticks, enchantLevel, icon }

end Summary

namespace Event

/-- The fields that every event has. -/
def subject (actor : ActorId) (effect : Summary) : List (String × Json) :=
  [("actor", word actor.val), ("effect", effect.toJson)]

/-- An event: its kind over its actor, its effect and what belongs to that kind. -/
def toJson : Event → Json
  | started a e => tagged "Started" (object (subject a e))
  | refreshed a e => tagged "Refreshed" (object (subject a e))
  | ticked a e m => tagged "Ticked" (object (subject a e ++ [("magnitude", int m)]))
  | ended a e r => tagged "Ended" (object (subject a e ++ [("reason", named r)]))

/-- The event of a kind with the given fields. -/
def ofFields? (kind : String) (j : Json) : Option Event := do
  let a ← j.field "actor" asActor
  let e ← j.field "effect" Summary.ofJson?
  match kind with
  | "Started" => some (started a e)
  | "Refreshed" => some (refreshed a e)
  | "Ticked" => (j.field "magnitude" asInt).map (ticked a e)
  | "Ended" => (j.field "reason" asNamed).map (ended a e)
  | _ => none

/-- The event that a value stands for. -/
def ofJson? : Json → Option Event
  | object [(kind, j)] => ofFields? kind j
  | _ => none

end Event

namespace Stamped

/-- An event with its moment. -/
def toJson (s : Stamped) : Json := object [("at_ms", nat s.moment), ("event", s.event.toJson)]

/-- The event with its moment that a value stands for. -/
def ofJson? (j : Json) : Option Stamped := do
  let r ← j.record ["at_ms", "event"]
  return ⟨← r.field "at_ms" asNat, ← r.field "event" Event.ofJson?⟩

end Stamped

end StatusEffects
