import StatusEffects.Content.Scenario
import StatusEffects.Json.Template

/-!
# Scenarios in JSON

Scenarios as values of the JSON notation, for tools that show them.
-/

namespace StatusEffects

open Json

/-- An actor of a scenario. -/
def CastMember.toJson (m : CastMember) : Json :=
  object [("id", word m.id.val), ("kind", named m.role), ("npc_id", word m.npcId),
    ("level", word m.level),
    ("position", list [int m.position.x, int m.position.y, int m.position.z]),
    ("aggressive", truth m.aggressive), ("reputation", int m.reputation),
    ("owner", orNull (word ·.val) m.owner)]

/-- A step of a scenario: what happens over to whom. -/
def Step.toJson : Step → Json
  | .cast caster target skill level enchant =>
    tagged "Cast" (object [("caster", word caster.val), ("target", word target.val),
      ("skill", word skill.val), ("level", word level), ("enchant", word enchant)])
  | .dispel actor selector =>
    tagged "Dispel" (object [("actor", word actor.val), ("selector", selector.toJson)])
  | .cancel requester actor skill =>
    tagged "Cancel" (object [("requester", word requester.val), ("actor", word actor.val),
      ("skill", word skill.val)])
  | .cleanse actor group =>
    tagged "Cleanse" (object [("actor", word actor.val), ("abnormal", named group)])
  | .kill actor => tagged "Kill" (object [("actor", word actor.val)])
  | .remove actor => tagged "Remove" (object [("actor", word actor.val)])
  | .wait ms => tagged "Wait" (object [("ms", longWord ms)])

/-- A scenario. -/
def Scenario.toJson (s : Scenario) : Json :=
  object [("name", text s.name), ("actors", list (s.actors.map CastMember.toJson)),
    ("steps", list (s.steps.map Step.toJson))]

end StatusEffects
