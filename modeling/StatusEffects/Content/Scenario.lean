import StatusEffects.Content.Decoder
import StatusEffects.Dispel
import StatusEffects.Text.Record.Reader

/-!
# Scenarios

A scenario is a text in the record notation that names actors and lists what happens to them.

## Main definitions

* `Role`, `CastMember` : the actors of a scenario.
* `Step` : what can happen.
* `Scenario` : the whole, in which no actor is declared twice.
* `Content.readScenario` : the scenario of a text.
-/

namespace StatusEffects

/-- What sort of actor someone is. -/
inductive Role where
  | player | monster | raidBoss | guard | summon
deriving DecidableEq, Repr

namespace Role

instance : Named Role where
  all := [.player, .monster, .raidBoss, .guard, .summon]
  ident
    | .player => "Player"
    | .monster => "Monster"
    | .raidBoss => "RaidBoss"
    | .guard => "Guard"
    | .summon => "Summon"

/-- The tags of a sort of actor. -/
def tags : Role → ActorTags
  | .player => .player
  | .monster => .ofMonster
  | .raidBoss => ActorTags.ofMonster ∪ .raid
  | .guard => ActorTags.npc ∪ .guard
  | .summon => .summon

end Role

/-- An actor of a scenario. -/
structure CastMember where
  id : ActorId
  role : Role
  npcId : UInt32 := 0
  level : UInt32 := 1
  position : Position := .origin
  aggressive : Bool := false
  reputation : Int32 := 0
  owner : Option ActorId := none
deriving DecidableEq

/-- The profile an actor enters the world with. -/
def CastMember.profile (m : CastMember) : Profile where
  id := m.id
  tags := m.role.tags
  npcId := m.npcId
  level := m.level
  position := m.position
  aggressive := m.aggressive
  reputation := m.reputation
  owner := m.owner

/-- Something that happens. -/
inductive Step where
  /-- A cast of a skill, with its enchantment as one number. -/
  | cast (caster target : ActorId) (skill : SkillId) (level enchant : UInt32)
  | dispel (actor : ActorId) (selector : Selector)
  /-- A player cancels effects of a skill. -/
  | cancel (requester actor : ActorId) (skill : SkillId)
  /-- Everything of a group is dispelled. -/
  | cleanse (actor : ActorId) (group : AbnormalType)
  | kill (actor : ActorId)
  | remove (actor : ActorId)
  /-- Time passes. -/
  | wait (ms : UInt64)
deriving DecidableEq, Repr

/-- The skill of a cast. -/
def Step.skill? : Step → Option Skill
  | .cast _ _ skill level enchant => some (.ofCombined skill level enchant)
  | _ => none

/-- Actors and what happens to them. -/
structure Scenario where
  name : String
  actors : List CastMember
  steps : List Step
deriving DecidableEq

/-- Why a text gives no scenario. -/
inductive ScenarioFault where
  /-- It is no scenario in the record notation. -/
  | unreadable
  /-- An actor is declared twice. -/
  | declaredTwice (scenario : String) (actor : ActorId)
deriving DecidableEq, Repr

/-- What is told about a scenario that declares an actor twice. -/
def ScenarioFault.twiceMessage (scenario : String) (actor : ActorId) : String :=
  "Scenario " ++ "'" ++ scenario ++ "'" ++ " declares actor " ++ actor.val.toNat.repr ++ " twice"

namespace Content

open Text.Record

/-- An actor's key written as a bare number. -/
def bareActor : Decoder ActorId := fun room v => (Decoder.word32 room v).map .mk

/-- A skill's key written as a bare number. -/
def bareSkill : Decoder SkillId := fun room v => (Decoder.word32 room v).map .mk

/-- Coordinates: three numbers in round brackets. -/
def position : Decoder Position := fun room v =>
  match v with
  | .tuple none [x, y, z] => do
    if room < 2 then none
    else
      let x ← Decoder.int32 (room - 2) x
      let y ← Decoder.int32 (room - 2) y
      let z ← Decoder.int32 (room - 2) z
      return ⟨x, y, z⟩
  | _ => none

/-- An actor. -/
def castMember : Decoder CastMember :=
  .fields "ActorSpec"
    ["id", "kind", "npc_id", "level", "position", "aggressive", "reputation", "owner"]
    fun fs room => do
      let id ← Decoder.required fs room "id" bareActor
      let role ← Decoder.required fs room "kind" .named
      let npcId ← Decoder.optional fs room "npc_id" .word32 0
      let level ← Decoder.optional fs room "level" .word32 1
      let position ← Decoder.optional fs room "position" position .origin
      let aggressive ← Decoder.optional fs room "aggressive" .truth false
      let reputation ← Decoder.optional fs room "reputation" .int32 0
      let owner ← Decoder.optional fs room "owner" (.option bareActor) none
      return { id, role, npcId, level, position, aggressive, reputation, owner }

/-- Which effects to dispel. -/
def selector : Decoder Selector := fun room v =>
  match v with
  | .name n =>
    if room < 2 then none
    else
      match plain n with
      | "AllBuffs" => some .allBuffs
      | "AllDebuffs" => some .allDebuffs
      | "All" => some .all
      | _ => none
  | .tuple (some head) [inner] =>
    if room < 2 then none
    else
      match plain head with
      | "Skill" => (skillId (room - 2) inner).map .skill
      | "Abnormal" => (Decoder.named (room - 2) inner).map .abnormal
      | "Caster" => (actorId (room - 2) inner).map .caster
      | "Effect" => (effectId (room - 2) inner).map .effect
      | _ => none
  | _ => none

/-- The fields of a cast. -/
def cast (fs : List (String × Value)) (room : Nat) : Option Step := do
  let caster ← Decoder.required fs room "caster" bareActor
  let target ← Decoder.required fs room "target" bareActor
  let skill ← Decoder.required fs room "skill" bareSkill
  let level ← Decoder.optional fs room "level" .word32 1
  let enchant ← Decoder.optional fs room "enchant" .word32 0
  return .cast caster target skill level enchant

/-- The fields of a dispel. -/
def dispel (fs : List (String × Value)) (room : Nat) : Option Step := do
  let actor ← Decoder.required fs room "actor" bareActor
  let selector ← Decoder.required fs room "selector" selector
  return .dispel actor selector

/-- The fields of a cancel. -/
def cancel (fs : List (String × Value)) (room : Nat) : Option Step := do
  let requester ← Decoder.required fs room "requester" bareActor
  let actor ← Decoder.required fs room "actor" bareActor
  let skill ← Decoder.required fs room "skill" bareSkill
  return .cancel requester actor skill

/-- The fields of a cleanse. -/
def cleanse (fs : List (String × Value)) (room : Nat) : Option Step := do
  let actor ← Decoder.required fs room "actor" bareActor
  let group ← Decoder.required fs room "abnormal" .named
  return .cleanse actor group

/-- The field of a wait. -/
def wait (fs : List (String × Value)) (room : Nat) : Option Step := do
  return .wait (← Decoder.required fs room "ms" .word64)

/-- The only field of what happens to one actor. -/
def onActor (step : ActorId → Step) (fs : List (String × Value)) (room : Nat) : Option Step := do
  return step (← Decoder.required fs room "actor" bareActor)

/-- Something that happens. -/
def step : Decoder Step := fun room v =>
  match v with
  | .record (some head) fs =>
    if room = 0 then none
    else
      match plain head with
      | "Cast" =>
        Decoder.body ["caster", "target", "skill", "level", "enchant"] cast (room - 1) fs
      | "Dispel" => Decoder.body ["actor", "selector"] dispel (room - 1) fs
      | "Cancel" => Decoder.body ["requester", "actor", "skill"] cancel (room - 1) fs
      | "Cleanse" => Decoder.body ["actor", "abnormal"] cleanse (room - 1) fs
      | "Kill" => Decoder.body ["actor"] (onActor .kill) (room - 1) fs
      | "Remove" => Decoder.body ["actor"] (onActor .remove) (room - 1) fs
      | "Wait" => Decoder.body ["ms"] wait (room - 1) fs
      | _ => none
  | _ => none

/-- A scenario. -/
def scenario : Decoder Scenario :=
  .fields "Scenario" ["name", "actors", "steps"] fun fs room => do
    let name ← Decoder.required fs room "name" .text
    let actors ← Decoder.required fs room "actors" (.list castMember)
    let steps ← Decoder.required fs room "steps" (.list step)
    return { name, actors, steps }

/-- The first actor that is declared again, given those declared before. -/
def firstAgain? (seen : List ActorId) : List CastMember → Option ActorId
  | [] => none
  | m :: rest => if m.id ∈ seen then some m.id else firstAgain? (m.id :: seen) rest

/-- The scenario of a text. -/
def readScenario (text : String) : Except ScenarioFault Scenario :=
  match (Text.Record.read text).bind (scenario textRoom) with
  | none => .error .unreadable
  | some s =>
    match firstAgain? [] s.actors with
    | some actor => .error (.declaredTwice s.name actor)
    | none => .ok s

end Content

end StatusEffects
