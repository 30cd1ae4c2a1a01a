import StatusEffects.Actor
import StatusEffects.Binary64
import StatusEffects.Skill

/-!
# Conditions

A condition decides whether an effect may be applied. It is a tree of tests on a scene: who casts,
on whom, with which skill, and what the world around them looks like. Evaluation never fails: a
test whose input is missing is false.

## Main definitions

* `Surroundings` : the radius query of a world, which may have no answer.
* `Scene` : what a condition can look at.
* `Condition`, `Condition.holds` : the tests and their meaning.
-/

namespace StatusEffects

/-- Why a question about the world has no answer. -/
inductive WorldFault where
  /-- There is no world to ask. -/
  | absent
  /-- The world does not know yet where its actors are. -/
  | notReady
deriving DecidableEq, Repr

/-- The world as a condition sees it: the actors within a radius of a place. -/
structure Surroundings where
  near : Position → UInt32 → Except WorldFault (List Profile)

/-- What a condition can look at; any part but the value may be missing. -/
structure Scene where
  world : Option Surroundings := none
  caster : Option Profile := none
  target : Option Profile := none
  skill : Option Skill := none
  /-- A free number that comes with the request, such as damage dealt. -/
  value : Binary64 := .zero

/-- The actors within a radius, or the reason they are not known. -/
def Scene.near (s : Scene) (center : Position) (radius : UInt32) :
    Except WorldFault (List Profile) :=
  match s.world with
  | some world => world.near center radius
  | none => .error .absent

/-- A test on a scene. -/
inductive Condition where
  /-- A monster attacks on sight as stated; a player is a criminal. -/
  | targetAggro (aggressive : Bool)
  /-- A character made from the table entry stands within the radius of the caster. -/
  | rangeFromNpc (npcId radius : UInt32)
  /-- The target stands within the radius of the caster. -/
  | targetInRange (radius : UInt32)
  /-- The caster carries all the tags. -/
  | casterHasTags (tags : ActorTags)
  /-- The target carries all the tags. -/
  | targetHasTags (tags : ActorTags)
  /-- The target is alive, or dead, as stated. -/
  | targetAlive (alive : Bool)
  /-- The caster is alive, or dead, as stated. -/
  | casterAlive (alive : Bool)
  /-- The target's level is at most the given one. -/
  | targetLevelAtMost (level : UInt32)
  /-- The enchant level of the skill is at least the given one. -/
  | enchantLevelAtLeast (level : UInt32)
  /-- The value of the scene is at least the threshold. -/
  | valueAtLeast (threshold : Binary64)
  /-- All the conditions hold. -/
  | and (conditions : List Condition)
  /-- Some of the conditions holds. -/
  | or (conditions : List Condition)
  /-- The condition does not hold. -/
  | not (condition : Condition)

instance : Inhabited Condition := ⟨.and []⟩

namespace Condition

/-- Whether the target counts as aggressive: a monster as stated, a player by bad standing. -/
def aggroOf (target : Profile) (aggressive : Bool) : Bool :=
  if target.is .monster then target.aggressive == aggressive
  else if target.is .player then decide (target.reputation < 0)
  else false

/-- Whether another actor made from the table entry is known around the caster. Without an entry,
a radius, a caster or an answer from the world there is none. -/
def npcAround (s : Scene) (npcId radius : UInt32) : Bool :=
  if npcId = 0 ∨ radius = 0 then false
  else
    match s.caster with
    | none => false
    | some caster =>
      match s.near caster.position radius with
      | .error _ => false
      | .ok known => known.any fun a => a.id != caster.id && a.is .npc && a.npcId == npcId

/-- Whether the target stands within a positive radius of the caster. -/
def inRange (s : Scene) (radius : UInt32) : Bool :=
  decide (0 < radius) &&
    match s.caster, s.target with
    | some caster, some target => caster.position.within target.position radius
    | _, _ => false

mutual

/-- Whether a condition holds in a scene. -/
def holds (s : Scene) : Condition → Bool
  | .targetAggro aggressive => s.target.any (aggroOf · aggressive)
  | .rangeFromNpc npcId radius => npcAround s npcId radius
  | .targetInRange radius => inRange s radius
  | .casterHasTags tags => s.caster.any (·.is tags)
  | .targetHasTags tags => s.target.any (·.is tags)
  | .targetAlive alive => s.target.any (·.alive == alive)
  | .casterAlive alive => s.caster.any (·.alive == alive)
  | .targetLevelAtMost level => s.target.any fun t => decide (t.level ≤ level)
  | .enchantLevelAtLeast level => s.skill.any fun k => decide (level ≤ k.enchantLevel)
  | .valueAtLeast threshold => threshold.le s.value
  | .and conditions => allHold s conditions
  | .or conditions => anyHolds s conditions
  | .not condition => !holds s condition

/-- Whether all of the conditions hold. -/
def allHold (s : Scene) : List Condition → Bool
  | [] => true
  | c :: rest => holds s c && allHold s rest

/-- Whether one of the conditions holds. -/
def anyHolds (s : Scene) : List Condition → Bool
  | [] => false
  | c :: rest => holds s c || anyHolds s rest

end

theorem allHold_eq_all (s : Scene) (cs : List Condition) : allHold s cs = cs.all (holds s) := by
  induction cs with
  | nil => rfl
  | cons c rest ih => simp [allHold, ih]

theorem anyHolds_eq_any (s : Scene) (cs : List Condition) : anyHolds s cs = cs.any (holds s) := by
  induction cs with
  | nil => rfl
  | cons c rest ih => simp [anyHolds, ih]

end Condition

end StatusEffects
