import StatusEffects.FlagSet
import StatusEffects.Ident
import StatusEffects.Position

/-!
# Actors

What conditions and effects can see of an actor: its profile.
-/

namespace StatusEffects

/-- The capability tags of an actor. -/
def actorTagNames : FlagNames where
  width := 16
  names := ["PLAYER", "NPC", "MONSTER", "ATTACKABLE", "RAID", "SUMMON", "PET", "GUARD"]

/-- A set of capability tags. -/
abbrev ActorTags := FlagSet actorTagNames

namespace ActorTags

/-- A character played by a person. -/
def player : ActorTags := .single 0

/-- A character of the world's own. -/
def npc : ActorTags := .single 1

/-- A hostile character of the world's own. -/
def monster : ActorTags := .single 2

/-- An actor that may be attacked. -/
def attackable : ActorTags := .single 3

/-- A boss of a raid. -/
def raid : ActorTags := .single 4

/-- A summoned servant. -/
def summon : ActorTags := .single 5

/-- A pet. -/
def pet : ActorTags := .single 6

/-- A guard. -/
def guard : ActorTags := .single 7

/-- The tags every monster carries. -/
def ofMonster : ActorTags := npc ∪ monster ∪ attackable

end ActorTags

/-- What others can see of an actor. -/
structure Profile where
  id : ActorId
  tags : ActorTags := ∅
  /-- Number of the character table entry the actor was made from; zero for none. -/
  npcId : UInt32 := 0
  level : UInt32 := 1
  position : Position := .origin
  alive : Bool := true
  /-- Whether a monster attacks on sight. -/
  aggressive : Bool := false
  /-- Standing of a player; a negative one marks a criminal. -/
  reputation : Int32 := 0
  /-- The player whom a pet or summon serves. -/
  owner : Option ActorId := none
deriving DecidableEq

/-- Whether the actor carries all of the given tags. -/
def Profile.is (p : Profile) (tags : ActorTags) : Bool := p.tags.contains tags

end StatusEffects
