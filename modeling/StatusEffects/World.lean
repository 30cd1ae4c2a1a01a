import StatusEffects.Bearer

/-!
# World

The registered actors: the profile of each with the effects it bears. Spatial queries can be
unavailable; conditions then treat what they ask about as false.

## Main definitions

* `Actor`, `World` : the actors, at most one for each key.
* `World.get?`, `World.spawn`, `World.remove`, `World.modify` : access by key.
* `World.near` : the profiles within a radius.
-/

namespace StatusEffects

/-- A registered actor. -/
structure Actor where
  profile : Profile
  bearer : Bearer

/-- The registered actors. -/
structure World where
  actors : List Actor := []
  /-- Whether it is known where the actors are. -/
  spatialReady : Bool := true

namespace World

/-- The actor with a key. -/
def get? (w : World) (id : ActorId) : Option Actor :=
  w.actors.find? (·.profile.id == id)

/-- The profile of the actor with a key. -/
def profile? (w : World) (id : ActorId) : Option Profile := (w.get? id).map (·.profile)

/-- Whether an actor is registered. -/
def contains (w : World) (id : ActorId) : Bool := (w.get? id).isSome

/-- Number of actors. -/
def size (w : World) : Nat := w.actors.length

/-- The world with the actor of a key changed. -/
def modify (w : World) (id : ActorId) (f : Actor → Actor) : World :=
  { w with actors := updateFirst (·.profile.id == id) f w.actors }

/-- The world with the profile of an actor changed. -/
def modifyProfile (w : World) (id : ActorId) (f : Profile → Profile) : World :=
  w.modify id fun a => { a with profile := f a.profile }

/-- The world with what an actor bears replaced. -/
def setBearer (w : World) (id : ActorId) (b : Bearer) : World :=
  w.modify id fun a => { a with bearer := b }

/-- Registers an actor. An actor registered before keeps its effects under the new profile. -/
def spawn (w : World) (p : Profile) : World :=
  if w.contains p.id then w.modifyProfile p.id fun _ => p
  else { w with actors := w.actors ++ [⟨p, .fresh p.id⟩] }

/-- The world without an actor. -/
def remove (w : World) (id : ActorId) : World :=
  { w with actors := w.actors.filter (·.profile.id != id) }

/-- The profiles of the actors at most `radius` away from a place. -/
def near (w : World) (center : Position) (radius : UInt32) : Except WorldFault (List Profile) :=
  if w.spatialReady then
    .ok ((w.actors.map (·.profile)).filter fun p => center.within p.position radius)
  else .error .notReady

/-- The world as conditions see it. -/
def surroundings (w : World) : Surroundings := ⟨w.near⟩

end World

end StatusEffects
