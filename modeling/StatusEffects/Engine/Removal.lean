import StatusEffects.Engine

/-!
# Requests to remove effects

Effects are removed by a cleanse, by the player whose they are, by the death of their actor and
when the actor leaves the world.

## Main definitions

* `Engine.dispel`, `Engine.cancelBuff` : removal on request.
* `Engine.death`, `Engine.revive`, `Engine.remove` : what becomes of an actor.
-/

namespace StatusEffects

namespace Engine

/-- Removes the effects of an actor that the selector aims at and the cause may remove. The answer
is their number; an unknown actor has none. -/
def dispelFor (g : Engine) (actor : ActorId) (selector : Selector) (cause : Cause) : Engine × Nat :=
  match g.world.get? actor with
  | none => (g, 0)
  | some a =>
    let o := a.bearer.dispel g.settings selector cause
    (g.conclude actor g.now o, o.answer)

/-- Cleanses an actor. -/
def dispel (g : Engine) (actor : ActorId) (selector : Selector) : Engine × Nat :=
  g.dispelFor actor selector .cleanse

/-- Whether a player may cancel effects of an actor: their own, and those of whom they own. -/
def mayCancel (g : Engine) (requester actor : ActorId) : Bool :=
  requester == actor || (g.world.profile? actor).any (·.owner == some requester)

/-- A player cancels the effects of a skill. -/
def cancelBuff (g : Engine) (requester actor : ActorId) (skill : SkillId) : Engine × Nat :=
  if g.mayCancel requester actor then g.dispelFor actor (.skill skill) .voluntary else (g, 0)

/-- The actor dies: the effects that do not outlive it are removed. -/
def death (g : Engine) (actor : ActorId) : Engine × Nat :=
  if g.world.contains actor then
    { g with world := g.world.modifyProfile actor fun p => { p with alive := false } }.dispelFor
      actor .all .death
  else (g, 0)

/-- The actor comes back to life with the effects it has. The answer is whether it is known. -/
def revive (g : Engine) (actor : ActorId) : Engine × Bool :=
  ({ g with world := g.world.modifyProfile actor fun p => { p with alive := true } },
    g.world.contains actor)

/-- The actor leaves the world and all its effects end. -/
def remove (g : Engine) (actor : ActorId) : Engine × Nat :=
  match g.world.get? actor with
  | none => (g, 0)
  | some a =>
    let o := a.bearer.clear .actorRemoved
    ({ g with world := g.world.remove actor }.settle g.now o.events, o.answer)

end Engine

end StatusEffects
