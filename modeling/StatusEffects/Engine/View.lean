import StatusEffects.Engine

/-!
# What an engine tells

The effects of an actor as clients see them, its status, and the timers that are pending.
-/

namespace StatusEffects

namespace Engine

/-- Number of pending timers. -/
def pendingTimers (g : Engine) : Nat := g.queue.size

/-- The moment the first pending timer is due. -/
def nextDue (g : Engine) : Option Nat := g.queue.nextDue.2

/-- Expiry units from now until a moment; a begun unit counts. -/
def unitsUntil (g : Engine) (due : Nat) : UInt32 :=
  let unit := max g.settings.expiryUnit.toNat 1
  UInt32.ofNat (min ((due - g.now + unit - 1) / unit) (UInt32.size - 1))

/-- A summary that counts down: an effect with a timer for its end has the expiry units left until
that is due. -/
def counted (g : Engine) (actor : ActorId) (s : Summary) : Summary :=
  match g.queue.expiryOf (actor, s.id) with
  | some due => { s with remaining := g.unitsUntil due }
  | none => s

/-- The effects of an actor in the order of application; an unknown actor has none. -/
def effects (g : Engine) (actor : ActorId) : List Summary :=
  match g.world.get? actor with
  | some a => a.bearer.list.summaries.map (g.counted actor)
  | none => []

/-- The status of an actor. -/
def status (g : Engine) (actor : ActorId) : Option Status :=
  (g.world.get? actor).map (·.bearer.status)

end Engine

end StatusEffects
