import StatusEffects.Clock
import StatusEffects.Feed
import StatusEffects.Metrics
import StatusEffects.TimerQueue
import StatusEffects.World

/-!
# Engine

The engine ties the actors and their effects to templates, a clock, the queue of timers and the
feed of events. Each request first changes one actor's effects, then cancels the timers of the
effects that have ended, then publishes what has happened.

## Main definitions

* `Engine` : the whole state.
* `Engine.settle` : cancels timers and publishes events after a change.
* `Engine.schedule` : queues a timer.
* `Engine.spawn` : registers an actor.
-/

namespace StatusEffects

/-- The state of an engine. -/
structure Engine where
  settings : Settings
  codex : Codex
  world : World := {}
  clock : Clock := {}
  queue : TimerQueue := {}
  feed : Feed
  metrics : Metrics := {}
  /-- The key of the next effect. -/
  nextEffect : Nat := 1

namespace Engine

/-- What the engine's clock shows. -/
def now (g : Engine) : Nat := g.clock.now

/-- The queue without the timers of the effects that ended. -/
def cancelEnded (q : TimerQueue) (events : List Event) : TimerQueue :=
  events.foldl (fun q e =>
    if e.endReason.isSome then (q.cancel (e.actor, e.effect.id)).1 else q) q

/-- Cancels the timers of the effects that ended, then publishes the events. -/
def settle (g : Engine) (moment : Nat) (events : List Event) : Engine :=
  { g with
    queue := cancelEnded g.queue events
    feed := g.feed.publishAll moment events }

/-- Records what an operation has left of an actor's effects, and settles its events. -/
def conclude {α : Type} (g : Engine) (actor : ActorId) (moment : Nat) (o : Outcome α) : Engine :=
  { g with world := g.world.setBearer actor o.bearer }.settle moment o.events

/-- Queues a timer and notes how many are pending. -/
def schedule (g : Engine) (timer : Timer) (due : Nat) : Engine :=
  let queue := g.queue.schedule timer due
  { g with
    queue
    metrics := { g.metrics with peak := max g.metrics.peak queue.size } }

/-- Registers an actor, or gives one that is registered another profile. -/
def spawn (g : Engine) (p : Profile) : Engine := { g with world := g.world.spawn p }

end Engine

end StatusEffects
