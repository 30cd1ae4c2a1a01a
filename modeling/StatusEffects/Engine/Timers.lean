import StatusEffects.Bearer.Timers
import StatusEffects.Engine

/-!
# Time

Due timers are fired one after the other. An effect that asks for its next timer gets it relative
to the moment the last one was due, not to the moment it was fired, so that no time is lost.

## Main definitions

* `Engine.fire` : fires one timer.
* `Engine.drainDue` : takes a batch of due timers out of the queue and fires them.
* `Engine.drainAll` : drains batches until nothing is due.
* `Engine.fireNext`, `Engine.advanceTo` : fires the timers due up to a moment in due order, with
  those that are asked for on the way.
-/

namespace StatusEffects

namespace Metrics

/-- The counts after one more timer. -/
def record (m : Metrics) : Firing → Metrics
  | .stale => { m with stale := m.stale + 1 }
  | .rescheduled _ => { m with fired := m.fired + 1, rescheduled := m.rescheduled + 1 }
  | .ended _ => { m with fired := m.fired + 1, ended := m.ended + 1 }

end Metrics

namespace Engine

/-- Counts a timer. -/
def record (g : Engine) (f : Firing) : Engine := { g with metrics := g.metrics.record f }

/-- Queues the next timer of an effect whose last one was due at `moment`. -/
def reschedule (g : Engine) (moment : Nat) : Firing → Engine
  | .rescheduled next => g.schedule next (later moment next.delay)
  | _ => g

/-- Fires a timer that was taken out of the queue. -/
def fire (g : Engine) (e : Entry) : Engine :=
  match g.world.get? e.timer.actor with
  | none => g.record .stale
  | some a =>
    let o := a.bearer.fire g.settings e.timer
    (((g.reschedule e.due o.answer).conclude e.timer.actor e.due o).record o.answer)

/-- Fires up to `max` of the timers that are due by now. The answer is their number. -/
def drainDue (g : Engine) (max : Nat) : Engine × Nat :=
  let (queue, due) := g.queue.popDue g.now max
  (due.foldl fire { g with queue }, due.length)

/-- Moves the clock to a timer just taken out of the queue, and fires it. -/
def fireNext (g : Engine) (queue : TimerQueue) (e : Entry) : Engine :=
  { g with queue, clock := g.clock.advanceTo e.due }.fire e

/-- Fires timers due by `deadline` until none is left, at most `fuel` of them, after `fired`
others. -/
def fireAll (g : Engine) (deadline fired : Nat) : (fuel : Nat) → Engine × Nat
  | 0 => (g, fired)
  | fuel + 1 =>
    match g.queue.pop deadline with
    | (_, none) => (g, fired)
    | (queue, some e) => (g.fireNext queue e).fireAll deadline (fired + 1) fuel

/-- A number of timers that is enough up to `deadline`: a pending timer fires at most once in each
millisecond, as does whatever timer takes its place. -/
def timersUpTo (g : Engine) (deadline : Nat) : Nat := (deadline + 1) * g.queue.size

/-- Drains batches of up to `batch` timers until one is empty, at most `fuel` of them. -/
def drainBatches (g : Engine) (batch : Nat) : (fuel : Nat) → Engine
  | 0 => g
  | fuel + 1 =>
    match g.drainDue batch with
    | (g', 0) => g'
    | (g', _ + 1) => g'.drainBatches batch fuel

/-- Drains batches of up to `batch` timers until nothing is due by now. -/
def drainAll (g : Engine) (batch : Nat) : Engine :=
  g.drainBatches batch (g.timersUpTo g.now + 1)

/-- Fires every timer due by `deadline` in due order, moving the clock along. The answer is their
number. -/
def advanceTo (g : Engine) (deadline : Nat) : Engine × Nat :=
  let (g', fired) := g.fireAll deadline 0 (g.timersUpTo deadline)
  ({ g' with clock := g'.clock.advanceTo deadline }, fired)

end Engine

end StatusEffects
