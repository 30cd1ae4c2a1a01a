import StatusEffects.Engine.Timers
import StatusEffects.Engine.View

/-!
# Workers

Workers share the timers of an engine. A worker fires what is due in batches. After a full batch it
lets the others have a turn before it goes on; a batch that is not full leaves nothing due, and the
worker waits until a timer is scheduled, or until the next one is due. It knows when that is from
the clock at the time it begins to wait, so a clock moved by hand may be ahead of it.

## Main definitions

* `Worker` : what a worker is doing.
* `Worker.isAwake` : whether it has reason to look at the timers.
* `Worker.turn` : what it does when it has its turn.
-/

namespace StatusEffects

/-- What a worker is doing. -/
inductive Worker where
  /-- It is at work: it has yet to look at the timers, or its last batch was full. -/
  | busy
  /-- It waits for a timer to be scheduled after the first `seen` ones, or for its alarm. -/
  | waiting (seen : Nat) (alarm : Option Nat)
deriving DecidableEq, Repr

namespace Worker

/-- When a worker looks at the timers again without being told to. -/
def alarm? : Worker → Option Nat
  | busy => none
  | waiting _ alarm => alarm

/-- Whether a worker has reason to look at the timers, after so many milliseconds. -/
def isAwake (g : Engine) (elapsed : Nat) : Worker → Bool
  | busy => true
  | waiting seen alarm => seen != g.queue.nextSeq || alarm.any (· ≤ elapsed)

/-- A worker that waits for the next timer, after so many milliseconds. -/
def await (g : Engine) (elapsed : Nat) : Worker :=
  waiting g.queue.nextSeq (g.nextDue.map fun due => elapsed + (due - g.now))

/-- A worker fires batches until one is full, or until no timer is scheduled while it fires one, at
most `fuel` of them. -/
def fireBatches (batch elapsed : Nat) (g : Engine) : (fuel : Nat) → Worker × Engine
  | 0 => (busy, g)
  | fuel + 1 =>
    let (g', fired) := g.drainDue batch
    if fired = batch then (busy, g')
    else if g'.queue.nextSeq = g.queue.nextSeq then (await g' elapsed, g')
    else fireBatches batch elapsed g' fuel

/-- The turn of a worker, which it spends asleep unless it is awake. -/
def turn (batch elapsed : Nat) (w : Worker) : StateM Engine Worker := fun g =>
  if w.isAwake g elapsed then fireBatches batch elapsed g (g.timersUpTo g.now + 1) else (w, g)

end Worker

end StatusEffects
