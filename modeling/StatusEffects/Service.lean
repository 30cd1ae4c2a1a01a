import StatusEffects.Engine.Apply
import StatusEffects.Engine.Removal
import StatusEffects.Worker

/-!
# Service

An engine made ready for use: settings checked, actors registered, and workers that fire due timers
while time passes. Whoever lets time pass goes on before a worker whose alarm rings at that very
moment; the worker has its turn when time is given to it again.

## Main definitions

* `Service.Config`, `Service.Fault` : what is asked for, and why it cannot be had.
* `Service.build` : a service, or the reason there is none.
* `Service.round` : a turn for every worker.
* `Service.pass` : lets time pass.
* `Service.sleep` : lets time pass, and lets the workers fire what is due then.
-/

namespace StatusEffects

/-- An engine and the workers that fire its timers. -/
structure Service where
  engine : Engine
  workers : List Worker
  /-- Number of timers a worker fires at a time. -/
  batch : UInt64
  /-- Milliseconds that have passed for the workers. A clock moved by hand does not count them. -/
  elapsed : Nat := 0

namespace Service

/-- What is asked of a service. -/
structure Config where
  settings : Settings := {}
  workers : UInt64 := 2
  /-- Number of events that a reader may leave unread. -/
  eventBuffer : UInt64 := 256
  /-- Number of timers a worker fires at a time. -/
  batch : UInt64 := 64
deriving DecidableEq, Repr

/-- Why there is no service. -/
inductive Fault where
  /-- There are no templates. -/
  | missingTemplates
  /-- A number that must be positive is zero. -/
  | notPositive (field : String)
deriving DecidableEq, Repr

namespace Fault

/-- The word for a fault. -/
def code : Fault → String
  | missingTemplates => "MissingTemplates"
  | notPositive _ => "InvalidConfig"

/-- What is told about a fault. -/
def message : Fault → String
  | missingTemplates => "runtime requires a template oracle to be configured before building"
  | notPositive field => "invalid runtime configuration: " ++ field ++ " must be positive"

end Fault

/-- The first number of a configuration that must be positive and is not. -/
def Config.fault? (c : Config) : Option Fault :=
  if c.eventBuffer = 0 then some (.notPositive "event_buffer_size")
  else if c.batch = 0 then some (.notPositive "drain_batch")
  else if c.settings.expiryUnit = 0 then some (.notPositive "expiry_unit_ms")
  else if c.settings.maxEffects = 0 then some (.notPositive "max_effects_per_actor")
  else none

/-- An engine as configured, with its actors. -/
def engineOf (c : Config) (codex : Codex) (clock : Clock) (actors : List Profile) : Engine :=
  actors.foldl Engine.spawn
    { settings := c.settings, codex, clock, feed := .ofCapacity c.eventBuffer.toNat }

/-- A service with the given templates, clock and actors. -/
def build (c : Config) (codex : Option Codex) (clock : Clock) (actors : List Profile) :
    Except Fault Service :=
  match codex with
  | none => .error .missingTemplates
  | some codex =>
    match c.fault? with
    | some fault => .error fault
    | none =>
      .ok
        { engine := engineOf c codex clock actors
          workers := List.replicate c.workers.toNat .busy
          batch := c.batch }

/-! ### Turns -/

/-- Every worker has a turn, those at work before those that waited. -/
def round (s : Service) : Service :=
  let inTurn := s.workers.filter (· == .busy) ++ s.workers.filter (· != .busy)
  let (workers, engine) := (inTurn.mapM (Worker.turn s.batch.toNat s.elapsed)).run s.engine
  { s with engine, workers }

/-- Whether no worker has reason to look at the timers. -/
def isQuiet (s : Service) : Bool := s.workers.all fun w => !w.isAwake s.engine s.elapsed

/-- Whether timers are due, and a worker is awake to fire them. -/
def isBehind (s : Service) : Bool :=
  s.engine.nextDue.any (· ≤ s.engine.now) && !s.isQuiet

/-- Rounds as long as `goesOn` holds, at most `fuel` of them. -/
def roundsWhile (goesOn : Service → Bool) (s : Service) : (fuel : Nat) → Service
  | 0 => s
  | fuel + 1 => if goesOn s then s.round.roundsWhile goesOn fuel else s

/-- A number of rounds that is enough: each fires a timer, but for one that finds nothing due. -/
def enoughRounds (s : Service) : Nat := s.engine.timersUpTo s.engine.now + 1

/-- The workers go on until all of them wait. -/
def quieten (s : Service) : Service := s.roundsWhile (!·.isQuiet) s.enoughRounds

/-- The workers that are awake go on until nothing is due. -/
def catchUp (s : Service) : Service := s.roundsWhile isBehind s.enoughRounds

/-! ### Time -/

/-- Time has passed up to `moment`, by a clock that follows it too. -/
def reach (s : Service) (moment : Nat) : Service :=
  { s with
    engine := { s.engine with clock := s.engine.clock.pass (moment - s.elapsed) }
    elapsed := moment }

/-- The first alarm that a worker waits for. -/
def nextAlarm (s : Service) : Option Nat := (s.workers.filterMap (·.alarm?)).min?

/-- Time passes up to `moment`, and the workers go on at every alarm before, at most `fuel` of
them. -/
def passUntil (s : Service) (moment : Nat) : (fuel : Nat) → Service
  | 0 => s.reach moment
  | fuel + 1 =>
    match s.nextAlarm.filter (· < moment) with
    | none => s.reach moment
    | some alarm => (s.reach alarm).quieten.passUntil moment fuel

/-- Lets time pass. The workers go on first, as long as they have something to do, unless no time
passes at all. -/
def pass (s : Service) (ms : Nat) : Service :=
  if ms = 0 then s else s.quieten.passUntil (s.elapsed + ms) ms

/-- Lets time pass, and has the workers that are awake then fire what is due. -/
def sleep (s : Service) (ms : Nat) : Service := (s.pass ms).catchUp

end Service

end StatusEffects
