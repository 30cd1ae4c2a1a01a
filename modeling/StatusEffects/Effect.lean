import StatusEffects.Event
import StatusEffects.Refusal
import StatusEffects.Settings
import StatusEffects.Template.Resolve

/-!
# Running effects

An effect is one instance of a template on one actor. It is pending until it starts, active while
it runs and exited for ever after.

## Main definitions

* `Effect` : the instance and its state.
* `Timer` : the timer an active effect asks for, tied to one generation of the effect.
* `Effect.refresh`, `Effect.countTick` : renewal and the countdown of ticks.
* `Effect.timer?`, `Effect.summary` : the timer an effect needs and what is told about it.
-/

namespace StatusEffects

/-- Where an effect stands in its life. -/
inductive Phase where
  | pending | active | exited
deriving DecidableEq, Repr

instance : Named Phase where
  all := [.pending, .active, .exited]
  ident
    | .pending => "Pending"
    | .active => "Active"
    | .exited => "Exited"

/-- What a timer does when it fires. -/
inductive TimerKind where
  /-- Makes the effect tick. -/
  | tick
  /-- Ends the effect. -/
  | expire
deriving DecidableEq, Repr

instance : Named TimerKind where
  all := [.tick, .expire]
  ident
    | .tick => "Tick"
    | .expire => "Expire"

/-- A timer an effect asks for. It holds for one generation of the effect: when the effect has been
renewed since, the timer is stale. -/
structure Timer where
  actor : ActorId
  effect : EffectId
  kind : TimerKind
  /-- Milliseconds from now until the timer is due. -/
  delay : Nat
  generation : UInt32
deriving DecidableEq, Repr

/-- One instance of a template on one actor. -/
structure Effect where
  id : EffectId
  template : Template
  caster : ActorId
  /-- The actor that the effect is on. -/
  target : ActorId
  skill : Option Skill
  params : Params
  /-- What is left of the duration; ticks count it down. -/
  remaining : UInt32
  /-- Number of ticks so far. -/
  ticks : UInt32 := 0
  /-- Place in the order of application. -/
  order : Nat := 0
  /-- Number of renewals so far, as a word that wraps around. -/
  generation : UInt32 := 0
  phase : Phase := .pending

namespace Effect

/-- A pending effect for a cast of the template. -/
def ofCast (id : EffectId) (template : Template) (caster target : ActorId)
    (skill : Option Skill) : Effect where
  id
  template
  caster
  target
  skill
  params := template.resolve skill
  remaining := (template.resolve skill).duration

/-- The group the effect competes in. -/
def abnormalType (e : Effect) : AbnormalType := e.template.abnormalType

/-- Whether the effect is running. -/
def isActive (e : Effect) : Bool := e.phase == .active

/-- Whether the effect never ends by itself. -/
def isPermanent (e : Effect) : Bool := e.params.duration == 0

/-- The effect renewed by a cast with the given parameters. Its duration starts again and timers
asked for earlier are stale; the enchant level stays unless the new one is adopted. -/
def refresh (e : Effect) (params : Params) (adopt : Bool) : Effect :=
  { e with
    params := { params with
      enchantLevel := if adopt then params.enchantLevel else e.params.enchantLevel }
    remaining := params.duration
    generation := e.generation + 1 }

/-- The effect after one more tick. A permanent effect has nothing to count down. -/
def countTick (e : Effect) : Effect :=
  { e with
    ticks := e.ticks + 1
    remaining :=
      if e.isPermanent then e.remaining else if e.remaining = 0 then 0 else e.remaining - 1 }

/-- Whether the duration is over. -/
def isExhausted (e : Effect) : Bool := !e.isPermanent && e.remaining == 0

/-- The timer the effect needs in its present generation. An effect that ticks needs one for the
next tick, another one needs one for its end, and a permanent one without ticks needs none. -/
def timer? (e : Effect) (expiryUnit : UInt64) : Option Timer :=
  if !e.isActive then none
  else if e.template.isPeriodic then
    some ⟨e.target, e.id, .tick, e.template.tickInterval.toNat, e.generation⟩
  else if e.isPermanent then none
  else some ⟨e.target, e.id, .expire, min (e.remaining.toNat * expiryUnit.toNat) lastMoment,
    e.generation⟩

/-- The effect as it is now. -/
def summary (e : Effect) : Summary where
  id := e.id
  template := e.template.id
  caster := e.caster
  skill := e.skill
  abnormalType := e.abnormalType
  remaining := e.remaining
  ticks := e.ticks
  enchantLevel := e.params.enchantLevel
  icon := e.template.icon

end Effect

end StatusEffects
