import StatusEffects.Bearer

/-!
# Firing timers

What a due timer does to a bearer. A timer whose effect is gone, or has been renewed since, is
stale and does nothing.

## Main definitions

* `Firing` : how a timer turns out.
* `Bearer.tick`, `Bearer.expire` : the two kinds of timer.
* `Bearer.fire` : a timer of either kind.
-/

namespace StatusEffects

/-- How a timer turns out. -/
inductive Firing where
  /-- It meets no active effect of its generation. -/
  | stale
  /-- The effect goes on and asks for the next timer. -/
  | rescheduled (next : Timer)
  /-- The effect has ended. -/
  | ended (reason : EndReason)
deriving DecidableEq, Repr

namespace Bearer

/-- Lets an effect tick. It ends when the tick completes it or its duration is over. -/
def tick (b : Bearer) (settings : Settings) (id : EffectId) (generation : UInt32) :
    Outcome Firing :=
  match b.list.get? id with
  | none => ⟨b, [], .stale⟩
  | some e =>
    if e.generation = generation ∧ e.isActive ∧ e.template.isPeriodic then
      let ticked := e.countTick
      let b' : Bearer := { b with list := b.list.update id ticked }
      let event := Event.ticked b.owner ticked.summary ticked.params.power
      match if e.act && !ticked.isExhausted then ticked.timer? settings.expiryUnit else none with
      | some next => ⟨b', [event], .rescheduled next⟩
      | none =>
        let (b'', ends) := b'.drop id .expired
        ⟨b'', event :: ends, .ended .expired⟩
    else ⟨b, [], .stale⟩

/-- Ends an effect whose duration is over. The answer is whether it was still to be ended. -/
def expire (b : Bearer) (id : EffectId) (generation : UInt32) : Outcome Bool :=
  match b.list.get? id with
  | none => ⟨b, [], false⟩
  | some e =>
    if e.generation = generation ∧ e.isActive then
      let (b', ends) := b.drop id .expired
      ⟨b', ends, true⟩
    else ⟨b, [], false⟩

/-- Fires a timer. -/
def fire (b : Bearer) (settings : Settings) (t : Timer) : Outcome Firing :=
  match t.kind with
  | .tick => b.tick settings t.effect t.generation
  | .expire =>
    let o := b.expire t.effect t.generation
    ⟨o.bearer, o.events, if o.answer then .ended .expired else .stale⟩

end Bearer

end StatusEffects
