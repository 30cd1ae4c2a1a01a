import StatusEffects.Bearer

/-!
# Applying an effect

What happens when an effect is cast on a bearer.

1. An effect of the same template from the same caster is renewed, unless the template stacks with
   itself.
2. An effect that does not stack competes with the one of its group that does not stack either. The
   loser is ended before the winner starts.
3. Effects that stack, and those without a group, compete with none.

## Main definitions

* `Admission` : how a successful application turns out.
* `Bearer.begin` : starts an effect that has no rivals left.
* `Bearer.apply` : the whole of it.
-/

namespace StatusEffects

/-- How a successful application turns out, with the timer the effect asks for. -/
inductive Admission where
  /-- A new effect is active. -/
  | started (id : EffectId) (timer : Option Timer)
  /-- An active effect was renewed; its earlier timers are stale. -/
  | refreshed (id : EffectId) (timer : Option Timer)
deriving DecidableEq, Repr

namespace Admission

/-- The effect. -/
def id : Admission → EffectId
  | .started i _ | .refreshed i _ => i

/-- The timer it asks for. -/
def timer : Admission → Option Timer
  | .started _ t | .refreshed _ t => t

/-- Whether an active effect was renewed. -/
def isRefresh : Admission → Bool
  | .started _ _ => false
  | .refreshed _ _ => true

end Admission

namespace Bearer

/-- Starts an effect behind all the others. A refused or failed start is told as an end, uses up
the place in the order, and leaves nothing else. -/
def begin (b : Bearer) (p : Profile) (settings : Settings) (incoming : Effect) :
    Outcome (Except Refusal Admission) :=
  let list := { b.list with nextOrder := b.list.nextOrder + 1 }
  match ({ incoming with order := b.list.nextOrder } : Effect).start p b.status with
  | (e, status, .ok true) =>
    ⟨⟨{ list with effects := list.effects ++ [e] }, status⟩, [.started b.owner e.summary],
      .ok (.started e.id (e.timer? settings.expiryUnit))⟩
  | (e, status, .ok false) =>
    ⟨⟨list, status⟩, [.ended b.owner e.summary .vetoed], .error (.vetoed e.template.id)⟩
  | (e, status, .error cause) =>
    ⟨⟨list, status⟩, [.ended b.owner e.summary .faulted],
      .error (.startFailed e.template.id cause)⟩

/-- Starts an effect after ending the given rivals. -/
def replace (b : Bearer) (p : Profile) (settings : Settings) (incoming : Effect)
    (rivals : List EffectId) : Outcome (Except Refusal Admission) :=
  let (b', losses) := b.dropAll .superseded rivals
  let o := b'.begin p settings incoming
  { o with events := losses ++ o.events }

/-- Applies an effect to a bearer with the given profile. -/
def apply (b : Bearer) (p : Profile) (settings : Settings) (incoming : Effect) :
    Outcome (Except Refusal Admission) :=
  match b.list.renewable? incoming with
  | some e =>
    let renewed := e.refresh incoming.params settings.refreshAdoptsEnchant
    ⟨{ b with list := b.list.renew incoming settings.refreshAdoptsEnchant },
      [.refreshed b.owner renewed.summary],
      .ok (.refreshed renewed.id (renewed.timer? settings.expiryUnit))⟩
  | none =>
    match b.list.holder? incoming with
    | some incumbent => ⟨b, [], .error (.outranked incoming.template.id incumbent)⟩
    | none =>
      let rivals := b.list.rivals incoming
      if settings.maxEffects.toNat ≤ b.list.size - rivals.length then
        ⟨b, [], .error (.full b.owner)⟩
      else b.replace p settings incoming rivals

end Bearer

end StatusEffects
