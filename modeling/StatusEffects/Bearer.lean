import StatusEffects.EffectList
import StatusEffects.Effect.Lifecycle

/-!
# Bearers of effects

A bearer is an actor's effect list together with the status its effects have made. Effects come
and go only by the operations here and in the modules below, which keep the two in step and tell
every change as an event.

## Main definitions

* `Bearer`, `Outcome` : the pair, and what an operation on it leaves behind.
* `Bearer.drop`, `Bearer.dropAll` : ends the effects with given keys.
* `Bearer.clear` : ends every effect.
-/

namespace StatusEffects

/-- An actor's effects and what they have done to it. -/
structure Bearer where
  list : EffectList
  status : Status := {}

/-- A bearer after an operation, the events of the operation in order, and its answer. -/
structure Outcome (α : Type) where
  bearer : Bearer
  events : List Event
  answer : α

namespace Bearer

/-- An actor without effects. -/
def fresh (owner : ActorId) : Bearer := ⟨⟨owner, [], 0⟩, {}⟩

/-- The actor's key. -/
def owner (b : Bearer) : ActorId := b.list.owner

/-- The status after an effect has ended. -/
def statusWithout (b : Bearer) (e : Effect) : Status := (e.exit b.status).2.1

/-- Ends the effect with a key, if there is one. -/
def drop (b : Bearer) (id : EffectId) (reason : EndReason) : Bearer × List Event :=
  match b.list.get? id with
  | none => (b, [])
  | some e => (⟨b.list.erase id, b.statusWithout e⟩, [.ended b.owner e.summary reason])

/-- Ends the effects with the given keys one after the other. -/
def dropAll (b : Bearer) (reason : EndReason) : List EffectId → Bearer × List Event
  | [] => (b, [])
  | id :: rest =>
    let (b₁, first) := b.drop id reason
    let (b₂, others) := b₁.dropAll reason rest
    (b₂, first ++ others)

/-- Ends every effect, in the order of application. The answer is their number. -/
def clear (b : Bearer) (reason : EndReason) : Outcome Nat where
  bearer :=
    ⟨{ b.list with effects := [] }, b.list.effects.foldl (fun s e => (e.exit s).2.1) b.status⟩
  events := b.list.effects.map fun e => .ended b.owner e.summary reason
  answer := b.list.size

/-- Ends every effect that the selector aims at and the cause may remove, in the order of
application. The answer is their number. -/
def dispel (b : Bearer) (settings : Settings) (selector : Selector) (cause : Cause) : Outcome Nat :=
  let aimed := b.list.effects.filter fun e =>
    selector.selects e && cause.permits e.template settings
  let (b', events) := b.dropAll .dispelled (aimed.map (·.id))
  ⟨b', events, events.length⟩

theorem owner_drop (b : Bearer) (id : EffectId) (reason : EndReason) :
    (b.drop id reason).1.owner = b.owner := by
  simp only [drop]
  split <;> rfl

end Bearer

end StatusEffects
