import StatusEffects.Dispel

/-!
# Effect lists

The active effects of one actor in the order in which they were applied.

## Main definitions

* `EffectList` : the effects and the place the next one takes.
* `EffectList.get?`, `EffectList.erase`, `EffectList.update` : access by key.
* `EffectList.renewable?`, `EffectList.rivals`, `EffectList.holder?` : what an incoming effect meets
  in the list.
-/

namespace StatusEffects

/-- The first element that satisfies `p` replaced by its image under `f`. -/
def updateFirst {α : Type} (p : α → Bool) (f : α → α) : List α → List α
  | [] => []
  | a :: rest => if p a then f a :: rest else a :: updateFirst p f rest

theorem length_updateFirst {α : Type} (p : α → Bool) (f : α → α) (as : List α) :
    (updateFirst p f as).length = as.length := by
  induction as with
  | nil => rfl
  | cons a rest ih =>
    simp only [updateFirst]
    split <;> simp [ih]

/-- The active effects of one actor. -/
structure EffectList where
  /-- The actor. -/
  owner : ActorId
  /-- The effects in the order of application. -/
  effects : List Effect := []
  /-- The place of the next effect in that order. -/
  nextOrder : Nat := 0

namespace EffectList

/-- Number of effects. -/
def size (l : EffectList) : Nat := l.effects.length

/-- The effect with a key. -/
def get? (l : EffectList) (id : EffectId) : Option Effect := l.effects.find? (·.id == id)

/-- The list without the effect with a key. -/
def erase (l : EffectList) (id : EffectId) : EffectList :=
  { l with effects := l.effects.eraseP (·.id == id) }

/-- The list with another state of the effect with a key. -/
def update (l : EffectList) (id : EffectId) (e : Effect) : EffectList :=
  { l with effects := updateFirst (·.id == id) (fun _ => e) l.effects }

/-- The effects of one group, in the order of application. -/
def activeOf (l : EffectList) (group : AbnormalType) : List Effect :=
  l.effects.filter (·.abnormalType == group)

/-- The effects as they are now, in the order of application. -/
def summaries (l : EffectList) : List Summary := l.effects.map Effect.summary

/-! ### What an incoming effect meets -/

/-- Whether a cast of the incoming effect renews `e`: the same template from the same caster, unless
the template stacks with itself. -/
def renews (incoming e : Effect) : Bool :=
  !incoming.template.stacksWithSelf && e.abnormalType == incoming.abnormalType &&
    e.template.id == incoming.template.id && e.caster == incoming.caster

/-- The effect that the incoming one renews. -/
def renewable? (l : EffectList) (incoming : Effect) : Option Effect :=
  l.effects.find? (renews incoming)

/-- The list after renewing the effect that the incoming one renews. -/
def renew (l : EffectList) (incoming : Effect) (adopt : Bool) : EffectList :=
  { l with effects := updateFirst (renews incoming) (·.refresh incoming.params adopt) l.effects }

/-- Whether an effect competes with the others of its group. -/
def competes (e : Effect) : Bool := !e.template.stackable && e.abnormalType != .none

/-- The keys of the effects that the incoming one competes with: those of its group that do not
stack. -/
def rivals (l : EffectList) (incoming : Effect) : List EffectId :=
  if competes incoming then
    ((l.activeOf incoming.abnormalType).filter fun e => !e.template.stackable).map (·.id)
  else []

/-- Whether the incoming effect wins against the one in place, by its own rule. -/
def outranks (incoming incumbent : Effect) : Bool :=
  let new := incoming.params
  let old := incumbent.params
  match incoming.template.tieBreak with
  | .higherPriority => decide (old.priority ≤ new.priority)
  | .higherEnchant =>
    decide (old.enchantLevel < new.enchantLevel) ||
      (old.enchantLevel == new.enchantLevel && decide (old.priority ≤ new.priority))
  | .mostRecent => true
  | .keepExisting => false

/-- The first rival that the incoming effect does not win against. -/
def holder? (l : EffectList) (incoming : Effect) : Option EffectId :=
  (l.rivals incoming).find? fun id => (l.get? id).any fun e => !outranks incoming e

end EffectList

end StatusEffects
