import StatusEffects.Template

/-!
# Events

What the engine tells the outside about an effect: that it started, was renewed, ticked or ended,
each time with a summary of the effect as it is after the change.
-/

namespace StatusEffects

/-- Why an effect ended. -/
inductive EndReason where
  /-- Its duration is over, or it was complete. -/
  | expired
  /-- It was dispelled. -/
  | dispelled
  /-- A winning effect of its group took its place. -/
  | superseded
  /-- Its actor left the world. -/
  | actorRemoved
  /-- It refused to start. -/
  | vetoed
  /-- It failed. -/
  | faulted
deriving DecidableEq, Repr

instance : Named EndReason where
  all := [.expired, .dispelled, .superseded, .actorRemoved, .vetoed, .faulted]
  ident
    | .expired => "Expired"
    | .dispelled => "Dispelled"
    | .superseded => "Superseded"
    | .actorRemoved => "ActorRemoved"
    | .vetoed => "Vetoed"
    | .faulted => "Faulted"

/-- An effect as it was at one moment. -/
structure Summary where
  id : EffectId
  template : TemplateId
  caster : ActorId
  skill : Option Skill
  abnormalType : AbnormalType
  /-- What is left of the duration. -/
  remaining : UInt32
  /-- Number of ticks so far. -/
  ticks : UInt32
  enchantLevel : UInt32
  icon : UInt32
deriving DecidableEq, Repr

/-- A change of an effect of an actor. -/
inductive Event where
  /-- The effect became active. -/
  | started (actor : ActorId) (effect : Summary)
  /-- The effect was renewed by another cast. -/
  | refreshed (actor : ActorId) (effect : Summary)
  /-- The effect ticked with this strength. -/
  | ticked (actor : ActorId) (effect : Summary) (magnitude : Int32)
  /-- The effect is gone. -/
  | ended (actor : ActorId) (effect : Summary) (reason : EndReason)
deriving DecidableEq, Repr

namespace Event

/-- The actor of the effect. -/
def actor : Event → ActorId
  | .started a _ | .refreshed a _ | .ticked a _ _ | .ended a _ _ => a

/-- The summary of the effect. -/
def effect : Event → Summary
  | .started _ e | .refreshed _ e | .ticked _ e _ | .ended _ e _ => e

/-- Why the effect ended, if it did. -/
def endReason : Event → Option EndReason
  | .ended _ _ r => some r
  | _ => none

/-- Whether the event is a tick. -/
def isTick : Event → Bool
  | .ticked _ _ _ => true
  | _ => false

/-- A word for the kind of event. -/
def label : Event → String
  | .started _ _ => "started"
  | .refreshed _ _ => "refreshed"
  | .ticked _ _ _ => "ticked"
  | .ended _ _ _ => "ended"

end Event

/-- An event with the moment it happened at: for a timer the moment it was due. -/
structure Stamped where
  moment : Nat
  event : Event
deriving DecidableEq, Repr

end StatusEffects
