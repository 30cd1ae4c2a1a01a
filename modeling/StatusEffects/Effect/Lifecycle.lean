import StatusEffects.Effect

/-!
# Life of an effect

What an effect does to its actor when it starts and ends. Starting may be refused by the kind of
the effect, or fail; then no entry of the effect is left on the actor. Ending withdraws every entry
of the effect, once.

## Main definitions

* `Effect.contribute` : what the kind of an effect does at its start.
* `Effect.start`, `Effect.act`, `Effect.exit` : the steps of its life.
-/

namespace StatusEffects

/-- How the start of an effect turns out. -/
inductive Start where
  /-- The effect has made its entries. -/
  | made (status : Status)
  /-- The effect refuses to start. -/
  | vetoed
  /-- The start failed. -/
  | failed (cause : HookFault)
deriving DecidableEq

namespace Effect

/-- The status with the visual of the template. -/
def displayed (e : Effect) (extra : Visuals) (s : Status) : Status :=
  s.display e.id (e.template.visual ∪ extra)

/-- What the kind of the effect does when it starts. Bosses cannot be lifted, and an attackable
actor that is held already is left alone; recovery is for players; nobody changes form twice. -/
def contribute (e : Effect) (p : Profile) (s : Status) : Start :=
  match e.template.kind with
  | .buff | .debuff => .made (e.displayed ∅ (s.grant e.id e.template.bonuses))
  | .paralyze => .made (e.displayed .paralyze (s.hold e.id))
  | .liftHold =>
    if p.is .raid then .vetoed
    else if p.is .attackable && s.isHeld then .vetoed
    else .made (e.displayed .liftHold (s.hold e.id))
  | .recovery => if p.is .player then .made (e.displayed ∅ s) else .vetoed
  | .periodic | .marker => .made (e.displayed ∅ s)
  | .transform =>
    if s.appearance.isSome then .vetoed
    else if e.template.form = 0 then
      .failed (.failed "transform template has no transform id")
    else .made (e.displayed ∅ (s.transform e.id e.template.form))

/-- Whether the effect goes on after a tick; recovery is complete with the first. -/
def goesOn (e : Effect) : Bool := e.template.kind != .recovery

/-- Starts a pending effect: the effect and the status after it, and whether the effect is active.
A failed start withdraws whatever the effect had done. -/
def start (e : Effect) (p : Profile) (s : Status) : Effect × Status × Except HookFault Bool :=
  if e.phase != .pending then (e, s, .ok e.isActive)
  else
    match e.contribute p s with
    | .made s' => ({ e with phase := .active }, s', .ok true)
    | .vetoed => ({ e with phase := .exited }, s, .ok false)
    | .failed cause => ({ e with phase := .exited }, s.withdraw e.id, .error cause)

/-- Whether the effect is active and goes on after a tick now. -/
def act (e : Effect) : Bool := e.isActive && e.goesOn

/-- Ends an effect: the effect and the status after it, and whether it was active. -/
def exit (e : Effect) (s : Status) : Effect × Status × Bool :=
  match e.phase with
  | .active => ({ e with phase := .exited }, s.withdraw e.id, true)
  | .pending => ({ e with phase := .exited }, s, false)
  | .exited => (e, s, false)

end Effect

end StatusEffects
