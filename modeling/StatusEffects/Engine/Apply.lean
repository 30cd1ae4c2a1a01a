import StatusEffects.Bearer.Apply
import StatusEffects.Engine

/-!
# Requests to apply effects

A request names a template, a caster and a target. It passes a gate, which asks that the target is
there and alive and that the condition of the template holds, before the target's effects are
looked at.

## Main definitions

* `Request`, `Applied` : a request, and what is told about a successful one.
* `Engine.gate` : the target of a request, or why there is none to receive the effect.
* `Engine.apply`, `Engine.applySkill` : applies one template, or all those of a skill.
-/

namespace StatusEffects

/-- A request to apply a template. -/
structure Request where
  template : TemplateId
  caster : ActorId
  target : ActorId
  skill : Option Skill := none
  /-- A free number that conditions can look at. -/
  value : Binary64 := .zero

/-- What is told about a successful request. -/
structure Applied where
  actor : ActorId
  effect : EffectId
  /-- Whether an active effect was renewed. -/
  refreshed : Bool
deriving DecidableEq, Repr

namespace Engine

/-- What the condition of a template looks at. -/
def scene (g : Engine) (r : Request) : Scene where
  world := some g.world.surroundings
  caster := g.world.profile? r.caster
  target := g.world.profile? r.target
  skill := r.skill
  value := r.value

/-- The target of a request, if it can receive an effect of the template. -/
def gate (g : Engine) (t : Template) (r : Request) : Except Refusal Actor :=
  match g.world.get? r.target with
  | none => .error (.actorNotFound r.target)
  | some actor =>
    if !actor.profile.alive then .error (.dead r.target)
    else if t.condition.all (Condition.holds (g.scene r)) then .ok actor
    else .error (.conditionFailed t.id)

/-- The pending effect of a request, under the next key. -/
def incoming (g : Engine) (t : Template) (r : Request) : Effect :=
  .ofCast ⟨g.nextEffect⟩ t r.caster r.target r.skill

/-- Queues the timer that a successful application asks for. -/
def scheduleFor (g : Engine) (a : Admission) : Engine :=
  match a.timer with
  | some timer => g.schedule timer (later g.now timer.delay)
  | none => g

/-- Applies a template to the target of a request. -/
def applyTemplate (g : Engine) (t : Template) (r : Request) : Engine × Except Refusal Applied :=
  match g.gate t r with
  | .error refusal => (g, .error refusal)
  | .ok actor =>
    let o := actor.bearer.apply actor.profile g.settings (g.incoming t r)
    let g' := { g with nextEffect := g.nextEffect + 1 }.conclude r.target g.now o
    match o.answer with
    | .error refusal => (g', .error refusal)
    | .ok a => (g'.scheduleFor a, .ok ⟨r.target, a.id, a.isRefresh⟩)

/-- Applies the template that a request names. -/
def apply (g : Engine) (r : Request) : Engine × Except Refusal Applied :=
  match g.codex.get? r.template with
  | none => (g, .error (.templateNotFound r.template))
  | some t => g.applyTemplate t r

/-- Applies templates one after the other for a cast of a skill. -/
def applyEach (g : Engine) (caster target : ActorId) (skill : Skill) :
    List Template → Engine × List (TemplateId × Except Refusal Applied)
  | [] => (g, [])
  | t :: rest =>
    let (g₁, answer) := g.applyTemplate t ⟨t.id, caster, target, some skill, .zero⟩
    let (g₂, answers) := g₁.applyEach caster target skill rest
    (g₂, (t.id, answer) :: answers)

/-- Applies every template of a skill. -/
def applySkill (g : Engine) (caster target : ActorId) (skill : Skill) :
    Engine × List (TemplateId × Except Refusal Applied) :=
  g.applyEach caster target skill (g.codex.forSkill skill.id)

end Engine

end StatusEffects
