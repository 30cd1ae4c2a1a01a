import StatusEffects.Content.Scenario
import StatusEffects.Service

/-!
# Replays

A scenario is replayed against a service: its actors enter the world, and then its steps happen one
after the other. Each step leaves notes on what came of it.

## Main definitions

* `Note` : what is noted, with its `level`, its `title` and its `fields`.
* `Service.step` : one step of a scenario.
* `Service.replay` : a whole scenario.
-/

namespace StatusEffects

/-- What is noted about a replay. -/
inductive Note where
  /-- The replay begins. -/
  | begins (scenario : String) (actors steps : Nat)
  /-- A template of a skill was applied. -/
  | applied (template : TemplateId) (answer : Applied)
  /-- A template of a skill was not applied. -/
  | refused (template : TemplateId) (cause : Refusal)
  | dispelled (actor : ActorId) (removed : Nat)
  | cancelled (requester actor : ActorId) (removed : Nat)
  | cleansed (actor : ActorId) (group : AbnormalType) (removed : Nat)
  | died (actor : ActorId) (removed : Nat)
  | left (actor : ActorId) (removed : Nat)
  /-- The clock was moved, and so many timers fired on the way. -/
  | advanced (ms : UInt64) (fired : Nat)
deriving DecidableEq, Repr

/-- How much a note matters. -/
inductive NoteLevel where
  | debug | info | warn
deriving DecidableEq, Repr

/-- The word for a level. -/
def NoteLevel.label : NoteLevel → String
  | .debug => "debug"
  | .info => "info"
  | .warn => "warn"

/-- What can stand in a note. -/
inductive NoteValue where
  | text (s : String)
  | number (n : Nat)
  | truth (b : Bool)
deriving DecidableEq, Repr

namespace Note

/-- Whether a note tells of something broken. -/
def isFailure : Note → Bool
  | refused _ cause => cause.diagnosis.severity.isInternal
  | _ => false

/-- How much a note matters. -/
def level : Note → NoteLevel
  | applied _ _ | advanced _ _ => .debug
  | n => if n.isFailure then .warn else .info

/-- What a note is headed by. -/
def title : Note → String
  | begins _ _ _ => "replaying scenario"
  | applied _ _ => "applied"
  | n@(refused _ _) => if n.isFailure then "cast failed" else "cast rejected"
  | dispelled _ _ => "dispel"
  | cancelled _ _ _ => "cancel"
  | cleansed _ _ _ => "cleanse"
  | died _ _ => "actor died"
  | left _ _ => "actor removed"
  | advanced _ _ => "advanced"

/-- An actor's key in a note. -/
def actorField (name : String) (actor : ActorId) : String × NoteValue :=
  (name, .number actor.val.toNat)

/-- The fields of a refusal. Whether trying again may help is told only where nothing is broken. -/
def refusalFields (template : TemplateId) (d : Diagnosis) : List (String × NoteValue) :=
  [("template", .text template.label), ("code", .text d.code),
    ("severity", .text d.severity.label)] ++
  (if d.severity.isInternal then [] else [("retryable", .truth d.severity.isRecoverable)]) ++
  [("error", .text d.message)]

/-- What a note tells. -/
def fields : Note → List (String × NoteValue)
  | begins scenario actors steps =>
    [("scenario", .text scenario), ("actors", .number actors), ("steps", .number steps)]
  | applied template answer =>
    [("template", .text template.label), ("effect", .text answer.effect.label),
      ("refreshed", .truth answer.refreshed)]
  | refused template cause => refusalFields template cause.diagnosis
  | dispelled actor removed => [actorField "actor" actor, ("removed", .number removed)]
  | cancelled requester actor removed =>
    [actorField "requester" requester, actorField "actor" actor, ("removed", .number removed)]
  | cleansed actor group removed =>
    [actorField "actor" actor, ("abnormal", .text (Named.name group)),
      ("removed", .number removed)]
  | died actor removed => [actorField "actor" actor, ("removed", .number removed)]
  | left actor removed => [actorField "actor" actor, ("removed", .number removed)]
  | advanced ms fired => [("ms", .number ms.toNat), ("fired", .number fired)]

end Note

namespace Service

/-- A request of the engine that answers a number. -/
def ask (s : Service) (note : Nat → Note) (request : Engine → Engine × Nat) :
    Service × List Note :=
  let (g, n) := request s.engine
  ({ s with engine := g }, [note n])

/-- Notes what came of a template of a skill. -/
def noteCast : TemplateId × Except Refusal Applied → Note
  | (t, .ok answer) => .applied t answer
  | (t, .error cause) => .refused t cause

/-- Waits. Without workers the clock is moved by hand and the timers on the way fire at once. -/
def wait (s : Service) (ms : UInt64) : Service × List Note :=
  if s.workers.isEmpty then
    s.ask (.advanced ms) fun g => g.advanceTo (later g.now ms.toNat)
  else (s.pass ms.toNat, [])

/-- What a step of a scenario does by itself. -/
def act (s : Service) : Step → Service × List Note
  | .cast caster target skill level enchant =>
    let (g, answers) := s.engine.applySkill caster target (.ofCombined skill level enchant)
    ({ s with engine := g }, answers.map noteCast)
  | .dispel actor selector => s.ask (.dispelled actor) (·.dispel actor selector)
  | .cancel requester actor skill =>
    s.ask (.cancelled requester actor) (·.cancelBuff requester actor skill)
  | .cleanse actor group => s.ask (.cleansed actor group) (·.dispel actor (.abnormal group))
  | .kill actor => s.ask (.died actor) (·.death actor)
  | .remove actor => s.ask (.left actor) (·.remove actor)
  | .wait ms => s.wait ms

/-- One step of a scenario, after which the workers have a turn. -/
def step (s : Service) (step : Step) : Service × List Note :=
  let (s', notes) := s.act step
  (s'.round, notes)

/-- The steps of a scenario, in order. -/
def steps (s : Service) : List Step → Service × List Note
  | [] => (s, [])
  | step :: rest =>
    let (s₁, notes) := s.step step
    let (s₂, more) := s₁.steps rest
    (s₂, notes ++ more)

/-- The service after the actors of a scenario have entered the world. -/
def cast (s : Service) (actors : List CastMember) : Service :=
  { s with engine := actors.foldl (fun g m => g.spawn m.profile) s.engine }

/-- Replays a scenario. -/
def replay (s : Service) (sc : Scenario) : Service × List Note :=
  let (s', notes) := (s.cast sc.actors).steps sc.steps
  (s', .begins sc.name sc.actors.length sc.steps.length :: notes)

end Service

end StatusEffects
