import StatusEffects.Template.Codex

/-!
# Errors

Why an application is refused, a hook fails, the world gives no answer or a codex is rejected.
Every cause has a text for people, a code for programs and a severity.

## Main definitions

* `HookFault`, `Refusal` : the causes that an application can meet.
* `Severity` : how bad a cause is.
* `Diagnosis` : text, code and severity of a cause.
-/

namespace StatusEffects

/-- Why a hook of an effect failed. -/
inductive HookFault where
  /-- The hook gave up for the reason stated. -/
  | failed (reason : String)
  /-- The hook broke down with a message. -/
  | panicked (message : String)
deriving DecidableEq, Repr

/-- Why an application is refused. -/
inductive Refusal where
  | templateNotFound (template : TemplateId)
  | actorNotFound (actor : ActorId)
  | actorIneligible (actor : ActorId) (reason : String)
  | conditionFailed (template : TemplateId)
  /-- The effect in place wins. -/
  | outranked (incoming : TemplateId) (incumbent : EffectId)
  | vetoed (template : TemplateId)
  | startFailed (template : TemplateId) (cause : HookFault)
deriving DecidableEq, Repr

namespace Refusal

/-- The dead receive no effects. -/
def dead (actor : ActorId) : Refusal := .actorIneligible actor "actor is dead"

/-- An actor carries no more effects than the settings allow. -/
def full (actor : ActorId) : Refusal := .actorIneligible actor "effect limit reached"

end Refusal

/-- How bad a cause is. -/
inductive Severity where
  /-- The same request may succeed later. -/
  | recoverable
  /-- The request makes no sense. -/
  | validation
  /-- Something broke inside. -/
  | internal
  /-- Work cannot go on. -/
  | fatal
deriving DecidableEq, Repr

namespace Severity

/-- The word for a severity. -/
def label : Severity → String
  | .recoverable => "recoverable"
  | .validation => "validation"
  | .internal => "internal"
  | .fatal => "fatal"

/-- Whether trying again may help. -/
def isRecoverable (s : Severity) : Bool := s == .recoverable

/-- Whether the cause lies inside the engine. -/
def isInternal (s : Severity) : Bool := s == .internal || s == .fatal

end Severity

/-- What is told about a cause. -/
structure Diagnosis where
  message : String
  code : String
  severity : Severity
deriving DecidableEq, Repr

/-- What is told about a failed hook. -/
def HookFault.diagnosis : HookFault → Diagnosis
  | .failed reason => ⟨"hook failed: " ++ reason, "HOOK_FAILED", .internal⟩
  | .panicked message => ⟨"hook panicked: " ++ message, "HOOK_PANICKED", .internal⟩

/-- What is told about a refused application. -/
def Refusal.diagnosis : Refusal → Diagnosis
  | .templateNotFound t =>
    ⟨"template " ++ t.label ++ " not found", "ADMISSION_TEMPLATE_NOT_FOUND", .validation⟩
  | .actorNotFound a =>
    ⟨"actor " ++ a.label ++ " not found", "ADMISSION_ACTOR_NOT_FOUND", .validation⟩
  | .actorIneligible a reason =>
    ⟨"actor " ++ a.label ++ " cannot receive effects: " ++ reason,
      "ADMISSION_ACTOR_INELIGIBLE", .validation⟩
  | .conditionFailed t =>
    ⟨"condition of " ++ t.label ++ " failed", "ADMISSION_CONDITION_FAILED", .recoverable⟩
  | .outranked t e =>
    ⟨t.label ++ " is outranked by active " ++ e.label, "ADMISSION_OUTRANKED", .recoverable⟩
  | .vetoed t => ⟨t.label ++ " vetoed its own start", "ADMISSION_VETOED", .recoverable⟩
  | .startFailed t cause =>
    ⟨t.label ++ " failed to start: " ++ cause.diagnosis.message, "ADMISSION_START_FAILED",
      .internal⟩

/-- What is told about a world without an answer. -/
def WorldFault.diagnosis : WorldFault → Diagnosis
  | .absent => ⟨"WorldOracle not available", "ORACLE_WORLD_NOT_AVAILABLE", .fatal⟩
  | .notReady => ⟨"spatial index not ready", "ORACLE_SPATIAL_INDEX_NOT_READY", .recoverable⟩

/-- What is told about a refused list of templates. -/
def CodexFault.diagnosis : CodexFault → Diagnosis
  | .duplicate t =>
    ⟨"template " ++ t.label ++ " is registered twice", "REGISTRY_DUPLICATE_TEMPLATE", .fatal⟩
  | .variantOnRouteZero t =>
    ⟨"template " ++ t.label ++ " has an enchant variant on route 0", "REGISTRY_INVALID_VARIANT",
      .fatal⟩

end StatusEffects
