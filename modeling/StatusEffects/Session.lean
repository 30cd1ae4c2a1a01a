import StatusEffects.Text.Digits

/-!
# Sessions

What one run of the command line is asked to do. Everything but the scenario comes from the
environment, and what is not set has a usual value.
-/

namespace StatusEffects

/-- One run of the command line. -/
structure Session where
  /-- The folder of the content, if it is not the usual one. -/
  folder : Option String := none
  /-- Number of workers that fire timers in real time. Without any, no time is spent waiting. -/
  workers : UInt64 := 0
  /-- The name of the session, if it has one. -/
  name : Option String := none
  scenario : String := "skirmish"
deriving DecidableEq, Repr

namespace Session

/-- A number of workers: decimal digits, with at most one plus sign in front. -/
def readWorkers (text : String) : Option UInt64 :=
  (Text.readUnsigned 10 (UInt64.size - 1) text.toList).map UInt64.ofNat

/-- The session that the environment and a scenario ask for. A number of workers that cannot be
read is passed over. -/
def ofEnvironment (lookup : String → Option String) (scenario : Option String) : Session :=
  let usual : Session := {}
  { folder := lookup "EFFECT_CONTENT_DIR"
    workers := ((lookup "EFFECT_WORKERS").bind readWorkers).getD usual.workers
    name := lookup "EFFECT_SESSION"
    scenario := scenario.getD usual.scenario }

end Session

end StatusEffects
