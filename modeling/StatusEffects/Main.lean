import StatusEffects.Content.Folder
import StatusEffects.Json.Event
import StatusEffects.Replay
import StatusEffects.Session

/-!
# Command line

Replays a scenario and prints every event as one line. The scenario is the first argument; the
environment says where the content is and how many workers there are. Notes go to the error output.
-/

namespace StatusEffects

namespace CommandLine

/-- The folder of the content where the environment names none. -/
def usualFolder : String := "data"

/-- The files of a folder that a scenario needs, as far as they can be read. -/
def readFolder (path scenario : String) : IO Folder := do
  let names := [Folder.settingsFile, Folder.catalogFile, Folder.scenarioFile scenario]
  let files ← names.filterMapM fun name => do
    try
      let text ← IO.FS.readFile (joinPath path name)
      pure (some (name, text))
    catch _ => pure none
  return ⟨path, fun name => (files.lookup name).elim (.error .missing) .ok⟩

/-- What is told about settings that cannot be used. -/
def settingsMessage : SettingsFault → String
  | .unreadable => "Failed to parse engine settings"
  | .zero field => SettingsFault.zeroMessage field

/-- What is told about a catalog that cannot be used. -/
def catalogMessage (folder : Folder) : FileFault CatalogFault → String
  | .path path cause => cause.message path
  | .text .unreadable =>
    "Failed to parse effect catalog (" ++ joinPath folder.path Folder.catalogFile ++ ")"
  | .text (.refused cause) => folder.refusalMessage cause

/-- What is told about a scenario that cannot be used. -/
def scenarioMessage : FileFault ScenarioFault → String
  | .path path cause => cause.message path
  | .text .unreadable => "Failed to parse scenario"
  | .text (.declaredTwice scenario actor) => ScenarioFault.twiceMessage scenario actor

/-- The service and the scenario of a session, or what is wrong with its content. -/
def prepare (session : Session) (folder : Folder) : Except String (Service × Scenario) := do
  let settings ← folder.settings.mapError settingsMessage
  let codex ← folder.codex.mapError (catalogMessage folder)
  let scenario ← (folder.scenario session.scenario).mapError scenarioMessage
  let clock : Clock := { manual := session.workers == 0 }
  let config : Service.Config := { settings, workers := session.workers }
  let service ← (Service.build config codex clock []).mapError Service.Fault.message
  return (service, scenario)

/-- What stands in a note. -/
def valueText : NoteValue → String
  | .text s => s
  | .number n => n.repr
  | .truth b => if b then "true" else "false"

/-- A note as one line. -/
def noteLine (n : Note) : String :=
  " ".intercalate ((n.level.label ++ ":") :: n.title ::
    n.fields.map fun (name, v) => name ++ "=" ++ valueText v)

/-- Prints the notes that matter, and the events that a reader has not read. -/
def report (s : Service) (reader : Nat) (notes : List Note) : IO Service := do
  for n in notes do
    unless n.level = .debug do IO.eprintln (noteLine n)
  match s.engine.feed.drain reader with
  | none => return s
  | some (feed, delivery) =>
    for e in delivery.events do IO.println e.toJson.render
    return { s with engine := { s.engine with feed } }

/-- Lets the time of a step pass, where it passes for real. -/
def await (s : Service) : Step → IO Unit
  | .wait ms =>
    if s.workers.isEmpty then pure ()
    else IO.sleep (UInt32.ofNat (min ms.toNat (UInt32.size - 1)))
  | _ => pure ()

/-- Replays a scenario and reports on each of its steps. -/
def run (s : Service) (scenario : Scenario) : IO Unit := do
  let (feed, reader) := s.engine.feed.subscribe .effects
  let mut s := { s with engine := { s.engine with feed } }.cast scenario.actors
  let begins := Note.begins scenario.name scenario.actors.length scenario.steps.length
  s ← report s reader [begins]
  for step in scenario.steps do
    await s step
    let (next, notes) := s.step step
    s ← report next reader notes

end CommandLine

end StatusEffects

open StatusEffects CommandLine in
/-- Replays the scenario that the first argument names. -/
def main (args : List String) : IO UInt32 := do
  let environment ← ["EFFECT_CONTENT_DIR", "EFFECT_WORKERS", "EFFECT_SESSION"].mapM fun name => do
    return (name, ← IO.getEnv name)
  let session := Session.ofEnvironment (fun name => (environment.lookup name).join) args.head?
  let folder ← readFolder (session.folder.getD usualFolder) session.scenario
  match prepare session folder with
  | .error message =>
    IO.eprintln ("Error: " ++ message)
    return 1
  | .ok (service, scenario) =>
    run service scenario
    return 0
