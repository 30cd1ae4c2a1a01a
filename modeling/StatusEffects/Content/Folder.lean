import StatusEffects.Content.Catalog
import StatusEffects.Content.FileTree
import StatusEffects.Content.Scenario
import StatusEffects.Content.Settings

/-!
# Content folders

The content of a game lies in one folder: the settings in `engine.toml`, which may be missing, the
catalog in `effects.ron` and each scenario in a file of its name below `scenarios`.

## Main definitions

* `FileFault` : why a file gives nothing.
* `Folder` : a folder, with the text of each of its files.
* `Folder.settings`, `Folder.codex`, `Folder.scenario` : what its files stand for.
-/

namespace StatusEffects

/-- Why a file gives nothing: the path does not lead to it, or its text is at fault. -/
inductive FileFault (φ : Type) where
  | path (path : String) (cause : PathFault)
  | text (cause : φ)
deriving DecidableEq, Repr

/-- What is told about a path that leads to no file. -/
def PathFault.message (cause : PathFault) (path : String) : String :=
  "Failed to read file " ++ path ++ ": " ++ cause.reason

/-- A folder of content. -/
structure Folder where
  path : String
  /-- The text of a file, by its path below the folder. -/
  read : String → Except PathFault String

namespace Folder

/-- The folder at the top of a tree. -/
def ofTree (t : FileTree) : Folder := ⟨t.path, t.read⟩

/-- A folder for content, with the folder for its scenarios and the given files, which are written
one after the other. -/
def ofFiles (path : String) (files : List (String × String)) : Folder :=
  ofTree (files.foldl (fun t f => t.write f.1 f.2) { path, folders := [[], ["scenarios"]] })

/-- The file of the settings. -/
def settingsFile : String := "engine.toml"

/-- The file of the catalog. -/
def catalogFile : String := "effects.ron"

/-- The file of a scenario. -/
def scenarioFile (name : String) : String := joinPath "scenarios" (name ++ ".ron")

/-- What a reader makes of a file that must be there. -/
def load {α φ : Type} (f : Folder) (file : String) (reader : String → Except φ α) :
    Except (FileFault φ) α :=
  match f.read file with
  | .error cause => .error (.path (joinPath f.path file) cause)
  | .ok text => (reader text).mapError .text

/-- The settings. A folder without a file for them has the usual ones. -/
def settings (f : Folder) : Except SettingsFault Settings :=
  match f.read settingsFile with
  | .error _ => .ok {}
  | .ok text => Content.readSettings text

/-- The codex of the catalog. -/
def codex (f : Folder) : Except (FileFault CatalogFault) Codex :=
  f.load catalogFile Content.readCatalog

/-- What is told about a catalog that breaks a rule: which rule, and where the catalog is. -/
def refusalMessage (f : Folder) (cause : CodexFault) : String :=
  cause.catalogMessage ++ " (" ++ joinPath f.path catalogFile ++ ")"

/-- The scenario of a name. -/
def scenario (f : Folder) (name : String) : Except (FileFault ScenarioFault) Scenario :=
  f.load (scenarioFile name) Content.readScenario

end Folder

end StatusEffects
