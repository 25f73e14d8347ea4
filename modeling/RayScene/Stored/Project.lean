import RayScene.Stored.Document
import RayScene.Stored.ProjectId
import RayScene.Stored.Settings
import RayScene.Stored.Timestamp
/-!
Project files: a head with format and version, then metadata, document and camera. The head is
judged before anything else is read.
-/
set_option autoImplicit false

namespace RayScene

open Json

structure Metadata where
  id : ProjectId
  name : String
  created : Timestamp
  modified : Timestamp
  deriving DecidableEq, Repr

structure Project where
  document : Document
  camera : Camera
  metadata : Metadata

inductive LoadError where
  | malformed
  | unknownFormat (format : String)
  | futureVersion (version : Nat)
  | migrationFailed (start goal : Nat) (reason : String)
  deriving DecidableEq, Repr

namespace Project

def formatId : String := "pov-scene"

def formatVersion : Nat := 1

end Project

namespace LoadError

/-- A malformed file has no further description. -/
def message : LoadError → String
  | malformed => "failed to parse file: "
  | unknownFormat format => "unknown file format: " ++ format
  | futureVersion version =>
    "file version " ++ toString version ++ " is newer than supported version " ++
      toString Project.formatVersion
  | migrationFailed start goal reason =>
    "migration failed from version " ++ toString start ++ " to " ++ toString goal ++ ": " ++ reason

end LoadError

/-- The step from a file of one version to the next one, or why there is none. -/
structure Upgrade where
  version : Nat
  apply : Json → Except String Json

/-- No version has had a predecessor so far. -/
def upgrades : List Upgrade := []

def Json.setMember (name : String) (value : Json) : Json → Json
  | .object members =>
    if members.any (·.1 = name) then
      .object (members.map fun (k, v) => if k = name then (k, value) else (k, v))
    else .object (members ++ [(name, value)])
  | j => j

def migrateBy (table : List Upgrade) (goal : Nat) : Nat → Nat → Json → Except LoadError Json
  | 0, _, file => .ok file
  | steps + 1, start, file =>
    match table.find? (·.version = start) with
    | none => .error (.migrationFailed start goal ("no upgrade from v" ++ toString start))
    | some upgrade =>
      match upgrade.apply file with
      | .error reason => .error (.migrationFailed start (start + 1) reason)
      | .ok file => migrateBy table goal steps (start + 1)
          (file.setMember "version" (ofNat (start + 1)))

/-- Brings a file to a later version. A file that is not older stays as it is. -/
def migrate (file : Json) (start goal : Nat) : Except LoadError Json :=
  migrateBy upgrades goal (goal - start) start file

def Metadata.toJson (m : Metadata) : Json :=
  .object [("id", .string m.id.text), ("name", .string m.name),
    ("created", .string m.created.text), ("modified", .string m.modified.text)]

def Metadata.ofJson? (j : Json) : Option Metadata := do
  let [id, name, created, modified] ← j.fields? ["id", "name", "created", "modified"] | none
  return ⟨← (← required string? id) |> ProjectId.ofText?, ← required string? name,
    ← (← required string? created) |> Timestamp.ofText?,
    ← (← required string? modified) |> Timestamp.ofText?⟩

namespace Project

def toJson (p : Project) : Json :=
  .object [("format", .string formatId), ("version", ofNat formatVersion),
    ("project", p.metadata.toJson), ("document", p.document.toJson), ("camera", p.camera.toJson)]

def save (p : Project) : String := p.toJson.pretty

def head? (j : Json) : Option (String × Nat) := do
  let [format, version] ← j.fields? ["format", "version"] | none
  return (← required string? format, ← required (word? 32) version)

/-- A file without a camera has the standard one. -/
def ofJson? (j : Json) : Option Project := do
  let [format, version, metadata, document, camera] ←
    j.fields? ["format", "version", "project", "document", "camera"] | none
  let _ ← required string? format
  let _ ← required (word? 32) version
  return ⟨← required Document.ofJson? document, ← defaulted Camera.standard Camera.ofJson? camera,
    ← required Metadata.ofJson? metadata⟩

def ofFile (file : Json) : Except LoadError Project :=
  match head? file with
  | none => .error .malformed
  | some (format, version) =>
    if format ≠ formatId then .error (.unknownFormat format)
    else if formatVersion < version then .error (.futureVersion version)
    else
      match migrate file version formatVersion with
      | .error e => .error e
      | .ok file =>
        match ofJson? file with
        | none => .error .malformed
        | some p => .ok p

def load (text : String) : Except LoadError Project :=
  match Json.read text with
  | none => .error .malformed
  | some file => ofFile file

end Project

end RayScene
