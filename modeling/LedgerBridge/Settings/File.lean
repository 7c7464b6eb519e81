import LedgerBridge.Settings.CommandLine
import LedgerBridge.Settings.Toml
import LedgerBridge.Settings.Yaml

/-!
# Configuration files

The ending of a file's name says in which format it is written. What it sets beats the command
line; a file that does not exist sets nothing.

* `CommandLine.load` gives the settings that hold in the end.
-/

namespace LedgerBridge.Settings

/-- The formats of configuration files. -/
inductive FileFormat where
  | toml
  | json
  | yaml
  deriving DecidableEq, Repr

namespace FileFormat

/-- The name of the file at a path. -/
def fileName? (path : String) : Option (List Char) :=
  let named := (path.toList.splitOn '/').filter fun p => p ≠ [] && p ≠ ['.']
  named.getLast?.filter (· ≠ ['.', '.'])

/-- The ending of a name behind its last dot, in front of which something must stand. -/
def ending? (name : List Char) : Option String :=
  let ending := (name.reverse.takeWhile (· ≠ '.')).reverse
  match name.reverse.dropWhile (· ≠ '.') with
  | _ :: _ :: _ => some (String.ofList ending)
  | _ => none

/-- The format of the file at a path. -/
def ofPath? (path : String) : Option FileFormat :=
  match (fileName? path).bind ending? with
  | some "toml" => some .toml
  | some "json" => some .json
  | some "yaml" => some .yaml
  | _ => none

/-- The tree that a file holds. -/
def parse? (format : FileFormat) (content : String) : Option Tree :=
  match format with
  | .toml => Toml.parse? content
  | .json => (Json.parse? (Utf8.encode content)).bind Tree.ofJson?
  | .yaml => Yaml.parse? content

end FileFormat

/-- Why a configuration file cannot be used. -/
inductive FileError where
  | unsupportedType
  /-- It cannot be read, or it holds what does not fit the settings. -/
  | unusable
  deriving DecidableEq, Repr

/-- The wording of a file error. -/
def FileError.message : FileError → String
  | .unsupportedType => "Unsupported file type for config file."
  | .unusable => "The config file cannot be used."

/-- The section that a file holds. -/
def readSection? (format : FileFormat) (content : String) : Option Tree :=
  match format.parse? content with
  | some (.section ms) => some (.section ms)
  | _ => none

/-- The settings of a command line with a file laid over them. -/
def CommandLine.under (c : CommandLine) (file : Tree) : Except FileError Settings :=
  match c.settings.override file with
  | some settings => .ok settings
  | none => .error .unusable

/-- The settings of a command line, under those of its configuration file. -/
def CommandLine.load (c : CommandLine) (read : (path : String) → Option String) :
    Except FileError Settings :=
  match c.configFile with
  | none => c.under (.section [])
  | some path =>
    match FileFormat.ofPath? path with
    | none => .error .unsupportedType
    | some format =>
      match read path with
      | none => c.under (.section [])
      | some content =>
        match readSection? format content with
        | some file => c.under file
        | none => .error .unusable

end LedgerBridge.Settings
