import ToolchainChoice.Config.Settings
import ToolchainChoice.Files.Disk
import ToolchainChoice.Files.Text
import ToolchainChoice.Trace
import ToolchainChoice.Yaml.Meaning

/-!
# The configuration file

A configuration is a YAML document in a file. A file that is asked for must be there; otherwise the
file with the usual name in the root of the workspace is used if there is one, and if there is none
the settings are the standard ones.
-/
namespace ToolchainChoice.Config

open Files (Path Disk)

/-- The name of the configuration file of a workspace. -/
def fileName : String := "toolchainenv.yaml"

/-- The settings in the content of a configuration file. -/
def Settings.ofContent (content : ByteArray) : Except Failure Settings :=
  match Yaml.read (.ofParts (Files.readParts content)) with
  | .error fault => .error fault.toFailure
  | .ok d => if d.root = .null then fail .emptyFile else Settings.ofDocument d

/-- The settings in the file at a path. -/
def settingsAt (d : Disk) (path : Path) : Except Failure Settings :=
  match d.entryAt? path with
  | .error _ => .error .nameTooLong
  | .ok none => fail (.fileNotFound path.text)
  | .ok (some (.file content)) => Settings.ofContent content
  | .ok (some _) => .error .isDirectory

/-- The settings for the workspace at `root`, from the file at `path` if one is asked for. -/
def load (d : Disk) (root : Path) (path : Option Path) : Traced Settings :=
  match path with
  | some path => settingsAt d path
  | none =>
    let usual := root.child fileName
    match d.entryAt? usual with
    | .error _ => .fail .nameTooLong
    | .ok none => do
      .debug .configuration "No configuration file found, using defaults"
      return {}
    | .ok (some _) => do
      .debug .configuration ("Loading configuration from " ++ usual.text)
      settingsAt d usual

end ToolchainChoice.Config
