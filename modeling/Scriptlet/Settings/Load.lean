import Scriptlet.Host
import Scriptlet.Settings.Decode

/-!
# Settings in a file

Loading finds a file, has its content decoded over the default settings and looks over the outcome.
It does so with any decoder.

- `Settings.Decoder` : a way to decode the content of a file over settings
- `Settings.loadWith` : the settings in a file, with some decoder
- `Settings.LoadFault` : why a file cannot be used
- `Settings.decodeYaml`, `Settings.load` : files with YAML documents
-/

namespace Scriptlet
namespace Settings

def fileName : Bytes := .ofString ".quill.yaml"

/-- The file that holds the settings unless another one is named; empty without a home directory. -/
def defaultPath (home : Option Bytes) : Bytes :=
  match home with
  | some home => Path.join [home, fileName]
  | none => []

def tilde : UInt8 := 0x7E

/-- A path with the home directory in place of a tilde. -/
def expandHome (home : Option Bytes) (path : Bytes) : Bytes :=
  match home, Path.components path with
  | some home, first :: rest =>
    if first = [tilde] then Path.join [home, Path.ofComponents ([] :: rest)] else path
  | _, _ => path

/-! ## Any decoder -/

/-- A file that was opened: its bytes, or the reason why they cannot be read. -/
abbrev Source := Except String Bytes

/-- How decoding can end without a document that was read to its end. -/
inductive DecodeFault
  | endOfInput
  | wrong (reason : String)

/-- Decodes the content of a file over settings. -/
abbrev Decoder := Source → Settings → Settings × Option DecodeFault

inductive LoadFault
  | unreachable (path : Bytes) (fault : FileFault)
  | unusable (path : Bytes) (reason : String)
  | lowDepth (path : Bytes) (depth : Int)

def LoadFault.message : LoadFault → String
  | .unreachable path fault =>
    "config: open " ++ path.text ++ ": open " ++ path.text ++ ": " ++ fault.message
  | .unusable path reason => "config: parse " ++ path.text ++ ": " ++ reason
  | .lowDepth path depth =>
    "config: " ++ path.text ++ ": max_depth must be positive, got " ++ depth.repr

/-- Opens a file. A directory can be opened and not be read. -/
def openFile (host : Host) (file : Bytes) : Except FileFault Source :=
  match host.read file with
  | .ok bytes => .ok (.ok bytes)
  | .error .isDirectory =>
    .ok (.error ("read " ++ file.text ++ ": " ++ FileFault.isDirectory.message))
  | .error fault => .error fault

/-- Settings that came from a file, once they are complete. -/
def checked (home : Option Bytes) (file : Bytes) (settings : Settings) :
    Except LoadFault Settings :=
  if settings.maxDepth < 1 then .error (.lowDepth file settings.maxDepth)
  else .ok { settings with history := expandHome home settings.history }

/-- The settings in a file. An empty path or a missing file leaves the default settings, and so does
a file that ends before there is a document in it. -/
def loadWith (decode : Decoder) (host : Host) (path : Bytes) : Except LoadFault Settings :=
  if path.isEmpty then .ok default
  else
    let file := Path.absolute host.directory path
    let settings := { default with path := file }
    match openFile host file with
    | .error .missing => .ok settings
    | .error fault => .error (.unreachable file fault)
    | .ok source =>
      match decode source settings with
      | (_, some (.wrong reason)) => .error (.unusable file reason)
      | (settings, _) => checked host.home file settings

/-! ## Documents -/

inductive ContentFault
  | format (fault : Yaml.Fault)
  | content (complaints : List Complaint)

def ContentFault.message : ContentFault → String
  | .format fault => "yaml: " ++ fault.message
  | .content complaints =>
    "yaml: unmarshal errors:\n  " ++ "\n  ".intercalate (complaints.map Complaint.message)

/-- What the first document in a file says, if there is one. -/
def Choices.ofSource? : Source → Except ContentFault (Option Choices)
  | .error reason => .error (.format (.whole (.unreadable reason)))
  | .ok bytes =>
    match Yaml.Document.ofBytes? bytes with
    | .error fault => .error (.format fault)
    | .ok none => .ok none
    | .ok (some document) =>
      match ofDocument document with
      | .error fault => .error (.format fault)
      | .ok (choices, []) => .ok (some choices)
      | .ok (_, complaints) => .error (.content complaints)

def decodeYaml : Decoder := fun source settings =>
  match Choices.ofSource? source with
  | .error fault => (settings, some (.wrong fault.message))
  | .ok none => (settings, some .endOfInput)
  | .ok (some choices) => (choices.applyTo settings, none)

def load (host : Host) (path : Bytes) : Except LoadFault Settings :=
  loadWith decodeYaml host path

end Settings
end Scriptlet
