import Scriptlet.Session
import Scriptlet.Text.Bytes

/-!
# Settings

- `Settings` : what a user can choose
- `Settings.default` : what holds where nothing was chosen
- `Settings.Field` : the settings that a file can mention
- `Settings.Choices` : what a file says about them
-/

namespace Scriptlet

/-- What a user can choose: the two prompts, the file that keeps the history, the limit on levels of
evaluation and whether errors show in colour. `path` is the file that the settings came from. -/
structure Settings where
  path : Bytes
  prompt : String
  continuation : String
  history : Bytes
  maxDepth : Int
  color : Bool
  deriving DecidableEq, Repr

namespace Settings

def default : Settings :=
  ⟨[], ">>> ", "... ", .ofString "~/.quill_history", defaultMaxDepth, true⟩

inductive Field
  | prompt
  | continuation
  | history
  | maxDepth
  | color
  deriving DecidableEq, Repr

def Field.Content : Field → Type
  | .prompt | .continuation => String
  | .history => Bytes
  | .maxDepth => Int
  | .color => Bool

def content (settings : Settings) : (field : Field) → field.Content
  | .prompt => settings.prompt
  | .continuation => settings.continuation
  | .history => settings.history
  | .maxDepth => settings.maxDepth
  | .color => settings.color

/-- What a file says about the settings: content for some fields, and nothing about the others. -/
def Choices := (field : Field) → Option field.Content

namespace Choices

def put (choices : Choices) (field : Field) (content : field.Content) : Choices := fun other =>
  if h : field = other then some (h ▸ content) else choices other

/-- The settings with the choices laid over them. -/
def applyTo (choices : Choices) (settings : Settings) : Settings :=
  { settings with
    prompt := (choices .prompt).getD settings.prompt
    continuation := (choices .continuation).getD settings.continuation
    history := (choices .history).getD settings.history
    maxDepth := (choices .maxDepth).getD settings.maxDepth
    color := (choices .color).getD settings.color }

end Choices

end Settings

end Scriptlet
