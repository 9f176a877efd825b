import Scriptlet.FileTree
import Scriptlet.Log

/-!
# What a command leaves behind

- `Command.Status` : how a command ended
- `Command.Notice` : what it wrote beside its output
- `Command.Outcome` : all of it together
-/

namespace Scriptlet
namespace Command

inductive Status
  | success
  | failure
  | usage
  deriving DecidableEq, Repr

def Status.code : Status → Nat
  | .success => 0
  | .failure => 1
  | .usage => 2

inductive Notice
  | text (line : String)
  | record (entry : LogRecord)

def Notice.render (time duration : String) : Notice → String
  | .text line => line
  | .record entry => entry.render time duration ++ "\n"

/-- The status of a command, what it wrote, and the files afterwards. -/
structure Outcome where
  status : Status
  out : String
  notices : List Notice
  files : FileTree

namespace Outcome

def errorText (outcome : Outcome) (time duration : String) : String :=
  String.join (outcome.notices.map (Notice.render time duration))

def after (outcome : Outcome) (notices : List Notice) : Outcome :=
  { outcome with notices := notices ++ outcome.notices }

end Outcome

end Command
end Scriptlet
