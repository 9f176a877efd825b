import Scriptlet.Host
import Scriptlet.Repl.History
import Scriptlet.Repl.Perform

/-!
# Prompting loops on a host

- `Repl.Ending` : what a loop leaves behind
- `Repl.runPlain` : the loop over plain lines
- `Repl.runInteractive` : the loop at a terminal, which keeps a history
-/

namespace Scriptlet
namespace Repl

structure Ending where
  out : String
  records : List LogRecord
  files : FileTree
  fault : Option ReadFault

def runPlain (host : Host) (settings : Settings) : Option Ending :=
  let course := plainCourse host.input
  (perform settings (.start settings) course.events).map fun progress =>
    ⟨progress.out, progress.records.toList, host.files, course.fault⟩

/-- The loop for a user at a terminal, over the lines of an input that cannot be edited. -/
def interactiveCourse (settings : Settings) (input : Bytes) : Course :=
  interactiveEvents isValidPrompt settings.prompt settings.continuation
    ((Text.bufferedLines History.bufferSize input).map Text.BufferedLine.bytes)

def readHistory (host : Host) (path : Bytes) : History :=
  match host.read path with
  | .ok bytes => .ofBytes bytes
  | .error _ => []

def unsavedRecord (path : Bytes) (fault : FileFault) : LogRecord :=
  ⟨"history not saved",
    [("path", .text path),
      ("err", .text (.ofString "open " ++ path ++ .ofString (": " ++ fault.message)))]⟩

/-- The files after the history was saved, or the record of why it could not be. Without a path
there is nothing to save. -/
def saveHistory (host : Host) (path : Bytes) (events : List Event) : FileTree × List LogRecord :=
  if path.isEmpty then (host.files, [])
  else
    let history := (readHistory host path).addEvents events
    match host.write path history.render with
    | .ok files => (files, [])
    | .error fault => (host.files, [unsavedRecord path fault])

/-- The loop at a terminal. The history is saved however the loop ends. -/
def runInteractive (host : Host) (settings : Settings) : Option Ending :=
  let course := interactiveCourse settings host.input
  (perform settings (.start settings) course.events).map fun progress =>
    let (files, unsaved) := saveHistory host settings.history course.events
    ⟨progress.out, progress.records.toList ++ unsaved, files, course.fault⟩

end Repl
end Scriptlet
