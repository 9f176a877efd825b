import Scriptlet.Log
import Scriptlet.Repl.Event
import Scriptlet.Settings.Basic

/-!
# Carrying out a prompting loop

- `Repl.evaluate` : evaluates an input and tells what to show
- `Repl.perform` : carries out the events of a loop
-/

namespace Scriptlet
namespace Repl

def errorLine (color : Bool) (message : String) : String :=
  (if color then "\x1b[0;31m" ++ message ++ "\x1b[0m" else message) ++ "\n"

/-- What is shown for an input, and the number of statements that were evaluated, if any were. -/
structure Shown where
  text : String
  statements : Option Nat

def endsWithDefinition (program : Program) : Bool :=
  match program.stmts.getLast? with
  | some (.define ..) => true
  | _ => false

/-- What is shown for the value of a program: nothing if the program ends with a definition, unless
there was an error. -/
def valueText (color : Bool) (program : Program) : Value → String
  | .error fault => errorLine color (Value.error fault).inspect
  | value => if endsWithDefinition program then "" else value.inspect ++ "\n"

/-- Evaluates an input. With diagnostics, or without statements, nothing is evaluated. -/
def evaluate (color : Bool) (session : Session) (src : Bytes) : Option (Shown × Session) :=
  let (program, diagnostics) := parse src.text
  if !diagnostics.isEmpty then
    let lines := diagnostics.map fun diagnostic => errorLine color (diagnostic.render "")
    some (⟨String.join lines, none⟩, session)
  else if program.stmts.isEmpty then some (⟨"", none⟩, session)
  else
    match session.run program with
    | some (value, later) =>
      let text := later.printedSince session ++ valueText color program value
      some (⟨text, some program.stmts.length⟩, later)
    | none => none

def bannerText : String :=
  "quill: type :quit or press Ctrl-D to exit\n"

structure Progress where
  session : Session
  out : String
  records : Array LogRecord

namespace Progress

def start (settings : Settings) : Progress :=
  ⟨.new .standard settings.maxDepth, "", #[]⟩

def put (progress : Progress) (text : String) : Progress :=
  { progress with out := progress.out ++ text }

end Progress

def evaluationRecord (statements : Nat) : LogRecord :=
  ⟨"evaluated input", [("statements", .number statements), ("duration", .duration)]⟩

def performEvent (settings : Settings) (progress : Progress) : Event → Option Progress
  | .banner => some (progress.put bannerText)
  | .prompt => some (progress.put settings.prompt)
  | .continuation => some (progress.put settings.continuation)
  | .newline => some (progress.put "\n")
  | .evaluate src =>
    match evaluate settings.color progress.session src with
    | none => none
    | some (shown, session) =>
      let records := match shown.statements with
        | some n => progress.records.push (evaluationRecord n)
        | none => progress.records
      some ⟨session, progress.out ++ shown.text, records⟩

/-- Carries out events in order. There is no outcome when an evaluation has none. -/
def perform (settings : Settings) (progress : Progress) : List Event → Option Progress
  | [] => some progress
  | event :: rest =>
    match performEvent settings progress event with
    | some progress => perform settings progress rest
    | none => none

def plainCourse (input : Bytes) : Course :=
  plainEvents (Text.limitedLines lineLimit input)

end Repl
end Scriptlet
