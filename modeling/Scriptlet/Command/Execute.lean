import Scriptlet.Command.Help
import Scriptlet.Command.Outcome
import Scriptlet.Repl.Loop
import Scriptlet.Settings.Load

/-!
# Executing commands

- `Command.run` : evaluates the program in a file
- `Command.planLoop`, `Command.repl` : starts a prompting loop
- `Command.execute` : the command that the arguments name
-/

namespace Scriptlet
namespace Command

def refused (host : Host) (status : Status) (message : String) : Outcome :=
  ⟨status, "", [.text ("ERROR: " ++ message ++ "\n")], host.files⟩

def printed (host : Host) (out : String) : Outcome :=
  ⟨.success, out, [], host.files⟩

def misused (host : Host) (name : Name) (fault : FlagFault) : Outcome :=
  ⟨.usage, "", [.text (complaintText name.text name.flags fault)], host.files⟩

def logged (debug : Bool) (records : List LogRecord) : List Notice :=
  if debug then records.map .record else []

def loadedRecord (settings : Settings) : LogRecord :=
  ⟨"config loaded", [("path", .text settings.path), ("max_depth", .number settings.maxDepth)]⟩

/-- The file of the settings: the one that the flags name, or the one in the home directory. -/
def settingsPath (home : Option Bytes) (given : List Given) : Bytes :=
  let named := textOf "config" given
  if named.isEmpty then Settings.defaultPath home else named

def loadSettings (host : Host) (given : List Given) : Except Outcome (Settings × List Notice) :=
  match Settings.load host (settingsPath host.home given) with
  | .error fault => .error (refused host .failure fault.message)
  | .ok settings => .ok (settings, logged (switchOf "debug" given) [loadedRecord settings])

/-! ## Programs in files -/

/-- The wording of a file that cannot be read. A directory can be opened and not be read. -/
def readFaultText (path : Bytes) (fault : FileFault) : String :=
  let verb := if fault = .isDirectory then "read " else "open "
  "run: read " ++ path.text ++ ": " ++ verb ++ path.text ++ ": " ++ fault.message

def parsedRecord (file : Bytes) (program : Program) (diagnostics : List Diagnostic) : LogRecord :=
  ⟨"parsed", [("file", .text file), ("statements", .number program.stmts.length),
    ("errors", .number diagnostics.length), ("duration", .duration)]⟩

def evaluatedRecord (file : Bytes) (value : Value) : LogRecord :=
  ⟨"evaluated", [("file", .text file), ("result", .text (.ofString value.type.name)),
    ("duration", .duration)]⟩

/-- What is left of the value of a program: an error goes beside the output, and null is not
shown. -/
def valueOutcome (host : Host) (out : String) : Value → Outcome
  | .error fault => ⟨.failure, out, [.text ((Value.error fault).inspect ++ "\n")], host.files⟩
  | .null => printed host out
  | value => printed host (out ++ value.inspect ++ "\n")

/-- Evaluates a source text. With diagnostics nothing is evaluated. -/
def runSource (host : Host) (settings : Settings) (debug : Bool) (file src : Bytes) :
    Option Outcome :=
  let (program, diagnostics) := parse src.text
  let parsed := logged debug [parsedRecord file program diagnostics]
  if !diagnostics.isEmpty then
    let lines := diagnostics.map fun diagnostic => Notice.text (diagnostic.render file.text ++ "\n")
    some ⟨.failure, "", parsed ++ lines, host.files⟩
  else
    let session := Session.new .standard settings.maxDepth
    (session.run program).map fun (value, later) =>
      (valueOutcome host (later.printedSince session) value).after
        (parsed ++ logged debug [evaluatedRecord file value])

def runFile (host : Host) (settings : Settings) (debug : Bool) (file : Bytes) : Option Outcome :=
  match host.read file with
  | .error fault => some (refused host .failure (readFaultText file fault))
  | .ok bytes => runSource host settings debug file bytes

def run (host : Host) (args : List Bytes) : Option Outcome :=
  match readFlags Name.run.flags args with
  | .error fault => some (misused host .run fault)
  | .ok given =>
    let file := textOf "f" given
    if file.isEmpty then
      some (refused host .usage "provide the filepath flag -f to assign the path to it")
    else
      match loadSettings host given with
      | .error outcome => some outcome
      | .ok (settings, notices) =>
        (runFile host settings (switchOf "debug" given) file).map (·.after notices)

/-! ## Prompting loops -/

def endingOutcome (debug : Bool) (ending : Repl.Ending) : Outcome :=
  let records := logged debug ending.records
  match ending.fault with
  | none => ⟨.success, ending.out, records, ending.files⟩
  | some fault =>
    ⟨.failure, ending.out, records ++ [.text ("ERROR: " ++ fault.message ++ "\n")], ending.files⟩

structure LoopPlan where
  settings : Settings
  plain : Bool
  debug : Bool
  notices : List Notice

/-- The prompting loop that the arguments ask for. Lines are plain unless the input is a
terminal. -/
def planLoop (host : Host) (args : List Bytes) : Except Outcome LoopPlan :=
  match readFlags Name.repl.flags args with
  | .error fault => .error (misused host .repl fault)
  | .ok given =>
    match loadSettings host given with
    | .error outcome => .error outcome
    | .ok (settings, notices) =>
      .ok ⟨settings, switchOf "plain" given || !host.terminal, switchOf "debug" given, notices⟩

def repl (host : Host) (args : List Bytes) : Option Outcome :=
  match planLoop host args with
  | .error outcome => some outcome
  | .ok plan =>
    let ending :=
      if plan.plain then Repl.runPlain host plan.settings
      else Repl.runInteractive host plan.settings
    ending.map fun ending => (endingOutcome plan.debug ending).after plan.notices

/-! ## All commands -/

def unknownCommand (name : String) : String :=
  "unknown command " ++ name ++ ", check help for manual."

def help (host : Host) : List Bytes → Outcome
  | [] => printed host catalogText
  | [arg] =>
    match Name.ofText? arg.text with
    | some name => printed host (helpText name)
    | none => refused host .usage (unknownCommand arg.text)
  | _ => refused host .usage "help takes at most one command name"

def Name.execute (name : Name) (host : Host) (args : List Bytes) : Option Outcome :=
  match name with
  | .help => some (Command.help host args)
  | .repl => Command.repl host args
  | .run => Command.run host args
  | .version => some (printed host versionText)

def withHint (name : Name) (outcome : Outcome) : Outcome :=
  if outcome.status = .usage then
    let hint := Notice.text ("run \x60help " ++ name.text ++ "\x60 for usage\n")
    { outcome with notices := outcome.notices ++ [hint] }
  else outcome

/-- Executes the command that the arguments name. There is no outcome when an evaluation has
none. -/
def execute (host : Host) : List Bytes → Option Outcome
  | [] => some (refused host .usage "at least provide command name to kick off the cli")
  | arg :: args =>
    match Name.ofText? arg.text with
    | none => some (refused host .usage (unknownCommand arg.text))
    | some name => (name.execute host args).map (withHint name)

end Command
end Scriptlet
