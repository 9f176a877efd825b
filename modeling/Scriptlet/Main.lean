import Scriptlet.Command.Execute

/-!
# The program

Looks at the files that the arguments name, executes the command and writes what it leaves behind. A
prompting loop reads its lines one by one, so that each answer shows before the next line is typed.
-/

namespace Scriptlet
namespace Console

/-! ## Files -/

/-- Looks at the components of a path one after another, from a place that is a directory. -/
def surveyFrom (place : List Bytes) (tree : FileTree) : List Bytes → IO FileTree
  | [] => return tree
  | component :: rest => do
    let place := place ++ [component]
    let file := System.mkFilePath [Bytes.text (Path.ofComponents ([] :: place))]
    if ← file.isDir then
      surveyFrom place { tree with directories := place :: tree.directories } rest
    else if ← file.pathExists then
      return tree.put place (← IO.FS.readBinFile file).toList
    else
      return tree

def survey (directory : Bytes) (tree : FileTree) (path : Bytes) : IO FileTree :=
  surveyFrom [] tree ((Path.components (Path.absolute directory path)).filter (!·.isEmpty))

def namedPaths (home : Option Bytes) (name : Command.Name) (args : List Bytes) : List Bytes :=
  match Command.readFlags name.flags args with
  | .ok given =>
    [Command.settingsPath home given, Command.textOf "f" given].filter (!·.isEmpty)
  | .error _ => []

def hostFor (args : List Bytes) : IO Host := do
  let directory := Bytes.ofString (← IO.currentDir).toString
  let home := ((← IO.getEnv "HOME").filter (!·.isEmpty)).map Bytes.ofString
  let paths := match args with
    | arg :: rest =>
      match Command.Name.ofText? arg.text with
      | some name => namedPaths home name rest
      | none => []
    | [] => []
  let files ← (directory :: paths).foldlM (survey directory) ⟨[], []⟩
  return ⟨files, directory, home, [], ← (← IO.getStdin).isTty⟩

/-! ## Writing -/

def elapsed (start stop : Nat) : String :=
  (stop - start).repr ++ "ms"

def putNotices (start : Nat) (notices : List Command.Notice) : IO Unit := do
  let now ← IO.monoMsNow
  let errors ← IO.getStderr
  for notice in notices do
    errors.putStr (notice.render now.repr (elapsed start now))

def conclude (start : Nat) (outcome : Command.Outcome) : IO UInt32 := do
  let output ← IO.getStdout
  output.putStr outcome.out
  output.flush
  putNotices start outcome.notices
  return outcome.status.code.toUInt32

/-! ## Prompting loops -/

/-- A loop that is going on: what it did, what was read of an input, and its session. -/
structure Conversation where
  plan : Command.LoopPlan
  events : List Repl.Event
  buffer : Bytes
  progress : Repl.Progress

namespace Conversation

def act (talk : Conversation) (events : List Repl.Event) : IO Conversation := do
  let start ← IO.monoMsNow
  let settings := talk.plan.settings
  match Repl.perform settings { talk.progress with out := "", records := #[] } events with
  | none => return talk
  | some progress =>
    let output ← IO.getStdout
    output.putStr progress.out
    output.flush
    putNotices start (Command.logged talk.plan.debug progress.records.toList)
    return { talk with events := talk.events ++ events, progress := progress }

def atEnd (talk : Conversation) : List Repl.Event :=
  match talk.plan.plain, talk.buffer with
  | true, [] => []
  | true, src => [.newline, .evaluate src]
  | false, [] => [.newline]
  | false, src => [.evaluate src, .prompt, .newline]

/-- Whether the loop ends at a line. The loop over plain lines looks at the line itself, the one at
a terminal at the whole input. -/
def quitsAt (talk : Conversation) (line src : Bytes) : Bool :=
  if talk.plan.plain then talk.buffer.isEmpty && Repl.isQuit line
  else !Repl.incomplete src.text && Repl.isQuit src

def lineBytes? (plain : Bool) (line : String) : Option Bytes :=
  let bytes := Bytes.ofString line
  if plain then
    match Text.limitedLines Repl.lineLimit bytes with
    | .line bytes :: _ => some bytes
    | _ => none
  else
    ((Text.bufferedLines Repl.History.bufferSize bytes).map Text.BufferedLine.bytes).head?

/-- Reads and answers lines until the input ends or a line ends the loop. -/
partial def goOn (talk : Conversation) (input : IO.FS.Stream) :
    IO (Conversation × Option Repl.ReadFault) := do
  let settings := talk.plan.settings
  let cue := Repl.promptFor talk.buffer
  if !talk.plan.plain &&
      !Repl.canShow Repl.isValidPrompt settings.prompt settings.continuation cue then
    return (talk, some .invalidPrompt)
  let talk ← talk.act [cue]
  let line ← input.getLine
  if line.isEmpty then
    return (← talk.act talk.atEnd, none)
  match lineBytes? talk.plan.plain line with
  | none => return (← talk.act [.newline], some .lineTooLong)
  | some bytes =>
    let src := Repl.joined talk.buffer bytes
    if talk.quitsAt bytes src then return (talk, none)
    else if Repl.incomplete src.text then goOn { talk with buffer := src } input
    else if !talk.plan.plain && (Text.trimText src.text).isEmpty then
      goOn { talk with buffer := [] } input
    else goOn { ← talk.act [.evaluate src] with buffer := [] } input

end Conversation

def keepHistory (host : Host) (path : Bytes) (events : List Repl.Event) : IO (List LogRecord) := do
  let host := { host with files := ← survey host.directory host.files path }
  let (files, records) := Repl.saveHistory host path events
  match files.read host.directory path with
  | .ok bytes =>
    if records.isEmpty then IO.FS.writeBinFile path.text (ByteArray.mk bytes.toArray)
  | .error _ => return records
  return records

def converse (host : Host) (plan : Command.LoopPlan) : IO UInt32 := do
  let start ← IO.monoMsNow
  putNotices start plan.notices
  let talk : Conversation := ⟨plan, [], [], .start plan.settings⟩
  let talk ← if plan.plain then pure talk else talk.act [.banner]
  let (talk, fault) ← talk.goOn (← IO.getStdin)
  let records ←
    if plan.plain || plan.settings.history.isEmpty then pure []
    else keepHistory host plan.settings.history talk.events
  conclude start (Command.endingOutcome plan.debug ⟨"", records, host.files, fault⟩)

end Console
end Scriptlet

open Scriptlet in
def main (args : List String) : IO UInt32 := do
  let start ← IO.monoMsNow
  let bytes := args.map Bytes.ofString
  let host ← Console.hostFor bytes
  match args with
  | "repl" :: _ =>
    match Command.planLoop host bytes.tail with
    | .ok plan => Console.converse host plan
    | .error outcome => Console.conclude start (Command.withHint .repl outcome)
  | _ =>
    match Command.execute host bytes with
    | some outcome => Console.conclude start outcome
    | none => return Command.Status.failure.code.toUInt32
