import Scriptlet.Command.Flags

/-!
# Commands and their help

- `Command.Name` : the commands
- `Command.helpText` : the help on one command
- `Command.catalogText` : the help on all of them
-/

namespace Scriptlet
namespace Command

inductive Name
  | help
  | repl
  | run
  | version
  deriving DecidableEq, Repr

namespace Name

def all : List Name := [.help, .repl, .run, .version]

def text : Name → String
  | .help => "help"
  | .repl => "repl"
  | .run => "run"
  | .version => "version"

def ofText? (text : String) : Option Name :=
  all.find? (·.text == text)

def summary : Name → String
  | .help => "Prints the usage of all commands"
  | .repl => "Starts an interactive session"
  | .run => "Takes the filepath of program, and executes it"
  | .version => "Prints the version"

def flags : Name → List Flag
  | .run => [
      ⟨"config", true, "config file path"⟩,
      ⟨"debug", false, "log diagnostics to stderr"⟩,
      ⟨"f", true, "program file path"⟩]
  | .repl => [
      ⟨"config", true, "config file path"⟩,
      ⟨"debug", false, "log diagnostics to stderr"⟩,
      ⟨"plain", false, "read lines without terminal editing"⟩]
  | _ => []

def helpFlags : Name → List (String × String)
  | .run => ("-f", "program file path") :: commonHelp
  | .repl =>
    ("-plain", "read lines without terminal editing, also used when stdin is not a terminal") ::
      commonHelp
  | _ => []
where
  /-- The flags that both commands share. -/
  commonHelp : List (String × String) := [
    ("-config", "config file path (default $HOME/.quill.yaml)"),
    ("-debug", "log diagnostics to stderr")]

end Name

def styled (style text : String) : String :=
  "\x1b[" ++ style ++ "m" ++ text ++ "\x1b[0m"

def flagLine (indent : String) (flag : String × String) : String :=
  indent ++ "    " ++ styled "1;33" flag.1 ++ " - " ++ styled "0;37" flag.2 ++ "\n"

def entryText (indent : String) (name : Name) : String :=
  let flags := match name.helpFlags with
    | [] => indent ++ "  " ++ styled "0;37" "(No flags available)" ++ "\n"
    | flags =>
      indent ++ "  " ++ styled "1;37" "Flags:" ++ "\n" ++ String.join (flags.map (flagLine indent))
  indent ++ styled "1;36" name.text ++ "\n" ++
    indent ++ "  " ++ styled "1;37" "Description:" ++ " " ++ styled "0;37" name.summary ++ "\n" ++
    flags

def helpText (name : Name) : String :=
  "\n" ++ styled "1;35" "Command:" ++ "\n" ++ entryText "" name ++ "\n"

def catalogText : String :=
  "\n" ++ styled "1;35" "Supported Commands:" ++ "\n\n" ++
    String.join (Name.all.map fun name => entryText "  " name ++ "\n") ++ "\n"

def versionText : String := "quill 0.3.0\n"

end Command
end Scriptlet
