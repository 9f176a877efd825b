import Scriptlet.Text.Bytes

/-!
# Flags

Flags stand in front of all other arguments. A flag is a name behind one or two dashes; a switch may
have a value behind an equals sign, and a text has its value there or in the next argument.

- `Command.Flag` : a flag that a command knows
- `Command.readFlags` : the flags in a list of arguments
- `Command.FlagFault` : why arguments cannot be read
-/

namespace Scriptlet
namespace Command

structure Flag where
  name : String
  isText : Bool
  summary : String
  deriving DecidableEq, Repr

inductive Given
  | switch (name : String) (value : Bool)
  | text (name : String) (value : Bytes)
  deriving DecidableEq, Repr

/-- Why arguments cannot be read. A request for help is one of the reasons. -/
inductive FlagFault
  | helpWanted
  | badSyntax (arg : Bytes)
  | unknown (name : String)
  | noValue (name : String)
  | badSwitch (name : String) (value : Bytes)
  deriving DecidableEq, Repr

def FlagFault.message? : FlagFault → Option String
  | .helpWanted => none
  | .badSyntax arg => some ("bad flag syntax: " ++ arg.text)
  | .unknown name => some ("flag provided but not defined: -" ++ name)
  | .noValue name => some ("flag needs an argument: -" ++ name)
  | .badSwitch name value =>
    some ("invalid boolean value " ++ value.quoted ++ " for -" ++ name ++ ": parse error")

def switchValue? (text : String) : Option Bool :=
  if ["1", "t", "T", "TRUE", "true", "True"].contains text then some true
  else if ["0", "f", "F", "FALSE", "false", "False"].contains text then some false
  else none

inductive ArgForm
  | other
  | endOfFlags
  | malformed
  | flag (name : String) (value : Option Bytes)
  deriving DecidableEq, Repr

def dash : UInt8 := 0x2D

def equals : UInt8 := 0x3D

def flagForm : Bytes → ArgForm
  | [] => .malformed
  | first :: rest =>
    if first = dash || first = equals then .malformed
    else
      let name := Bytes.text (first :: rest.takeWhile (· != equals))
      match rest.dropWhile (· != equals) with
      | _ :: value => .flag name (some value)
      | [] => .flag name none

def argForm : Bytes → ArgForm
  | a :: b :: rest =>
    if a ≠ dash then .other
    else if b ≠ dash then flagForm (b :: rest)
    else if rest.isEmpty then .endOfFlags
    else flagForm rest
  | _ => .other

def readSwitch (name : String) (value : Option Bytes) : Except FlagFault Given :=
  match value with
  | none => .ok (.switch name true)
  | some given =>
    match switchValue? given.text with
    | some value => .ok (.switch name value)
    | none => .error (.badSwitch name given)

def findFlag (flags : List Flag) (name : String) : Except FlagFault Flag :=
  match flags.find? (·.name == name) with
  | some flag => .ok flag
  | none => .error (if name == "h" || name == "help" then .helpWanted else .unknown name)

def readFlags (flags : List Flag) : List Bytes → Except FlagFault (List Given)
  | [] => .ok []
  | arg :: rest =>
    match argForm arg with
    | .other | .endOfFlags => .ok []
    | .malformed => .error (.badSyntax arg)
    | .flag name value =>
      match findFlag flags name with
      | .error fault => .error fault
      | .ok flag =>
        if flag.isText then
          match value, rest with
          | some text, rest => (readFlags flags rest).map (.text name text :: ·)
          | none, text :: rest => (readFlags flags rest).map (.text name text :: ·)
          | none, [] => .error (.noValue name)
        else
          match readSwitch name value with
          | .error fault => .error fault
          | .ok given => (readFlags flags rest).map (given :: ·)

/-- The text of a flag: the last one given, or empty. -/
def textOf (name : String) (given : List Given) : Bytes :=
  given.foldl (fun found flag =>
    match flag with
    | .text other value => if other = name then value else found
    | .switch .. => found) []

/-- The state of a switch: the last one given, or off. -/
def switchOf (name : String) (given : List Given) : Bool :=
  given.foldl (fun found flag =>
    match flag with
    | .switch other value => if other = name then value else found
    | .text .. => found) false

/-! ## Usage -/

def usageOfFlag (flag : Flag) : String :=
  let value := if flag.isText then " string" else ""
  "  -" ++ flag.name ++ value ++ "\n    \t" ++ flag.summary ++ "\n"

def usageText (command : String) (flags : List Flag) : String :=
  "Usage of " ++ command ++ ":\n" ++ String.join (flags.map usageOfFlag)

def complaintText (command : String) (flags : List Flag) (fault : FlagFault) : String :=
  match fault.message? with
  | some message => message ++ "\n" ++ usageText command flags
  | none => usageText command flags

end Command
end Scriptlet
