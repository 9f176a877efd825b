import Scriptlet.Repl.Event

/-!
# History

The history holds the inputs of earlier sessions and of this one, each on one line, at most `limit`
of them.

- `History.ofBytes` : the history in a file
- `History.add` : one more input
- `History.render` : the content of the file
-/

namespace Scriptlet
namespace Repl

abbrev History := List Bytes

namespace History

def limit : Nat := 1000

/-- The size of the buffer through which lines are read, in bytes. -/
def bufferSize : Nat := 4096

def trim (history : History) : History :=
  if limit < history.length then history.tail else history

/-- Adds an entry unless it repeats the last one. -/
def add (history : History) (entry : Bytes) : History :=
  if history.getLast? = some entry then history else trim (history ++ [entry])

def entryOf (src : Bytes) : Bytes :=
  src.map fun b => if b = Text.lineFeed then 0x20 else b

def addEvents (history : History) (events : List Event) : History :=
  events.foldl (fun history event =>
    match event with
    | .evaluate src => history.add (entryOf src)
    | _ => history) history

/-- Reads lines up to one that is too long or no text. -/
def readLines (history : History) : List Text.BufferedLine → History
  | [] => history
  | line :: rest =>
    if line.cut || !Text.isUtf8 line.bytes then history
    else readLines (trim (history ++ [line.bytes])) rest

def ofBytes (bytes : Bytes) : History :=
  readLines [] (Text.bufferedLines bufferSize bytes)

def render (history : History) : Bytes :=
  history.flatMap (· ++ [Text.lineFeed])

end History

end Repl
end Scriptlet
