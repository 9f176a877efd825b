import Scriptlet.Text.Bytes

/-!
# Paths

A path consists of components with slashes between them. Cleaning looks only at the components: it
drops empty ones and dots, and lets two dots take back the component before them.

- `Path.clean` : the shortest path of the same meaning
- `Path.join` : one path behind another
- `Path.absolute` : a path seen from a directory
-/

namespace Scriptlet
namespace Path

def slash : UInt8 := 0x2F

def here : Bytes := [0x2E]

def up : Bytes := [0x2E, 0x2E]

def components (path : Bytes) : List Bytes :=
  path.split slash

def ofComponents (components : List Bytes) : Bytes :=
  [slash].intercalate components

def isAbsolute (path : Bytes) : Bool :=
  path.head? == some slash

/-- The components that remain of a path, the last one first, after one more of them. At the root
two dots stay at the root. -/
def cleanStep (rooted : Bool) (kept : List Bytes) (component : Bytes) : List Bytes :=
  if component.isEmpty || component == here then kept
  else if component == up then
    match kept with
    | [] => if rooted then [] else [up]
    | last :: rest => if last == up then up :: kept else rest
  else component :: kept

/-- The shortest path of the same meaning. -/
def clean (path : Bytes) : Bytes :=
  let rooted := isAbsolute path
  let kept := (components path).foldl (cleanStep rooted) []
  let text := ofComponents kept.reverse
  if rooted then slash :: text else if kept.isEmpty then here else text

/-- A clean path of the given ones one behind another; empty ones do not count. -/
def join (paths : List Bytes) : Bytes :=
  match paths.filter (!·.isEmpty) with
  | [] => []
  | paths => clean (ofComponents paths)

/-- A path seen from a directory. -/
def absolute (directory path : Bytes) : Bytes :=
  if isAbsolute path then clean path else join [directory, path]

end Path
end Scriptlet
