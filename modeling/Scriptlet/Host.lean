import Scriptlet.FileTree

/-!
# Hosts

- `Host` : what a command finds when it starts
- `Host.read`, `Host.write` : files, seen from the current directory
-/

namespace Scriptlet

/-- What a command finds when it starts: the files, the current directory, the home directory, if
one is known, and what can be read from the input. `terminal` tells whether the input is a
terminal. -/
structure Host where
  files : FileTree
  directory : Bytes
  home : Option Bytes
  input : Bytes
  terminal : Bool

namespace Host

def read (host : Host) (path : Bytes) : Except FileFault Bytes :=
  host.files.read host.directory path

def write (host : Host) (path bytes : Bytes) : Except FileFault FileTree :=
  host.files.write host.directory path bytes

end Host

end Scriptlet
