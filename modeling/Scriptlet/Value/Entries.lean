import Scriptlet.Value.Basic

/-!
# Entries of a hash

The entries stand in the order in which their keys first came. Writing to a key that is there
already changes its value and not its place.

- `Entries.insert`, `Entries.get?` : writing and reading
- `Entries.ofList` : writing several entries into an empty hash
- `Entries.keys`, `Entries.values` : the two columns
-/

namespace Scriptlet

/-- The entries of a hash, without a key that stands twice. -/
abbrev Entries := List (Key × Value)

namespace Entries

def insert (key : Key) (value : Value) : Entries → Entries
  | [] => [(key, value)]
  | entry :: rest =>
    if entry.1 = key then (key, value) :: rest else entry :: insert key value rest

def get? (key : Key) : Entries → Option Value
  | [] => none
  | entry :: rest => if entry.1 = key then some entry.2 else get? key rest

/-- The entries after writing the given ones in order. -/
def ofList (writes : List (Key × Value)) : Entries :=
  writes.foldl (fun entries write => insert write.1 write.2 entries) []

def keys (entries : Entries) : List Value :=
  entries.map fun entry => entry.1.toValue

def values (entries : Entries) : List Value :=
  entries.map fun entry => entry.2

end Entries

end Scriptlet
