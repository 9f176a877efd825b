import Scriptlet.Value.Entries

/-!
# Equality of values

Numbers, texts and truth values are equal by what they hold, arrays and hashes by their parts, and
functions only to themselves. Signals equal nothing. The order of a hash's entries does not matter.
-/

namespace Scriptlet

mutual

def Value.equal : Value → Value → Bool
  | .int a, .int b => a == b
  | .bool a, .bool b => a == b
  | .str a, .str b => a == b
  | .null, .null => true
  | .array xs, .array ys => equalItems xs ys
  | .hash xs, .hash ys => xs.length == ys.length && entriesWithin xs ys
  | .function f, .function g => f.id == g.id
  | .builtin f, .builtin g => f == g
  | .absent, .absent => true
  | _, _ => false

def equalItems : List Value → List Value → Bool
  | [], [] => true
  | x :: xs, y :: ys => x.equal y && equalItems xs ys
  | _, _ => false

/-- Whether each entry has an equal one among the others. -/
def entriesWithin : List (Key × Value) → Entries → Bool
  | [], _ => true
  | entry :: rest, others => entryWithin entry others && entriesWithin rest others

def entryWithin : Key × Value → Entries → Bool
  | (key, value), others =>
    match Entries.get? key others with
    | some other => value.equal other
    | none => false

end

end Scriptlet
