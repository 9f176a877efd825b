import Scriptlet.Builtin.Standard
import Scriptlet.Text.Bytes
import Scriptlet.Token.Basic

/-!
# Completion

The word at the end of a line can be completed to a keyword or the name of a host function. Lines
and words are compared as bytes.

- `Repl.completionWords` : the words that can stand for it, sorted
- `Repl.wordStart` : where the word is taken to start
- `Repl.completions` : the lines after completion
-/

namespace Scriptlet
namespace Repl

def insertWord (word : String) : List String → List String
  | [] => [word]
  | first :: rest =>
    if first < word then first :: insertWord word rest else word :: first :: rest

def completionWords : List String :=
  (Token.Kind.keywords.map Prod.fst).foldr insertWord Builtins.standard.names

def isCompletable (c : Char) : Bool :=
  c.isAlphanum || c == '_'

/-- Goes on at the byte number `index`, behind `skip` bytes that are already accounted for; `last`
is the outcome so far. A byte outside every UTF-8 sequence is a character of its own. -/
def lastOtherFrom (skip index : Nat) (last : Option Nat) : Bytes → Option Nat
  | [] => last
  | b :: rest =>
    match skip with
    | k + 1 => lastOtherFrom k (index + 1) last rest
    | 0 =>
      match Text.leadChar? b rest with
      | some (c, extra) =>
        lastOtherFrom extra (index + 1) (if isCompletable c then last else some index) rest
      | none => lastOtherFrom 0 (index + 1) (some index) rest

/-- The number of the byte at which the last character starts that belongs to no word. -/
def lastOther? (line : Bytes) : Option Nat :=
  lastOtherFrom 0 0 none line

/-- Where the word at the end of a line is taken to start: one byte behind the start of the
character in front of it, however many bytes that character takes. -/
def wordStart (line : Bytes) : Nat :=
  match lastOther? line with
  | some index => index + 1
  | none => 0

def completer (words : List String) (line : Bytes) : List Bytes :=
  let start := wordStart line
  let stem := line.drop start
  if stem.isEmpty then []
  else
    ((words.map Bytes.ofString).filter fun word => stem.isPrefixOf word).map fun word =>
      line.take start ++ word

def completions (line : String) : List String :=
  (completer completionWords (.ofString line)).map Bytes.text

end Repl
end Scriptlet
