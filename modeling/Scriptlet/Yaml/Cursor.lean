import Scriptlet.Yaml.Source

/-!
# A place in a document

Characters are read through a window, which takes in the next portion only when more characters are
asked for than it holds.

- `Yaml.Cursor` : what lies ahead of a place
- `Yaml.Cursor.need` : makes sure that the window holds some characters
- `Yaml.Cursor.skip`, `Yaml.Cursor.skipLine` : the place behind a character or a line end
- `Yaml.Cursor.takeWhile` : the characters up to one of another kind
-/

namespace Scriptlet
namespace Yaml

/-! ## Characters -/

/-- Stands for the character behind the last one. No document holds it. -/
def endChar : Char := Char.ofNat 0

def isBlank (c : Char) : Bool :=
  c == ' ' || c == '\t'

/-- The line ends that are kept in a text; every other one reads as a line feed. -/
def isKeptBreak (c : Char) : Bool :=
  c.toNat == 0x2028 || c.toNat == 0x2029

def isBreak (c : Char) : Bool :=
  c == '\n' || c == '\r' || c.toNat == 0x85 || isKeptBreak c

def endsLine (c : Char) : Bool :=
  isBreak c || c == endChar

def endsWord (c : Char) : Bool :=
  isBlank c || endsLine c

def breakChar (c : Char) : Char :=
  if isKeptBreak c then c else '\n'

def isDecimalDigit (c : Char) : Bool :=
  decide ('0' ≤ c) && decide (c ≤ '9')

def isNameChar (c : Char) : Bool :=
  c.isAlphanum || c == '_' || c == '-'

def hexDigit? (c : Char) : Option Nat :=
  if '0' ≤ c ∧ c ≤ '9' then some (c.toNat - 48)
  else if 'a' ≤ c ∧ c ≤ 'f' then some (c.toNat - 87)
  else if 'A' ≤ c ∧ c ≤ 'F' then some (c.toNat - 55)
  else none

/-! ## Cursors -/

/-- A place in a document: the characters ahead of it, how many of them the window holds, the first
character in the window, the sizes of the portions behind the window, and what is wrong behind
those. `lineEnds` counts the line ends behind the last character that is neither a line end nor
blank. -/
structure Cursor where
  rest : List Char
  mark : Mark
  lineEnds : Nat
  held : Nat
  first : Char
  sizes : List Nat
  problem? : Option Problem

/-- Reading from a place either succeeds, or fails at a place farther on. -/
abbrev Scanned (α : Type) := Except (Failed Cursor) α

namespace Cursor

def ofSource (source : Source) : Cursor :=
  ⟨source.chars, .start, 0, 0, endChar, source.sizes, source.problem?⟩

def head (cursor : Cursor) : Char :=
  cursor.rest.headD endChar

def ahead (cursor : Cursor) (n : Nat) : Char :=
  (cursor.rest.drop n).headD endChar

/-- The failure at a place in something that begins in the line `context`. -/
def failed (cursor : Cursor) (problem : Problem) (context : Nat) : Failed Cursor :=
  ⟨⟨problem, true, context, cursor.mark.line⟩, cursor⟩

/-- Takes portions into the window until it holds `n` characters, of which it holds `held`. -/
def pull (n held : Nat) : List Nat → Nat × List Nat
  | [] => (held, [])
  | size :: sizes => if n ≤ held then (held, size :: sizes) else pull n (held + size) sizes

/-- Makes sure that the window holds `n` characters, unless the document ends before. -/
def need (cursor : Cursor) (n : Nat) : Scanned Cursor :=
  if n ≤ cursor.held then .ok cursor
  else
    let (held, sizes) := pull n cursor.held cursor.sizes
    if n ≤ held then .ok { cursor with held, sizes, first := cursor.head }
    else
      match cursor.problem? with
      | some problem => .error ⟨.whole problem, cursor⟩
      | none => .ok { cursor with held := held + 1, sizes, first := cursor.head }

def skip (cursor : Cursor) : Cursor :=
  { cursor with
    rest := cursor.rest.tail
    mark := ⟨cursor.mark.line, cursor.mark.col + 1, cursor.mark.index + 1⟩
    lineEnds := if isBlank cursor.head then cursor.lineEnds else 0
    held := cursor.held - 1 }

def skipMany : Nat → Cursor → Cursor
  | 0, cursor => cursor
  | n + 1, cursor => skipMany n cursor.skip

def skipLine (cursor : Cursor) : Cursor :=
  let behind := fun (width : Nat) =>
    { cursor with
      rest := cursor.rest.drop width
      mark := ⟨cursor.mark.line + 1, 0, cursor.mark.index + width⟩
      lineEnds := cursor.lineEnds + 1
      held := cursor.held - width }
  match cursor.rest with
  | '\r' :: '\n' :: _ => behind 2
  | c :: _ => if isBreak c then behind 1 else cursor
  | [] => cursor

/-- Takes characters for as long as they are of a kind; `bound` is at least as long as what lies
ahead. -/
def takeWhileFrom (p : Char → Bool) (taken : List Char) :
    List Char → Cursor → Scanned (List Char × Cursor)
  | [], cursor => .ok (taken.reverse, cursor)
  | _ :: bound, cursor =>
    if p cursor.head then do
      let next ← cursor.skip.need 1
      takeWhileFrom p (cursor.head :: taken) bound next
    else .ok (taken.reverse, cursor)

def takeWhile (cursor : Cursor) (p : Char → Bool) : Scanned (List Char × Cursor) := do
  let cursor ← cursor.need 1
  takeWhileFrom p [] cursor.rest cursor

def skipWhile (cursor : Cursor) (p : Char → Bool) : Scanned Cursor :=
  Prod.snd <$> cursor.takeWhile p

def skipToLineEnd (cursor : Cursor) : Scanned Cursor :=
  cursor.skipWhile fun c => !endsLine c

def passLineEnd (cursor : Cursor) : Scanned Cursor := do
  if isBreak cursor.head then
    let cursor ← cursor.need 2
    return cursor.skipLine
  else return cursor

/-- Whether a line begins here with the mark between two documents or the mark behind one. -/
def atDocumentMark (cursor : Cursor) : Bool :=
  cursor.mark.col == 0 &&
    (match cursor.rest with
    | '-' :: '-' :: '-' :: rest => endsWord (rest.headD endChar)
    | '.' :: '.' :: '.' :: rest => endsWord (rest.headD endChar)
    | _ => false)

end Cursor

end Yaml
end Scriptlet
