import Scriptlet.Yaml.Comment
import Scriptlet.Yaml.Scalar

/-!
# Scalars in blocks of lines

A block scalar takes whole lines that are indented alike. A literal one keeps its line ends, a
folded one joins lines as other scalars do. What becomes of the line ends behind the last line is
told in front of the block.

- `Yaml.readBlock` : a block scalar
-/

namespace Scriptlet
namespace Yaml

/-- What becomes of the line ends behind the last line of a block: none is kept, one, or all. -/
inductive Chomping
  | strip
  | clip
  | keep
  deriving DecidableEq, Repr

structure BlockHeader where
  chomping : Chomping
  indent? : Option Nat

/-- Reads the sign that tells what becomes of the last line ends, if there is one. -/
def readChomping? (cursor : Cursor) : Option Chomping :=
  if cursor.head == '+' then some .keep
  else if cursor.head == '-' then some .strip
  else none

def readIndent (first : Nat) (cursor : Cursor) : Scanned (Option Nat × Cursor) :=
  let c := cursor.head
  if c == '0' then .error (cursor.failed .zeroIndent first)
  else if isDecimalDigit c then do
    let next ← cursor.skip.need 1
    return (some (c.toNat - 48), next)
  else .ok (none, cursor)

def readHeader (first : Nat) (cursor : Cursor) : Scanned (BlockHeader × Cursor) := do
  let cursor ← cursor.need 1
  match readChomping? cursor with
  | some chomping =>
    let (indent?, cursor) ← readIndent first (← cursor.skip.need 1)
    return (⟨chomping, indent?⟩, cursor)
  | none =>
    let (indent?, cursor) ← readIndent first cursor
    match indent?, readChomping? cursor with
    | some indent, some chomping => return (⟨chomping, some indent⟩, cursor.skip)
    | _, _ => return (⟨.clip, indent?⟩, cursor)

/-- The rest of a line in front of which only blanks and a comment may stand; the problem belongs to
the line `first`. -/
def passRestOfLine (first : Nat) (cursor : Cursor) : Scanned Cursor := do
  let cursor ← cursor.skipWhile isBlank
  let cursor ← if cursor.head == '#' then cursor.skipToLineEnd else pure cursor
  if endsLine cursor.head then cursor.passLineEnd
  else throw (cursor.failed .trailingText first)

/-- Moves on over spaces within the indentation of a block, which is not yet known if it is zero. -/
def skipIndent (indent : Nat) : List Char → Cursor → Scanned Cursor
  | [], cursor => .ok cursor
  | _ :: bound, cursor =>
    if cursor.head == ' ' && (indent == 0 || decide (cursor.mark.col < indent)) then do
      skipIndent indent bound (← cursor.skip.need 1)
    else .ok cursor

/-- Moves on over empty lines. `breaks` holds their line ends, the last one first, and `widest` the
greatest column so far. -/
def skipEmptyLines (indent first : Nat) (widest : Nat) (breaks : List Char) :
    List Char → Cursor → Scanned (List Char × Nat × Cursor)
  | [], cursor => .ok (breaks, widest, cursor)
  | _ :: bound, cursor => do
    let cursor ← cursor.need 1
    let cursor ← skipIndent indent cursor.rest cursor
    let col := cursor.mark.col
    let widest := if widest < col then col else widest
    if cursor.head == '\t' && (indent == 0 || decide (col < indent)) then
      throw (cursor.failed .tabInBlock first)
    if isBreak cursor.head then
      let next ← cursor.passLineEnd
      skipEmptyLines indent first widest (breakChar cursor.head :: breaks) bound next
    else return (breaks, widest, cursor)

/-- Reads on in a block; `text` holds the characters so far, `lineEnd` the end of the last line,
`breaks` the ends of the empty lines behind it, and `indented` tells that the last line began with a
blank. Lists have the last character first. -/
def readLinesFrom (literal : Bool) (indent first : Nat) (text : List Char) (lineEnd : Option Char)
    (breaks : List Char) (indented : Bool) :
    List Char → Cursor → Scanned (List Char × Option Char × List Char × Cursor)
  | [], cursor => .ok (text, lineEnd, breaks, cursor)
  | _ :: bound, cursor => do
    if cursor.mark.col != indent || cursor.head == endChar then
      return (text, lineEnd, breaks, cursor)
    let blank := isBlank cursor.head
    let joint :=
      if !literal && !indented && !blank && lineEnd == some '\n' then
        if breaks.isEmpty then [' '] else []
      else lineEnd.toList
    let (line, cursor) ← cursor.takeWhile fun c => !endsLine c
    let cursor ← cursor.need 2
    let lineEnd := if isBreak cursor.head then some (breakChar cursor.head) else none
    let text := line.reverse ++ (breaks ++ (joint ++ text))
    let next := cursor.skipLine
    let (breaks, _, next) ← skipEmptyLines indent first 0 [] next.rest next
    readLinesFrom literal indent first text lineEnd breaks blank bound next

def Chomping.finish (chomping : Chomping) (text : List Char) (lineEnd : Option Char)
    (breaks : List Char) : List Char :=
  match chomping with
  | .strip => text
  | .clip => lineEnd.toList ++ text
  | .keep => breaks ++ (lineEnd.toList ++ text)

/-- Reads a block scalar with its sign ahead, in a block that is indented by `outer`, and the
comment behind its sign, if there is one. -/
def readBlock (outer : Int) (cursor : Cursor) : Scanned (ScalarEnd × Option Comment) := do
  let literal := cursor.head == '|'
  let mark := cursor.mark
  let first := mark.line
  let (header, cursor) ← readHeader first cursor.skip
  let cursor ← cursor.skipWhile isBlank
  let (comment?, cursor) ←
    if cursor.head == '#' then passLineComment mark.index cursor else pure (none, cursor)
  let cursor ← passRestOfLine first cursor
  let told := match header.indent? with
    | some indent => if 0 ≤ outer then outer.toNat + indent else indent
    | none => 0
  let (breaks, widest, cursor) ← skipEmptyLines told first 0 [] (endChar :: cursor.rest) cursor
  let least := (outer + 1).toNat
  let found := if widest < least then least else widest
  let indent := if told != 0 then told else if found < 1 then 1 else found
  let cursor ← cursor.need 1
  let (text, lineEnd, breaks, cursor) ←
    readLinesFrom literal indent first [] none breaks false cursor.rest cursor
  let content := (header.chomping.finish text lineEnd breaks).reverse
  return (⟨String.ofList content, false, cursor⟩, comment?)

end Yaml
end Scriptlet
