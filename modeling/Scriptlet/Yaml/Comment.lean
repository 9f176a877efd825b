import Scriptlet.Yaml.Cursor

/-!
# Comments

Comments in lines of their own are gathered up to the next thing that is no comment. Depending on
indentation and empty lines they belong to what stands above them or to what stands below them.

- `Yaml.Comment` : a comment and what it belongs to
- `Yaml.Gathering.run` : the comments in this and the following lines
- `Yaml.passLineComment` : the comment behind a token in its line
-/

namespace Scriptlet
namespace Yaml

inductive CommentKind
  | above
  | beside
  | below
  deriving DecidableEq, Repr

/-- A comment: its kind and text, the place where it begins and the index where it ends, the index
at which the gap around it begins, and the index of the token that it belongs to. -/
structure Comment where
  kind : CommentKind
  text : List Char
  start : Mark
  stop : Nat
  gap : Nat
  owner : Nat

def commentRange : Nat := 512

/-! ## Comments in lines of their own -/

/-- What stands around comments: whether brackets are open, the indentation, whether the last token
is the colon of a value, and the line in which a comment still belongs to that token, if any. -/
structure Surroundings where
  flow : Bool
  indent : Nat
  behindColon : Bool
  closeLine : Option Nat

/-- Comments while they are gathered: the comments so far with the last one first, the text of the
open one with the last character first and where it begins, the gap and the owner for the next one,
the line and the column of the character that is looked at, and whether the last line was empty and
whether none was before. Columns count from one. -/
structure Gathering where
  found : List Comment
  text : List Char
  start : Mark
  gap : Nat
  owner : Nat
  line : Nat
  col : Nat
  lastEmpty : Bool
  noneEmpty : Bool

namespace Gathering

def isOutdented (gathering : Gathering) (around : Surroundings) : Bool :=
  decide (gathering.start.col < around.indent + 1)

def isBelow (gathering : Gathering) (around : Surroundings) : Bool :=
  gathering.noneEmpty &&
    ((around.closeLine == some gathering.start.line && !around.behindColon) ||
      gathering.isOutdented around)

/-- Closes the open comment as one that stands below its owner, in front of the character at an
index. -/
def close (gathering : Gathering) (index : Nat) : Gathering :=
  if gathering.text.isEmpty then gathering
  else
    { gathering with
      found := ⟨.below, gathering.text.reverse, gathering.start, index, gathering.gap,
        gathering.owner⟩ :: gathering.found
      text := []
      gap := index
      owner := index }

/-- Closes the open comment at the end of a line or of the brackets. One that is outdented belongs
to nothing before it. -/
def closeAtEnd (gathering : Gathering) (around : Surroundings) (index : Nat) : Gathering :=
  if gathering.text.isEmpty || !gathering.isOutdented around then gathering.close index
  else { gathering with owner := gathering.start.index }.close index

/-- The end of an empty line, or of brackets if `closing` is true, at an index. -/
def endLine (gathering : Gathering) (around : Surroundings) (closing atEnd : Bool)
    (index : Nat) : Gathering :=
  if closing || !gathering.lastEmpty then
    if closing || gathering.isBelow around then gathering.closeAtEnd around index
    else if gathering.text.isEmpty || atEnd then gathering
    else { gathering with text := '\n' :: gathering.text }
  else gathering

/-- A character that ends no line at an index. A comment that is indented differently from the open
one closes that. -/
def meet (gathering : Gathering) (around : Surroundings) (index : Nat) : Gathering :=
  if decide (gathering.col < around.indent + 1) && gathering.col != gathering.start.col then
    gathering.close index
  else gathering

def advance (gathering : Gathering) : Gathering :=
  { gathering with col := gathering.col + 1 }

def newLine (gathering : Gathering) : Gathering :=
  { gathering with noneEmpty := false, lastEmpty := true, col := 0, line := gathering.line + 1 }

/-- Looks for the next comment behind blanks and empty lines, from a character `distance` away from
the one at `index`. Tells whether there is one and how far away. A line end other than a line feed
or carriage return hides what follows it. -/
def look (around : Surroundings) (index distance : Nat) (gathering : Gathering) :
    List Char → Bool × Nat × Gathering
  | [] =>
    if commentRange ≤ distance then (false, distance, gathering)
    else (false, distance, gathering.advance.endLine around false true (index + distance))
  | c :: rest =>
    if commentRange ≤ distance then (false, distance, gathering)
    else
      let gathering := gathering.advance
      let place := index + distance
      if isBlank c then look around index (distance + 1) gathering rest
      else if around.flow && (c == ']' || c == '\x7d') then
        (false, distance, gathering.endLine around true false place)
      else if isBreak c then
        let gathering := (gathering.endLine around false false place).newLine
        if c == '\n' || c == '\r' then look around index (distance + 1) gathering rest
        else (false, distance + 1, gathering.advance.meet around (place + 1))
      else (c == '#', distance, gathering.meet around place)

def beginText (gathering : Gathering) (index distance : Nat) : Gathering :=
  if gathering.text.isEmpty then
    { gathering with
      start := ⟨gathering.line, gathering.col, index + distance⟩
      lastEmpty := false }
  else { gathering with text := '\n' :: gathering.text, lastEmpty := false }

/-- Moves on over blanks and line ends until the character at `index`. -/
def advanceTo (index : Nat) : List Char → Cursor → Scanned Cursor
  | [], cursor => .ok cursor
  | _ :: bound, cursor =>
    if index ≤ cursor.mark.index then .ok cursor
    else do
      let cursor ← cursor.need 1
      if isBreak cursor.head then advanceTo index bound (← cursor.passLineEnd)
      else advanceTo index bound cursor.skip

def readComment (cursor : Cursor) (distance : Nat) : Scanned (Mark × List Char × Cursor) := do
  let cursor ← advanceTo (cursor.mark.index + distance) cursor.rest cursor
  let (text, behind) ← cursor.takeWhile fun c => !endsLine c
  return (cursor.mark, text, behind)

def needFor (cursor : Cursor) (distance : Nat) : Scanned Cursor :=
  cursor.need (if distance < commentRange then distance + 1 else commentRange)

def behindLineEnd (cursor : Cursor) : Option (List Char) :=
  match cursor.rest with
  | [] => some []
  | c :: rest => if c = '\n' || c = '\r' then some rest else none

def lookFrom (around : Surroundings) (gathering : Gathering) (cursor : Cursor) (here : Bool) :
    Bool × Nat × Gathering :=
  let index := cursor.mark.index
  if here then gathering.look around index 0 cursor.rest
  else
    match behindLineEnd cursor with
    | some rest => gathering.look around index 1 rest
    | none => (false, 1, gathering.advance.meet around (index + 1))

def gather (around : Surroundings) :
    List Char → Bool → Gathering → Cursor → Scanned (Nat × Gathering × Cursor)
  | [], _, gathering, cursor => .ok (0, gathering, cursor)
  | _ :: bound, here, gathering, cursor => do
    let (found, distance, gathering) := gathering.lookFrom around cursor here
    let cursor ← needFor cursor distance
    if !found then return (distance, gathering, cursor)
    let gathering := gathering.beginText cursor.mark.index distance
    let (_, text, cursor) ← readComment cursor distance
    let text := text.reverse ++ gathering.text
    gather around bound false { gathering with text, col := 0, line := cursor.mark.line } cursor

/-- The comments from here on, of which the first one is ahead, and the place behind them. The gap
around them begins at the index `gap`, and the last token stands at the index `owner`. -/
def run (around : Surroundings) (gap owner : Nat) (cursor : Cursor) :
    Scanned (List Comment × Cursor) := do
  let start : Gathering :=
    ⟨[], [], .start, gap, owner, cursor.mark.line, cursor.mark.col, false,
      decide (cursor.lineEnds ≤ 1)⟩
  let (distance, gathering, cursor) ← gather around (endChar :: cursor.rest) true start cursor
  let last :=
    if gathering.text.isEmpty then []
    else
      let stop := cursor.mark.index + distance - 1
      [⟨.above, gathering.text.reverse, gathering.start, stop, gathering.gap,
        gathering.start.index⟩]
  return (gathering.found.reverse ++ last, cursor)

end Gathering

/-! ## Comments behind tokens -/

/-- The distance to the comment behind blanks; otherwise how far one had to look to see that there
is none. -/
def besideFrom (distance : Nat) : List Char → Bool × Nat
  | [] => (false, distance)
  | c :: rest =>
    if commentRange ≤ distance then (false, distance)
    else if isBlank c then besideFrom (distance + 1) rest
    else (c == '#', distance)

/-- The comment that follows a token in its line, if one does, and the place behind it. The token
stands at the index `owner`. -/
def passLineComment (owner : Nat) (cursor : Cursor) : Scanned (Option Comment × Cursor) := do
  if cursor.lineEnds ≠ 0 then return (none, cursor)
  else
    let (found, distance) := besideFrom 0 cursor.rest
    let cursor ← Gathering.needFor cursor distance
    if found then
      let (start, text, cursor) ← Gathering.readComment cursor distance
      return (some ⟨.beside, text, start, 0, 0, owner⟩, cursor)
    else return (none, cursor)

end Yaml
end Scriptlet
