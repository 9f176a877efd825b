import Scriptlet.Yaml.Tag

/-!
# Tokens of a document

Indentation and the place of colons decide which blocks begin and end. A scalar or bracket that a
colon follows in the same line is a key; its key token goes in front of it once the colon is found.
Tokens are had one by one, and no more of the document is read than that takes.

- `Yaml.Token` : a token with its mark
- `Yaml.Scan` : how far a document has been cut into tokens
- `Yaml.Scan.ready` : makes sure that the next token can be taken
-/

namespace Scriptlet
namespace Yaml

inductive Shape
  | streamStart
  | streamEnd
  | directive (directive : Directive)
  | documentStart
  | documentEnd
  | sequenceStart
  | mappingStart
  | blockEnd
  | openBracket
  | closeBracket
  | openBrace
  | closeBrace
  | entry
  | comma
  | key
  | value
  | alias (name : String)
  | anchor (name : String)
  | tag (tag : Tag)
  | scalar (text : String) (plain : Bool)
  deriving DecidableEq, Repr

structure Token where
  shape : Shape
  mark : Mark
  deriving DecidableEq, Repr

/-- Something that may turn out to be a key: the number that its key token would get, where it
stands, whether it can still be a key, and whether it has to be one. -/
structure PendingKey where
  number : Nat
  mark : Mark
  possible : Bool
  required : Bool

/-- How far a document has been cut into tokens: the place, the tokens that wait to be taken and the
number of those taken, the indentation of the open blocks, and the pending key of each level of
brackets. `numbered` tells the level of the key that may begin with a token of some number,
`keyAllowed` whether a key may begin here, and `size` bounds what lies ahead. The comments are those
that wait for their tokens. -/
structure Scan where
  cursor : Cursor
  queue : List Token
  taken : Nat
  indent : Int
  outer : List Int
  keys : Array PendingKey
  numbered : List (Nat × Nat)
  keyAllowed : Bool
  started : Bool
  size : Nat
  comments : List Comment

/-- Cutting tokens either succeeds, or fails with as much as was cut. -/
abbrev Cut (α : Type) := Except (Failed Scan) α

namespace Scan

def ofSource (source : Source) : Scan :=
  ⟨.ofSource source, [], 0, -1, [], #[], [], false, false, source.chars.length, []⟩

def inFlow (scan : Scan) : Bool :=
  decide (1 < scan.keys.size)

def mark (scan : Scan) : Mark :=
  scan.cursor.mark

def nextNumber (scan : Scan) : Nat :=
  scan.taken + scan.queue.length

def failed (scan : Scan) (problem : Problem) (context : Nat) : Failed Scan :=
  ⟨(scan.cursor.failed problem context).fault, scan⟩

def lift {α : Type} (scan : Scan) (result : Scanned α) : Cut α :=
  match result with
  | .ok a => .ok a
  | .error failed => .error ⟨failed.fault, { scan with cursor := failed.reached }⟩

def need (scan : Scan) (n : Nat) : Cut Scan := do
  return { scan with cursor := ← scan.lift (scan.cursor.need n) }

def push (scan : Scan) (shape : Shape) (mark : Mark) : Scan :=
  { scan with queue := scan.queue ++ [⟨shape, mark⟩] }

/-- Puts in a token under a number. If the token of that number is taken, it goes to the end. -/
def insert (scan : Scan) (number : Nat) (shape : Shape) (mark : Mark) : Scan :=
  if number < scan.taken then scan.push shape mark
  else { scan with queue := scan.queue.insertIdx (number - scan.taken) ⟨shape, mark⟩ }

def pushSign (scan : Scan) (shape : Shape) (width : Nat) : Scan :=
  { scan.push shape scan.mark with cursor := scan.cursor.skipMany width }

/-! ## Blocks -/

/-- The place where a block of some indentation ends: at the first of the comments in the last gap
that are indented like the block, or at `mark`. The comments have the last one first. -/
def blockEndFrom (indent : Int) (stop : Nat) (mark : Mark) : List Comment → Mark
  | [] => mark
  | comment :: rest =>
    if comment.stop < stop then mark
    else
      let mark := if (comment.start.col : Int) = indent + 1 then comment.start else mark
      blockEndFrom indent comment.gap mark rest

/-- Ends the blocks in `outer` and the present one that are indented more than `column`. -/
def unrollTo (column : Int) (comments : List Comment) (mark : Mark) (queue : List Token)
    (indent : Int) : List Int → List Token × Int × List Int
  | [] => (queue, indent, [])
  | next :: rest =>
    if column < indent then
      let mark := blockEndFrom indent mark.index mark comments
      unrollTo column comments mark (queue ++ [⟨.blockEnd, mark⟩]) next rest
    else (queue, indent, next :: rest)

/-- Ends the blocks that are indented more than `column`, behind what stands in front of `mark`. -/
def unroll (scan : Scan) (column : Int) (mark : Mark) : Scan :=
  if scan.inFlow || decide (scan.indent ≤ column) then scan
  else
    let before := { mark with index := mark.index - 1 }
    let (queue, indent, outer) :=
      unrollTo column scan.comments.reverse before scan.queue scan.indent scan.outer
    { scan with queue, indent, outer }

def roll (scan : Scan) (column number : Nat) (shape : Shape) (mark : Mark) : Cut Scan :=
  if scan.inFlow || decide ((column : Int) ≤ scan.indent) then .ok scan
  else if maxDepth ≤ scan.outer.length then
    let context := (scan.keys.back?.map fun key => key.mark.line).getD 0
    .error (scan.failed .tooDeep context)
  else
    .ok { scan.insert number shape mark with
      indent := column
      outer := scan.indent :: scan.outer }

/-! ## Keys -/

def setKey (scan : Scan) (key : PendingKey) : Scan :=
  { scan with keys := scan.keys.pop.push key }

def unnumber (scan : Scan) (number : Nat) : Scan :=
  { scan with numbered := scan.numbered.filter fun entry => entry.1 != number }

/-- Gives up the pending key. One that has to be a key lacks its colon. -/
def dropKey (scan : Scan) : Cut Scan :=
  match scan.keys.back? with
  | some key =>
    if key.possible then
      if key.required then .error (scan.failed .missingColon key.mark.line)
      else .ok ((scan.setKey { key with possible := false }).unnumber key.number)
    else .ok scan
  | none => .ok scan

def saveKey (scan : Scan) : Cut Scan :=
  if scan.keyAllowed then do
    let required := !scan.inFlow && scan.indent == (scan.mark.col : Int)
    let number := scan.nextNumber
    let scan ← scan.dropKey
    let scan := (scan.unnumber number).setKey ⟨number, scan.mark, true, required⟩
    return { scan with numbered := (number, scan.keys.size - 1) :: scan.numbered }
  else .ok scan

/-- Whether a pending key is in this line and not too far back. One that has to be a key may not be
left behind. -/
def keepsKey (scan : Scan) (key : PendingKey) : Cut Bool :=
  if !key.possible then .ok false
  else if key.mark.line < scan.mark.line || decide (key.mark.index + 1024 < scan.mark.index) then
    if key.required then .error (scan.failed .missingColon key.mark.line) else .ok false
  else .ok true

/-! ## Gaps -/

def byteOrderMark : Char := Char.ofNat 0xFEFF

def ownerToken? (scan : Scan) : Option Token :=
  match scan.queue.reverse with
  | last :: before :: _ => some (if last.shape = .comma then before else last)
  | last :: [] => some last
  | [] => none

/-- What stands around the comment ahead; the gap began at `before`. -/
def surroundings (scan : Scan) (before : Mark) : Surroundings :=
  let cursor := scan.cursor
  let line := cursor.mark.line + 1 - cursor.lineEnds
  let closeLine := if cursor.lineEnds = 0 && decide (1 < cursor.mark.col) then line + 1 else line
  ⟨scan.inFlow, scan.indent.toNat, (scan.ownerToken?.map Token.shape) == some .value,
    if before.col = 0 then none else some closeLine⟩

def gatherComments (scan : Scan) (before : Mark) : Cut Scan := do
  let owner := (scan.ownerToken?.map fun token => token.mark.index).getD 0
  let (found, cursor) ←
    scan.lift (Gathering.run (scan.surroundings before) before.index owner scan.cursor)
  return { scan with cursor, comments := scan.comments ++ found }

def atFirstItem (scan : Scan) : Bool :=
  match scan.queue.reverse with
  | last :: before :: _ => last.shape == .entry && before.shape == .sequenceStart
  | _ => false

/-- A comment beside a token that a block sequence follows stands above the first item of that. If
nothing but a line end is between them it belongs to what the item begins with. -/
def adoptComment (scan : Scan) : Scan :=
  match scan.comments.getLast? with
  | some comment =>
    if scan.atFirstItem && comment.kind == .beside && !isBreak scan.cursor.head then
      let owner := if comment.start.line + 1 = scan.mark.line then scan.mark.index
        else comment.owner
      { scan with comments := scan.comments.dropLast ++ [{ comment with kind := .above, owner }] }
    else scan
  | none => scan

/-- Moves behind blanks, comments and line ends, in a gap that began at `before`. Tabs are blanks
only where no key may begin. While the window begins with a byte order mark, every line loses its
first character. -/
def skipGapFrom (before : Mark) : List Char → Scan → Cut Scan
  | [], scan => .ok scan
  | _ :: bound, scan => do
    let scan ← scan.need 1
    let cursor := if scan.mark.col == 0 && scan.cursor.first == byteOrderMark
      then scan.cursor.skip else scan.cursor
    let tabs := scan.inFlow || !scan.keyAllowed
    let cursor ← scan.lift (cursor.skipWhile fun c => c == ' ' || (tabs && c == '\t'))
    let scan := adoptComment { scan with cursor }
    let scan ← if cursor.head == '#' then scan.gatherComments before else pure scan
    if isBreak scan.cursor.head then
      let cursor ← scan.lift scan.cursor.passLineEnd
      skipGapFrom before bound { scan with cursor, keyAllowed := scan.keyAllowed || !scan.inFlow }
    else return scan

def skipGap (scan : Scan) : Cut Scan :=
  skipGapFrom scan.mark (endChar :: scan.cursor.rest) scan

/-! ## Tokens -/

def startStream (scan : Scan) : Scan :=
  { scan.push .streamStart scan.mark with
    keys := #[⟨0, .start, false, false⟩]
    keyAllowed := true
    started := true }

def endStream (scan : Scan) : Cut Scan := do
  let mark := scan.mark
  let mark := if mark.col = 0 then mark else { mark with line := mark.line + 1, col := 0 }
  let scan := { scan with cursor := { scan.cursor with mark } }
  let scan ← (scan.unroll (-1) mark).dropKey
  return { scan.push .streamEnd mark with keyAllowed := false }

def directive (scan : Scan) : Cut Scan := do
  let mark := scan.mark
  let scan ← (scan.unroll (-1) mark).dropKey
  let scan := { scan with keyAllowed := false }
  let (directive, cursor) ← scan.lift (readDirective scan.cursor)
  return { scan.push (.directive directive) mark with cursor }

def documentMark (scan : Scan) (shape : Shape) : Cut Scan := do
  let scan ← (scan.unroll (-1) scan.mark).dropKey
  return { scan.pushSign shape 3 with keyAllowed := false }

def openFlow (scan : Scan) (shape : Shape) : Cut Scan := do
  let scan ← scan.saveKey
  let scan := { scan with keys := scan.keys.push ⟨scan.nextNumber, scan.mark, false, false⟩ }
  if maxDepth + 1 < scan.keys.size then throw (scan.failed .tooDeep scan.mark.line)
  return { scan.pushSign shape 1 with keyAllowed := true }

def leaveFlow (scan : Scan) : Scan :=
  match scan.keys.back? with
  | some key =>
    if scan.inFlow then { scan.unnumber key.number with keys := scan.keys.pop } else scan
  | none => scan

def closeFlow (scan : Scan) (shape : Shape) : Cut Scan := do
  let scan ← scan.dropKey
  return { scan.leaveFlow.pushSign shape 1 with keyAllowed := false }

def flowComma (scan : Scan) : Cut Scan := do
  let scan ← scan.dropKey
  return { scan.pushSign .comma 1 with keyAllowed := true }

def blockEntry (scan : Scan) : Cut Scan := do
  if !scan.inFlow && !scan.keyAllowed then throw (scan.failed .entryContext scan.mark.line)
  let scan ← scan.roll scan.mark.col scan.nextNumber .sequenceStart scan.mark
  let scan ← scan.dropKey
  return { scan.pushSign .entry 1 with keyAllowed := true }

def explicitKey (scan : Scan) : Cut Scan := do
  if !scan.inFlow && !scan.keyAllowed then throw (scan.failed .keyContext scan.mark.line)
  let scan ← scan.roll scan.mark.col scan.nextNumber .mappingStart scan.mark
  let scan ← scan.dropKey
  return { scan.pushSign .key 1 with keyAllowed := !scan.inFlow }

def colonBehind (scan : Scan) (key : PendingKey) : Cut Scan := do
  let scan := scan.insert key.number .key key.mark
  let scan ← scan.roll key.mark.col key.number .mappingStart key.mark
  let scan := (scan.setKey { key with possible := false }).unnumber key.number
  return { scan.pushSign .value 1 with keyAllowed := false }

def colonAlone (scan : Scan) : Cut Scan := do
  if !scan.inFlow && !scan.keyAllowed then throw (scan.failed .valueContext scan.mark.line)
  let scan ← scan.roll scan.mark.col scan.nextNumber .mappingStart scan.mark
  return { scan.pushSign .value 1 with keyAllowed := !scan.inFlow }

def colon (scan : Scan) : Cut Scan := do
  match scan.keys.back? with
  | some key =>
    if ← scan.keepsKey key then scan.colonBehind key
    else (scan.setKey { key with possible := false }).colonAlone
  | none => scan.colonAlone

def beginKey (scan : Scan) : Cut Scan := do
  return { ← scan.saveKey with keyAllowed := false }

def name (scan : Scan) (shape : String → Shape) : Cut Scan := do
  let scan ← scan.beginKey
  let (name, cursor) ← scan.lift (readName scan.cursor)
  return { scan.push (shape name) scan.mark with cursor }

def tag (scan : Scan) : Cut Scan := do
  let scan ← scan.beginKey
  let (tag, cursor) ← scan.lift (readTag scan.cursor)
  return { scan.push (.tag tag) scan.mark with cursor }

def block (scan : Scan) : Cut Scan := do
  let scan := { ← scan.dropKey with keyAllowed := true }
  let (found, comment?) ← scan.lift (readBlock scan.indent scan.cursor)
  return { scan.push (.scalar found.text false) scan.mark with
    cursor := found.cursor
    comments := scan.comments ++ comment?.toList }

def quoted (scan : Scan) : Cut Scan := do
  let scan ← scan.beginKey
  let found ← scan.lift (readQuoted scan.cursor)
  return { scan.push (.scalar found.text false) scan.mark with cursor := found.cursor }

/-- A scalar without quotes. Behind one that line ends follow, a key may begin. -/
def plain (scan : Scan) : Cut Scan := do
  let scan ← scan.beginKey
  let found ← scan.lift (readPlain scan.inFlow (scan.indent + 1) scan.cursor)
  return { scan.push (.scalar found.text true) scan.mark with
    cursor := found.cursor
    keyAllowed := found.brokenOff }

/-- The characters with which no plain scalar begins, a dash, question mark or colon in front of
more text apart. -/
def isIndicator (c : Char) : Bool :=
  "-?:,[]\x7b\x7d#&*!|>'\"%@\x60".toList.contains c

def startsPlain (scan : Scan) : Bool :=
  let c := scan.cursor.head
  let detached := endsWord (scan.cursor.ahead 1)
  !(endsWord c || isIndicator c) || (c == '-' && !detached) ||
    (!scan.inFlow && (c == '?' || c == ':') && !detached)

def contentToken (scan : Scan) : Cut Scan :=
  let c := scan.cursor.head
  let flow := scan.inFlow
  let detached := endsWord (scan.cursor.ahead 1)
  if c = '[' then scan.openFlow .openBracket
  else if c = '\x7b' then scan.openFlow .openBrace
  else if c = ']' then scan.closeFlow .closeBracket
  else if c = '\x7d' then scan.closeFlow .closeBrace
  else if c = ',' then scan.flowComma
  else if c = '-' && detached then scan.blockEntry
  else if c = '?' && (flow || detached) then scan.explicitKey
  else if c = ':' && (flow || detached) then scan.colon
  else if c = '*' then scan.name .alias
  else if c = '&' then scan.name .anchor
  else if c = '!' then scan.tag
  else if (c = '|' || c = '>') && !flow then scan.block
  else if c = '\'' || c = '"' then scan.quoted
  else if scan.startsPlain then scan.plain
  else .error (scan.failed .badStart scan.mark.line)

/-- The index of the token that a comment behind the next token belongs to. Behind a colon, or a
comma between brackets, that is the token in front of it. -/
def commentOwner (scan : Scan) : Nat :=
  let sign := if scan.inFlow then ',' else ':'
  match scan.queue.getLast? with
  | some token => if scan.cursor.head = sign then token.mark.index else scan.mark.index
  | none => scan.mark.index

/-- Reads the comment behind the last token, unless that is the dash of an item. -/
def trailingComment (scan : Scan) (owner : Nat) : Cut Scan := do
  if (scan.queue.getLast?.map Token.shape) == some .entry then return scan
  else
    let (comment?, cursor) ← scan.lift (passLineComment owner scan.cursor)
    return { scan with cursor, comments := scan.comments ++ comment?.toList }

def next (scan : Scan) : Cut Scan := do
  let scan ← scan.need 1
  if !scan.started then return scan.startStream
  let before := scan.mark
  let scan ← scan.skipGap
  let scan ← (scan.unroll scan.mark.col before).need 4
  let c := scan.cursor.head
  if c == endChar then scan.endStream
  else if scan.mark.col == 0 && c == '%' then scan.directive
  else if scan.cursor.atDocumentMark then
    scan.documentMark (if c = '-' then .documentStart else .documentEnd)
  else (← scan.contentToken).trailingComment scan.commentOwner

/-- Whether the first token may be taken: at least two more wait, and it does not begin what may
still turn out to be a key. -/
def isReady (scan : Scan) : Cut (Bool × Scan) :=
  if scan.queue.length < 3 then .ok (false, scan)
  else
    match scan.numbered.lookup scan.taken with
    | none => .ok (true, scan)
    | some level =>
      match scan.keys[level]? with
      | none => .ok (true, scan)
      | some key => do
        if ← scan.keepsKey key then return (false, scan)
        else
          let keys := scan.keys.setIfInBounds level { key with possible := false }
          return (true, { scan with keys })

def readyFrom : Nat → Scan → Cut Scan
  | 0, scan => .ok scan
  | fuel + 1, scan => do
    let (ready, scan) ← scan.isReady
    if ready then return scan else readyFrom fuel (← scan.next)

/-- Makes sure that the first token may be taken. Every token takes at least one character, and a
few more come behind the last character. -/
def ready (scan : Scan) : Cut Scan :=
  readyFrom (scan.size + 5) scan

/-- The comments that find their token in front of or at the given one, and those that wait on. A
block does not begin at its end, so what stands above something waits there. -/
def splitComments (token : Token) (found : List Comment) :
    List Comment → List Comment × List Comment
  | [] => (found.reverse, [])
  | comment :: rest =>
    if token.mark.index < comment.owner || (comment.kind == .above && token.shape == .blockEnd) then
      (found.reverse, comment :: rest)
    else splitComments token (comment :: found) rest

def take (scan : Scan) : Scan :=
  { scan.unnumber scan.taken with queue := scan.queue.tail, taken := scan.taken + 1 }

end Scan

end Yaml
end Scriptlet
