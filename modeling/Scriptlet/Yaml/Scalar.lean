import Scriptlet.Yaml.Cursor

/-!
# Scalars in the flow of a line

A scalar may run over several lines. A single line feed inside it reads as a space; of several, all
but the first are kept.

- `Yaml.readPlain` : a scalar without quotes
- `Yaml.readQuoted` : a scalar in single or double quotes
-/

namespace Scriptlet
namespace Yaml

/-- What stands between two words of a scalar: blanks, or line ends with those behind the first. A
first line end that does not count is left out. Lists have the last character first. -/
inductive Space
  | none
  | blanks (chars : List Char)
  | breaks (first : Option Char) (more : List Char)

namespace Space

def folded : Space → List Char
  | .none => []
  | .blanks chars => chars
  | .breaks (some '\n') [] => [' ']
  | .breaks (some '\n') more => more
  | .breaks first more => more ++ first.toList

/-- The space with one more blank. Blanks behind a line end do not count. -/
def blank (space : Space) (c : Char) : Space :=
  match space with
  | .none => .blanks [c]
  | .blanks chars => .blanks (c :: chars)
  | .breaks first more => .breaks first more

def lineBreak (space : Space) (c : Char) : Space :=
  match space with
  | .breaks first more => .breaks first (breakChar c :: more)
  | _ => .breaks (some (breakChar c)) []

def isEmpty : Space → Bool
  | .none => true
  | _ => false

def hasBreak : Space → Bool
  | .breaks .. => true
  | _ => false

end Space

/-- What reading a scalar leaves: the text, whether line ends follow it, and the place behind it. -/
structure ScalarEnd where
  text : String
  brokenOff : Bool
  cursor : Cursor

/-! ## Without quotes -/

def endsPlain (flow : Bool) (cursor : Cursor) : Bool :=
  let c := cursor.head
  (c == ':' && endsWord (cursor.ahead 1)) || c == endChar ||
    (flow && (c == ',' || c == '?' || c == '[' || c == ']' || c == '\x7b' || c == '\x7d'))

def plainEnd (text : List Char) (space : Space) (cursor : Cursor) : ScalarEnd :=
  ⟨String.ofList text.reverse, space.hasBreak, cursor⟩

/-- Reads on in a plain scalar that belongs to `indent` and started in the line `first`; `text`
holds its characters so far, the last one first. Where no word is open, a comment, a document mark
or, in a block, a smaller indentation end the scalar. -/
def readPlainFrom (flow : Bool) (indent : Int) (first : Nat) (text : List Char) (space : Space)
    (inWord : Bool) : List Char → Cursor → Scanned ScalarEnd
  | [], cursor => .ok (plainEnd text space cursor)
  | _ :: bound, cursor => do
    let c := cursor.head
    if isBreak c then
      let cursor ← cursor.need 2
      let next ← cursor.skipLine.need 1
      readPlainFrom flow indent first text (space.lineBreak c) false bound next
    else if isBlank c then
      if space.hasBreak && c == '\t' && decide ((cursor.mark.col : Int) < indent) then
        throw (cursor.failed .tabInPlain first)
      let next ← cursor.skip.need 1
      readPlainFrom flow indent first text (space.blank c) false bound next
    else if !space.isEmpty && !flow && decide ((cursor.mark.col : Int) < indent) then
      return plainEnd text space cursor
    else
      let cursor ← if inWord then pure cursor else cursor.need 4
      if (!inWord && (c == '#' || cursor.atDocumentMark)) || endsPlain flow cursor then
        return plainEnd text space cursor
      let next ← cursor.skip.need 2
      readPlainFrom flow indent first (c :: (space.folded ++ text)) .none true bound next

/-- Reads a plain scalar, inside brackets if `flow` is true. Its lines are indented at least by
`indent`. -/
def readPlain (flow : Bool) (indent : Int) (cursor : Cursor) : Scanned ScalarEnd :=
  readPlainFrom flow indent cursor.mark.line [] .none false cursor.rest cursor

/-! ## In quotes -/

def escape? : Char → Option Char
  | '0' => some (Char.ofNat 0)
  | 'a' => some (Char.ofNat 7)
  | 'b' => some (Char.ofNat 8)
  | 't' => some '\t'
  | '\t' => some '\t'
  | 'n' => some '\n'
  | 'v' => some (Char.ofNat 11)
  | 'f' => some (Char.ofNat 12)
  | 'r' => some '\r'
  | 'e' => some (Char.ofNat 27)
  | ' ' => some ' '
  | '"' => some '"'
  | '\'' => some '\''
  | '\\' => some '\\'
  | 'N' => some (Char.ofNat 0x85)
  | '_' => some (Char.ofNat 0xA0)
  | 'L' => some (Char.ofNat 0x2028)
  | 'P' => some (Char.ofNat 0x2029)
  | _ => none

def escapeWidth? : Char → Option Nat
  | 'x' => some 2
  | 'u' => some 4
  | 'U' => some 8
  | _ => none

def hexValue? (width : Nat) (digits : List Char) : Option Nat :=
  if digits.length < width then none
  else
    digits.foldl (fun acc c => do
      let value ← acc
      let digit ← hexDigit? c
      return value * 16 + digit) (some 0)

/-- Reads an escape with the backslash ahead, in a scalar that began in the line `first`. -/
def readEscape (first : Nat) (cursor : Cursor) : Scanned (Char × Cursor) :=
  let letter := cursor.ahead 1
  match escape? letter with
  | some c => .ok (c, cursor.skip.skip)
  | none =>
    match escapeWidth? letter with
    | none => .error (cursor.failed .unknownEscape first)
    | some width => do
      let cursor ← cursor.skip.skip.need width
      match hexValue? width (cursor.rest.take width) with
      | none => throw (cursor.failed .escapeDigits first)
      | some code =>
        if code.isValidChar then return (Char.ofNat code, cursor.skipMany width)
        else throw (cursor.failed .escapeCode first)

def quotedEnd (text : List Char) (cursor : Cursor) : ScalarEnd :=
  ⟨String.ofList text.reverse, false, cursor.skip⟩

/-- Reads on in a scalar between the characters `quote` that began in the line `first`. Where no
word is open, neither a document mark nor the end of the document may follow. -/
def readQuotedFrom (quote : Char) (first : Nat) (text : List Char) (space : Space)
    (inWord : Bool) : List Char → Cursor → Scanned ScalarEnd
  | [], cursor => do
    let cursor ← cursor.need 4
    throw (cursor.failed .endInQuotes first)
  | _ :: bound, cursor => do
    let c := cursor.head
    if isBreak c then
      let cursor ← cursor.need 2
      let next ← cursor.skipLine.need 1
      readQuotedFrom quote first text (space.lineBreak c) false bound next
    else if isBlank c then
      let next ← cursor.skip.need 1
      readQuotedFrom quote first text (space.blank c) false bound next
    else
      let text := space.folded ++ text
      let cursor ← if inWord then pure cursor else cursor.need 4
      if !inWord && cursor.atDocumentMark then throw (cursor.failed .documentInQuotes first)
      else if c == endChar then throw ((← cursor.need 4).failed .endInQuotes first)
      else if c == quote then
        if quote == '\'' && cursor.ahead 1 == '\'' then
          let next ← cursor.skip.skip.need 2
          readQuotedFrom quote first (c :: text) .none true bound next
        else return quotedEnd text cursor
      else if quote == '"' && c == '\\' then
        if isBreak (cursor.ahead 1) then
          let cursor ← cursor.need 3
          let next ← cursor.skip.skipLine.need 1
          if next.head == quote then return quotedEnd text next
          else readQuotedFrom quote first text (.breaks none []) false bound next
        else
          let (decoded, behind) ← readEscape first cursor
          let next ← behind.need 2
          readQuotedFrom quote first (decoded :: text) .none true bound next
      else
        let next ← cursor.skip.need 2
        readQuotedFrom quote first (c :: text) .none true bound next

def readQuoted (cursor : Cursor) : Scanned ScalarEnd := do
  let inner ← cursor.skip.need 4
  readQuotedFrom cursor.head cursor.mark.line [] .none false inner.rest inner

end Yaml
end Scriptlet
