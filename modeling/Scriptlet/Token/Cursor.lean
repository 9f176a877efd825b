import Scriptlet.Token.Lexeme

/-!
# Cursors and token lists

- `Cursor` : a place in a source text with what lies ahead of it
- `Cursor.next` : the next token and the cursor behind it
- `tokenize` : all tokens of a source text, the end of file included
-/

namespace Scriptlet

/-- A place in a source text: the characters ahead, the row and column, and the number of characters
behind. -/
structure Cursor where
  rest : List Char
  pos : Pos
  offset : Nat

namespace Cursor

def start (src : List Char) : Cursor :=
  ⟨src, .start, 0⟩

def moved (cursor : Cursor) (chars rest : List Char) : Cursor :=
  ⟨rest, cursor.pos.afterAll chars, cursor.offset + chars.length⟩

def skipGap (cursor : Cursor) : Cursor :=
  let (gap, rest) := spanGap cursor.rest
  cursor.moved gap rest

/-- The next token and the cursor behind it. At the end of the source every step gives the end of
file and moves no further. -/
def next (cursor : Cursor) : Token × Cursor :=
  let here := cursor.skipGap
  match here.rest with
  | [] => (⟨.eof, "", here.pos⟩, here)
  | c :: rest =>
    let lexeme := Lexeme.read c rest
    (⟨lexeme.kind, lexeme.text, here.pos⟩, here.moved lexeme.chars lexeme.rest)

/-- The first `n` tokens, each with the cursor behind it. -/
def steps (cursor : Cursor) : Nat → List (Token × Cursor)
  | 0 => []
  | n + 1 =>
    let step := cursor.next
    step :: step.2.steps n

/-- The tokens ahead up to the end of file, at most `fuel` of them, behind those in `found`, which
has the last one first. -/
def tokensFrom (found : List Token) : Nat → Cursor → List Token
  | 0, _ => found.reverse
  | fuel + 1, cursor =>
    let (token, cursor) := cursor.next
    if token.kind = .eof then (token :: found).reverse
    else tokensFrom (token :: found) fuel cursor

end Cursor

/-- All tokens of a source text, the end of file included. Every other token takes at least one
character, so there is no more than one token for each character and one for the end. -/
def tokenize (src : String) : List Token :=
  let chars := src.toList
  (Cursor.start chars).tokensFrom [] (chars.length + 1)

end Scriptlet
