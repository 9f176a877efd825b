import Scriptlet.Text.Blank
import Scriptlet.Text.Letter
import Scriptlet.Token.Basic

/-!
# Lexemes and gaps

A source text is a row of lexemes with gaps between them. A gap holds blanks and comments; a lexeme
holds the characters of one token.

- `spanGap` : the gap in front of a text
- `Lexeme` : the lexeme in front of a text, with the kind and text of its token
- `Lexeme.read` : which lexeme starts at a character
-/

namespace Scriptlet

open Text

/-! ## Gaps -/

/-- Collects the gap in front of a text; `comment` tells whether the text starts inside a comment,
and `gap` holds the characters so far, the last one first. -/
def spanGapFrom (comment : Bool) (gap : List Char) : List Char → List Char × List Char
  | [] => (gap.reverse, [])
  | c :: rest =>
    if comment then spanGapFrom (c != '\n') (c :: gap) rest
    else if c = '#' then spanGapFrom true (c :: gap) rest
    else if isBlank c then spanGapFrom false (c :: gap) rest
    else (gap.reverse, c :: rest)

/-- The gap in front of a text, and what follows it. A comment runs from `#` to the end of its
line. -/
def spanGap (cs : List Char) : List Char × List Char :=
  spanGapFrom false [] cs

/-! ## Character classes -/

def isWordStart (c : Char) : Bool :=
  isLetter c || c == '_'

def isDecimal (c : Char) : Bool :=
  decide ('0' ≤ c) && decide (c ≤ '9')

def isWordPart (c : Char) : Bool :=
  isWordStart c || isDecimal c

/-! ## Quoted texts -/

/-- What a backslash and the given character stand for inside quotes. -/
def unescape? : Char → Option Char
  | 'n' => some '\n'
  | 't' => some '\t'
  | 'r' => some '\r'
  | '"' => some '"'
  | '\\' => some '\\'
  | _ => none

/-- Reads behind an opening quote up to the closing one: the decoded text, the characters read and
what follows. A backslash in front of any other character stands for itself. `text` and `read` hold
what was found so far, the last one first. -/
def readQuoted (text read : List Char) : List Char → Option (List Char × List Char × List Char)
  | [] => none
  | '"' :: rest => some (text.reverse, ('"' :: read).reverse, rest)
  | '\\' :: c :: rest =>
    match unescape? c with
    | some decoded => readQuoted (decoded :: text) (c :: '\\' :: read) rest
    | none => readQuoted ('\\' :: text) ('\\' :: read) (c :: rest)
  | c :: rest => readQuoted (c :: text) (c :: read) rest

/-! ## Lexemes -/

/-- The lexeme in front of a text: the kind and text of its token, its own characters and what
follows them. -/
structure Lexeme where
  kind : Token.Kind
  text : String
  chars : List Char
  rest : List Char

namespace Lexeme

def illegalText (c : Char) : String :=
  "illegal character " ++ c.toString

def unterminatedText : String :=
  "unterminated string, missing closing quote (\")"

def word (c : Char) (rest : List Char) : Lexeme :=
  let chars := c :: rest.takeWhile isWordPart
  let text := String.ofList chars
  ⟨.ofWord text, text, chars, rest.dropWhile isWordPart⟩

def number (c : Char) (rest : List Char) : Lexeme :=
  let chars := c :: rest.takeWhile isDecimal
  ⟨.int, String.ofList chars, chars, rest.dropWhile isDecimal⟩

/-- A quoted text, whose opening quote stands in front of `rest`. Without a closing quote the lexeme
takes everything. -/
def quoted (rest : List Char) : Lexeme :=
  match readQuoted [] ['"'] rest with
  | some (text, chars, rest) => ⟨.str, String.ofList text, chars, rest⟩
  | none => ⟨.unterminated, unterminatedText, '"' :: rest, []⟩

/-- Punctuation that takes up an equals sign directly behind it. -/
def equality (alone doubled : Token.Kind) (c : Char) : List Char → Lexeme
  | '=' :: rest => ⟨doubled, doubled.name, [c, '='], rest⟩
  | rest => ⟨alone, alone.name, [c], rest⟩

/-- The lexeme that starts at the character `c`, which is in no gap. -/
def read (c : Char) (rest : List Char) : Lexeme :=
  match Token.Kind.ofSingle? c with
  | some kind => ⟨kind, kind.name, [c], rest⟩
  | none =>
    match Token.Kind.ofEquality? c with
    | some (alone, doubled) => equality alone doubled c rest
    | none =>
      if c = '"' then quoted rest
      else if isWordStart c then word c rest
      else if isDecimal c then number c rest
      else ⟨.illegal, illegalText c, [c], rest⟩

end Lexeme

end Scriptlet
