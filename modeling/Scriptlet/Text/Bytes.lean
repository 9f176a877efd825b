import Scriptlet.Text.Quoted
import Scriptlet.Text.Utf8

/-!
# Texts as bytes

Names of files, arguments and lines are bytes, and need not be the UTF-8 form of any text.

- `Bytes.ofString` : the UTF-8 form of a text
- `Bytes.text` : the bytes read as a text
- `Bytes.quoted` : the bytes in quotes, with every byte told apart
- `Bytes.split` : the pieces between bytes of one kind
-/

namespace Scriptlet

/-- A text that may be ill-formed. -/
abbrev Bytes := List UInt8

namespace Bytes

def ofString (s : String) : Bytes :=
  s.toUTF8.toList

/-- The bytes read as a text. A byte outside every UTF-8 sequence reads as the replacement
character. -/
def text (bytes : Bytes) : String :=
  String.ofList (Text.readUtf8 bytes)

def escapeByte (b : UInt8) : List Char :=
  '\\' :: 'x' :: Text.hexDigits 2 b.toNat

/-- Writes the bytes behind `skip` ones that are already accounted for; `written` holds what was
written before, the last character first. -/
def quotedFrom (skip : Nat) (written : List Char) : Bytes → List Char
  | [] => written.reverse
  | b :: rest =>
    match skip with
    | k + 1 => quotedFrom k written rest
    | 0 =>
      match Text.leadChar? b rest with
      | some (c, extra) => quotedFrom extra ((Text.escapeChar c).reverse ++ written) rest
      | none => quotedFrom 0 ((escapeByte b).reverse ++ written) rest

def quoted (bytes : Bytes) : String :=
  String.ofList ('"' :: quotedFrom 0 [] bytes ++ ['"'])

def split (sep : UInt8) : Bytes → List Bytes
  | [] => [[]]
  | b :: rest =>
    if b = sep then [] :: split sep rest
    else
      match split sep rest with
      | piece :: pieces => (b :: piece) :: pieces
      | [] => [[b]]

end Bytes

end Scriptlet
