import Scriptlet.Yaml.Fault

/-!
# The characters of a document

A document comes in portions of bytes. A portion with anything wrong in it is not read at all, so
the characters in front of it are still there for those who need no more.

- `Yaml.Encoding` : how characters are written as bytes
- `Yaml.Source` : the characters of a document, portion by portion
-/

namespace Scriptlet
namespace Yaml

inductive Encoding
  | utf8
  | utf16 (lowFirst : Bool)
  deriving DecidableEq, Repr

/-- The encoding that the mark in front of a document tells, and the length of that mark. -/
def Encoding.detect : List UInt8 → Encoding × Nat
  | 0xFF :: 0xFE :: _ => (.utf16 true, 2)
  | 0xFE :: 0xFF :: _ => (.utf16 false, 2)
  | 0xEF :: 0xBB :: 0xBF :: _ => (.utf8, 3)
  | _ => (.utf8, 0)

/-- What some bytes begin with: a character of `width` bytes, the beginning of a character that goes
on behind them, or neither. -/
inductive Lead
  | char (c : Char) (width : Nat)
  | cut (problem : Problem)
  | bad (problem : Problem)

def isAllowed (code : Nat) : Bool :=
  code == 0x09 || code == 0x0A || code == 0x0D || (decide (0x20 ≤ code) && decide (code ≤ 0x7E)) ||
    code == 0x85 || (decide (0xA0 ≤ code) && decide (code ≤ 0xD7FF)) ||
    (decide (0xE000 ≤ code) && decide (code ≤ 0xFFFD)) ||
    (decide (0x10000 ≤ code) && decide (code ≤ 0x10FFFF))

def Lead.ofCode (code width : Nat) : Lead :=
  if isAllowed code then .char (Char.ofNat code) width else .bad .controlCharacter

/-- The number of bytes in a sequence, and what its first byte adds to the code point. -/
def sequenceOf? (b : UInt8) : Option (Nat × Nat) :=
  let n := b.toNat
  if n < 0x80 then some (1, n)
  else if n < 0xC0 then none
  else if n < 0xE0 then some (2, n - 0xC0)
  else if n < 0xF0 then some (3, n - 0xE0)
  else if n < 0xF8 then some (4, n - 0xF0)
  else none

/-- The code point of a sequence, from what its first byte adds and from the bytes behind that. -/
def joinTrail? (lead : Nat) (trail : List UInt8) : Option Nat :=
  trail.foldl (fun code b => do
    let n ← code
    if 0x80 ≤ b.toNat ∧ b.toNat < 0xC0 then some (n * 64 + (b.toNat - 0x80)) else none) (some lead)

def leastCode : Nat → Nat
  | 2 => 0x80
  | 3 => 0x800
  | 4 => 0x10000
  | _ => 0

def leadUtf8 (b : UInt8) (rest : List UInt8) : Lead :=
  match sequenceOf? b with
  | none => .bad .badLead
  | some (width, lead) =>
    let trail := rest.take (width - 1)
    if trail.length < width - 1 then .cut .cutSequence
    else
      match joinTrail? lead trail with
      | none => .bad .badTrail
      | some code =>
        if code < leastCode width then .bad .longSequence
        else if (0xD800 ≤ code ∧ code ≤ 0xDFFF) ∨ 0x10FFFF < code then .bad .badCodePoint
        else .ofCode code width

def unitOf (lowFirst : Bool) (a b : UInt8) : Nat :=
  if lowFirst then b.toNat * 256 + a.toNat else a.toNat * 256 + b.toNat

def leadUtf16 (lowFirst : Bool) (b : UInt8) : List UInt8 → Lead
  | [] => .cut .cutUnit
  | b₁ :: rest =>
    let unit := unitOf lowFirst b b₁
    if 0xDC00 ≤ unit ∧ unit ≤ 0xDFFF then .bad .loneLowSurrogate
    else if 0xD800 ≤ unit ∧ unit ≤ 0xDBFF then
      match rest with
      | b₂ :: b₃ :: _ =>
        let low := unitOf lowFirst b₂ b₃
        if 0xDC00 ≤ low ∧ low ≤ 0xDFFF then
          .ofCode (0x10000 + (unit - 0xD800) * 0x400 + (low - 0xDC00)) 4
        else .bad .badPair
      | _ => .cut .cutPair
    else .ofCode unit 2

def Encoding.lead (encoding : Encoding) (b : UInt8) (rest : List UInt8) : Lead :=
  match encoding with
  | .utf8 => leadUtf8 b rest
  | .utf16 lowFirst => leadUtf16 lowFirst b rest

/-- The bytes at the end of a portion that belong to a character which goes on in the next one, and
what is wrong if there is no next one. -/
structure Leftover where
  bytes : List UInt8
  problem? : Option Problem

/-- The characters of a portion and what is left of it. `skip` bytes are accounted for, and `seen`
holds the characters so far, the last one first. -/
def readPortion (encoding : Encoding) (skip : Nat) (seen : List Char) :
    List UInt8 → Except Problem (List Char × Leftover)
  | [] => .ok (seen.reverse, ⟨[], none⟩)
  | b :: rest =>
    match skip with
    | k + 1 => readPortion encoding k seen rest
    | 0 =>
      match encoding.lead b rest with
      | .char c width => readPortion encoding (width - 1) (c :: seen) rest
      | .cut problem => .ok (seen.reverse, ⟨b :: rest, some problem⟩)
      | .bad problem => .error problem

/-- The characters of a document, the number of them in each portion, and what is wrong behind
them. -/
structure Source where
  chars : List Char
  sizes : List Nat
  problem? : Option Problem

namespace Source

def portion : Nat := 512

/-- Reads on with room for `room` bytes in the next portion, in which the leftover bytes come first.
Portions found so far stand in `found`, the last one first. -/
def readFrom (encoding : Encoding) : Nat → Nat → Leftover → List (List Char) → List UInt8 → Source
  | 0, _, _, found, _ => ⟨found.reverse.flatten, (found.map List.length).reverse, none⟩
  | fuel + 1, room, left, found, bytes =>
    let stop := fun problem? =>
      (⟨found.reverse.flatten, (found.map List.length).reverse, problem?⟩ : Source)
    if bytes.isEmpty then stop left.problem?
    else
      let fresh := room - left.bytes.length
      match readPortion encoding 0 [] (left.bytes ++ bytes.take fresh) with
      | .error problem => stop (some problem)
      | .ok (chars, left) => readFrom encoding fuel portion left (chars :: found) (bytes.drop fresh)

def ofBytes (bytes : List UInt8) : Source :=
  let (encoding, width) := Encoding.detect bytes
  readFrom encoding (bytes.length + 1) (portion - width) ⟨[], none⟩ [] (bytes.drop width)

end Source

end Yaml
end Scriptlet
