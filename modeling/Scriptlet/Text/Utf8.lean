/-!
# Reading bytes as characters

Every byte that is no part of a well-formed UTF-8 sequence stands for one replacement character, so
any bytes at all can be read.

- `leadChar?` : the character that starts at a byte, and how many more bytes it takes
- `readUtf8` : all characters of the bytes
- `isUtf8` : whether no byte had to be replaced
-/

namespace Scriptlet
namespace Text

def continuation? (b : UInt8) : Option Nat :=
  if 0x80 ≤ b.toNat ∧ b.toNat < 0xC0 then some (b.toNat - 0x80) else none

/-- The scalar value of a sequence whose shortest form has at least the code point `least`. -/
def scalar? (least code : Nat) : Option Char :=
  if least ≤ code ∧ code.isValidChar then some (Char.ofNat code) else none

/-- The character whose sequence starts with the byte `b`, and the number of further bytes that the
sequence takes. -/
def leadChar? (b : UInt8) (rest : List UInt8) : Option (Char × Nat) :=
  let lead := b.toNat
  if lead < 0x80 then some (Char.ofNat lead, 0)
  else if lead < 0xC0 then none
  else if lead < 0xE0 then
    match rest with
    | b₁ :: _ => do
      let x₁ ← continuation? b₁
      let c ← scalar? 0x80 ((lead - 0xC0) * 0x40 + x₁)
      return (c, 1)
    | _ => none
  else if lead < 0xF0 then
    match rest with
    | b₁ :: b₂ :: _ => do
      let x₁ ← continuation? b₁
      let x₂ ← continuation? b₂
      let c ← scalar? 0x800 (((lead - 0xE0) * 0x40 + x₁) * 0x40 + x₂)
      return (c, 2)
    | _ => none
  else if lead < 0xF8 then
    match rest with
    | b₁ :: b₂ :: b₃ :: _ => do
      let x₁ ← continuation? b₁
      let x₂ ← continuation? b₂
      let x₃ ← continuation? b₃
      let c ← scalar? 0x10000 ((((lead - 0xF0) * 0x40 + x₁) * 0x40 + x₂) * 0x40 + x₃)
      return (c, 3)
    | _ => none
  else none

def replacementChar : Char := Char.ofNat 0xFFFD

/-- Reads on behind `skip` bytes that are already accounted for; `seen` holds the characters so far,
the last one first. -/
def readUtf8From (skip : Nat) (seen : List Char) : List UInt8 → List Char
  | [] => seen.reverse
  | b :: rest =>
    match skip with
    | k + 1 => readUtf8From k seen rest
    | 0 =>
      match leadChar? b rest with
      | some (c, extra) => readUtf8From extra (c :: seen) rest
      | none => readUtf8From 0 (replacementChar :: seen) rest

def readUtf8 (bytes : List UInt8) : List Char :=
  readUtf8From 0 [] bytes

/-- Whether the bytes behind `skip` accounted ones are all part of a sequence. -/
def isUtf8From (skip : Nat) : List UInt8 → Bool
  | [] => true
  | b :: rest =>
    match skip with
    | k + 1 => isUtf8From k rest
    | 0 =>
      match leadChar? b rest with
      | some (_, extra) => isUtf8From extra rest
      | none => false

def isUtf8 (bytes : List UInt8) : Bool :=
  isUtf8From 0 bytes

end Text
end Scriptlet
