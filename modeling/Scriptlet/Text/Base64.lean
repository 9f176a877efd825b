/-!
# Bytes in base 64

Three bytes are written as four characters; where one or two bytes are missing from the last three,
equals signs stand for the characters that they would add.

- `Text.decodeBase64?` : the bytes of a text in base 64
-/

namespace Scriptlet
namespace Text

def base64Digit? (c : Char) : Option Nat :=
  if 'A' ≤ c ∧ c ≤ 'Z' then some (c.toNat - 65)
  else if 'a' ≤ c ∧ c ≤ 'z' then some (c.toNat - 71)
  else if '0' ≤ c ∧ c ≤ '9' then some (c.toNat + 4)
  else if c = '+' then some 62
  else if c = '/' then some 63
  else none

def base64Groups? : List Char → Option (List UInt8)
  | [] => some []
  | [a, b, '=', '='] => do
    let n := (← base64Digit? a) * 64 + (← base64Digit? b)
    return [UInt8.ofNat (n / 16)]
  | [a, b, c, '='] => do
    let n := ((← base64Digit? a) * 64 + (← base64Digit? b)) * 64 + (← base64Digit? c)
    return [UInt8.ofNat (n / 1024), UInt8.ofNat (n / 4)]
  | a :: b :: c :: d :: rest => do
    let n := ((← base64Digit? a) * 64 + (← base64Digit? b)) * 64 + (← base64Digit? c)
    let n := n * 64 + (← base64Digit? d)
    return UInt8.ofNat (n / 65536) :: UInt8.ofNat (n / 256) :: UInt8.ofNat n ::
      (← base64Groups? rest)
  | _ => none

/-- The bytes of a text in base 64. Line ends do not count. -/
def decodeBase64? (text : String) : Option (List UInt8) :=
  base64Groups? (text.toList.filter fun c => c != '\n' && c != '\r')

end Text
end Scriptlet
