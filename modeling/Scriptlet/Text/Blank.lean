/-!
# Blank characters

- `isBlank` : the white space of Unicode
- `trimText` : a text without the blanks at its ends
-/

namespace Scriptlet
namespace Text

/-- The blanks are tab, line feed, vertical tab, form feed, carriage return, next line and the
space separators, with the line and paragraph separators. -/
def isBlank (c : Char) : Bool :=
  let code := c.toNat
  (decide (0x09 ≤ code) && decide (code ≤ 0x0D)) || code == 0x20 || code == 0x85 || code == 0xA0 ||
    code == 0x1680 || (decide (0x2000 ≤ code) && decide (code ≤ 0x200A)) || code == 0x2028 ||
    code == 0x2029 || code == 0x202F || code == 0x205F || code == 0x3000

def trimChars (cs : List Char) : List Char :=
  ((cs.dropWhile isBlank).reverse.dropWhile isBlank).reverse

def trimText (s : String) : String :=
  String.ofList (trimChars s.toList)

end Text
end Scriptlet
