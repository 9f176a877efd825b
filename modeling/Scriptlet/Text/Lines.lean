import Scriptlet.Text.Bytes

/-!
# Lines of bytes

Two ways to cut bytes into lines at line feeds.

- `limitedLines` : lines of limited length; a longer one ends the reading
- `bufferedLines` : lines through a buffer of limited size; a longer one comes in several pieces
-/

namespace Scriptlet
namespace Text

def lineFeed : UInt8 := 10

def carriageReturn : UInt8 := 13

/-- The bytes, the last one first, without a carriage return at their end. -/
def dropReturn : Bytes → Bytes
  | [] => []
  | b :: rest => if b = carriageReturn then rest else b :: rest

/-! ## Lines of limited length -/

inductive LimitedLine
  | line (bytes : Bytes)
  | tooLong
  deriving DecidableEq

/-- Reads on with `line` and its length `size` so far and with the lines in `found`; both lists have
the last one first. -/
def limitedLinesFrom (limit : Nat) (found : List LimitedLine) (line : Bytes) (size : Nat) :
    Bytes → List LimitedLine
  | [] =>
    if line.isEmpty then found.reverse
    else (.line (dropReturn line).reverse :: found).reverse
  | b :: rest =>
    if b = lineFeed then
      limitedLinesFrom limit (.line (dropReturn line).reverse :: found) [] 0 rest
    else if size + 1 < limit then limitedLinesFrom limit found (b :: line) (size + 1) rest
    else (.tooLong :: found).reverse

/-- The lines of the bytes, without line ends, where every line is shorter than the limit. The last
line need not end with a line feed. -/
def limitedLines (limit : Nat) (bytes : Bytes) : List LimitedLine :=
  limitedLinesFrom limit [] [] 0 bytes

/-! ## Lines through a buffer -/

/-- A line or a piece of one: its bytes, and whether the buffer was full before the line ended. -/
structure BufferedLine where
  bytes : Bytes
  cut : Bool

/-- Reads on with `line` and its length `size` so far and with the lines in `found`; both lists have
the last one first. A carriage return at the end of a full buffer is left for the next piece. -/
def bufferedLinesFrom (capacity : Nat) (found : List BufferedLine) (line : Bytes)
    (size : Nat) : Bytes → List BufferedLine
  | [] =>
    if line.isEmpty then found.reverse else (⟨line.reverse, false⟩ :: found).reverse
  | b :: rest =>
    if b = lineFeed then
      bufferedLinesFrom capacity (⟨(dropReturn line).reverse, false⟩ :: found) [] 0 rest
    else if size + 1 < capacity then bufferedLinesFrom capacity found (b :: line) (size + 1) rest
    else if b = carriageReturn then
      bufferedLinesFrom capacity (⟨line.reverse, true⟩ :: found) [b] 1 rest
    else bufferedLinesFrom capacity (⟨(b :: line).reverse, true⟩ :: found) [] 0 rest

/-- The lines of the bytes, without line ends, in pieces that fit the buffer. -/
def bufferedLines (capacity : Nat) (bytes : Bytes) : List BufferedLine :=
  bufferedLinesFrom capacity [] [] 0 bytes

end Text
end Scriptlet
