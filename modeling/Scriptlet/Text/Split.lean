/-!
# Cutting and searching texts

- `splitChars` : the pieces between separators, found from the left without overlap
- `containsChars` : whether a text occurs inside another
-/

namespace Scriptlet
namespace Text

/-- Cuts at a separator that is not empty. `skip` characters still belong to the separator found
last, `piece` holds the open piece and `pieces` the closed ones, both the last one first. -/
def splitFrom (sep : List Char) (skip : Nat) (piece : List Char) (pieces : List (List Char)) :
    List Char → List (List Char)
  | [] => (piece.reverse :: pieces).reverse
  | c :: rest =>
    match skip with
    | k + 1 => splitFrom sep k piece pieces rest
    | 0 =>
      if sep.isPrefixOf (c :: rest) then
        splitFrom sep (sep.length - 1) [] (piece.reverse :: pieces) rest
      else splitFrom sep 0 (c :: piece) pieces rest

/-- The pieces between separators; an empty separator cuts between any two characters. -/
def splitChars (sep text : List Char) : List (List Char) :=
  if sep.isEmpty then text.map fun c => [c] else splitFrom sep 0 [] [] text

def containsChars (sought : List Char) : List Char → Bool
  | [] => sought.isEmpty
  | c :: rest => sought.isPrefixOf (c :: rest) || containsChars sought rest

def splitText (text sep : String) : List String :=
  (splitChars sep.toList text.toList).map String.ofList

def containsText (text sought : String) : Bool :=
  containsChars sought.toList text.toList

end Text
end Scriptlet
