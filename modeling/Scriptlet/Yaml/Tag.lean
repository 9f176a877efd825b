import Scriptlet.Text.Utf8
import Scriptlet.Yaml.Block

/-!
# Names, tags and directives

- `Yaml.readName` : the name of an anchor
- `Yaml.Tag` : a tag as it is written
- `Yaml.Directive` : what a document says about its version and its tags
-/

namespace Scriptlet
namespace Yaml

/-! ## Names -/

def endsName (c : Char) : Bool :=
  endsWord c || "?:,]\x7d%@\x60".toList.contains c

def readName (cursor : Cursor) : Scanned (String × Cursor) := do
  let first := cursor.mark.line
  let (name, cursor) ← cursor.skip.takeWhile isNameChar
  if name.isEmpty || !endsName cursor.head then throw (cursor.failed .badName first)
  return (String.ofList name, cursor)

/-! ## Tags -/

def isAddressChar (c : Char) : Bool :=
  isNameChar c || ";/?:@&=+$,.%!~*'()[]".toList.contains c

def readOctet (first : Nat) (cursor : Cursor) : Scanned (UInt8 × Cursor) := do
  let cursor ← cursor.need 3
  match cursor.head == '%', hexDigit? (cursor.ahead 1), hexDigit? (cursor.ahead 2) with
  | true, some high, some low => return (UInt8.ofNat (high * 16 + low), cursor.skipMany 3)
  | _, _, _ => throw (cursor.failed .tagEscape first)

/-- Reads the `n` bytes of a sequence behind its first one; `bytes` has the last one first. -/
def readOctets (first : Nat) : Nat → List UInt8 → Cursor → Scanned (List UInt8 × Cursor)
  | 0, bytes, cursor => .ok (bytes, cursor)
  | n + 1, bytes, cursor => do
    let (octet, next) ← readOctet first cursor
    if octet.toNat < 0x80 || 0xC0 ≤ octet.toNat then throw (cursor.failed .tagTrail first)
    readOctets first n (octet :: bytes) next

/-- Reads on in an address, of which `bytes` has the last byte first. -/
def readAddressFrom (first : Nat) (bytes : List UInt8) :
    List Char → Cursor → Scanned (List UInt8 × Cursor)
  | [], cursor => .ok (bytes, cursor)
  | _ :: bound, cursor =>
    let c := cursor.head
    if !isAddressChar c then .ok (bytes, cursor)
    else if c = '%' then do
      let (octet, next) ← readOctet first cursor
      match sequenceOf? octet with
      | none => throw (cursor.failed .tagLead first)
      | some (width, _) =>
        let (bytes, next) ← readOctets first (width - 1) (octet :: bytes) next
        readAddressFrom first bytes bound (← next.need 1)
    else do
      readAddressFrom first (UInt8.ofNat c.toNat :: bytes) bound (← cursor.skip.need 1)

def readAddress (first : Nat) (cursor : Cursor) : Scanned (String × Cursor) := do
  let cursor ← cursor.need 1
  let (bytes, cursor) ← readAddressFrom first [] cursor.rest cursor
  return (String.ofList (Text.readUtf8 bytes.reverse), cursor)

def readSomeAddress (first : Nat) (cursor : Cursor) : Scanned (String × Cursor) := do
  let (address, cursor) ← readAddress first cursor
  if address.isEmpty then throw (cursor.failed .noTagAddress first)
  return (address, cursor)

/-- Reads an exclamation mark with a name behind it, and one more mark if it follows. -/
def readHandle (first : Nat) (cursor : Cursor) : Scanned (String × Cursor) := do
  let cursor ← cursor.need 1
  if cursor.head != '!' then throw (cursor.failed .noHandle first)
  let (name, cursor) ← cursor.skip.takeWhile isNameChar
  if cursor.head == '!' then return (String.ofList ('!' :: name ++ ['!']), cursor.skip)
  else return (String.ofList ('!' :: name), cursor)

def isHandle (text : String) : Bool :=
  decide (1 < text.length) && text.endsWith "!"

/-- A tag as it is written: a handle, which may be empty, and the rest. -/
structure Tag where
  handle : String
  suffix : String
  deriving DecidableEq, Repr

def readVerbatimTag (first : Nat) (cursor : Cursor) : Scanned (Tag × Cursor) := do
  let (suffix, cursor) ← readSomeAddress first cursor.skip.skip
  if cursor.head != '>' then throw (cursor.failed .noTagBracket first)
  return (⟨"", suffix⟩, cursor.skip)

def readShortTag (first : Nat) (cursor : Cursor) : Scanned (Tag × Cursor) := do
  let (handle, cursor) ← readHandle first cursor
  if isHandle handle then
    let (suffix, cursor) ← readSomeAddress first cursor
    return (⟨handle, suffix⟩, cursor)
  else
    let (more, cursor) ← readAddress first cursor
    let suffix := String.ofList handle.toList.tail ++ more
    return (if suffix.isEmpty then ⟨"", "!"⟩ else ⟨"!", suffix⟩, cursor)

def readTag (cursor : Cursor) : Scanned (Tag × Cursor) := do
  let first := cursor.mark.line
  let cursor ← cursor.need 2
  let (tag, cursor) ←
    if cursor.ahead 1 == '<' then readVerbatimTag first cursor else readShortTag first cursor
  let cursor ← cursor.need 1
  if !endsWord cursor.head then throw (cursor.failed .noTagEnd first)
  return (tag, cursor)

/-! ## Directives -/

/-- What a document says about itself: the version of the format, or what a handle stands for. -/
inductive Directive
  | version (major minor : Nat)
  | handle (handle address : String)
  deriving DecidableEq, Repr

def readVersionPart (first : Nat) (cursor : Cursor) : Scanned (Nat × Cursor) := do
  let (digits, behind) ← cursor.takeWhile isDecimalDigit
  if digits.isEmpty then throw (behind.failed .noVersion first)
  if 2 < digits.length then throw ((cursor.skipMany 2).failed .longVersion first)
  return (digits.foldl (fun n c => n * 10 + (c.toNat - 48)) 0, behind)

def readVersion (first : Nat) (cursor : Cursor) : Scanned (Directive × Cursor) := do
  let cursor ← cursor.skipWhile isBlank
  let (major, cursor) ← readVersionPart first cursor
  if cursor.head != '.' then throw (cursor.failed .noVersionPoint first)
  let (minor, cursor) ← readVersionPart first cursor.skip
  return (.version major minor, cursor)

def readHandleDirective (first : Nat) (cursor : Cursor) :
    Scanned (Directive × Cursor) := do
  let cursor ← cursor.skipWhile isBlank
  let (handle, cursor) ← readHandle first cursor
  if handle != "!" && !isHandle handle then throw (cursor.failed .noHandle first)
  let cursor ← cursor.need 1
  if !isBlank cursor.head then throw (cursor.failed .noHandleEnd first)
  let cursor ← cursor.skipWhile isBlank
  let (address, cursor) ← readSomeAddress first cursor
  let cursor ← cursor.need 1
  if !endsWord cursor.head then throw (cursor.failed .noTagEnd first)
  return (.handle handle address, cursor)

def readDirective (cursor : Cursor) : Scanned (Directive × Cursor) := do
  let first := cursor.mark.line
  let (name, cursor) ← cursor.skip.takeWhile isNameChar
  if name.isEmpty then throw (cursor.failed .noDirectiveName first)
  if !endsWord cursor.head then throw (cursor.failed .badDirectiveName first)
  let (directive, cursor) ←
    match String.ofList name with
    | "YAML" => readVersion first cursor
    | "TAG" => readHandleDirective first cursor
    | _ => throw (cursor.failed .unknownDirective first)
  let cursor ← passRestOfLine first cursor
  return (directive, cursor)

end Yaml
end Scriptlet
