import Scriptlet.Yaml.Token

/-!
# Nodes of a document

A node may have a tag, and a name under which later nodes refer to it. Such a reference stays what
it is in the tree, because a node may refer to one that it is a part of.

- `Yaml.Node` : scalars, sequences, mappings and references to named nodes
- `Yaml.Document` : a tree of nodes with its named nodes
- `Yaml.Document.ofBytes?` : the first document in some bytes
-/

namespace Scriptlet
namespace Yaml

/-- A node with the line where it begins, which counts from one, and the tag that it is given. An
alias has a number of its own, and the place of the node that it refers to. -/
inductive Node
  | scalar (line : Nat) (tag? : Option String) (plain : Bool) (text : String)
  | sequence (line : Nat) (tag? : Option String) (items : List Node)
  | mapping (line : Nat) (tag? : Option String) (pairs : List (Node × Node))
  | alias (line number : Nat) (name : String) (target : Nat)

namespace Node

def line : Node → Nat
  | .scalar line .. | .sequence line .. | .mapping line .. | .alias line .. => line

def empty (mark : Mark) : Node :=
  .scalar (mark.line + 1) none true ""

end Node

/-- A tree of nodes and the nodes with names in the order of their names. No way down the tree that
follows each alias once takes more than `bound` steps. -/
structure Document where
  root : Node
  named : Array Node
  bound : Nat

/-- What is known while nodes are read: how far the tokens are taken, what the handles of tags stand
for, the place of the node that has a name by now, the nodes with names, and the number of aliases.
`above` is the text of the comments above what is read next. -/
structure Reading where
  scan : Scan
  above : List Char
  handles : List (String × String)
  names : List (String × Nat)
  named : Array Node
  aliases : Nat

abbrev Read := StateT Reading (Except Fault)

namespace Read

def addAbove (above : List Char) (comment : Comment) : List Char :=
  if comment.kind != .above then above
  else if above.isEmpty then comment.text
  else above ++ '\n' :: comment.text

def resume (scan : Scan) : Read Token := do
  let token := scan.queue.headD ⟨.streamEnd, scan.mark⟩
  let (found, comments) := Scan.splitComments token [] scan.comments
  modify fun reading =>
    { reading with scan := { scan with comments }, above := found.foldl addAbove reading.above }
  return token

def peek : Read Token := do
  match (← get).scan.ready with
  | .ok scan => resume scan
  | .error failed => throw failed.fault

def take : Read Unit :=
  modify fun reading => { reading with scan := reading.scan.take }

def takeBelow : Read Unit := do
  modify fun reading => { reading with above := [] }
  take

def misfit {α : Type} (problem : Problem) (context : Nat) (token : Token) : Read α :=
  throw ⟨problem, false, context, token.mark.line⟩

/-! ## Names and tags -/

def coreTags : String := "tag:yaml.org,2002:"

def shortTag (tag : String) : String :=
  if tag.startsWith coreTags then "!!" ++ String.ofList (tag.toList.drop coreTags.length) else tag

def fullTag (tag : Tag) (context : Nat) (mark : Mark) : Read String := do
  if tag.handle.isEmpty then return tag.suffix
  else
    match (← get).handles.lookup tag.handle with
    | some address => return address ++ tag.suffix
    | none => throw ⟨.undefinedHandle, false, context, mark.line⟩

structure Properties where
  anchor? : Option String
  tag? : Option String

def readAnchor? : Read (Option String) := do
  match (← peek).shape with
  | .anchor name => take; return some name
  | _ => return none

/-- The tag in front of a node as it is written, if there is one, and its mark. -/
def readTag? : Read (Option (Tag × Mark)) := do
  let token ← peek
  match token.shape with
  | .tag tag => take; return some (tag, token.mark)
  | _ => return none

/-- The name and tag in front of a node that begins in the line `context`, in either order. -/
def readProperties (context : Nat) : Read Properties := do
  let early? ← readAnchor?
  let written? ← readTag?
  let late? ← if early?.isNone && written?.isSome then readAnchor? else pure none
  let _ ← peek
  let tag? ← match written? with
    | some (tag, mark) => some <$> fullTag tag context mark
    | none => pure none
  return ⟨early?.orElse fun _ => late?, tag?⟩

/-- The tag that a node is given. A lone exclamation mark gives none. -/
def Properties.given? (properties : Properties) : Option String :=
  match properties.tag? with
  | some tag => if tag = "!" then none else some (shortTag tag)
  | none => none

/-- Gives the name to a node that begins here, and tells its place. -/
def begin? (properties : Properties) : Read (Option Nat) := do
  match properties.anchor? with
  | none => return none
  | some name =>
    let reading ← get
    let place := reading.named.size
    set { reading with
      names := (name, place) :: reading.names
      named := reading.named.push (.empty .start) }
    return some place

def finish (place? : Option Nat) (node : Node) : Read Node := do
  match place? with
  | none => return node
  | some place =>
    modify fun reading => { reading with named := reading.named.setIfInBounds place node }
    return node

def readAlias (name : String) (mark : Mark) : Read Node := do
  takeBelow
  let reading ← get
  match reading.names.lookup name with
  | none => throw (Fault.whole (.unknownAnchor name))
  | some target =>
    set { reading with aliases := reading.aliases + 1 }
    return .alias (mark.line + 1) reading.aliases name target

/-! ## Nodes -/

def endsPart : Shape → Bool
  | .key | .value | .blockEnd => true
  | _ => false

def endsItem : Shape → Bool
  | .entry | .blockEnd => true
  | _ => false

def endsBareItem (shape : Shape) : Bool :=
  endsItem shape || endsPart shape

def endsFlowKey : Shape → Bool
  | .value | .comma | .closeBrace => true
  | _ => false

def endsFlowValue : Shape → Bool
  | .comma | .closeBrace => true
  | _ => false

def endsPairKey : Shape → Bool
  | .value | .comma | .closeBracket => true
  | _ => false

def endsPairValue : Shape → Bool
  | .comma | .closeBracket => true
  | _ => false

def startsContent : Shape → Bool
  | .scalar .. | .openBracket | .openBrace | .sequenceStart | .mappingStart => true
  | _ => false

/-- Reads an item as far as it begins, only to fail: with a fault of its own, or else the given
one. -/
def failItem (leftOut : Shape → Bool) (fault : Fault) : Read Unit := do
  let start ← peek
  let line := start.mark.line
  if !leftOut start.shape && !(start.shape matches .alias _) then
    let properties ← readProperties line
    let token ← peek
    if !startsContent token.shape && properties.anchor?.isNone && properties.tag?.isNone then
      misfit .missingContent line token
  throw fault

/-- The comments that are left above the content of an item. If the item is a block, those that
stood above its dash, a text of the given length, belong to the block. -/
def splitAbove (length : Nat) : Read Unit := do
  let token ← peek
  if length != 0 && (token.shape == .sequenceStart || token.shape == .mappingStart) then
    modify fun reading => { reading with above := reading.above.drop (length + 1) }

/-- Takes the dash of an item away. Below a comment the token behind it is asked for twice: where
the first attempt fails, the second one goes on from what that has reached, and a fault of its own
counts instead. -/
def takeEntry (leftOut : Shape → Bool) : Read Unit := do
  let length := (← get).above.length
  take
  match (← get).scan.ready with
  | .ok _ => splitAbove length
  | .error failed =>
    if length = 0 then throw failed.fault
    match failed.reached.ready with
    | .error again => throw again.fault
    | .ok scan =>
      let _ ← resume scan
      failItem leftOut failed.fault

mutual

/-- A node. `block` allows blocks, `bare` a sequence that is not indented. -/
def node : Nat → Bool → Bool → Read Node
  | 0, _, _ => throw (Fault.whole .missingContent)
  | fuel + 1, block, bare => do
    let start ← peek
    let line := start.mark.line
    match start.shape with
    | .alias name => readAlias name start.mark
    | _ =>
      let properties ← readProperties line
      let given? := properties.given?
      let token ← peek
      match token.shape, block, bare with
      | .entry, _, true =>
        let place? ← begin? properties
        finish place? (.sequence (line + 1) given? (← bareItems fuel []))
      | .scalar text plain, _, _ =>
        let place? ← begin? properties
        takeBelow
        finish place? (.scalar (line + 1) given? plain text)
      | .openBracket, _, _ =>
        let place? ← begin? properties
        takeBelow
        finish place? (.sequence (line + 1) given? (← flowItems fuel token.mark.line true []))
      | .openBrace, _, _ =>
        let place? ← begin? properties
        takeBelow
        finish place? (.mapping (line + 1) given? (← flowPairs fuel token.mark.line true []))
      | .sequenceStart, true, _ =>
        let place? ← begin? properties
        take
        finish place? (.sequence (line + 1) given? (← blockItems fuel token.mark.line []))
      | .mappingStart, true, _ =>
        let place? ← begin? properties
        take
        finish place? (.mapping (line + 1) given? (← blockPairs fuel token.mark.line []))
      | _, _, _ =>
        if properties.anchor?.isSome || properties.tag?.isSome then
          let place? ← begin? properties
          finish place? (.scalar (line + 1) given? true "")
        else misfit .missingContent line token

def nodeUnless : Nat → (Shape → Bool) → Bool → Bool → Mark → Read Node
  | 0, _, _, _, _ => throw (Fault.whole .missingContent)
  | fuel + 1, leftOut, block, bare, mark => do
    if leftOut (← peek).shape then return .empty mark else node fuel block bare

def blockPairs : Nat → Nat → List (Node × Node) → Read (List (Node × Node))
  | 0, _, _ => throw (Fault.whole .missingKey)
  | fuel + 1, context, found => do
    let token ← peek
    match token.shape with
    | .key =>
      take
      let key ← nodeUnless fuel endsPart true true token.mark
      let value ← blockValue fuel
      blockPairs fuel context ((key, value) :: found)
    | .blockEnd =>
      takeBelow
      return found.reverse
    | _ => misfit .missingKey context token

def blockValue : Nat → Read Node
  | 0 => throw (Fault.whole .missingKey)
  | fuel + 1 => do
    let token ← peek
    match token.shape with
    | .value =>
      take
      nodeUnless fuel endsPart true true token.mark
    | _ => return .empty token.mark

def blockItems : Nat → Nat → List Node → Read (List Node)
  | 0, _, _ => throw (Fault.whole .missingEntry)
  | fuel + 1, context, found => do
    let token ← peek
    match token.shape with
    | .entry =>
      takeEntry endsItem
      let item ← nodeUnless fuel endsItem true false token.mark
      blockItems fuel context (item :: found)
    | .blockEnd =>
      take
      return found.reverse
    | _ => misfit .missingEntry context token

def bareItems : Nat → List Node → Read (List Node)
  | 0, _ => throw (Fault.whole .missingEntry)
  | fuel + 1, found => do
    let token ← peek
    match token.shape with
    | .entry =>
      takeEntry endsBareItem
      let item ← nodeUnless fuel endsBareItem true false token.mark
      bareItems fuel (item :: found)
    | _ => return found.reverse

def flowItems : Nat → Nat → Bool → List Node → Read (List Node)
  | 0, _, _, _ => throw (Fault.whole (.flowItem "]"))
  | fuel + 1, context, first, found => do
    let token ← peek
    match token.shape, first with
    | .closeBracket, _ =>
      takeBelow
      return found.reverse
    | .comma, false =>
      take
      flowItem fuel context found
    | _, true => flowItem fuel context found
    | _, false => misfit (.flowItem "]") context token

def flowItem : Nat → Nat → List Node → Read (List Node)
  | 0, _, _ => throw (Fault.whole (.flowItem "]"))
  | fuel + 1, context, found => do
    let token ← peek
    match token.shape with
    | .closeBracket =>
      takeBelow
      return found.reverse
    | .key =>
      take
      let key ← pairKey fuel
      let value ← flowValue fuel endsPairValue
      let _ ← peek
      flowItems fuel context false
        (.mapping (token.mark.line + 1) none [(key, value)] :: found)
    | _ =>
      let item ← node fuel false false
      flowItems fuel context false (item :: found)

/-- The key of a pair between brackets. What stands in the place of a key that is left out goes with
it. -/
def pairKey : Nat → Read Node
  | 0 => throw (Fault.whole .missingContent)
  | fuel + 1 => do
    let token ← peek
    if endsPairKey token.shape then
      take
      return .empty token.mark
    else node fuel false false

def flowPairs : Nat → Nat → Bool → List (Node × Node) → Read (List (Node × Node))
  | 0, _, _, _ => throw (Fault.whole (.flowItem "\x7d"))
  | fuel + 1, context, first, found => do
    let token ← peek
    match token.shape, first with
    | .closeBrace, _ =>
      takeBelow
      return found.reverse
    | .comma, false =>
      take
      flowPair fuel context found
    | _, true => flowPair fuel context found
    | _, false => misfit (.flowItem "\x7d") context token

def flowPair : Nat → Nat → List (Node × Node) → Read (List (Node × Node))
  | 0, _, _ => throw (Fault.whole (.flowItem "\x7d"))
  | fuel + 1, context, found => do
    let token ← peek
    match token.shape with
    | .closeBrace =>
      takeBelow
      return found.reverse
    | .key =>
      take
      let mark := (← peek).mark
      let key ← nodeUnless fuel endsFlowKey false false mark
      let value ← flowValue fuel endsFlowValue
      flowPairs fuel context false ((key, value) :: found)
    | _ =>
      let key ← node fuel false false
      let mark := (← peek).mark
      flowPairs fuel context false ((key, .empty mark) :: found)

def flowValue : Nat → (Shape → Bool) → Read Node
  | 0, _ => throw (Fault.whole .missingContent)
  | fuel + 1, leftOut => do
    let token ← peek
    match token.shape with
    | .value =>
      take
      nodeUnless fuel leftOut false false token.mark
    | _ => return .empty token.mark

end

/-! ## Documents -/

def defaultHandles : List (String × String) :=
  [("!", "!"), ("!!", coreTags)]

/-- Takes in the directives in front of a document; `versioned` tells that one of them was a
version. -/
def directives : Nat → Bool → Read Unit
  | 0, _ => throw (Fault.whole .missingDocument)
  | fuel + 1, versioned => do
    let token ← peek
    match token.shape with
    | .directive (.version major minor) =>
      if versioned then misfit .repeatedVersion 0 token
      else if major != 1 || minor != 1 then misfit .incompatibleVersion 0 token
      else
        take
        directives fuel true
    | .directive (.handle handle address) =>
      let reading ← get
      if (reading.handles.lookup handle).isSome then misfit .repeatedHandle 0 token
      else
        set { reading with handles := (handle, address) :: reading.handles }
        take
        directives fuel versioned
    | _ => modify fun reading => { reading with handles := reading.handles ++ defaultHandles }

/-- What is left of the comments above a document that begins with its root: those behind the last
empty line. The text has the last character first. -/
def belowEmptyLine (left : List Char) : List Char → Option (List Char)
  | '\n' :: '\n' :: _ => some left
  | c :: rest => if c = '\n' && left.isEmpty then some [] else belowEmptyLine (c :: left) rest
  | [] => none

def splitHeader : Read Unit :=
  modify fun reading =>
    { reading with above := (belowEmptyLine [] reading.above.reverse).getD reading.above }

def endsDocument : Shape → Bool
  | .directive _ | .documentStart | .documentEnd | .streamEnd => true
  | _ => false

def startsDocument : Shape → Bool
  | .directive _ | .documentStart => true
  | _ => false

/-- The root of the first document, if there is a document. One more token is looked at behind
it. -/
def root? (fuel : Nat) : Read (Option Node) := do
  let _ ← peek
  take
  let token ← peek
  if token.shape = .streamEnd then return none
  directives fuel false
  let root ←
    if startsDocument token.shape then do
      let mark ← peek
      if mark.shape != .documentStart then misfit .missingDocument 0 mark
      take
      let start := (← peek).mark
      nodeUnless fuel endsDocument true false start
    else do
      splitHeader
      node fuel true false
  let _ ← peek
  return some root

end Read

namespace Document

/-- The first document in some bytes, if there is a document. Every level of nodes takes a few steps
for each of its tokens, and a character makes only a few tokens. -/
def ofBytes? (bytes : List UInt8) : Except Fault (Option Document) := do
  let source := Source.ofBytes bytes
  let fuel := 32 * (source.chars.length + 4)
  let (root?, reading) ← (Read.root? fuel).run ⟨Scan.ofSource source, [], [], [], #[], 0⟩
  let bound := (reading.aliases + 1) * (source.chars.length + 2)
  return root?.map fun root => ⟨root, reading.named, bound⟩

end Document

end Yaml
end Scriptlet
