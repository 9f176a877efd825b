import Scriptlet.Settings.Basic
import Scriptlet.Yaml.Resolve

/-!
# Settings in a document

A document says something about the settings that it mentions. Everything that does not fit is
complained about, in order. A document may take fields from other mappings by merging them; of a
field that is there more than once, the one of the innermost mapping counts, and the earlier one of
merged mappings.

- `Settings.Complaint` : what can be wrong with a document's content
- `Settings.Choices.ofDocument` : what a document says
-/

namespace Scriptlet
namespace Settings

inductive Complaint
  | repeatedKey (line : Nat) (key : String) (first : Nat)
  | repeatedField (line : Nat) (name : String)
  | unknownField (line : Nat) (name : String)
  | wrongType (line : Nat) (tag value target : String)
  deriving DecidableEq, Repr

/-- A value as complaints show it: of a long one only the first bytes. -/
def shorten (value : String) : String :=
  let bytes := Bytes.ofString value
  if 10 < bytes.length then Bytes.text (bytes.take 7) ++ "..." else value

def shownValue (tag value : String) : String :=
  if tag = "!!seq" || tag = "!!map" then value else " \x60" ++ shorten value ++ "\x60"

def Complaint.message : Complaint → String
  | .repeatedKey line key first =>
    "line " ++ line.repr ++ ": mapping key " ++ Text.quoteText key ++ " already defined at line " ++
      first.repr
  | .repeatedField line name =>
    "line " ++ line.repr ++ ": field " ++ name ++ " already set in type config.Config"
  | .unknownField line name =>
    "line " ++ line.repr ++ ": field " ++ name ++ " not found in type config.Config"
  | .wrongType line tag value target =>
    "line " ++ line.repr ++ ": cannot unmarshal " ++ tag ++ shownValue tag value ++ " into " ++
      target

def Field.ofName? : String → Option Field
  | "prompt" => some .prompt
  | "continuation" => some .continuation
  | "history" => some .history
  | "max_depth" => some .maxDepth
  | "color" => some .color
  | _ => none

def Field.target : Field → String
  | .prompt | .continuation | .history => "string"
  | .maxDepth => "int"
  | .color => "bool"

/-! ## Scalars -/

/-- The words for truth values that need no quotes and may have them. -/
def truthWord? (text : String) : Option Bool :=
  if ["y", "Y", "yes", "Yes", "YES", "on", "On", "ON"].contains text then some true
  else if ["n", "N", "no", "No", "NO", "off", "Off", "OFF"].contains text then some false
  else none

/-- The integer that a scalar gives, if it is not too large. Of a decimal number it is the whole
part, and one that is out of range by then gives the lowest integer. -/
def depthOf? : Yaml.Value → Option Int
  | .int n => if n < Yaml.signedBound then some n else none
  | .float (some whole) =>
    if whole < Yaml.lowest then some Yaml.lowest
    else if whole < Yaml.signedBound then some whole
    else if whole = Yaml.signedBound then some Yaml.lowest
    else none
  | _ => none

def colorOf? : Yaml.Value → Option Bool
  | .bool b => some b
  | .text content => truthWord? content.text
  | _ => none

/-- The text that a scalar gives: what it stands for if that is a text, or the way it is written. -/
def contentOf (text : String) : Yaml.Value → Bytes
  | .text content => content
  | _ => .ofString text

def Field.read? : (field : Field) → String → Yaml.Value → Option field.Content
  | .prompt, text, value | .continuation, text, value => some (contentOf text value).text
  | .history, text, value => some (contentOf text value)
  | .maxDepth, _, value => depthOf? value
  | .color, _, value => colorOf? value

/-! ## Keys -/

def sameKey : Yaml.Node → Yaml.Node → Bool
  | .scalar _ _ _ a, .scalar _ _ _ b => a == b
  | .sequence .., .sequence .. => true
  | .mapping .., .mapping .. => true
  | .alias _ _ a _, .alias _ _ b _ => a == b
  | _, _ => false

def keyText : Yaml.Node → String
  | .scalar _ _ _ text => text
  | .alias _ _ name _ => name
  | _ => ""

def repeatedKeys : List (Yaml.Node × Yaml.Node) → List Complaint
  | [] => []
  | (key, _) :: rest =>
    (rest.filter fun other => sameKey key other.1).map (fun other =>
      Complaint.repeatedKey other.1.line (keyText other.1) key.line) ++ repeatedKeys rest

def misfits (target : String) (node : Yaml.Node) : List Complaint :=
  let wrong := Complaint.wrongType node.line node.tag (keyText node) target
  match node with
  | .mapping _ _ pairs =>
    match repeatedKeys pairs with
    | [] => [wrong]
    | complaints => complaints
  | _ => [wrong]

/-! ## Visiting nodes -/

/-- What was found in a document so far: what it says, the complaints with the last one first, and
the number of nodes that were visited, in all and behind aliases. -/
structure Filling where
  choices : Choices
  complaints : List Complaint
  visits : Nat
  aliased : Nat

abbrev Fill := StateT Filling (Except Yaml.Fault)

/-- Whether aliases make a document unfold too much. A small one may come from them up to 99 of 100
nodes, a large one up to one tenth. -/
def unfoldsTooMuch (visits aliased : Nat) : Bool :=
  decide (100 < aliased) && decide (1000 < visits) &&
    (if visits ≤ 400000 then decide (99 * visits < 100 * aliased)
    else if visits < 4000000 then
      decide (visits * (356400000 - 89 * (visits - 400000)) < 360000000 * aliased)
    else decide (visits < 10 * aliased))

namespace Fill

def complain (complaints : List Complaint) : Fill Unit :=
  modify fun filling => { filling with complaints := complaints.reverse ++ filling.complaints }

def visit (followed : List Nat) : Fill Unit := do
  let filling ← get
  let visits := filling.visits + 1
  let aliased := if followed.isEmpty then filling.aliased else filling.aliased + 1
  if unfoldsTooMuch visits aliased then throw (Yaml.Fault.whole .manyAliases)
  set { filling with visits, aliased }

/-- The node itself, or the one that an alias refers to, and the aliases that lead there. -/
def enter (document : Yaml.Document) (followed : List Nat) (node : Yaml.Node) :
    Fill (Yaml.Node × List Nat) := do
  visit followed
  match node with
  | .alias _ number name target =>
    if followed.contains number then throw (Yaml.Fault.whole (.selfAlias name))
    let followed := number :: followed
    visit followed
    return (document.named.getD target node, followed)
  | _ => return (node, followed)

def nameOf? (document : Yaml.Document) (followed : List Nat) (key : Yaml.Node) :
    Fill (Option String) := do
  let (node, _) ← enter document followed key
  match node with
  | .scalar _ tag? plain text =>
    let value ← Yaml.valueOf tag? plain text
    return if value = .null then none else some (contentOf text value).text
  | _ =>
    complain (misfits "string" node)
    return none

/-- Sets a field to a node. A node that stands for nothing leaves the field as it is. -/
def setField (document : Yaml.Document) (followed : List Nat) (field : Field)
    (value : Yaml.Node) : Fill Unit := do
  let (node, _) ← enter document followed value
  match node with
  | .scalar _ tag? plain text =>
    let value ← Yaml.valueOf tag? plain text
    if value = .null then return
    match field.read? text value with
    | some content =>
      modify fun filling => { filling with choices := filling.choices.put field content }
    | none => complain (misfits field.target node)
  | _ => complain (misfits field.target node)

/-- Sets fields to the values of pairs. `done` holds the fields that were set in this mapping. If
names are given, fields of these names are left alone, and those that are set join them. -/
def setPairs (document : Yaml.Document) (followed : List Nat) (names? : Option (List String))
    (done : List Field) : List (Yaml.Node × Yaml.Node) → Fill (Option (List String))
  | [] => return names?
  | (key, value) :: rest => do
    if key.isMerge then setPairs document followed names? done rest
    else
      match ← nameOf? document followed key with
      | none => setPairs document followed names? done rest
      | some name =>
        if (names?.getD []).contains name then setPairs document followed names? done rest
        else
          let names? := names?.map (name :: ·)
          match Field.ofName? name with
          | none =>
            complain [.unknownField key.line name]
            setPairs document followed names? done rest
          | some field =>
            if done.contains field then
              complain [.repeatedField key.line name]
              setPairs document followed names? done rest
            else
              setField document followed field value
              setPairs document followed names? (field :: done) rest

def ownNames (document : Yaml.Document) (followed : List Nat) :
    List (Yaml.Node × Yaml.Node) → Fill (List String)
  | [] => return []
  | (key, _) :: rest => do
    let (node, _) ← enter document followed key
    match node with
    | .scalar _ tag? plain text =>
      match ← Yaml.valueOf tag? plain text with
      | .text content => return content.text :: (← ownNames document followed rest)
      | _ => ownNames document followed rest
    | .mapping _ _ pairs =>
      complain (repeatedKeys pairs)
      ownNames document followed rest
    | _ => ownNames document followed rest

def canMerge (document : Yaml.Document) (node : Yaml.Node) : Bool :=
  match node with
  | .mapping .. => true
  | .alias _ _ _ target =>
    match document.named.getD target node with
    | .mapping .. => true
    | _ => false
  | _ => false

def mergedNodes : Yaml.Node → List Yaml.Node
  | .sequence _ _ items => items
  | node => [node]

/-- Sets the fields of a mapping, and then those of the mappings that are merged into it. -/
def setMapping (document : Yaml.Document) :
    Nat → List Nat → Option (List String) → List (Yaml.Node × Yaml.Node) →
      Fill (Option (List String))
  | 0, _, names?, _ => return names?
  | fuel + 1, followed, names?, pairs => do
    match repeatedKeys pairs with
    | [] =>
      let names? ← setPairs document followed names? [] pairs
      match pairs.find? (fun pair => pair.1.isMerge) with
      | none => return names?
      | some (_, value) =>
        let names ← match names? with
          | some names => pure names
          | none => ownNames document followed pairs
        let names ← (mergedNodes value).foldlM (fun names node => do
          if !canMerge document node then throw (Yaml.Fault.whole .mergeValue)
          match ← enter document followed node with
          | (.mapping _ _ inner, followed) =>
            return (← setMapping document fuel followed (some names) inner).getD names
          | _ => return names) names
        return names?.map fun _ => names
    | complaints =>
      complain complaints
      return names?

def setDocument (document : Yaml.Document) : Fill Unit := do
  visit []
  let (root, followed) ← enter document [] document.root
  match root with
  | .mapping _ _ pairs =>
    let _ ← setMapping document document.bound followed none pairs
  | .scalar _ tag? plain text =>
    if (← Yaml.valueOf tag? plain text) ≠ .null then complain (misfits "config.Config" root)
  | _ => complain (misfits "config.Config" root)

end Fill

def Choices.ofDocument (document : Yaml.Document) :
    Except Yaml.Fault (Choices × List Complaint) := do
  let (_, filling) ← (Fill.setDocument document).run ⟨fun _ => none, [], 0, 0⟩
  return (filling.choices, filling.complaints.reverse)

end Settings
end Scriptlet
