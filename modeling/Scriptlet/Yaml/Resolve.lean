import Scriptlet.Text.Base64
import Scriptlet.Text.Bytes
import Scriptlet.Yaml.Node
import Scriptlet.Yaml.Number
import Scriptlet.Yaml.Timestamp

/-!
# What scalars stand for

A scalar without quotes may stand for nothing, a truth value, a number or a point in time; otherwise
it stands for its own text. A tag may ask for one of these.

- `Yaml.Value` : what a scalar stands for
- `Yaml.meaningOf` : the value of a scalar without quotes and tag
- `Yaml.valueOf` : the value of a scalar
- `Yaml.Node.tag` : the tag that a node has, given or not
-/

namespace Scriptlet
namespace Yaml

/-- What a scalar stands for. A decimal number is given by its whole part. -/
inductive Value
  | null
  | bool (value : Bool)
  | int (value : Int)
  | float (whole : Option Int)
  | timestamp
  | text (content : Bytes)
  deriving DecidableEq, Repr

def Value.tag : Value → String
  | .null => "!!null"
  | .bool _ => "!!bool"
  | .int _ => "!!int"
  | .float _ => "!!float"
  | .timestamp => "!!timestamp"
  | .text _ => "!!str"

/-- The scalars that mean something as a whole. Infinity has no whole part. -/
def words : List (String × Value) := [
  ("", .null), ("~", .null), ("null", .null), ("Null", .null), ("NULL", .null),
  ("true", .bool true), ("True", .bool true), ("TRUE", .bool true),
  ("false", .bool false), ("False", .bool false), ("FALSE", .bool false),
  (".nan", .float none), (".NaN", .float none), (".NAN", .float none),
  (".inf", .float none), (".Inf", .float none), (".INF", .float none),
  ("+.inf", .float none), ("+.Inf", .float none), ("+.INF", .float none),
  ("-.inf", .float (some lowest)), ("-.Inf", .float (some lowest)),
  ("-.INF", .float (some lowest))]

/-- The number that a scalar writes. Underscores in it do not count. -/
def number? (text : String) : Option Value :=
  let chars := text.toList.filter (· != '_')
  match integer? chars with
  | some n => some (.int n)
  | none =>
    match float? chars with
    | some whole => some (.float (some whole))
    | none => (lateSigned? chars).map .int

/-- The value of a scalar without quotes. Points in time count only if `times` is true. -/
def plainValue (times : Bool) (text : String) : Value :=
  let own := Value.text (.ofString text)
  match words.lookup text with
  | some value => value
  | none =>
    match text.toList with
    | '.' :: rest => ((pointFloat? ('.' :: rest)).map fun whole => .float (some whole)).getD own
    | c :: rest =>
      if isDecimalDigit c || c == '+' || c == '-' then
        if times && isTimestamp (c :: rest) then .timestamp else (number? text).getD own
      else own
    | [] => .null

def meaningOf (text : String) : Value :=
  plainValue true text

def askingTags : List String :=
  ["!!null", "!!bool", "!!int", "!!float", "!!timestamp"]

/-- The value of a scalar as a tag asks for it. An integer may stand for a decimal number. -/
def askedValue (tag text : String) : Except Fault Value :=
  let value := plainValue (tag == "!!timestamp") text
  if value.tag = tag then .ok value
  else
    match value with
    | .int n =>
      if tag = "!!float" && decide (n < signedBound) then
        let whole := roundedWhole n.natAbs 1
        .ok (.float (some (if n < 0 then -(whole : Int) else whole)))
      else .error (.whole (.wrongTag value.tag text tag))
    | _ => .error (.whole (.wrongTag value.tag text tag))

/-- The value of a scalar. Quotes and tags of other kinds make it stand for its own text. -/
def valueOf (tag? : Option String) (plain : Bool) (text : String) : Except Fault Value :=
  match tag? with
  | none => .ok (if plain && text != "<<" then meaningOf text else .text (.ofString text))
  | some tag =>
    if askingTags.contains tag then askedValue tag text
    else if tag = "!!binary" then
      match Text.decodeBase64? text with
      | some bytes => .ok (.text bytes)
      | none => .error (.whole .badBinary)
    else .ok (.text (.ofString text))

namespace Node

/-- The tag of a node. Two angle brackets without quotes ask to merge mappings. -/
def tag : Node → String
  | .scalar _ tag? plain text =>
    tag?.getD (if !plain then "!!str" else if text = "<<" then "!!merge" else (meaningOf text).tag)
  | .sequence _ tag? _ => tag?.getD "!!seq"
  | .mapping _ tag? _ => tag?.getD "!!map"
  | .alias .. => ""

def isMerge : Node → Bool
  | .scalar line tag? plain text => text == "<<" && (scalar line tag? plain text).tag == "!!merge"
  | _ => false

end Node

end Yaml
end Scriptlet
