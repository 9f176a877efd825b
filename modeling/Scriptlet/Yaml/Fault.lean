/-!
# Marks and faults

- `Yaml.Mark` : a place in a document
- `Yaml.Problem` : what can be wrong with a document
- `Yaml.Fault` : a problem with the places that it shows at
- `Yaml.Fault.message` : how it is worded
- `Yaml.Failed` : a fault with what was reached when it came up
-/

namespace Scriptlet
namespace Yaml

/-- A place in a document. Lines, columns and characters count from zero. -/
structure Mark where
  line : Nat
  col : Nat
  index : Nat
  deriving DecidableEq, Repr

def Mark.start : Mark := ⟨0, 0, 0⟩

/-- The greatest depth of brackets and the greatest number of open blocks. -/
def maxDepth : Nat := 10000

/-- What can be wrong with a document: with its encoding, its tokens, the order of its tokens, or
what its nodes stand for. -/
inductive Problem
  | unreadable (reason : String)
  | badLead
  | cutSequence
  | badTrail
  | longSequence
  | badCodePoint
  | cutUnit
  | loneLowSurrogate
  | cutPair
  | badPair
  | controlCharacter
  | endInQuotes
  | documentInQuotes
  | unknownEscape
  | escapeDigits
  | escapeCode
  | tabInPlain
  | tabInBlock
  | zeroIndent
  | trailingText
  | badStart
  | badName
  | noDirectiveName
  | badDirectiveName
  | unknownDirective
  | noVersion
  | longVersion
  | noVersionPoint
  | noHandle
  | noHandleEnd
  | noTagEnd
  | noTagAddress
  | noTagBracket
  | tagEscape
  | tagLead
  | tagTrail
  | valueContext
  | keyContext
  | entryContext
  | missingColon
  | tooDeep
  | incompatibleVersion
  | repeatedVersion
  | repeatedHandle
  | missingDocument
  | undefinedHandle
  | missingKey
  | missingEntry
  | missingContent
  | flowItem (close : String)
  | unknownAnchor (name : String)
  | selfAlias (name : String)
  | manyAliases
  | mergeValue
  | wrongTag (found text wanted : String)
  | badBinary
  deriving DecidableEq, Repr

def Problem.message : Problem → String
  | .unreadable reason => "input error: " ++ reason
  | .badLead => "invalid leading UTF-8 octet"
  | .cutSequence => "incomplete UTF-8 octet sequence"
  | .badTrail => "invalid trailing UTF-8 octet"
  | .longSequence => "invalid length of a UTF-8 sequence"
  | .badCodePoint => "invalid Unicode character"
  | .cutUnit => "incomplete UTF-16 character"
  | .loneLowSurrogate => "unexpected low surrogate area"
  | .cutPair => "incomplete UTF-16 surrogate pair"
  | .badPair => "expected low surrogate area"
  | .controlCharacter => "control characters are not allowed"
  | .endInQuotes => "found unexpected end of stream"
  | .documentInQuotes => "found unexpected document indicator"
  | .unknownEscape => "found unknown escape character"
  | .escapeDigits => "did not find expected hexdecimal number"
  | .escapeCode => "found invalid Unicode character escape code"
  | .tabInPlain => "found a tab character that violates indentation"
  | .tabInBlock => "found a tab character where an indentation space is expected"
  | .zeroIndent => "found an indentation indicator equal to 0"
  | .trailingText => "did not find expected comment or line break"
  | .badStart => "found character that cannot start any token"
  | .badName => "did not find expected alphabetic or numeric character"
  | .noDirectiveName => "could not find expected directive name"
  | .badDirectiveName => "found unexpected non-alphabetical character"
  | .unknownDirective => "found unknown directive name"
  | .noVersion => "did not find expected version number"
  | .longVersion => "found extremely long version number"
  | .noVersionPoint => "did not find expected digit or '.' character"
  | .noHandle => "did not find expected '!'"
  | .noHandleEnd => "did not find expected whitespace"
  | .noTagEnd => "did not find expected whitespace or line break"
  | .noTagAddress => "did not find expected tag URI"
  | .noTagBracket => "did not find the expected '>'"
  | .tagEscape => "did not find URI escaped octet"
  | .tagLead => "found an incorrect leading UTF-8 octet"
  | .tagTrail => "found an incorrect trailing UTF-8 octet"
  | .valueContext => "mapping values are not allowed in this context"
  | .keyContext => "mapping keys are not allowed in this context"
  | .entryContext => "block sequence entries are not allowed in this context"
  | .missingColon => "could not find expected ':'"
  | .tooDeep => "exceeded max depth of " ++ maxDepth.repr
  | .incompatibleVersion => "found incompatible YAML document"
  | .repeatedVersion => "found duplicate %YAML directive"
  | .repeatedHandle => "found duplicate %TAG directive"
  | .missingDocument => "did not find expected <document start>"
  | .undefinedHandle => "found undefined tag handle"
  | .missingKey => "did not find expected key"
  | .missingEntry => "did not find expected '-' indicator"
  | .missingContent => "did not find expected node content"
  | .flowItem close => "did not find expected ',' or '" ++ close ++ "'"
  | .unknownAnchor name => "unknown anchor '" ++ name ++ "' referenced"
  | .selfAlias name => "anchor '" ++ name ++ "' value contains itself"
  | .manyAliases => "document contains excessive aliasing"
  | .mergeValue => "map merge requires map or sequence of maps as the value"
  | .wrongTag found text wanted =>
    "cannot decode " ++ found ++ " \x60" ++ text ++ "\x60 as a " ++ wanted
  | .badBinary => "!!binary value contains invalid base64 data"

/-- A problem, the line of what it belongs to and the line where it shows, and whether it came up
between tokens (`lexical`) or between nodes. -/
structure Fault where
  problem : Problem
  lexical : Bool
  context : Nat
  shown : Nat
  deriving DecidableEq, Repr

namespace Fault

def whole (problem : Problem) : Fault :=
  ⟨problem, false, 0, 0⟩

/-- The line that a message names, if any. It is the line of the context, or where that is the first
line, the line of the problem; it counts from one only for problems between tokens. -/
def line? (fault : Fault) : Option Nat :=
  let line := if fault.context = 0 then fault.shown else fault.context
  if line = 0 then none else some (if fault.lexical then line + 1 else line)

def message (fault : Fault) : String :=
  match fault.line? with
  | some line => "line " ++ line.repr ++ ": " ++ fault.problem.message
  | none => fault.problem.message

end Fault

structure Failed (σ : Type) where
  fault : Fault
  reached : σ

end Yaml
end Scriptlet
