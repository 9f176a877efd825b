import Scriptlet.Parse.Precedence
import Scriptlet.Parse.State

/-!
# Reading expressions and statements

An expression is an operand followed by operators that bind more tightly than its surroundings.
Operands and operators hold further expressions, which are read one level deeper; `maxNesting`
levels are allowed. Each function starts with its first token as the current one and stops at its
last token.

The functions that read one level take the reader of the next one, `sub`, and a bound on the number
of tokens, `bound`, which no loop over tokens can exceed.

- `Parse.statement` : one statement
- `Parse.operand`, `Parse.operators` : the two parts of an expression
- `Parse.Sequel` : what the second part is made of
- `Parse.expr` : an expression with a number of levels below it
-/

namespace Scriptlet
namespace Parse

/-- Reads an expression whose operators bind more tightly than the given precedence. -/
abbrev ExprReader := Nat → State → Expr × State

/-- The outcome of a form that may stop short: then a bad expression stands at the token where it
stopped. -/
def orBad : Except State (Expr × State) → Expr × State
  | .ok result => result
  | .error s => s.bad

/-- What can follow an expression and take it as its first part. -/
inductive Sequel
  | binary (op : BinaryOp)
  | call
  | index

def Sequel.ofKind? : Token.Kind → Option Sequel
  | .openParen => some .call
  | .openBracket => some .index
  | kind => (BinaryOp.ofKind? kind).map .binary

section Level

variable (bound : Nat) (sub : ExprReader)

/-! ## Statements -/

/-- A definition. Without a name and an equals sign there is no statement. -/
def define (s : State) : Except State (Stmt × State) := do
  let token := s.cur
  let s ← s.expect .ident
  let name := s.ident
  let s ← s.expect .assign
  let (value, s) := sub Precedence.lowest s.advance
  return (.define token name value, s.skipSemicolon)

def returning (s : State) : Stmt × State :=
  let token := s.cur
  match s.peek.kind with
  | .semicolon | .closeBrace | .eof => (.returnNothing token, s.skipSemicolon)
  | _ =>
    let (value, s) := sub Precedence.lowest s.advance
    (.returnValue token value, s.skipSemicolon)

/-- A statement, if there is one: a lone semicolon and a broken definition are none. -/
def statement (s : State) : Option Stmt × State :=
  match s.cur.kind with
  | .letKw =>
    match define sub s with
    | .ok (stmt, s) => (some stmt, s)
    | .error s => (none, s)
  | .returnKw =>
    let (stmt, s) := returning sub s
    (some stmt, s)
  | .breakKw => (some (.breakLoop s.cur), s.skipSemicolon)
  | .semicolon => (none, s)
  | _ =>
    let token := s.cur
    let (value, s) := sub Precedence.lowest s
    (some (.expr token value), s.skipSemicolon)

/-- Statements up to a token of one of the kinds in `stop`, behind those in `found`, which has the
last one first. -/
def statements (stop : Token.Kind → Bool) (found : List Stmt) :
    Nat → State → List Stmt × State
  | 0, s => (found.reverse, s)
  | fuel + 1, s =>
    if stop s.cur.kind then (found.reverse, s)
    else
      match statement sub s with
      | (some stmt, s) => statements stop (stmt :: found) fuel s.advance
      | (none, s) => statements stop found fuel s.advance

def endsBlock : Token.Kind → Bool
  | .closeBrace | .eof => true
  | _ => false

/-- A block, from its opening brace to its closing brace or the end of file. -/
def block (s : State) : Block × State :=
  let (stmts, s') := statements sub endsBlock [] bound s.advance
  (.mk s.cur stmts, s')

/-! ## Operands -/

def maxLiteral : Nat := Nat.pow 2 63 - 1

/-- The value of a row of digits, if it is in range; more than nineteen significant digits never
are. -/
def integer? (digits : String) : Option Int64 :=
  let significant := digits.toList.dropWhile (· == '0')
  if significant.length ≤ 19 then
    let value := Nat.ofDigitChars 10 significant 0
    if value ≤ maxLiteral then some (Int64.ofNat value) else none
  else none

def integer (s : State) : Expr × State :=
  match integer? s.cur.text with
  | some value => (.int s.cur value, s)
  | none => (s.fault s.cur (.integerRange s.cur.text)).bad

def grouped (s : State) : Except State (Expr × State) := do
  let (inner, s) := sub Precedence.lowest s.advance
  let s ← s.expect .closeParen
  return (inner, s)

def unary (op : UnaryOp) (s : State) : Expr × State :=
  let (operand, s') := sub Precedence.unary s.advance
  (.unary s.cur op operand, s')

def condition (s : State) : Except State (Expr × State) := do
  let s ← s.expect .openParen
  let (test, s) := sub Precedence.lowest s.advance
  let s ← s.expect .closeParen
  return (test, s)

def conditional (s : State) : Except State (Expr × State) := do
  let token := s.cur
  let (test, s) ← condition sub s
  let s ← s.expect .openBrace
  let (yes, s) := block bound sub s
  if s.peek.kind = .elseKw then
    let s ← s.advance.expect .openBrace
    let (no, s) := block bound sub s
    return (.ifElse token test yes no, s)
  else
    return (.ifThen token test yes, s)

def whileLoop (s : State) : Except State (Expr × State) := do
  let token := s.cur
  let (test, s) ← condition sub s
  let s ← s.expect .openBrace
  let (body, s) := block bound sub s
  return (.whileDo token test body, s)

/-- The rest of a parameter list behind the names in `found`, which has the last one first. -/
def moreParams (found : List Ident) : Nat → State → Except State (List Ident × State)
  | 0, s => do
    let s ← s.expect .closeParen
    return (found.reverse, s)
  | fuel + 1, s =>
    if s.peek.kind = .comma then do
      let s ← s.advance.expect .ident
      moreParams (s.ident :: found) fuel s
    else do
      let s ← s.expect .closeParen
      return (found.reverse, s)

def params (s : State) : Except State (List Ident × State) :=
  if s.peek.kind = .closeParen then .ok ([], s.advance)
  else do
    let s ← s.expect .ident
    moreParams [s.ident] bound s

def function (s : State) : Except State (Expr × State) := do
  let token := s.cur
  let s ← s.expect .openParen
  let (params, s) ← params bound s
  let s ← s.expect .openBrace
  let (body, s) := block bound sub s
  return (.function token params body, s)

def moreExprs (close : Token.Kind) (found : List Expr) :
    Nat → State → Except State (List Expr × State)
  | 0, s => do
    let s ← s.expect close
    return (found.reverse, s)
  | fuel + 1, s =>
    if s.peek.kind = .comma then
      let (item, s) := sub Precedence.lowest s.advance.advance
      moreExprs close (item :: found) fuel s
    else do
      let s ← s.expect close
      return (found.reverse, s)

/-- Expressions with commas between them, from the opening bracket to the closing one. -/
def exprList (close : Token.Kind) (s : State) : Except State (List Expr × State) :=
  if s.peek.kind = close then .ok ([], s.advance)
  else
    let (item, s) := sub Precedence.lowest s.advance
    moreExprs sub close [item] bound s

def array (s : State) : Except State (Expr × State) := do
  let token := s.cur
  let (items, s) ← exprList bound sub .closeBracket s
  return (.array token items, s)

def pair (s : State) : Except State ((Expr × Expr) × State) := do
  let (key, s) := sub Precedence.lowest s.advance
  let s ← s.expect .colon
  let (value, s) := sub Precedence.lowest s.advance
  return ((key, value), s)

/-- The rest of a hash literal behind the entries in `found`, which has the last one first. A comma
may stand behind the last entry. -/
def pairs (found : List (Expr × Expr)) :
    Nat → State → Except State (List (Expr × Expr) × State)
  | 0, s => do
    let s ← s.expect .closeBrace
    return (found.reverse, s)
  | fuel + 1, s =>
    if s.peek.kind = .closeBrace then .ok (found.reverse, s.advance)
    else do
      let (entry, s) ← pair sub s
      if s.peek.kind = .closeBrace then pairs (entry :: found) fuel s
      else
        let s ← s.expect .comma
        pairs (entry :: found) fuel s

def hash (s : State) : Except State (Expr × State) := do
  let token := s.cur
  let (entries, s) ← pairs sub [] bound s
  return (.hash token entries, s)

/-- The operand that starts at the current token. An error means that none can start there. -/
def operand (s : State) : Except State (Expr × State) :=
  let token := s.cur
  match token.kind with
  | .ident => .ok (.ident s.ident, s)
  | .int => .ok (integer s)
  | .str => .ok (.str token token.text, s)
  | .trueKw => .ok (.bool token true, s)
  | .falseKw => .ok (.bool token false, s)
  | .openParen => .ok (orBad (grouped sub s))
  | .bang => .ok (unary sub .not s)
  | .minus => .ok (unary sub .neg s)
  | .plus => .ok (unary sub .pos s)
  | .ifKw => .ok (orBad (conditional bound sub s))
  | .whileKw => .ok (orBad (whileLoop bound sub s))
  | .fnKw => .ok (orBad (function bound sub s))
  | .openBracket => .ok (orBad (array bound sub s))
  | .openBrace => .ok (orBad (hash bound sub s))
  | .illegal | .unterminated => .error (s.fault token (.lexical token.text))
  | kind => .error (s.fault token (.noOperand kind))

/-! ## Operators -/

def call (callee : Expr) (s : State) : Except State (Expr × State) := do
  let token := s.cur
  let (args, s) ← exprList bound sub .closeParen s
  return (.call token callee args, s)

def index (target : Expr) (s : State) : Except State (Expr × State) := do
  let token := s.cur
  let (key, s) := sub Precedence.lowest s.advance
  let s ← s.expect .closeBracket
  return (.index token target key, s)

def binary (op : BinaryOp) (left : Expr) (s : State) : Expr × State :=
  let (right, s') := sub (Precedence.ofKind s.cur.kind) s.advance
  (.binary s.cur op left right, s')

/-- The sequel at the current token, with the expression in front of it. -/
def operator : Sequel → Expr → State → Expr × State
  | .binary op, left, s => binary sub op left s
  | .call, left, s => orBad (call bound sub left s)
  | .index, left, s => orBad (index sub left s)

/-- All operators behind an expression that bind more tightly than the given precedence. -/
def operators (precedence : Nat) : Nat → Expr → State → Expr × State
  | 0, left, s => (left, s)
  | fuel + 1, left, s =>
    if s.peek.kind ≠ .semicolon ∧ precedence < Precedence.ofKind s.peek.kind then
      match Sequel.ofKind? s.peek.kind with
      | some sequel =>
        let (left, s) := operator bound sub sequel left s.advance
        operators precedence fuel left s
      | none => (left, s)
    else (left, s)

/-- An expression whose parts are read by `sub`. -/
def exprLevel (precedence : Nat) (s : State) : Expr × State :=
  match operand bound sub s with
  | .ok (left, s) => operators bound sub precedence bound left s
  | .error s => s.bad

end Level

def tooDeep (s : State) : Expr × State :=
  { s with report := s.report.close (some ⟨s.cur.pos, .tooDeep⟩) }.drain.bad

/-- An expression with the given number of levels. -/
def expr (bound : Nat) : Nat → ExprReader
  | 0 => fun _ s => tooDeep s
  | levels + 1 => exprLevel bound (expr bound levels)

end Parse
end Scriptlet
