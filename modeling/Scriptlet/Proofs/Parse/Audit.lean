import Scriptlet.Proofs.Parse.Span

/-!
# Reading under audit

A second way to read a program, which keeps a journal: the productions that are under way, and how
many expressions lie inside each other. The journal is what stops expressions that nest too deeply,
and loops take as many turns as they like. There is no outcome where reading breaks one of three
rules:

* a production begins within itself only if an expression begins between the two,
* no more than `maxNesting + 1` expressions are under way at any time,
* a turn of a loop that goes on leaves fewer tokens than there were.

Nor is there one where reading does not end: all loops and all productions within each other may
take no more than `fuel` turns, which is more than enough if it is enough at all.

- `Production`, `Journal` : what is under way
- `Audit.reading`, `Audit.turns` : productions and loops under the rules
- `Audit.expression`, `Audit.program` : the grammar
-/

namespace Scriptlet
namespace Parse

/-- The productions of the grammar. Each one calls others to read its parts. -/
inductive Production
  | program | block | statement | define | returning | breaking | exprStmt
  | expression | name | integer | text | truth | grouped | unary | conditional | whileLoop
  | condition | function | params | array | hash | exprList | binary | call | index
  deriving DecidableEq

/-- Where reading stands: the tokens, the productions that are under way with the innermost one
first, and the number of expressions among them. -/
structure Journal where
  state : State
  calls : List Production
  depth : Nat

namespace Journal

/-- The productions that are under way since the innermost expression began. -/
def inner (j : Journal) : List Production :=
  j.calls.takeWhile (· ≠ .expression)

def enter (p : Production) (j : Journal) : Journal :=
  ⟨j.state, p :: j.calls, if p = .expression then j.depth + 1 else j.depth⟩

def leave (p : Production) (j : Journal) : Journal :=
  ⟨j.state, j.calls.tail, if p = .expression then j.depth - 1 else j.depth⟩

def on (s : State) (j : Journal) : Journal :=
  { j with state := s }

end Journal

/-- A reading under audit. It has no outcome where it breaks a rule or does not end. -/
abbrev Audit := StateT Journal Option

namespace Audit

variable {α σ : Type}

/-! ## Rules -/

/-- Reads a production. It must not be under way since the innermost expression began, and not too
many expressions may be under way. -/
def reading (p : Production) (body : Audit α) : Audit α := fun j =>
  if p ∈ j.inner ∨ maxNesting + 1 < (j.enter p).depth then none
  else (body (j.enter p)).map fun (a, j') => (a, j'.leave p)

-- A block may lie in a block if an expression lies between them.
example (s : State) : (reading .block (reading .block (pure ()))) ⟨s, [], 0⟩ = none := rfl

example (s : State) : (reading .block (reading .expression (reading .block (pure ())))) ⟨s, [], 0⟩ =
    some ((), ⟨s, [], 0⟩) := rfl

/-- Takes turns until one of them ends the loop. One that goes on must leave fewer tokens. -/
def turns (turn : σ → Audit (σ ⊕ α)) : Nat → σ → Audit α
  | 0, _ => fun _ => none
  | fuel + 1, x => fun j =>
    match turn x j with
    | none => none
    | some (.inr a, j') => some (a, j')
    | some (.inl y, j') =>
      if j'.state.ahead.length < j.state.ahead.length then turns turn fuel y j' else none

/-! ## Steps -/

def look : Audit State := fun j => some (j.state, j)

/-- A step that changes the state of reading alone. -/
def act (f : State → α × State) : Audit α := fun j =>
  some ((f j.state).1, j.on (f j.state).2)

def advance : Audit Unit :=
  act fun s => ((), s.advance)

def skipSemicolon : Audit Unit :=
  act fun s => ((), s.skipSemicolon)

/-- Whether the next token has the given kind. Steps onto it, or reports it. -/
def expect (kind : Token.Kind) : Audit Bool :=
  act fun s =>
    match s.expect kind with
    | .ok s => (true, s)
    | .error s => (false, s)

def bad : Audit Expr :=
  act State.bad

section Level

variable (fuel : Nat) (sub : Nat → Audit Expr)

/-! ## Statements -/

def define : Audit (Option Stmt) := reading .define do
  let token := (← look).cur
  if ← expect .ident then
    let name := (← look).ident
    if ← expect .assign then
      advance
      let value ← sub Precedence.lowest
      skipSemicolon
      return some (.define token name value)
    else return none
  else return none

def returning : Audit Stmt := reading .returning do
  let s ← look
  match s.peek.kind with
  | .semicolon | .closeBrace | .eof =>
    skipSemicolon
    return .returnNothing s.cur
  | _ =>
    advance
    let value ← sub Precedence.lowest
    skipSemicolon
    return .returnValue s.cur value

def breaking : Audit Stmt := reading .breaking do
  let token := (← look).cur
  skipSemicolon
  return .breakLoop token

def exprStmt : Audit Stmt := reading .exprStmt do
  let token := (← look).cur
  let value ← sub Precedence.lowest
  skipSemicolon
  return .expr token value

def statement : Audit (Option Stmt) := reading .statement do
  match (← look).cur.kind with
  | .letKw => define sub
  | .returnKw => some <$> returning sub
  | .breakKw => some <$> breaking
  | .semicolon => return none
  | _ => some <$> exprStmt sub

/-- One turn of the loop over statements, behind those in `found`. -/
def statementTurn (stop : Token.Kind → Bool) (found : List Stmt) :
    Audit (List Stmt ⊕ List Stmt) := do
  if stop (← look).cur.kind then return .inr found.reverse
  else
    let stmt ← statement sub
    advance
    return .inl (stmt.toList ++ found)

def block : Audit Block := reading .block do
  let token := (← look).cur
  advance
  let stmts ← turns (statementTurn sub endsBlock) fuel []
  return .mk token stmts

/-! ## Operands -/

def grouped : Audit Expr := reading .grouped do
  advance
  let inner ← sub Precedence.lowest
  if ← expect .closeParen then return inner else bad

def unary (op : UnaryOp) : Audit Expr := reading .unary do
  let token := (← look).cur
  advance
  let operand ← sub Precedence.unary
  return .unary token op operand

def condition : Audit (Option Expr) := reading .condition do
  if ← expect .openParen then
    advance
    let test ← sub Precedence.lowest
    if ← expect .closeParen then return some test else return none
  else return none

def conditional : Audit Expr := reading .conditional do
  let token := (← look).cur
  match ← condition sub with
  | none => bad
  | some test =>
    if ← expect .openBrace then
      let yes ← block fuel sub
      if (← look).peek.kind = .elseKw then
        advance
        if ← expect .openBrace then
          let no ← block fuel sub
          return .ifElse token test yes no
        else bad
      else return .ifThen token test yes
    else bad

def whileLoop : Audit Expr := reading .whileLoop do
  let token := (← look).cur
  match ← condition sub with
  | none => bad
  | some test =>
    if ← expect .openBrace then
      let body ← block fuel sub
      return .whileDo token test body
    else bad

def paramTurn (found : List Ident) : Audit (List Ident ⊕ Option (List Ident)) := do
  if (← look).peek.kind = .comma then
    advance
    if ← expect .ident then return .inl ((← look).ident :: found) else return .inr none
  else
    if ← expect .closeParen then return .inr (some found.reverse) else return .inr none

def params : Audit (Option (List Ident)) := reading .params do
  if (← look).peek.kind = .closeParen then
    advance
    return some []
  else
    if ← expect .ident then turns paramTurn fuel [(← look).ident] else return none

def function : Audit Expr := reading .function do
  let token := (← look).cur
  if ← expect .openParen then
    match ← params fuel with
    | none => bad
    | some names =>
      if ← expect .openBrace then
        let body ← block fuel sub
        return .function token names body
      else bad
  else bad

def itemTurn (close : Token.Kind) (found : List Expr) :
    Audit (List Expr ⊕ Option (List Expr)) := do
  if (← look).peek.kind = .comma then
    advance
    advance
    let item ← sub Precedence.lowest
    return .inl (item :: found)
  else
    if ← expect close then return .inr (some found.reverse) else return .inr none

def exprList (close : Token.Kind) : Audit (Option (List Expr)) := reading .exprList do
  if (← look).peek.kind = close then
    advance
    return some []
  else
    advance
    let item ← sub Precedence.lowest
    turns (itemTurn sub close) fuel [item]

def array : Audit Expr := reading .array do
  let token := (← look).cur
  match ← exprList fuel sub .closeBracket with
  | none => bad
  | some items => return .array token items

def pair : Audit (Option (Expr × Expr)) := do
  advance
  let key ← sub Precedence.lowest
  if ← expect .colon then
    advance
    let value ← sub Precedence.lowest
    return some (key, value)
  else return none

def pairTurn (found : List (Expr × Expr)) :
    Audit (List (Expr × Expr) ⊕ Option (List (Expr × Expr))) := do
  if (← look).peek.kind = .closeBrace then
    advance
    return .inr (some found.reverse)
  else
    match ← pair sub with
    | none => return .inr none
    | some entry =>
      if (← look).peek.kind = .closeBrace then return .inl (entry :: found)
      else
        if ← expect .comma then return .inl (entry :: found) else return .inr none

def hash : Audit Expr := reading .hash do
  let token := (← look).cur
  match ← turns (pairTurn sub) fuel [] with
  | none => bad
  | some entries => return .hash token entries

def operand : Audit (Option Expr) := do
  let s ← look
  match s.cur.kind with
  | .ident => some <$> reading .name (return .ident s.ident)
  | .int => some <$> reading .integer (act integer)
  | .str => some <$> reading .text (return .str s.cur s.cur.text)
  | .trueKw => some <$> reading .truth (return .bool s.cur true)
  | .falseKw => some <$> reading .truth (return .bool s.cur false)
  | .openParen => some <$> grouped sub
  | .bang => some <$> unary sub .not
  | .minus => some <$> unary sub .neg
  | .plus => some <$> unary sub .pos
  | .ifKw => some <$> conditional fuel sub
  | .whileKw => some <$> whileLoop fuel sub
  | .fnKw => some <$> function fuel sub
  | .openBracket => some <$> array fuel sub
  | .openBrace => some <$> hash fuel sub
  | .illegal | .unterminated => act fun s => (none, s.fault s.cur (.lexical s.cur.text))
  | kind => act fun s => (none, s.fault s.cur (.noOperand kind))

/-! ## Operators -/

def call (callee : Expr) : Audit Expr := reading .call do
  let token := (← look).cur
  match ← exprList fuel sub .closeParen with
  | none => bad
  | some args => return .call token callee args

def index (target : Expr) : Audit Expr := reading .index do
  let token := (← look).cur
  advance
  let key ← sub Precedence.lowest
  if ← expect .closeBracket then return .index token target key else bad

def binary (op : BinaryOp) (left : Expr) : Audit Expr := reading .binary do
  let token := (← look).cur
  advance
  let right ← sub (Precedence.ofKind token.kind)
  return .binary token op left right

def operator : Sequel → Expr → Audit Expr
  | .binary op, left => binary sub op left
  | .call, left => call fuel sub left
  | .index, left => index sub left

def operatorTurn (precedence : Nat) (left : Expr) : Audit (Expr ⊕ Expr) := do
  let kind := (← look).peek.kind
  if kind ≠ .semicolon ∧ precedence < Precedence.ofKind kind then
    match Sequel.ofKind? kind with
    | some sequel =>
      advance
      let left ← operator fuel sub sequel left
      return .inl left
    | none => return .inr left
  else return .inr left

end Level

/-! ## Expressions and programs -/

/-- One turn of the loop that skips all tokens up to the last one. -/
def drainTurn (_ : Unit) : Audit (Unit ⊕ Unit) := do
  if (← look).cur.kind = .eof then return .inr ()
  else
    advance
    return .inl ()

def tooDeep (fuel : Nat) : Audit Expr := do
  act fun s => ((), { s with report := s.report.close (some ⟨s.cur.pos, .tooDeep⟩) })
  turns drainTurn fuel ()
  bad

/-- An expression, with `fuel` turns for every loop and a number of expressions within each
other. -/
def expression (fuel : Nat) : Nat → Nat → Audit Expr
  | 0, _ => fun _ => none
  | levels + 1, precedence => reading .expression do
    if maxNesting < (← get).depth then tooDeep fuel
    else
      match ← operand fuel (expression fuel levels) with
      | none => bad
      | some left => turns (operatorTurn fuel (expression fuel levels) precedence) fuel left

def program (fuel : Nat) : Audit Program := reading .program do
  let stmts ← turns (statementTurn (expression fuel fuel) isEof) fuel []
  return ⟨stmts⟩

end Audit

def auditTokens (fuel : Nat) (tokens : List Token) : Option (Program × Journal) :=
  Audit.program fuel ⟨.ofTokens tokens, [], 0⟩

end Parse
end Scriptlet
