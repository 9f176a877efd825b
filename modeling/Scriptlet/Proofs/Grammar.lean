import Scriptlet.Parse.Precedence
import Scriptlet.Proofs.Token.Stream
import Scriptlet.Proofs.Tree

/-!
# The grammar

What a program looks like as a row of tokens, said without reading it. A tree can be written in
several ways: parentheses may stand around any expression, semicolons may be doubled or left out
where nothing is glued together by that, a comma may stand behind the last entry of a hash, and the
closing braces of blocks may be missing at the end of the input.

- `Place.Admits` : which expressions may stand somewhere without parentheses of their own
- `Stmt.MayPrecede` : which tokens may follow a statement without a semicolon
- `Rendering` : the ways to write a part of a program
- `Rendering.nesting` : how many expressions lie inside each other in a rendering
- `Expr.RenderedAs` : renderings of an expression, whatever tokens its nodes keep
-/

namespace Scriptlet

abbrev Token.Of (kind : Token.Kind) : Type := { token : Token // token.kind = kind }

def Token.Kind.startsExpr : Token.Kind → Bool
  | .ident | .int | .str | .trueKw | .falseKw | .openParen | .bang | .minus | .plus => true
  | .ifKw | .whileKw | .fnKw | .openBracket | .openBrace => true
  | _ => false

/-- A kind that starts expressions is none that does not. -/
theorem Token.Kind.ne_of_startsExpr {kind other : Token.Kind} (starts : kind.startsExpr = true)
    (other_not : other.startsExpr = false) : kind ≠ other := by
  rintro rfl
  rw [starts] at other_not
  cases other_not

def Token.Kind.startsStmt : Token.Kind → Bool
  | .letKw | .returnKw | .breakKw => true
  | kind => kind.startsExpr

/-- A list without expressions has no tokens, and every other one begins with an expression. -/
def ListHead (es : List Expr) (ts : List Token) : Prop :=
  es = [] ∧ ts = [] ∨ es ≠ [] ∧ ∃ first rest, ts = first :: rest ∧ first.kind.startsExpr = true

/-! ## Where an expression may stand -/

/-- How tightly an operator takes its operands; a symbol without a meaning takes none. -/
def BinaryOp.precedence : BinaryOp → Nat
  | .eq | .ne => Precedence.equality
  | .lt | .le | .gt | .ge => Precedence.comparison
  | .add | .sub => Precedence.sum
  | .mul | .div => Precedence.product
  | .other _ => Precedence.lowest

/-- The precedence of a token that writes an operator is that of the operator. -/
theorem BinaryOp.precedence_of_ofKind? {kind : Token.Kind} {op : BinaryOp}
    (h : BinaryOp.ofKind? kind = some op) : Precedence.ofKind kind = op.precedence := by
  cases kind <;> cases h <;> rfl

/-- No operator with two operands binds more tightly than one in front of its operand. -/
theorem BinaryOp.precedence_le_unary (op : BinaryOp) : op.precedence ≤ Precedence.unary := by
  cases op <;> simp [BinaryOp.precedence, Precedence.unary, Precedence.equality,
    Precedence.comparison, Precedence.sum, Precedence.product, Precedence.lowest]

/-- A place for an expression: in front of an operator of some precedence, where calls and indices
count as operators, or behind one. An expression with nothing in front of it stands behind the
lowest precedence. -/
inductive Place
  | front (precedence : Nat)
  | behind (precedence : Nat)

/-- Whether an expression may stand at a place without parentheses. In front of an operator its own
operator must not bind less tightly, behind one it must bind more tightly. -/
def Place.Admits : Place → Expr → Prop
  | .front p, .binary _ op _ _ => p ≤ op.precedence
  | .front p, .unary .. => p ≤ Precedence.unary
  | .behind p, .binary _ op _ _ => p < op.precedence
  | _, _ => True

def Expr.isOperation : Expr → Bool
  | .unary .. | .binary .. => true
  | _ => false

/-- Everything but an operation may stand everywhere. -/
theorem Place.admits_of_isOperation_eq_false {e : Expr} (h : e.isOperation = false)
    (place : Place) : place.Admits e := by
  cases e <;> first | exact Bool.noConfusion h | (cases place <;> exact trivial)

/-! ## What may follow a statement -/

/-- Whether a token of the given kind may follow a statement directly. A return without a value
needs an end, and an operator would be taken up by an expression in front of it. -/
def Stmt.MayPrecede : Stmt → Token.Kind → Prop
  | .returnNothing _, kind => kind = .semicolon ∨ kind = .closeBrace ∨ kind = .eof
  | .breakLoop _, _ => True
  | _, kind => Precedence.ofKind kind = Precedence.lowest

/-- Every statement may be the last one. -/
theorem Stmt.mayPrecede_of_end (st : Stmt) {kind : Token.Kind}
    (h : kind = .closeBrace ∨ kind = .eof) : st.MayPrecede kind := by
  rcases h with rfl | rfl
  · cases st <;> first | exact rfl | exact trivial | exact .inr (.inl rfl)
  · cases st <;> first | exact rfl | exact trivial | exact .inr (.inr rfl)

/-! ## Renderings -/

/-- A row of digits and its value. -/
def Numeral (digits : String) (value : Int64) : Prop :=
  Digits digits ∧ value.toInt = Nat.ofDigitChars 10 digits.toList 0

inductive ParamList : List Ident → List Token → Prop
  | nil : ParamList [] []
  | last (name : Token.Of .ident) : ParamList [⟨name, name.val.text⟩] [name.val]
  | cons (name : Token.Of .ident) (comma : Token.Of .comma) {param : Ident} {params : List Ident}
      {ts : List Token} (rest : ParamList (param :: params) ts) :
      ParamList (⟨name, name.val.text⟩ :: param :: params) (name.val :: comma.val :: ts)

/-- The parts of a program that can be written. -/
inductive Part
  | bare (e : Expr)
  | expr (place : Place) (e : Expr)
  | list (es : List Expr)
  | entries (pairs : List (Expr × Expr))
  | stmt (st : Stmt)
  | stmts (sts : List Stmt)
  | block (b : Block)

namespace Part

def isExpr : Part → Bool
  | .bare _ | .expr _ _ => true
  | _ => false

/-- Whether something in a part could not be read. -/
def hasBad : Part → Bool
  | .bare e | .expr _ e => e.hasBad
  | .list es => exprsHaveBad es
  | .entries pairs => pairsHaveBad pairs
  | .stmt st => st.hasBad
  | .stmts sts => stmtsHaveBad sts
  | .block b => b.hasBad

end Part

/-- The ways to write a part of a program as a row of tokens. Every node keeps the token that the
rendering has at its place. A rendering that is `cut` lacks closing braces at its end, and nothing
can follow it.

A `bare` expression has no parentheses around it; an `expr` has them where its place demands it, and
any number of times. -/
inductive Rendering : Part → Bool → List Token → Type
  | ident (name : Token.Of .ident) :
      Rendering (.bare (.ident ⟨name, name.val.text⟩)) false [name.val]
  | int (digits : Token.Of .int) (value : Int64) (numeral : Numeral digits.val.text value) :
      Rendering (.bare (.int digits value)) false [digits.val]
  | str (text : Token.Of .str) :
      Rendering (.bare (.str text text.val.text)) false [text.val]
  | trueWord (word : Token.Of .trueKw) :
      Rendering (.bare (.bool word true)) false [word.val]
  | falseWord (word : Token.Of .falseKw) :
      Rendering (.bare (.bool word false)) false [word.val]
  | unary {op : UnaryOp} {e : Expr} {cut : Bool} {ts : List Token}
      (sign : Token) (is_op : UnaryOp.ofKind? sign.kind = some op)
      (operand : Rendering (.expr (.behind Precedence.unary) e) cut ts) :
      Rendering (.bare (.unary sign op e)) cut (sign :: ts)
  | binary {op : BinaryOp} {left right : Expr} {cut : Bool} {ts us : List Token}
      (front : Rendering (.expr (.front op.precedence) left) false ts)
      (sign : Token) (is_op : BinaryOp.ofKind? sign.kind = some op)
      (behind : Rendering (.expr (.behind op.precedence) right) cut us) :
      Rendering (.bare (.binary sign op left right)) cut (ts ++ sign :: us)
  | ifThen {test : Expr} {yes : Block} {cut : Bool} {ts us : List Token}
      (word : Token.Of .ifKw) (opening : Token.Of .openParen)
      (condition : Rendering (.expr (.behind Precedence.lowest) test) false ts)
      (closing : Token.Of .closeParen) (body : Rendering (.block yes) cut us) :
      Rendering (.bare (.ifThen word test yes)) cut
        (word.val :: opening.val :: (ts ++ closing.val :: us))
  | ifElse {test : Expr} {yes no : Block} {cut : Bool} {ts us vs : List Token}
      (word : Token.Of .ifKw) (opening : Token.Of .openParen)
      (condition : Rendering (.expr (.behind Precedence.lowest) test) false ts)
      (closing : Token.Of .closeParen) (body : Rendering (.block yes) false us)
      (other : Token.Of .elseKw) (otherBody : Rendering (.block no) cut vs) :
      Rendering (.bare (.ifElse word test yes no)) cut
        (word.val :: opening.val :: (ts ++ closing.val :: (us ++ other.val :: vs)))
  | whileDo {test : Expr} {turn : Block} {cut : Bool} {ts us : List Token}
      (word : Token.Of .whileKw) (opening : Token.Of .openParen)
      (condition : Rendering (.expr (.behind Precedence.lowest) test) false ts)
      (closing : Token.Of .closeParen) (body : Rendering (.block turn) cut us) :
      Rendering (.bare (.whileDo word test turn)) cut
        (word.val :: opening.val :: (ts ++ closing.val :: us))
  | function {params : List Ident} {code : Block} {cut : Bool} {ts us : List Token}
      (word : Token.Of .fnKw) (opening : Token.Of .openParen) (names : ParamList params ts)
      (closing : Token.Of .closeParen) (body : Rendering (.block code) cut us) :
      Rendering (.bare (.function word params code)) cut
        (word.val :: opening.val :: (ts ++ closing.val :: us))
  | call {callee : Expr} {args : List Expr} {ts us : List Token}
      (front : Rendering (.expr (.front Precedence.call) callee) false ts)
      (opening : Token.Of .openParen) (items : Rendering (.list args) false us)
      (closing : Token.Of .closeParen) :
      Rendering (.bare (.call opening callee args)) false
        (ts ++ opening.val :: (us ++ [closing.val]))
  | array {es : List Expr} {ts : List Token}
      (opening : Token.Of .openBracket) (items : Rendering (.list es) false ts)
      (closing : Token.Of .closeBracket) :
      Rendering (.bare (.array opening es)) false (opening.val :: (ts ++ [closing.val]))
  | hash {pairs : List (Expr × Expr)} {ts : List Token}
      (opening : Token.Of .openBrace) (items : Rendering (.entries pairs) false ts)
      (closing : Token.Of .closeBrace) :
      Rendering (.bare (.hash opening pairs)) false (opening.val :: (ts ++ [closing.val]))
  | index {target key : Expr} {ts us : List Token}
      (front : Rendering (.expr (.front Precedence.index) target) false ts)
      (opening : Token.Of .openBracket)
      (inner : Rendering (.expr (.behind Precedence.lowest) key) false us)
      (closing : Token.Of .closeBracket) :
      Rendering (.bare (.index opening target key)) false
        (ts ++ opening.val :: (us ++ [closing.val]))
  | plain {place : Place} {e : Expr} {cut : Bool} {ts : List Token}
      (admitted : place.Admits e) (inner : Rendering (.bare e) cut ts) :
      Rendering (.expr place e) cut ts
  | parens {place : Place} {e : Expr} {ts : List Token}
      (opening : Token.Of .openParen)
      (inner : Rendering (.expr (.behind Precedence.lowest) e) false ts)
      (closing : Token.Of .closeParen) :
      Rendering (.expr place e) false (opening.val :: (ts ++ [closing.val]))
  | listNil : Rendering (.list []) false []
  | listLast {e : Expr} {ts : List Token}
      (item : Rendering (.expr (.behind Precedence.lowest) e) false ts) :
      Rendering (.list [e]) false ts
  | listCons {e next : Expr} {es : List Expr} {ts us : List Token}
      (item : Rendering (.expr (.behind Precedence.lowest) e) false ts)
      (comma : Token.Of .comma) (rest : Rendering (.list (next :: es)) false us) :
      Rendering (.list (e :: next :: es)) false (ts ++ comma.val :: us)
  | entriesNil : Rendering (.entries []) false []
  | entriesLast {k v : Expr} {ts us : List Token}
      (key : Rendering (.expr (.behind Precedence.lowest) k) false ts) (colon : Token.Of .colon)
      (value : Rendering (.expr (.behind Precedence.lowest) v) false us) :
      Rendering (.entries [(k, v)]) false (ts ++ colon.val :: us)
  | entriesCons {k v : Expr} {pairs : List (Expr × Expr)} {ts us vs : List Token}
      (key : Rendering (.expr (.behind Precedence.lowest) k) false ts) (colon : Token.Of .colon)
      (value : Rendering (.expr (.behind Precedence.lowest) v) false us) (comma : Token.Of .comma)
      (rest : Rendering (.entries pairs) false vs) :
      Rendering (.entries ((k, v) :: pairs)) false
        (ts ++ colon.val :: (us ++ comma.val :: vs))
  | define {e : Expr} {cut : Bool} {ts : List Token}
      (word : Token.Of .letKw) (name : Token.Of .ident) (sign : Token.Of .assign)
      (value : Rendering (.expr (.behind Precedence.lowest) e) cut ts) :
      Rendering (.stmt (.define word ⟨name, name.val.text⟩ e)) cut
        (word.val :: name.val :: sign.val :: ts)
  | returnNothing (word : Token.Of .returnKw) :
      Rendering (.stmt (.returnNothing word)) false [word.val]
  | returnValue {e : Expr} {cut : Bool} {ts : List Token} (word : Token.Of .returnKw)
      (value : Rendering (.expr (.behind Precedence.lowest) e) cut ts) :
      Rendering (.stmt (.returnValue word e)) cut (word.val :: ts)
  | breakLoop (word : Token.Of .breakKw) :
      Rendering (.stmt (.breakLoop word)) false [word.val]
  | exprStmt {e : Expr} {cut : Bool} {first : Token} {ts : List Token}
      (value : Rendering (.expr (.behind Precedence.lowest) e) cut (first :: ts)) :
      Rendering (.stmt (.expr first e)) cut (first :: ts)
  | stmtsNil : Rendering (.stmts []) false []
  | semicolon {sts : List Stmt} {cut : Bool} {ts : List Token}
      (sign : Token.Of .semicolon) (rest : Rendering (.stmts sts) cut ts) :
      Rendering (.stmts sts) cut (sign.val :: ts)
  | stmtsCons {st : Stmt} {sts : List Stmt} {cut : Bool} {ts us : List Token}
      (head : Rendering (.stmt st) false ts) (rest : Rendering (.stmts sts) cut us)
      (apart : ∀ next ∈ us.head?, st.MayPrecede next.kind) :
      Rendering (.stmts (st :: sts)) cut (ts ++ us)
  | stmtsCut {st : Stmt} {ts : List Token} (head : Rendering (.stmt st) true ts) :
      Rendering (.stmts [st]) true ts
  | block {sts : List Stmt} {ts : List Token}
      (opening : Token.Of .openBrace) (body : Rendering (.stmts sts) false ts)
      (closing : Token.Of .closeBrace) :
      Rendering (.block (.mk opening sts)) false (opening.val :: (ts ++ [closing.val]))
  | blockCut {sts : List Stmt} {cut : Bool} {ts : List Token}
      (opening : Token.Of .openBrace) (body : Rendering (.stmts sts) cut ts) :
      Rendering (.block (.mk opening sts)) true (opening.val :: ts)

namespace Rendering

variable {part : Part} {cut : Bool} {ts : List Token}

/-- How many expressions lie inside each other at most. What stands in front of an operator belongs
to the expression of the operator itself. -/
@[simp] def nesting : ∀ {part : Part} {cut : Bool} {ts : List Token}, Rendering part cut ts → Nat
  | _, _, _, .ident .. | _, _, _, .int .. | _, _, _, .str .. => 1
  | _, _, _, .trueWord .. | _, _, _, .falseWord .. => 1
  | _, _, _, .unary _ _ operand => operand.nesting + 1
  | _, _, _, .binary front _ _ behind => max front.nesting (behind.nesting + 1)
  | _, _, _, .ifThen _ _ condition _ body => max condition.nesting body.nesting + 1
  | _, _, _, .ifElse _ _ condition _ body _ otherBody =>
    max condition.nesting (max body.nesting otherBody.nesting) + 1
  | _, _, _, .whileDo _ _ condition _ body => max condition.nesting body.nesting + 1
  | _, _, _, .function _ _ _ _ body => body.nesting + 1
  | _, _, _, .call front _ items _ => max front.nesting (items.nesting + 1)
  | _, _, _, .array _ items _ => items.nesting + 1
  | _, _, _, .hash _ items _ => items.nesting + 1
  | _, _, _, .index front _ inner _ => max front.nesting (inner.nesting + 1)
  | _, _, _, .plain _ inner => inner.nesting
  | _, _, _, .parens _ inner _ => inner.nesting + 1
  | _, _, _, .listNil => 0
  | _, _, _, .listLast item => item.nesting
  | _, _, _, .listCons item _ rest => max item.nesting rest.nesting
  | _, _, _, .entriesNil => 0
  | _, _, _, .entriesLast key _ value => max key.nesting value.nesting
  | _, _, _, .entriesCons key _ value _ rest => max (max key.nesting value.nesting) rest.nesting
  | _, _, _, .define _ _ _ value => value.nesting
  | _, _, _, .returnNothing _ => 0
  | _, _, _, .returnValue _ value => value.nesting
  | _, _, _, .breakLoop _ => 0
  | _, _, _, .exprStmt value => value.nesting
  | _, _, _, .stmtsNil => 0
  | _, _, _, .semicolon _ rest => rest.nesting
  | _, _, _, .stmtsCons head rest _ => max head.nesting rest.nesting
  | _, _, _, .stmtsCut head => head.nesting
  | _, _, _, .block _ body _ => body.nesting
  | _, _, _, .blockCut _ body => body.nesting

/-- The first token of an expression belongs to an operand. -/
theorem head_expr (r : Rendering part cut ts) (whole : part.isExpr = true) :
    ∃ first rest, ts = first :: rest ∧ first.kind.startsExpr = true := by
  induction r with
  | ident name => exact ⟨_, _, rfl, by rw [name.property]; rfl⟩
  | int digits => exact ⟨_, _, rfl, by rw [digits.property]; rfl⟩
  | str text => exact ⟨_, _, rfl, by rw [text.property]; rfl⟩
  | trueWord word => exact ⟨_, _, rfl, by rw [word.property]; rfl⟩
  | falseWord word => exact ⟨_, _, rfl, by rw [word.property]; rfl⟩
  | unary sign is_op =>
      refine ⟨_, _, rfl, ?_⟩
      revert is_op
      cases sign.kind <;> intro is_op <;> first | rfl | cases is_op
  | binary _ _ _ _ ih =>
      rcases ih rfl with ⟨first, rest, rfl, hfirst⟩
      exact ⟨first, _, rfl, hfirst⟩
  | ifThen word => exact ⟨_, _, rfl, by rw [word.property]; rfl⟩
  | ifElse word => exact ⟨_, _, rfl, by rw [word.property]; rfl⟩
  | whileDo word => exact ⟨_, _, rfl, by rw [word.property]; rfl⟩
  | function word => exact ⟨_, _, rfl, by rw [word.property]; rfl⟩
  | call _ _ _ _ ih =>
      rcases ih rfl with ⟨first, rest, rfl, hfirst⟩
      exact ⟨first, _, rfl, hfirst⟩
  | array opening => exact ⟨_, _, rfl, by rw [opening.property]; rfl⟩
  | hash opening => exact ⟨_, _, rfl, by rw [opening.property]; rfl⟩
  | index _ _ _ _ ih =>
      rcases ih rfl with ⟨first, rest, rfl, hfirst⟩
      exact ⟨first, _, rfl, hfirst⟩
  | plain _ _ ih => exact ih rfl
  | parens opening => exact ⟨_, _, rfl, by rw [opening.property]; rfl⟩
  | _ => cases whole

/-- The first token of a statement. -/
theorem head_stmt {st : Stmt} (r : Rendering (.stmt st) cut ts) :
    ∃ first rest, ts = first :: rest ∧ first.kind.startsStmt = true := by
  cases r with
  | define word => exact ⟨_, _, rfl, by rw [word.property]; rfl⟩
  | returnNothing word => exact ⟨_, _, rfl, by rw [word.property]; rfl⟩
  | returnValue word => exact ⟨_, _, rfl, by rw [word.property]; rfl⟩
  | breakLoop word => exact ⟨_, _, rfl, by rw [word.property]; rfl⟩
  | exprStmt value =>
      rcases value.head_expr rfl with ⟨first, rest, heq, hfirst⟩
      obtain ⟨rfl, rfl⟩ := List.cons.inj heq
      refine ⟨_, _, rfl, ?_⟩
      unfold Token.Kind.startsStmt
      split <;> first | rfl | exact hfirst

/-- The first token of statements in a row. -/
theorem head_stmts {sts : List Stmt} (r : Rendering (.stmts sts) cut ts) :
    ∀ first ∈ ts.head?, first.kind = .semicolon ∨ first.kind.startsStmt = true := by
  intro first hfirst
  cases r with
  | stmtsNil => cases hfirst
  | semicolon sign =>
      cases hfirst
      exact .inl sign.property
  | stmtsCons head =>
      rcases head.head_stmt with ⟨token, rest, rfl, hstarts⟩
      cases hfirst
      exact .inr hstarts
  | stmtsCut head =>
      rcases head.head_stmt with ⟨token, rest, rfl, hstarts⟩
      cases hfirst
      exact .inr hstarts

/-- The first token of a list in brackets. -/
theorem head_list {es : List Expr} (r : Rendering (.list es) cut ts) : ListHead es ts := by
  cases r with
  | listNil => exact .inl ⟨rfl, rfl⟩
  | listLast item => exact .inr ⟨List.cons_ne_nil _ _, item.head_expr rfl⟩
  | listCons item =>
      rcases item.head_expr rfl with ⟨first, rest, rfl, hfirst⟩
      exact .inr ⟨List.cons_ne_nil _ _, first, _, rfl, hfirst⟩

/-- The first token of a block. -/
theorem head_block {b : Block} (r : Rendering (.block b) cut ts) :
    ∃ (opening : Token.Of .openBrace) (rest : List Token), ts = opening.val :: rest := by
  cases r with
  | block opening => exact ⟨opening, _, rfl⟩
  | blockCut opening => exact ⟨opening, _, rfl⟩

/-- Every expression lies inside itself. -/
theorem one_le_nesting (r : Rendering part cut ts) (whole : part.isExpr = true) :
    1 ≤ r.nesting := by
  induction r with
  | binary _ _ _ _ ih => exact Nat.le_trans (ih rfl) (Nat.le_max_left _ _)
  | call _ _ _ _ ih => exact Nat.le_trans (ih rfl) (Nat.le_max_left _ _)
  | index _ _ _ _ ih => exact Nat.le_trans (ih rfl) (Nat.le_max_left _ _)
  | plain _ _ ih => exact ih rfl
  | _ => first | exact Nat.le_add_left _ _ | cases whole

/-- What cannot be read has no rendering. -/
theorem hasBad_eq_false (r : Rendering part cut ts) : part.hasBad = false := by
  induction r with
  | unary _ _ _ ih | function _ _ _ _ _ ih | array _ _ _ ih | hash _ _ _ ih | plain _ _ ih
  | parens _ _ _ ih | define _ _ _ _ ih | returnValue _ _ ih | exprStmt _ ih | semicolon _ _ ih
  | block _ _ _ ih | blockCut _ _ ih => exact ih
  | binary _ _ _ _ ihfirst ihlater | ifThen _ _ _ _ _ ihfirst ihlater
  | whileDo _ _ _ _ _ ihfirst ihlater | call _ _ _ _ ihfirst ihlater
  | index _ _ _ _ ihfirst ihlater | listCons _ _ _ ihfirst ihlater
  | stmtsCons _ _ _ ihfirst ihlater =>
      exact Bool.or_eq_false_iff.2 ⟨ihfirst, ihlater⟩
  | ifElse _ _ _ _ _ _ _ ihtest ihbody ihother =>
      exact Bool.or_eq_false_iff.2 ⟨Bool.or_eq_false_iff.2 ⟨ihtest, ihbody⟩, ihother⟩
  | listLast _ ih | stmtsCut _ ih => exact Bool.or_eq_false_iff.2 ⟨ih, rfl⟩
  | entriesLast _ _ _ ihkey ihvalue =>
      exact Bool.or_eq_false_iff.2 ⟨Bool.or_eq_false_iff.2 ⟨ihkey, ihvalue⟩, rfl⟩
  | entriesCons _ _ _ _ _ ihkey ihvalue ihrest =>
      exact Bool.or_eq_false_iff.2 ⟨Bool.or_eq_false_iff.2 ⟨ihkey, ihvalue⟩, ihrest⟩
  | _ => rfl

end Rendering

/-- The renderings of an expression on its own, whatever tokens its nodes keep, with at most `n`
expressions inside each other. -/
def Expr.RenderedAs (e : Expr) (n : Nat) (ts : List Token) : Prop :=
  ∃ (e' : Expr) (r : Rendering (.expr (.behind Precedence.lowest) e') false ts),
    e'.SameTree e ∧ r.nesting ≤ n

end Scriptlet
