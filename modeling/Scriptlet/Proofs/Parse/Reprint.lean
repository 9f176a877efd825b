import Mathlib.Order.MinMax
import Scriptlet.Proofs.Parse.Joined
import Scriptlet.Proofs.Parse.Written
import Scriptlet.Proofs.Token.Verbatim
import Scriptlet.Proofs.Tree.Text

/-!
# Reading the text of a program

The text of a program is a program: it has parentheses around every operator and index, semicolons
between statements and braces around blocks, so reading it gives the same tree.

- `Expr.Reread` : expressions whose text is read as they are
- `Rendering.reread` : everything that is rendered by the tokens of a source text
- `parse_render` : programs
-/

namespace Scriptlet

open Text Parse

/-! ## Expressions -/

/-- A token of a source text is read from its own text at every place. -/
theorem Token.Verbatim.spelled_of {kind : Token.Kind} {t : Token.Of kind} (h : t.val.Verbatim)
    (pos : Pos) : Spelled pos t.val.text.toList [⟨kind, t.val.text, pos⟩] := by
  have hspelled := h pos
  rw [t.property] at hspelled
  exact hspelled

/-- A sign in front of its operand. -/
theorem spelled_unary {op : UnaryOp} {kind : Token.Kind} (is_op : UnaryOp.ofKind? kind = some op)
    {pos : Pos} {cs : List Char} {first : Token} {ts : List Token}
    (h : Spelled (pos.afterAll op.symbol.toList) cs (first :: ts))
    (starts : first.kind.startsExpr = true) :
    Spelled pos (op.symbol.toList ++ cs) (⟨kind, op.symbol, pos⟩ :: first :: ts) := by
  cases kind <;> cases is_op
  · exact h.sign rfl
  · exact h.sign rfl
  · exact h.bang (h.head_ne_equals (Token.Kind.ne_of_startsExpr starts rfl)
      (Token.Kind.ne_of_startsExpr starts rfl))

namespace Expr

/-- The text of an expression is read as that expression, whatever stands around it. -/
def Reread (e : Expr) : Prop :=
  ∀ place pos, ∃ e' ts, Written e.textDepth (.expr place e') pos e.render.toList ts ∧ e'.Alike e

/-- The text of an expression has parentheses around it, and what stands between them is read as
that expression. -/
def RereadInside (e : Expr) : Prop :=
  ∃ n cs, e.textDepth = n + 1 ∧ e.render.toList = '(' :: (cs ++ [')']) ∧
    ∀ pos, ∃ e' ts, Written n (.whole e') pos cs ts ∧ e'.Alike e

variable {e left right : Expr} {t : Token}

/-- What is read again inside parentheses is so with them. -/
theorem RereadInside.reread (h : e.RereadInside) : e.Reread := by
  rcases h with ⟨n, cs, hdepth, htext, hinside⟩
  intro place pos
  rcases hinside (pos.after '(') with ⟨e', ts, hwritten, halike⟩
  rcases hwritten.parens place with ⟨us, hparens⟩
  rw [hdepth, htext]
  exact ⟨e', us, hparens, halike⟩

/-- An expression that needs no parentheses anywhere. -/
theorem reread_of_bare
    (h : ∀ pos, ∃ e' ts, e'.isOperation = false ∧
      Written e.textDepth (.bare e') pos e.render.toList ts ∧ e'.Alike e) : e.Reread := by
  intro place pos
  rcases h pos with ⟨e', ts, hoperand, hwritten, halike⟩
  exact ⟨e', ts, hwritten.plain (Place.admits_of_isOperation_eq_false hoperand place), halike⟩

/-! ### Operands of one token -/

/-- An operand that is read from its own token alone, wherever that stands. -/
theorem reread_of_token {kind : Token.Kind} (word : Token.Of kind) (verbatim : word.val.Verbatim)
    (text : e.render = word.val.text) (depth : e.textDepth = 1)
    (read : ∀ pos, ∃ e' : Expr, e'.isOperation = false ∧
      Renders 1 (.bare e') false [⟨kind, word.val.text, pos⟩] ∧ e'.Alike e) : e.Reread := by
  refine reread_of_bare fun pos => ?_
  rcases read pos with ⟨e', hoperand, hrenders, halike⟩
  rw [depth, text]
  exact ⟨e', _, hoperand, ⟨verbatim.spelled_of pos, hrenders⟩, halike⟩

/-- A name is read again. -/
theorem reread_ident (name : Token.Of .ident) (verbatim : name.val.Verbatim) :
    (Expr.ident ⟨name, name.val.text⟩).Reread := by
  refine reread_of_token name verbatim rfl rfl fun pos => ?_
  let name' : Token.Of .ident := ⟨⟨.ident, name.val.text, pos⟩, rfl⟩
  exact ⟨_, rfl, ⟨.ident name', Nat.le_refl 1⟩, rfl, rfl⟩

/-- A number is read again from its own digits. -/
theorem reread_int (digits : Token.Of .int) (verbatim : digits.val.Verbatim) {value : Int64}
    (numeral : Numeral digits.val.text value) : (Expr.int digits value).Reread := by
  refine reread_of_token digits verbatim rfl rfl fun pos => ?_
  let digits' : Token.Of .int := ⟨⟨.int, digits.val.text, pos⟩, rfl⟩
  exact ⟨_, rfl, ⟨.int digits' value numeral, Nat.le_refl 1⟩, rfl, rfl⟩

theorem reread_true (word : Token.Of .trueKw) (verbatim : word.val.Verbatim) :
    (Expr.bool word true).Reread := by
  refine reread_of_token word verbatim rfl rfl fun pos => ?_
  let word' : Token.Of .trueKw := ⟨⟨.trueKw, word.val.text, pos⟩, rfl⟩
  exact ⟨_, rfl, ⟨.trueWord word', Nat.le_refl 1⟩, rfl, rfl⟩

theorem reread_false (word : Token.Of .falseKw) (verbatim : word.val.Verbatim) :
    (Expr.bool word false).Reread := by
  refine reread_of_token word verbatim rfl rfl fun pos => ?_
  let word' : Token.Of .falseKw := ⟨⟨.falseKw, word.val.text, pos⟩, rfl⟩
  exact ⟨_, rfl, ⟨.falseWord word', Nat.le_refl 1⟩, rfl, rfl⟩

/-- A string without quotes and backslashes is read again. -/
theorem reread_str {value : String} (plain : (Expr.str t value).isPlain = true) :
    (Expr.str t value).Reread := by
  refine reread_of_bare fun pos => ?_
  have hplain : ∀ c ∈ value.toList, c ≠ '"' ∧ c ≠ '\\' := by
    intro c hc
    have hboth := List.all_eq_true.1 plain c hc
    rw [Bool.and_eq_true, bne_iff_ne, bne_iff_ne] at hboth
    exact hboth
  have htext : (Expr.str t value).render.toList = '"' :: (value.toList ++ ['"']) := by
    rw [Expr.render, String.toList_append, String.toList_append]
    rfl
  let text : Token.Of .str := ⟨⟨.str, value, pos⟩, rfl⟩
  refine ⟨_, [text.val], rfl, ⟨?_, .str text, Nat.le_refl 1⟩, rfl, rfl⟩
  rw [htext]
  exact (Lexeme.whole_str hplain).spelled (by decide) pos

/-! ### Operators -/

/-- A unary expression is read again if its operand is. -/
theorem rereadInside_unary {op : UnaryOp} {kind : Token.Kind}
    (is_op : UnaryOp.ofKind? kind = some op) (h : e.Reread) :
    (Expr.unary t op e).RereadInside := by
  refine ⟨e.textDepth + 1, op.symbol.toList ++ e.render.toList, rfl, ?_, ?_⟩
  · simp [Expr.render]
  · intro pos
    rcases h (.behind Precedence.unary) (pos.afterAll op.symbol.toList) with
      ⟨e', ts, ⟨hspelled, r, hr⟩, halike⟩
    rcases r.head_expr rfl with ⟨first, rest, rfl, hfirst⟩
    let sign : Token := ⟨kind, op.symbol, pos⟩
    exact ⟨.unary sign op e', sign :: first :: rest, ⟨spelled_unary is_op hspelled hfirst,
      .plain trivial (.unary sign is_op r), Nat.succ_le_succ hr⟩, halike.unary t sign op⟩

/-- A binary expression is read again if both operands are. -/
theorem rereadInside_binary {op : BinaryOp} {kind : Token.Kind}
    (is_op : BinaryOp.ofKind? kind = some op) (hl : left.Reread) (hr : right.Reread) :
    (Expr.binary t op left right).RereadInside := by
  refine ⟨max left.textDepth (right.textDepth + 1),
    left.render.toList ++ ' ' :: (op.symbol.toList ++ ' ' :: right.render.toList), ?_, ?_, ?_⟩
  · rw [Expr.textDepth]
    omega
  · simp [Expr.render]
  · intro pos
    let here := (pos.afterAll left.render.toList).after ' '
    rcases hl (.front op.precedence) pos with ⟨left', ts, ⟨hspelled, r, hsmall⟩, halike⟩
    rcases hr (.behind op.precedence) ((here.afterAll op.symbol.toList).after ' ') with
      ⟨right', us, ⟨hspelled', r', hsmall'⟩, halike'⟩
    let sign : Token := ⟨kind, op.symbol, here⟩
    -- An operator binds more tightly than the parentheses around it.
    have hbinds : Precedence.lowest < op.precedence := by
      cases kind <;> cases is_op <;> decide
    refine ⟨.binary sign op left' right', ts ++ sign :: us, ⟨?_, ?_⟩, halike.binary t sign op halike'⟩
    · exact hspelled.append_blank ((spelled_binary is_op here).append_blank hspelled')
    · refine ⟨.plain hbinds (.binary r sign is_op r'), ?_⟩
      exact max_le_max hsmall (Nat.succ_le_succ hsmall')

/-- An index is read again if both parts are. -/
theorem rereadInside_index (hl : left.Reread) (hr : right.Reread) :
    (Expr.index t left right).RereadInside := by
  refine ⟨max left.textDepth (right.textDepth + 1),
    left.render.toList ++ '[' :: (right.render.toList ++ [']']), ?_, ?_, ?_⟩
  · rw [Expr.textDepth]
    omega
  · simp [Expr.render]
  · intro pos
    let here := pos.afterAll left.render.toList
    rcases hl (.front Precedence.index) pos with ⟨left', ts, ⟨hspelled, r, hsmall⟩, halike⟩
    rcases hr (.behind Precedence.lowest) (here.after '[') with
      ⟨right', us, ⟨hspelled', r', hsmall'⟩, halike'⟩
    let opening : Token.Of .openBracket := ⟨⟨.openBracket, "[", here⟩, rfl⟩
    let closing : Token.Of .closeBracket :=
      ⟨⟨.closeBracket, "]", (here.after '[').afterAll right.render.toList⟩, rfl⟩
    refine ⟨.index opening left' right', ts ++ opening.val :: (us ++ [closing.val]), ⟨?_, ?_⟩,
      halike.index t opening halike'⟩
    · exact hspelled.append_sign rfl (hspelled'.append_sign rfl (.nil _))
    · refine ⟨.plain trivial (.index r opening r' closing), ?_⟩
      exact max_le_max hsmall (Nat.succ_le_succ hsmall')

end Expr

/-! ## Lists -/

section Lists

variable {es : List Expr} {pairs : List (Expr × Expr)} {t : Token}

/-- So are expressions with commas between them. -/
theorem exprs_reread (h : ∀ e ∈ es, e.Reread) (pos : Pos) :
    ∃ es' ts, Written (exprsTextDepth es) (.list es') pos
      (", ".intercalate (renderExprs es)).toList ts ∧ List.Forall₂ Expr.Alike es' es := by
  induction es generalizing pos with
  | nil => exact ⟨[], [], .list_nil pos, .nil⟩
  | cons e rest ih =>
      rw [List.forall_mem_cons] at h
      rcases h.1 (.behind Precedence.lowest) pos with ⟨e', ts, hwritten, halike⟩
      have hfirst := hwritten.mono (Nat.le_max_left e.textDepth (exprsTextDepth rest))
      cases rest with
      | nil =>
          rw [renderExprs, renderExprs, String.intercalate_singleton]
          exact ⟨[e'], ts, hfirst.list_last, .cons halike .nil⟩
      | cons next rest =>
          rcases ih h.2 (((pos.afterAll e.render.toList).after ',').after ' ') with
            ⟨es', us, hrest, hall⟩
          have hmore := hrest.mono (Nat.le_max_right e.textDepth (exprsTextDepth (next :: rest)))
          cases hall with
          | @cons next' _ es' _ hnext hothers =>
              rcases hfirst.list_cons hmore with ⟨vs, hlist⟩
              rw [renderExprs, renderExprs, toList_intercalate_cons_cons, ← renderExprs]
              exact ⟨e' :: next' :: es', vs, hlist, .cons halike (.cons hnext hothers)⟩

/-- So are the entries of a hash literal. -/
theorem pairs_reread (h : ∀ pair ∈ pairs, pair.1.Reread ∧ pair.2.Reread) (pos : Pos) :
    ∃ pairs' ts, Written (pairsTextDepth pairs) (.entries pairs') pos
      (", ".intercalate (renderPairs pairs)).toList ts ∧
        List.Forall₂ PairAlike pairs' pairs := by
  induction pairs generalizing pos with
  | nil => exact ⟨[], [], .entries_nil pos, .nil⟩
  | cons pair rest ih =>
      rcases pair with ⟨k, v⟩
      rw [List.forall_mem_cons] at h
      have hpair : (renderPair (k, v)).toList = k.render.toList ++ ':' :: ' ' :: v.render.toList := by
        rw [renderPair, String.toList_append, String.toList_append, List.append_assoc]
        rfl
      let behind := ((pos.afterAll k.render.toList).after ':').after ' '
      rcases h.1.1 (.behind Precedence.lowest) pos with ⟨k', ts, hk, hkey⟩
      rcases h.1.2 (.behind Precedence.lowest) behind with ⟨v', us, hv, hvalue⟩
      -- The depth of the whole list covers the key and the value of its first pair.
      have hle : max k.textDepth v.textDepth ≤ pairsTextDepth ((k, v) :: rest) :=
        Nat.le_max_left _ _
      have hk' := hk.mono (Nat.le_trans (Nat.le_max_left _ _) hle)
      have hv' := hv.mono (Nat.le_trans (Nat.le_max_right _ _) hle)
      cases rest with
      | nil =>
          rcases hk'.entries_last hv' with ⟨vs, hentry⟩
          rw [renderPairs, renderPairs, String.intercalate_singleton, hpair]
          exact ⟨[(k', v')], vs, hentry, .cons ⟨hkey, hvalue⟩ .nil⟩
      | cons next rest =>
          rcases ih h.2 (((behind.afterAll v.render.toList).after ',').after ' ') with
            ⟨pairs', vs, hrest, hall⟩
          have hmore := hrest.mono
            (Nat.le_max_right (pairTextDepth (k, v)) (pairsTextDepth (next :: rest)))
          rcases hk'.entries_cons rfl hv' hmore with ⟨ws, hentries⟩
          rw [renderPairs, renderPairs, toList_intercalate_cons_cons, ← renderPairs, hpair,
            List.append_assoc]
          exact ⟨(k', v') :: pairs', ws, hentries, .cons ⟨hkey, hvalue⟩ hall⟩

/-- An array literal is read again if its items are. -/
theorem reread_array (h : ∀ e ∈ es, e.Reread) : (Expr.array t es).Reread := by
  refine Expr.reread_of_bare fun pos => ?_
  rcases exprs_reread h (pos.after '[') with ⟨es', ts, hlist, hall⟩
  rcases hlist.array with ⟨us, hwritten⟩
  rw [Expr.render, String.toList_append, String.toList_append]
  exact ⟨_, us, rfl, hwritten, .array t _ hall⟩

/-- A hash literal is read again if its keys and values are. -/
theorem reread_hash (h : ∀ pair ∈ pairs, pair.1.Reread ∧ pair.2.Reread) :
    (Expr.hash t pairs).Reread := by
  refine Expr.reread_of_bare fun pos => ?_
  rcases pairs_reread h (pos.after '\x7b') with ⟨pairs', ts, hlist, hall⟩
  rcases hlist.hash with ⟨us, hwritten⟩
  rw [Expr.render, String.toList_append, String.toList_append]
  exact ⟨_, us, rfl, hwritten, .hash t _ hall⟩

/-- A call is read again if the callee and the arguments are. -/
theorem reread_call {callee : Expr} (hcallee : callee.Reread) (h : ∀ e ∈ es, e.Reread) :
    (Expr.call t callee es).Reread := by
  refine Expr.reread_of_bare fun pos => ?_
  let here := pos.afterAll callee.render.toList
  rcases hcallee (.front Precedence.call) pos with ⟨callee', ts, ⟨hspelled, r, hr⟩, halike⟩
  rcases exprs_reread h (here.after '(') with ⟨es', us, ⟨hspelled', r', hr'⟩, hall⟩
  let opening : Token.Of .openParen := ⟨⟨.openParen, "(", here⟩, rfl⟩
  let closing : Token.Of .closeParen :=
    ⟨⟨.closeParen, ")", (here.after '(').afterAll (", ".intercalate (renderExprs es)).toList⟩, rfl⟩
  refine ⟨.call opening callee' es', ts ++ opening.val :: (us ++ [closing.val]), rfl, ⟨?_, ?_⟩,
    halike.call t opening hall⟩
  · simp only [Expr.render, String.toList_append, List.append_assoc]
    exact hspelled.append_sign rfl (hspelled'.append_sign rfl (.nil _))
  · exact ⟨.call r opening r' closing, max_le_max hr (Nat.succ_le_succ hr')⟩

end Lists

/-! ## Statements and blocks -/

def Stmt.Reread (st : Stmt) : Prop :=
  ∀ pos, ∃ st' ts, Written st.textDepth (.stmt st') pos st.render.toList ts ∧ st'.Alike st

def Block.Reread (b : Block) : Prop :=
  ∀ pos, ∃ b' ts, Written b.textDepth (.block b') pos b.render.toList ts ∧ b'.Alike b

/-- Statements with semicolons between them are read again if each of them is. -/
theorem stmts_reread {sts : List Stmt} (h : ∀ st ∈ sts, st.Reread) (pos : Pos) :
    ∃ sts' ts, Written (stmtsTextDepth sts) (.stmts sts') pos
      ("; ".intercalate (renderStmts sts)).toList ts ∧ List.Forall₂ Stmt.Alike sts' sts := by
  induction sts generalizing pos with
  | nil => exact ⟨[], [], ⟨.nil pos, .stmtsNil, Nat.le_refl 0⟩, .nil⟩
  | cons st rest ih =>
      rw [List.forall_mem_cons] at h
      rcases h.1 pos with ⟨st', ts, ⟨hspelled, r, hr⟩, halike⟩
      cases rest with
      | nil =>
          have hlast : ∀ next ∈ ([] : List Token).head?, st'.MayPrecede next.kind := by
            intro next hnext
            cases hnext
          rw [renderStmts, renderStmts, String.intercalate_singleton]
          refine ⟨[st'], ts ++ [], ⟨?_, .stmtsCons r .stmtsNil hlast, ?_⟩, .cons halike .nil⟩
          · rw [List.append_nil]
            exact hspelled
          · exact max_le_max hr (Nat.le_refl 0)
      | cons next rest =>
          let here := pos.afterAll st.render.toList
          rcases ih h.2 ((here.after ';').after ' ') with
            ⟨sts', us, ⟨hspelled', r', hr'⟩, hall⟩
          let sign : Token.Of .semicolon := ⟨⟨.semicolon, ";", here⟩, rfl⟩
          have hapart : ∀ next ∈ (sign.val :: us).head?, st'.MayPrecede next.kind := by
            intro next hnext
            cases hnext
            exact st'.mayPrecede_semicolon
          rw [renderStmts, renderStmts, toList_intercalate_cons_cons, ← renderStmts]
          exact ⟨st' :: sts', ts ++ sign.val :: us, ⟨hspelled.append_sign rfl hspelled'.blank,
            .stmtsCons r (.semicolon sign r') hapart, max_le_max hr hr'⟩, .cons halike hall⟩

theorem Block.reread_mk {sts : List Stmt} (t : Token) (h : ∀ st ∈ sts, st.Reread) :
    (Block.mk t sts).Reread := by
  intro pos
  let here := (pos.after '\x7b').after ' '
  rcases stmts_reread h here with ⟨sts', ts, ⟨hspelled, r, hr⟩, hall⟩
  let opening : Token.Of .openBrace := ⟨⟨.openBrace, "\x7b", pos⟩, rfl⟩
  let close := (here.afterAll ("; ".intercalate (renderStmts sts)).toList).after ' '
  let closing : Token.Of .closeBrace := ⟨⟨.closeBrace, "\x7d", close⟩, rfl⟩
  have hclosing : Spelled close ['\x7d'] [closing.val] := (Spelled.nil _).sign rfl
  refine ⟨.mk opening sts', opening.val :: (ts ++ [closing.val]), ⟨?_, ?_⟩,
    Block.alike_mk t _ hall⟩
  · rw [Block.render, String.toList_append, String.toList_append, List.append_assoc]
    exact (hspelled.append_blank hclosing).blank.sign rfl
  · exact ⟨.block opening r closing, hr⟩

/-! ## Tests and bodies -/

section Tests

variable {test : Expr} {yes no : Block} {t : Token}

/-- A word and a test, whose own parentheses are those that a test must have, in front of a text. -/
theorem Expr.RereadInside.exists_guard (h : test.RereadInside) {word : String} {kind : Token.Kind}
    (mem : (word, kind) ∈ Token.Kind.keywords) (pos : Pos) :
    ∃ (n : Nat) (behind : Pos) (test' : Expr) (ts : List Token) (opening : Token.Of .openParen)
      (closing : Token.Of .closeParen), test.textDepth = n + 1 ∧ test'.Alike test ∧
        Renders n (.whole test') false ts ∧ ∀ ds us, Spelled behind ds us →
          Spelled pos (word.toList ++ ' ' :: (test.render.toList ++ ' ' :: ds))
            (⟨kind, word, pos⟩ :: opening.val :: (ts ++ closing.val :: us)) := by
  rcases h with ⟨n, cs, hdepth, htext, hinside⟩
  let here := (pos.afterAll word.toList).after ' '
  let behind := (here.after '(').afterAll cs
  rcases hinside (here.after '(') with ⟨test', ts, ⟨hspelled, hrenders⟩, halike⟩
  refine ⟨n, (behind.after ')').after ' ', test', ts, ⟨⟨.openParen, "(", here⟩, rfl⟩,
    ⟨⟨.closeParen, ")", behind⟩, rfl⟩, hdepth, halike, hrenders, ?_⟩
  intro ds us tail
  rw [htext, List.cons_append, List.append_assoc, List.singleton_append]
  exact (spelled_keyword mem pos).append_blank ((hspelled.append_sign rfl tail.blank).sign rfl)

/-- A conditional is read again, its condition in parentheses of its own. -/
theorem reread_ifThen (htest : test.RereadInside) (hyes : yes.Reread) :
    (Expr.ifThen t test yes).Reread := by
  refine Expr.reread_of_bare fun pos => ?_
  rcases htest.exists_guard (by decide : ("if", .ifKw) ∈ Token.Kind.keywords) pos with
    ⟨n, behind, test', ts, opening, closing, hdepth, halike, ⟨r, hr⟩, hguard⟩
  rcases hyes behind with ⟨yes', us, ⟨hspelled, r', hr'⟩, halike'⟩
  let word : Token.Of .ifKw := ⟨⟨.ifKw, "if", pos⟩, rfl⟩
  have hrender : (Expr.ifThen t test yes).render.toList =
      "if".toList ++ ' ' :: (test.render.toList ++ ' ' :: yes.render.toList) := by
    simp [Expr.render]
  rw [hrender]
  refine ⟨.ifThen word test' yes', _, rfl, ⟨hguard _ us hspelled,
    .ifThen word opening r closing r', ?_⟩, halike.ifThen t word halike'⟩
  rw [Expr.textDepth, hdepth, Nat.add_max_add_right]
  exact Nat.succ_le_succ (max_le_max hr hr')

theorem reread_ifElse (htest : test.RereadInside) (hyes : yes.Reread) (hno : no.Reread) :
    (Expr.ifElse t test yes no).Reread := by
  refine Expr.reread_of_bare fun pos => ?_
  rcases htest.exists_guard (by decide : ("if", .ifKw) ∈ Token.Kind.keywords) pos with
    ⟨n, behind, test', ts, opening, closing, hdepth, halike, ⟨r, hr⟩, hguard⟩
  rcases hyes behind with ⟨yes', us, ⟨hspelled, r', hr'⟩, halike'⟩
  let between := (behind.afterAll yes.render.toList).after ' '
  rcases hno ((between.afterAll "else".toList).after ' ') with
    ⟨no', vs, ⟨hspelled', r'', hr''⟩, halike''⟩
  let word : Token.Of .ifKw := ⟨⟨.ifKw, "if", pos⟩, rfl⟩
  let other : Token.Of .elseKw := ⟨⟨.elseKw, "else", between⟩, rfl⟩
  have hrender : (Expr.ifElse t test yes no).render.toList =
      "if".toList ++ ' ' :: (test.render.toList ++ ' ' ::
        (yes.render.toList ++ ' ' :: ("else".toList ++ ' ' :: no.render.toList))) := by
    simp [Expr.render]
  have hother := (spelled_keyword (by decide : ("else", .elseKw) ∈ Token.Kind.keywords)
    between).append_blank hspelled'
  rw [hrender]
  refine ⟨.ifElse word test' yes' no', _, rfl, ⟨hguard _ _ (hspelled.append_blank hother),
    .ifElse word opening r closing r' other r'', ?_⟩, halike.ifElse t word halike' halike''⟩
  rw [Expr.textDepth, hdepth, Nat.add_max_add_right]
  exact Nat.succ_le_succ (max_le_max hr (max_le_max hr' hr''))

/-- So is a loop. -/
theorem reread_whileDo (htest : test.RereadInside) (hbody : yes.Reread) :
    (Expr.whileDo t test yes).Reread := by
  refine Expr.reread_of_bare fun pos => ?_
  rcases htest.exists_guard (by decide : ("while", .whileKw) ∈ Token.Kind.keywords) pos with
    ⟨n, behind, test', ts, opening, closing, hdepth, halike, ⟨r, hr⟩, hguard⟩
  rcases hbody behind with ⟨body', us, ⟨hspelled, r', hr'⟩, halike'⟩
  let word : Token.Of .whileKw := ⟨⟨.whileKw, "while", pos⟩, rfl⟩
  have hrender : (Expr.whileDo t test yes).render.toList =
      "while".toList ++ ' ' :: (test.render.toList ++ ' ' :: yes.render.toList) := by
    simp [Expr.render]
  rw [hrender]
  refine ⟨.whileDo word test' body', _, rfl, ⟨hguard _ us hspelled,
    .whileDo word opening r closing r', ?_⟩, halike.whileDo t word halike'⟩
  rw [Expr.textDepth, hdepth, Nat.add_max_add_right]
  exact Nat.succ_le_succ (max_le_max hr hr')

end Tests

/-! ## Functions -/

/-- Parameter names that stand in the source as they are written are read again. -/
theorem ParamList.reread {params : List Ident} {ts : List Token} (h : ParamList params ts)
    (verbatim : ∀ t ∈ ts, t.kind.isVerbatim = true → t.Verbatim) (pos : Pos) :
    ∃ params' us, Spelled pos (renderParams params).toList us ∧ ParamList params' us ∧
      params'.map Ident.name = params.map Ident.name := by
  induction h generalizing pos with
  | nil => exact ⟨[], [], .nil pos, .nil, rfl⟩
  | last name =>
      have hname : name.val.Verbatim :=
        verbatim name List.mem_cons_self (by rw [name.property]; rfl)
      have hspelled := hname.spelled_of pos
      let name' : Token.Of .ident := ⟨⟨.ident, name.val.text, pos⟩, rfl⟩
      rw [renderParams, List.map_singleton, String.intercalate_singleton]
      exact ⟨[⟨name', name.val.text⟩], [name'.val], hspelled, .last name', rfl⟩
  | @cons name comma param params us _ ih =>
      rw [List.forall_mem_cons, List.forall_mem_cons] at verbatim
      have hname : name.val.Verbatim := verbatim.1 (by rw [name.property]; rfl)
      have hspelled := hname.spelled_of pos
      let here := pos.afterAll name.val.text.toList
      rcases ih verbatim.2.2 ((here.after ',').after ' ') with
        ⟨params', vs, hspelled', hlist, hnames⟩
      let name' : Token.Of .ident := ⟨⟨.ident, name.val.text, pos⟩, rfl⟩
      let comma' : Token.Of .comma := ⟨⟨.comma, ",", here⟩, rfl⟩
      cases params' with
      | nil => cases hnames
      | cons param' params' =>
          refine ⟨⟨name', name.val.text⟩ :: param' :: params', name'.val :: comma'.val :: vs, ?_,
            .cons name' comma' hlist, congrArg (name.val.text :: ·) hnames⟩
          rw [renderParams, List.map_cons, List.map_cons, toList_intercalate_cons_cons,
            ← List.map_cons, ← renderParams]
          exact hspelled.append_sign rfl hspelled'.blank

/-- A function literal is read again if its block is. -/
theorem reread_function {params : List Ident} {ts : List Token} {body : Block}
    (word : Token.Of .fnKw) (names : ParamList params ts)
    (verbatim : ∀ t ∈ word.val :: ts, t.kind.isVerbatim = true → t.Verbatim)
    (hbody : body.Reread) : (Expr.function word params body).Reread := by
  refine Expr.reread_of_bare fun pos => ?_
  rw [List.forall_mem_cons] at verbatim
  have hverbatim : word.val.Verbatim := verbatim.1 (by rw [word.property]; rfl)
  have hword := hverbatim.spelled_of pos
  let here := pos.afterAll word.val.text.toList
  let behind := (here.after '(').afterAll (renderParams params).toList
  rcases names.reread verbatim.2 (here.after '(') with ⟨params', us, hspelled, hlist, hnames⟩
  rcases hbody ((behind.after ')').after ' ') with ⟨body', vs, ⟨hspelled', r, hr⟩, halike⟩
  let word' : Token.Of .fnKw := ⟨⟨.fnKw, word.val.text, pos⟩, rfl⟩
  let opening : Token.Of .openParen := ⟨⟨.openParen, "(", here⟩, rfl⟩
  let closing : Token.Of .closeParen := ⟨⟨.closeParen, ")", behind⟩, rfl⟩
  refine ⟨.function word' params' body', word'.val :: opening.val :: (us ++ closing.val :: vs), rfl,
    ⟨?_, .function word' opening hlist closing r, Nat.succ_le_succ hr⟩,
    .function word word' rfl hnames halike⟩
  have hrender : (Expr.function word params body).render.toList = word.val.text.toList ++
      '(' :: ((renderParams params).toList ++ ')' :: ' ' :: body.render.toList) := by
    simp [Expr.render]
  rw [hrender]
  exact hword.append_sign rfl (hspelled.append_sign rfl hspelled'.blank)

/-! ## Single statements -/

namespace Stmt

variable {e : Expr}

/-- A definition is read again if its value is. -/
theorem reread_define (word : Token.Of .letKw) (name : Token.Of .ident)
    (verbatimWord : word.val.Verbatim) (verbatimName : name.val.Verbatim) (h : e.Reread) :
    (Stmt.define word ⟨name, name.val.text⟩ e).Reread := by
  intro pos
  have hword := verbatimWord.spelled_of pos
  let here := (pos.afterAll word.val.text.toList).after ' '
  have hname := verbatimName.spelled_of here
  let behind := (here.afterAll name.val.text.toList).after ' '
  rcases h (.behind Precedence.lowest) ((behind.after '=').after ' ') with
    ⟨e', ts, ⟨hspelled, r, hr⟩, halike⟩
  let word' : Token.Of .letKw := ⟨⟨.letKw, word.val.text, pos⟩, rfl⟩
  let name' : Token.Of .ident := ⟨⟨.ident, name.val.text, here⟩, rfl⟩
  let sign : Token.Of .assign := ⟨⟨.assign, "=", behind⟩, rfl⟩
  have hsign : Spelled behind ['='] [sign.val] :=
    Lexeme.Whole.spelled ⟨by decide, rfl⟩ (by decide) behind
  have hrender : (Stmt.define word ⟨name, name.val.text⟩ e).render.toList =
      word.val.text.toList ++ ' ' ::
        (name.val.text.toList ++ ' ' :: (['='] ++ ' ' :: e.render.toList)) := by
    simp [Stmt.render]
  rw [hrender]
  refine ⟨.define word' ⟨name', name.val.text⟩ e', word'.val :: name'.val :: sign.val :: ts,
    ⟨?_, .define word' name' sign r, hr⟩, congrArg (Stmt.define _ _) halike.tree, ?_⟩
  · exact hword.append_blank (hname.append_blank (hsign.append_blank hspelled))
  · rw [Stmt.render, Stmt.render, halike.text]

theorem reread_returnNothing (word : Token.Of .returnKw) (verbatim : word.val.Verbatim) :
    (Stmt.returnNothing word).Reread := by
  intro pos
  let word' : Token.Of .returnKw := ⟨⟨.returnKw, word.val.text, pos⟩, rfl⟩
  exact ⟨_, [word'.val], ⟨verbatim.spelled_of pos, .returnNothing word', Nat.le_refl 0⟩, rfl, rfl⟩

/-- A return is read again if its value is. -/
theorem reread_returnValue (word : Token.Of .returnKw) (verbatim : word.val.Verbatim)
    (h : e.Reread) : (Stmt.returnValue word e).Reread := by
  intro pos
  have hword := verbatim.spelled_of pos
  rcases h (.behind Precedence.lowest) ((pos.afterAll word.val.text.toList).after ' ') with
    ⟨e', ts, ⟨hspelled, r, hr⟩, halike⟩
  let word' : Token.Of .returnKw := ⟨⟨.returnKw, word.val.text, pos⟩, rfl⟩
  have hrender : (Stmt.returnValue word e).render.toList =
      word.val.text.toList ++ ' ' :: e.render.toList := by
    simp [Stmt.render]
  rw [hrender]
  refine ⟨.returnValue word' e', word'.val :: ts, ⟨hword.append_blank hspelled,
    .returnValue word' r, hr⟩, congrArg (Stmt.returnValue _) halike.tree, ?_⟩
  rw [Stmt.render, Stmt.render, halike.text]

theorem reread_breakLoop (word : Token.Of .breakKw) (verbatim : word.val.Verbatim) :
    (Stmt.breakLoop word).Reread := by
  intro pos
  let word' : Token.Of .breakKw := ⟨⟨.breakKw, word.val.text, pos⟩, rfl⟩
  exact ⟨_, [word'.val], ⟨verbatim.spelled_of pos, .breakLoop word', Nat.le_refl 0⟩, rfl, rfl⟩

theorem reread_expr (t : Token) (h : e.Reread) : (Stmt.expr t e).Reread := by
  intro pos
  rcases h (.behind Precedence.lowest) pos with ⟨e', ts, ⟨hspelled, r, hr⟩, halike⟩
  rcases r.head_expr rfl with ⟨first, rest, rfl, -⟩
  exact ⟨.expr first e', first :: rest, ⟨hspelled, .exprStmt r, hr⟩,
    congrArg (Stmt.expr _) halike.tree, halike.text⟩

end Stmt

/-! ## Everything that is rendered -/

namespace Part

def exprs : Part → List Expr
  | .bare e | .expr _ e => e :: e.inner
  | .list es => exprsInList es
  | .entries pairs => exprsInPairs pairs
  | .stmt st => st.exprs
  | .stmts sts => exprsInStmts sts
  | .block b => b.exprs

/-- The text of everything in a part is read as it is. -/
def Reread : Part → Prop
  | .bare e | .expr _ e => e.Reread ∧ (e.isEnclosed = true → e.RereadInside)
  | .list es => ∀ e ∈ es, e.Reread
  | .entries pairs => ∀ pair ∈ pairs, pair.1.Reread ∧ pair.2.Reread
  | .stmt st => st.Reread
  | .stmts sts => ∀ st ∈ sts, st.Reread
  | .block b => b.Reread

theorem reread_of_operand {e : Expr} (h : e.Reread) (bare : e.isEnclosed = false) :
    (Part.bare e).Reread := by
  refine ⟨h, ?_⟩
  intro enclosed
  rw [bare] at enclosed
  cases enclosed

theorem reread_of_inside {e : Expr} (h : e.RereadInside) : (Part.bare e).Reread :=
  ⟨h.reread, fun _ => h⟩

end Part

/-- What stands in a source text, without literals and tests that lose their meaning in the text of
the tree. -/
structure Legible (part : Part) (ts : List Token) : Prop where
  verbatim : ∀ t ∈ ts, t.kind.isVerbatim = true → t.Verbatim
  exprs : ∀ e ∈ part.exprs, e.isPlain = true ∧ e.isGuarded = true

namespace Legible

variable {part : Part} {ts : List Token}

/-- The tokens that are printed as they stand in the source are verbatim. -/
theorem token {kind : Token.Kind} (h : Legible part ts) (t : Token.Of kind) (mem : t.val ∈ ts)
    (verbatim : kind.isVerbatim = true) : t.val.Verbatim :=
  h.verbatim t mem (t.property.symm ▸ verbatim)

/-- Parts of what is legible are legible. -/
theorem mono {part' : Part} {ts' : List Token} (h : Legible part ts) (tokens : ∀ t ∈ ts', t ∈ ts)
    (inner : ∀ e ∈ part'.exprs, e ∈ part.exprs) : Legible part' ts' :=
  ⟨fun t ht => h.verbatim t (tokens t ht), fun e he => h.exprs e (inner e he)⟩

end Legible

/-- Every part that was read from legible tokens is read again from its text. -/
theorem Rendering.reread {part : Part} {cut : Bool} {ts : List Token} (r : Rendering part cut ts)
    (legible : Legible part ts) : part.Reread := by
  -- Every case hands the tokens and the expressions of its parts on to their renderings.
  induction r with
  | ident name =>
      exact Part.reread_of_operand
        (Expr.reread_ident name (legible.token name List.mem_cons_self rfl)) rfl
  | int digits value numeral =>
      exact Part.reread_of_operand
        (Expr.reread_int digits (legible.token digits List.mem_cons_self rfl) numeral) rfl
  | str text =>
      exact Part.reread_of_operand
        (Expr.reread_str (legible.exprs _ List.mem_cons_self).1) rfl
  | trueWord word =>
      exact Part.reread_of_operand
        (Expr.reread_true word (legible.token word List.mem_cons_self rfl)) rfl
  | falseWord word =>
      exact Part.reread_of_operand
        (Expr.reread_false word (legible.token word List.mem_cons_self rfl)) rfl
  | unary sign is_op _ ih =>
      have hoperand := ih (legible.mono (by grind) (by grind [Part.exprs, Expr.inner]))
      exact Part.reread_of_inside (Expr.rereadInside_unary is_op hoperand.1)
  | binary _ sign is_op _ ihfront ihbehind =>
      have hfront := ihfront (legible.mono (by grind) (by grind [Part.exprs, Expr.inner]))
      have hbehind := ihbehind (legible.mono (by grind) (by grind [Part.exprs, Expr.inner]))
      exact Part.reread_of_inside (Expr.rereadInside_binary is_op hfront.1 hbehind.1)
  | ifThen word opening _ closing _ ihtest ihbody =>
      have htest := ihtest (legible.mono (by grind) (by grind [Part.exprs, Expr.inner]))
      have hbody := ihbody (legible.mono (by grind) (by grind [Part.exprs, Expr.inner]))
      have hguarded := (legible.exprs _ List.mem_cons_self).2
      exact Part.reread_of_operand (reread_ifThen (htest.2 hguarded) hbody) rfl
  | ifElse word opening _ closing _ other _ ihtest ihbody ihother =>
      have htest := ihtest (legible.mono (by grind) (by grind [Part.exprs, Expr.inner]))
      have hbody := ihbody (legible.mono (by grind) (by grind [Part.exprs, Expr.inner]))
      have hother := ihother (legible.mono (by grind) (by grind [Part.exprs, Expr.inner]))
      have hguarded := (legible.exprs _ List.mem_cons_self).2
      exact Part.reread_of_operand (reread_ifElse (htest.2 hguarded) hbody hother) rfl
  | whileDo word opening _ closing _ ihtest ihbody =>
      have htest := ihtest (legible.mono (by grind) (by grind [Part.exprs, Expr.inner]))
      have hbody := ihbody (legible.mono (by grind) (by grind [Part.exprs, Expr.inner]))
      have hguarded := (legible.exprs _ List.mem_cons_self).2
      exact Part.reread_of_operand (reread_whileDo (htest.2 hguarded) hbody) rfl
  | function word opening names closing _ ih =>
      have hbody := ih (legible.mono (by grind) (by grind [Part.exprs, Expr.inner]))
      exact Part.reread_of_operand
        (reread_function word names (fun t ht => legible.verbatim t (by grind)) hbody) rfl
  | call _ opening _ closing ihfront ihitems =>
      have hfront := ihfront (legible.mono (by grind) (by grind [Part.exprs, Expr.inner]))
      have hitems := ihitems (legible.mono (by grind) (by grind [Part.exprs, Expr.inner]))
      exact Part.reread_of_operand (reread_call hfront.1 hitems) rfl
  | array opening _ closing ih =>
      have hitems := ih (legible.mono (by grind) (by grind [Part.exprs, Expr.inner]))
      exact Part.reread_of_operand (reread_array hitems) rfl
  | hash opening _ closing ih =>
      have hitems := ih (legible.mono (by grind) (by grind [Part.exprs, Expr.inner]))
      exact Part.reread_of_operand (reread_hash hitems) rfl
  | index _ opening _ closing ihfront ihinner =>
      have hfront := ihfront (legible.mono (by grind) (by grind [Part.exprs, Expr.inner]))
      have hinner := ihinner (legible.mono (by grind) (by grind [Part.exprs, Expr.inner]))
      exact Part.reread_of_inside (Expr.rereadInside_index hfront.1 hinner.1)
  | plain _ _ ih => exact ih (legible.mono (fun _ ht => ht) (fun _ he => he))
  | parens opening _ closing ih => exact ih (legible.mono (by grind) (by grind [Part.exprs]))
  | listNil => exact fun _ he => absurd he List.not_mem_nil
  | listLast _ ih =>
      have hitem := ih (legible.mono (by grind) (by grind [Part.exprs, exprsInList]))
      exact List.forall_mem_singleton.2 hitem.1
  | listCons _ comma _ ihitem ihrest =>
      have hitem := ihitem (legible.mono (by grind) (by grind [Part.exprs, exprsInList]))
      have hrest := ihrest (legible.mono (by grind) (by grind [Part.exprs, exprsInList]))
      exact List.forall_mem_cons.2 ⟨hitem.1, hrest⟩
  | entriesNil => exact fun _ hpair => absurd hpair List.not_mem_nil
  | entriesLast _ colon _ ihkey ihvalue =>
      have hkey := ihkey (legible.mono (by grind) (by grind [Part.exprs, exprsInPairs, exprsInPair]))
      have hvalue :=
        ihvalue (legible.mono (by grind) (by grind [Part.exprs, exprsInPairs, exprsInPair]))
      exact List.forall_mem_singleton.2 ⟨hkey.1, hvalue.1⟩
  | entriesCons _ colon _ comma _ ihkey ihvalue ihrest =>
      have hkey := ihkey (legible.mono (by grind) (by grind [Part.exprs, exprsInPairs, exprsInPair]))
      have hvalue :=
        ihvalue (legible.mono (by grind) (by grind [Part.exprs, exprsInPairs, exprsInPair]))
      have hrest := ihrest (legible.mono (by grind) (by grind [Part.exprs, exprsInPairs]))
      exact List.forall_mem_cons.2 ⟨⟨hkey.1, hvalue.1⟩, hrest⟩
  | define word name sign _ ih =>
      have hvalue := ih (legible.mono (by grind) (by grind [Part.exprs, Stmt.exprs]))
      exact Stmt.reread_define word name (legible.token word (by simp) rfl)
        (legible.token name (by simp) rfl) hvalue.1
  | returnNothing word =>
      exact Stmt.reread_returnNothing word (legible.token word List.mem_cons_self rfl)
  | returnValue word _ ih =>
      have hvalue := ih (legible.mono (by grind) (by grind [Part.exprs, Stmt.exprs]))
      exact Stmt.reread_returnValue word (legible.token word List.mem_cons_self rfl) hvalue.1
  | breakLoop word =>
      exact Stmt.reread_breakLoop word (legible.token word List.mem_cons_self rfl)
  | exprStmt _ ih =>
      have hvalue := ih (legible.mono (by grind) (by grind [Part.exprs, Stmt.exprs]))
      exact Stmt.reread_expr _ hvalue.1
  | stmtsNil => exact fun _ hst => absurd hst List.not_mem_nil
  | semicolon sign _ ih => exact ih (legible.mono (by grind) (fun _ he => he))
  | stmtsCons _ _ _ ihhead ihrest =>
      have hhead := ihhead (legible.mono (by grind) (by grind [Part.exprs, exprsInStmts]))
      have hrest := ihrest (legible.mono (by grind) (by grind [Part.exprs, exprsInStmts]))
      exact List.forall_mem_cons.2 ⟨hhead, hrest⟩
  | stmtsCut _ ih =>
      have hhead := ih (legible.mono (by grind) (by grind [Part.exprs, exprsInStmts]))
      exact List.forall_mem_singleton.2 hhead
  | block opening _ closing ih =>
      exact Block.reread_mk opening (ih (legible.mono (by grind) (by grind [Part.exprs, Block.exprs])))
  | blockCut opening _ ih =>
      exact Block.reread_mk opening (ih (legible.mono (by grind) (by grind [Part.exprs, Block.exprs])))

/-! ## Programs -/

/-- The text of statements is nested as deep as the deepest of them. -/
theorem stmtsTextDepth_le {n : Nat} {sts : List Stmt} (h : ∀ st ∈ sts, st.textDepth ≤ n) :
    stmtsTextDepth sts ≤ n := by
  induction sts with
  | nil => exact Nat.zero_le n
  | cons st rest ih =>
      rw [List.forall_mem_cons] at h
      exact Nat.max_le.2 ⟨h.1, ih h.2⟩

/-- Statements in a row that can be read from their text are the program of that text. -/
theorem Part.Reread.exists_parse_eq {program : Program} (h : (Part.stmts program.stmts).Reread)
    (small : ∀ st ∈ program.stmts, st.textDepth ≤ maxNesting) :
    ∃ sts', parse program.render = (⟨sts'⟩, []) ∧ List.Forall₂ Stmt.Alike sts' program.stmts := by
  rcases stmts_reread h .start with ⟨sts', ts, ⟨hspelled, r, hr⟩, hall⟩
  let eof : Token := ⟨.eof, "", Pos.start.afterAll program.render.toList⟩
  have hends : Lexed (Pos.start.afterAll program.render.toList) [] [eof] := .ends rfl
  have hlexed := @hspelled [] [eof] nofun hends
  rw [List.append_nil] at hlexed
  have hreads : Reads program.render.toList sts' false ts eof :=
    ⟨hlexed, rfl, r, Nat.le_trans hr (stmtsTextDepth_le small)⟩
  exact ⟨sts', hreads.parse_eq, hall⟩

/-- Reading the text of a program gives its tree again, and thereby the same text. -/
theorem parse_render {src : String} (quiet : (parse src).2 = [])
    (plain : ∀ e ∈ (parse src).1.exprs, e.isPlain = true)
    (guarded : ∀ e ∈ (parse src).1.exprs, e.isGuarded = true)
    (small : ∀ st ∈ (parse src).1.stmts, st.textDepth ≤ maxNesting) :
    (parse (parse src).1.render).2 = [] ∧
      (parse (parse src).1.render).1.SameTree (parse src).1 ∧
        (parse (parse src).1.render).1.render = (parse src).1.render := by
  rcases reads_of_quiet quiet with ⟨cut, ts, eof, hreads⟩
  rcases hreads.renders with ⟨r, -⟩
  have hlegible : Legible (.stmts (parse src).1.stmts) ts := by
    refine ⟨?_, fun e he => ⟨plain e he, guarded e he⟩⟩
    intro t ht
    exact hreads.lexed.verbatim (List.mem_append_left _ ht)
  rcases (r.reread hlegible).exists_parse_eq small with ⟨sts', hparse, hall⟩
  have hlist := stmts_alike hall
  rw [hparse]
  refine ⟨rfl, congrArg Program.mk hlist.1, ?_⟩
  rw [Program.render, Program.render, hlist.2]

/-- A call of a function literal, an index behind a conditional, a return without a value, a comma
behind the last entry of a hash, parentheses that nothing demands and two open blocks. -/
theorem parse_render_loose_source :
    let src := "let f = fn(a, b) \x7b return; 1 \x7d(2, x)[-3 * (4)];; " ++
      "if (a[0]) \x7b\x7d else \x7b \x7b1: [],\x7d \x7d[2] " ++
        "while (!x) \x7b ((y)); if (a < b == true) \x7b break"
    (parse src).2 = [] ∧ (∀ e ∈ (parse src).1.exprs, e.isPlain = true) ∧
      (∀ e ∈ (parse src).1.exprs, e.isGuarded = true) ∧
        (∀ st ∈ (parse src).1.stmts, st.textDepth ≤ maxNesting) ∧
          (parse (parse src).1.render).2 = [] ∧
            (parse (parse src).1.render).1.SameTree (parse src).1 ∧
              (parse (parse src).1.render).1.render = (parse src).1.render := by
  intro src
  have hsrc : (parse src).2 = [] ∧ (∀ e ∈ (parse src).1.exprs, e.isPlain = true) ∧
      (∀ e ∈ (parse src).1.exprs, e.isGuarded = true) ∧
        ∀ st ∈ (parse src).1.stmts, st.textDepth ≤ maxNesting := by
    decide +kernel
  rcases hsrc with ⟨hquiet, hplain, hguarded, hsmall⟩
  exact ⟨hquiet, hplain, hguarded, hsmall, parse_render hquiet hplain hguarded hsmall⟩

end Scriptlet
