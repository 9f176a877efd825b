import Scriptlet.Proofs.Grammar
import Scriptlet.Repl.Pending

/-!
# Brackets in renderings

In a rendering every bracket is closed by one of its own sort, with other pairs inside of each other
or next to each other, unless braces are missing at the end; then more brackets open than close.
Rows of tokens in which all brackets are closed can be cut at any place: the brackets that are open
there are counted by what opens and closes in front of it.

- `Bracketed` : rows of tokens in which all brackets are closed
- `Repl.openBrackets_append` : brackets are counted part by part
- `Bracketed.straddled_iff` : a row that is cut in two
- `Rendering.brackets` : the brackets of every rendering
-/

namespace Scriptlet

open Repl

/-! ## Pairs -/

namespace Token.Kind

def closer? : Kind → Option Kind
  | .openParen => some .closeParen
  | .openBracket => some .closeBracket
  | .openBrace => some .closeBrace
  | _ => none

def isBracket : Kind → Bool
  | .openParen | .openBracket | .openBrace | .closeParen | .closeBracket | .closeBrace => true
  | _ => false

end Token.Kind

/-- Rows of tokens in which every bracket is closed by one of its own sort. -/
inductive Bracketed : List Token → Prop
  | nil : Bracketed []
  | plain {token : Token} {ts : List Token} (plain : token.kind.isBracket = false)
      (rest : Bracketed ts) : Bracketed (token :: ts)
  | pair {opening closing : Token} {inner ts : List Token}
      (closes : opening.kind.closer? = some closing.kind) (inside : Bracketed inner)
      (rest : Bracketed ts) : Bracketed (opening :: (inner ++ closing :: ts))

/-- Two rows in which all brackets are closed, one behind the other. -/
theorem Bracketed.append {ts us : List Token} (first : Bracketed ts) (second : Bracketed us) :
    Bracketed (ts ++ us) := by
  induction first with
  | nil => exact second
  | plain plain _ ih => exact .plain plain ih
  | @pair opening closing inner ts closes inside _ _ ih =>
      rw [List.cons_append, List.append_assoc, List.cons_append]
      exact .pair closes inside ih

/-! ## Counting -/

namespace Repl

/-- Counting may start anywhere. -/
theorem openBrackets_from (depth : Int) (ts : List Token) :
    ts.foldl (fun depth token => depth + bracketWeight token.kind) depth =
      depth + openBrackets ts := by
  unfold openBrackets
  induction ts generalizing depth with
  | nil => simp
  | cons token rest ih =>
      rw [List.foldl_cons, List.foldl_cons, ih, ih (0 + _)]
      omega

theorem openBrackets_nil : openBrackets [] = 0 :=
  rfl

theorem openBrackets_cons (token : Token) (ts : List Token) :
    openBrackets (token :: ts) = bracketWeight token.kind + openBrackets ts := by
  rw [openBrackets, List.foldl_cons, openBrackets_from, Int.zero_add]

/-- The brackets of two rows add up. -/
theorem openBrackets_append (ts us : List Token) :
    openBrackets (ts ++ us) = openBrackets ts + openBrackets us := by
  rw [openBrackets, List.foldl_append, openBrackets_from]
  rfl

theorem bracketWeight_plain {kind : Token.Kind} (h : kind.isBracket = false) :
    bracketWeight kind = 0 := by
  cases kind <;> first | rfl | cases h

/-- A bracket and the one that closes it weigh the opposite. -/
theorem bracketWeight_pair {kind other : Token.Kind} (h : kind.closer? = some other) :
    bracketWeight kind = 1 ∧ bracketWeight other = -1 := by
  cases kind <;> cases h <;> exact ⟨rfl, rfl⟩

end Repl

/-- No bracket is open behind a row in which all are closed. -/
theorem Bracketed.openBrackets_eq {ts : List Token} (h : Bracketed ts) : openBrackets ts = 0 := by
  induction h with
  | nil => rfl
  | plain plain _ ih => rw [openBrackets_cons, bracketWeight_plain plain, ih]; rfl
  | pair closes _ _ inside rest =>
      rcases bracketWeight_pair closes with ⟨hopens, hcloses⟩
      rw [openBrackets_cons, openBrackets_append, openBrackets_cons, hopens, hcloses, inside, rest]
      rfl

/-! ## Rows that are cut -/

/-- A pair of brackets that opens in the first of two rows and closes in the second one. -/
def Straddled (ts us : List Token) : Prop :=
  ∃ front opening inner more closing back, ts = front ++ opening :: inner ∧
    us = more ++ closing :: back ∧ opening.kind.closer? = some closing.kind ∧
    Bracketed (inner ++ more)

/-- More tokens in front make no difference to a pair around the cut. -/
theorem Straddled.append_left {ts us : List Token} (h : Straddled ts us) (vs : List Token) :
    Straddled (vs ++ ts) us := by
  rcases h with ⟨front, opening, inner, more, closing, back, rfl, hus, hcloses, hinner⟩
  exact ⟨vs ++ front, opening, inner, more, closing, back, (List.append_assoc _ _ _).symm, hus, hcloses,
    hinner⟩

/-- Wherever a row is cut, no bracket is closed that was not opened before, and if some are open
there is a pair around the cut. -/
theorem Bracketed.cut {ts us : List Token} (h : Bracketed (ts ++ us)) :
    0 ≤ openBrackets ts ∧ (0 < openBrackets ts → Straddled ts us) := by
  generalize hrow : ts ++ us = row at h
  induction h generalizing ts us with
  | nil =>
      obtain ⟨rfl, rfl⟩ := List.append_eq_nil_iff.1 hrow
      exact ⟨Int.le_refl 0, fun hpos => absurd hpos (Int.lt_irrefl 0)⟩
  | @plain token rest plain _ ih =>
      rcases List.append_eq_cons_iff.1 hrow with ⟨rfl, -⟩ | ⟨ts, rfl, hrest⟩
      · exact ⟨Int.le_refl 0, fun hpos => absurd hpos (Int.lt_irrefl 0)⟩
      · rcases ih hrest.symm with ⟨hle, hopen⟩
        rw [openBrackets_cons, bracketWeight_plain plain, Int.zero_add]
        exact ⟨hle, fun hpos => (hopen hpos).append_left [token]⟩
  | @pair opening closing inner rest closes inside _ ihinside ih =>
      rcases bracketWeight_pair closes with ⟨hopens, hcloses⟩
      rcases List.append_eq_cons_iff.1 hrow with ⟨rfl, -⟩ | ⟨ts, rfl, hrest⟩
      · exact ⟨Int.le_refl 0, fun hpos => absurd hpos (Int.lt_irrefl 0)⟩
      · rw [openBrackets_cons, hopens]
        rcases List.append_eq_append_iff.1 hrest with ⟨more, rfl, hmore⟩ | ⟨more, rfl, rfl⟩
        -- The pair itself closes in front of the cut, or right behind it.
        · rcases List.append_eq_cons_iff.1 hmore.symm with ⟨rfl, rfl⟩ | ⟨ts, rfl, rfl⟩
          · rw [List.append_nil, inside.openBrackets_eq]
            refine ⟨by decide, fun _ => ?_⟩
            exact ⟨[], opening, inner, [], closing, rest, rfl, rfl, closes, by rwa [List.append_nil]⟩
          · rcases ih rfl with ⟨hle, hopen⟩
            have hcount : 1 + openBrackets (inner ++ closing :: ts) = openBrackets ts := by
              rw [openBrackets_append, openBrackets_cons, inside.openBrackets_eq, hcloses]
              omega
            rw [hcount]
            refine ⟨hle, fun hpos => ?_⟩
            have hstraddled := (hopen hpos).append_left (opening :: (inner ++ [closing]))
            simpa using hstraddled
        -- The cut lies inside the pair.
        · rcases ihinside rfl with ⟨hle, -⟩
          refine ⟨by omega, fun _ => ?_⟩
          exact ⟨[], opening, ts, more, closing, rest, rfl, rfl, closes, inside⟩

/-- A pair of brackets lies around the cut just if more brackets open than close in front of it. -/
theorem Bracketed.straddled_iff {ts us : List Token} (h : Bracketed (ts ++ us)) :
    Straddled ts us ↔ 0 < openBrackets ts := by
  constructor
  · rintro ⟨front, opening, inner, more, closing, back, rfl, rfl, hcloses, hinner⟩
    rw [List.append_assoc] at h
    have hfront := h.cut.1
    have hinside := hinner.cut.1
    rw [openBrackets_append, openBrackets_cons, (bracketWeight_pair hcloses).1]
    omega
  · exact h.cut.2

/-! ## Renderings -/

/-- The brackets of a rendering: all of them are closed, or some are left open where it is cut. -/
def Brackets : Bool → List Token → Prop
  | false, ts => Bracketed ts
  | true, ts => 0 < openBrackets ts

namespace Brackets

variable {cut : Bool} {ts us : List Token} {token : Token}

/-- A token that is no bracket makes no difference. -/
theorem cons (plain : token.kind.isBracket = false) (h : Brackets cut ts) :
    Brackets cut (token :: ts) := by
  cases cut with
  | false => exact .plain plain h
  | true =>
      rw [Brackets, openBrackets_cons, bracketWeight_plain plain, Int.zero_add]
      exact h

/-- A token whose kind is known. -/
theorem cons_of {kind : Token.Kind} (token : Token.Of kind) (h : Brackets cut ts)
    (plain : kind.isBracket = false) : Brackets cut (token.val :: ts) :=
  h.cons (by rwa [token.property])

theorem append (first : Bracketed ts) (second : Brackets cut us) : Brackets cut (ts ++ us) := by
  cases cut with
  | false => exact Bracketed.append first second
  | true =>
      rw [Brackets, openBrackets_append, first.openBrackets_eq, Int.zero_add]
      exact second

/-- A row in brackets, and what follows them. -/
theorem pair {opens closes : Token.Kind} (opening : Token.Of opens) (inside : Bracketed ts)
    (closing : Token.Of closes) (rest : Brackets cut us) (sort : opens.closer? = some closes) :
    Brackets cut (opening.val :: (ts ++ closing.val :: us)) := by
  have hcloses : opening.val.kind.closer? = some closing.val.kind := by
    rw [opening.property, closing.property, sort]
  have hpair : Bracketed (opening.val :: (ts ++ [closing.val])) := .pair hcloses inside .nil
  simpa using append hpair rest

end Brackets

/-- There are no brackets between the parentheses of a parameter list. -/
theorem ParamList.bracketed {params : List Ident} {ts : List Token} (h : ParamList params ts) :
    Bracketed ts := by
  induction h with
  | nil => exact .nil
  | last name => exact .plain (by rw [name.property]; rfl) .nil
  | cons name comma _ ih =>
      exact .plain (by rw [name.property]; rfl) (.plain (by rw [comma.property]; rfl) ih)

theorem UnaryOp.isBracket_of_ofKind? {kind : Token.Kind} {op : UnaryOp}
    (h : UnaryOp.ofKind? kind = some op) : kind.isBracket = false := by
  cases kind <;> first | rfl | cases h

theorem BinaryOp.isBracket_of_ofKind? {kind : Token.Kind} {op : BinaryOp}
    (h : BinaryOp.ofKind? kind = some op) : kind.isBracket = false := by
  cases kind <;> first | rfl | cases h

/-- All brackets of a rendering are closed, unless it is cut; then some are open. -/
theorem Rendering.brackets {part : Part} {cut : Bool} {ts : List Token} (r : Rendering part cut ts) :
    Brackets cut ts := by
  have hnil : Brackets false [] := Bracketed.nil
  induction r with
  | ident name => exact hnil.cons_of name rfl
  | int digits => exact hnil.cons_of digits rfl
  | str text => exact hnil.cons_of text rfl
  | trueWord word => exact hnil.cons_of word rfl
  | falseWord word => exact hnil.cons_of word rfl
  | unary sign is_op _ ih => exact ih.cons (UnaryOp.isBracket_of_ofKind? is_op)
  | binary _ sign is_op _ ihfront ihbehind =>
      exact .append ihfront (ihbehind.cons (BinaryOp.isBracket_of_ofKind? is_op))
  | ifThen word opening _ closing _ ihtest ihbody =>
      exact (Brackets.pair opening ihtest closing ihbody rfl).cons_of word rfl
  | ifElse word opening _ closing _ other _ ihtest ihbody ihother =>
      have hbodies := Brackets.append ihbody (ihother.cons_of other rfl)
      exact (Brackets.pair opening ihtest closing hbodies rfl).cons_of word rfl
  | whileDo word opening _ closing _ ihtest ihbody =>
      exact (Brackets.pair opening ihtest closing ihbody rfl).cons_of word rfl
  | function word opening names closing _ ihbody =>
      exact (Brackets.pair opening names.bracketed closing ihbody rfl).cons_of word rfl
  | call _ opening _ closing ihfront ihitems =>
      exact .append ihfront (.pair opening ihitems closing hnil rfl)
  | array opening _ closing ih => exact .pair opening ih closing hnil rfl
  | hash opening _ closing ih => exact .pair opening ih closing hnil rfl
  | index _ opening _ closing ihfront ihkey =>
      exact .append ihfront (.pair opening ihkey closing hnil rfl)
  | plain _ _ ih => exact ih
  | parens opening _ closing ih => exact .pair opening ih closing hnil rfl
  | listNil => exact hnil
  | listLast _ ih => exact ih
  | listCons _ comma _ ihitem ihrest => exact .append ihitem (ihrest.cons_of comma rfl)
  | entriesNil => exact hnil
  | entriesLast _ colon _ ihkey ihvalue => exact .append ihkey (ihvalue.cons_of colon rfl)
  | entriesCons _ colon _ comma _ ihkey ihvalue ihrest =>
      have hrest := Brackets.append ihvalue (ihrest.cons_of comma rfl)
      exact .append ihkey (hrest.cons_of colon rfl)
  | define word name sign _ ih => exact ((ih.cons_of sign rfl).cons_of name rfl).cons_of word rfl
  | returnNothing word => exact hnil.cons_of word rfl
  | returnValue word _ ih => exact ih.cons_of word rfl
  | breakLoop word => exact hnil.cons_of word rfl
  | exprStmt _ ih => exact ih
  | stmtsNil => exact hnil
  | semicolon sign _ ih => exact ih.cons_of sign rfl
  | stmtsCons _ _ _ ihhead ihrest => exact .append ihhead ihrest
  | stmtsCut _ ih => exact ih
  | block opening _ closing ih => exact .pair opening ih closing hnil rfl
  | @blockCut sts cut ts opening _ ih =>
      -- The brace itself stays open, whether others do so behind it or not.
      have hopen : 0 ≤ openBrackets ts := by
        cases cut with
        | false => exact Int.le_of_eq (Bracketed.openBrackets_eq ih).symm
        | true => exact Int.le_of_lt ih
      have hweight : bracketWeight opening.val.kind = 1 := by rw [opening.property]; rfl
      have hcount : 0 < openBrackets (opening.val :: ts) := by
        rw [openBrackets_cons, hweight]
        omega
      exact hcount

end Scriptlet
