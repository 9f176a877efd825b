import Scriptlet.Proofs.Parse.GivingUp
import Scriptlet.Proofs.Parse.Openings
import Scriptlet.Proofs.Token.Literal

/-!
# The limit on nested expressions

Reading a rendering in which expressions nest too deeply reports exactly that, once, at the first
token at which an expression begins below the limit. Nothing behind that token matters.

- `GivesUpPart` : parts of a program in which reading is given up
- `GivesUpWithin` : reading is given up where an expression begins too deep
- `exists_givesUpWithin` : so it is in every rendering with such an expression
- `nesting_limit` : expressions on their own, and integers in parentheses
-/

namespace Scriptlet
namespace Parse

/-! ## Parts of a program -/

/-- Parts of a program in which reading is given up, with the given number of levels left for the
expressions inside. -/
def GivesUpPart (levels : Nat) : Part → List Token → Token → Prop
  | .bare e, before, token => ∀ ⦃precedence : Nat⦄, Precedence.lowest ≤ precedence →
      precedence ≤ Precedence.unary → (Place.behind precedence).Admits e →
      GivesUp before token fun bound => exprLevel bound (expr bound levels) precedence
  | .expr (.front p) _, before, token => ∀ ⦃precedence : Nat⦄, Precedence.lowest ≤ precedence →
      precedence ≤ Precedence.unary → precedence < p →
      GivesUp before token fun bound => exprLevel bound (expr bound levels) precedence
  | .expr (.behind p) _, before, token => Precedence.lowest ≤ p → p ≤ Precedence.unary →
      GivesUp before token fun bound => expr bound levels p
  | .list _, before, token => GivesUpList (fun bound => expr bound levels) before token
  | .entries _, before, token => GivesUpEntries (fun bound => expr bound levels) before token
  | .stmt _, before, token => GivesUp before token fun bound => statement (expr bound levels)
  | .stmts _, before, token => GivesUpStmts (fun bound => expr bound levels) before token
  | .block _, before, token => GivesUp before token fun bound => block bound (expr bound levels)

/-- Reading a part is given up at the token at which an expression begins, one deeper than the
limit. -/
structure GivesUpWithin (limit levels index : Nat) (part : Part) (ts : List Token)
    (opening : Opening) (before : List Token) (token : Token) (after : List Token) : Prop where
  tokens : ts = before ++ token :: after
  depth : opening.depth = limit + 1
  index : opening.index = index + before.length
  up : GivesUpPart levels part before token

/-- The first token of a rendering that is given up later. -/
theorem headD_eq {before after rest : List Token} {token first : Token}
    (h : before ++ token :: after = first :: rest) : before.headD token = first := by
  rcases exists_rest_of_headD before token after with ⟨more, hmore⟩
  exact (List.cons.inj (hmore.symm.trans h)).1

section Parts

variable {limit depth levels index : Nat} {opening : Opening} {cut : Bool}
variable {ts before after : List Token} {token : Token}

/-- The rendering of an expression begins with a token that starts one, also if it is cut inside. -/
theorem startsExpr_headD {part : Part} (r : Rendering part cut (before ++ token :: after))
    (whole : part.isExpr = true) : (before.headD token).kind.startsExpr = true := by
  rcases r.head_expr whole with ⟨first, rest, heq, hfirst⟩
  rw [headD_eq heq]
  exact hfirst

/-- The rendering of a statement begins with a token that starts one. -/
theorem startsStmt_headD {st : Stmt} (r : Rendering (.stmt st) cut (before ++ token :: after)) :
    (before.headD token).kind.startsStmt = true := by
  rcases r.head_stmt with ⟨first, rest, heq, hfirst⟩
  rw [headD_eq heq]
  exact hfirst

/-- The rendering of a block begins with its brace. -/
theorem openBrace_headD {b : Block} (r : Rendering (.block b) cut (before ++ token :: after)) :
    (before.headD token).kind = .openBrace := by
  rcases r.head_block with ⟨brace, rest, heq⟩
  rw [headD_eq heq, brace.property]

theorem startsExpr_headD_list {es : List Expr}
    (r : Rendering (.list es) cut (before ++ token :: after)) :
    (before.headD token).kind.startsExpr = true := by
  rcases r.head_list with ⟨-, hnil⟩ | ⟨-, first, rest, heq, hfirst⟩
  · simp at hnil
  · rw [headD_eq heq]
    exact hfirst

/-- The first expression that begins too deep, in the first of two rows or behind it. -/
theorem find?_append_cases {first later : List Opening} {p : Opening → Bool}
    (h : (first ++ later).find? p = some opening) :
    first.find? p = some opening ∨ first.find? p = none ∧ later.find? p = some opening := by
  rwa [List.find?_append, Option.or_eq_some_iff] at h

/-- An expression in which nothing begins too deep is read back. -/
theorem fetches_of_find? {p : Nat} {e : Expr} {r : Rendering (.expr (.behind p) e) cut ts}
    (leaves : depth + levels = limit + 1)
    (shallow : (r.openings depth index).find? (Opening.beyond limit) = none)
    (high : p ≤ Precedence.unary) (bound : Nat) : Fetches bound (expr bound levels) p e cut ts := by
  have hnesting := r.nesting_le_of_find? leaves shallow
  exact fetches_of_part (fetchesPart_of_rendering bound r) (by omega) high

/-- An operand in which nothing begins too deep is read up to the operator behind it. -/
theorem fetchesLead_of_find? {p precedence : Nat} {e : Expr} {sign : Token}
    {r : Rendering (.expr (.front p) e) cut ts} (leaves : depth + levels = limit)
    (shallow : (r.openings depth index).find? (Opening.beyond limit) = none)
    (high : precedence ≤ Precedence.unary) (binds : precedence < p)
    (sign_le : Precedence.ofKind sign.kind ≤ p) (bound : Nat) :
    FetchesLead bound levels precedence e cut ts sign := by
  have hnesting := r.nesting_le_of_find? leaves shallow
  exact fetchesPart_of_rendering bound r (by omega) high ⟨binds, sign_le⟩

/-- Where no level is left, the expression itself is too deep. -/
theorem exists_givesUpWithin_of_no_level {p : Nat} {e : Expr}
    (r : Rendering (.expr (.behind p) e) cut ts) (leaves : depth + 0 = limit + 1)
    {later : List Opening}
    (deep : ((⟨depth, index⟩ :: later).find? (Opening.beyond limit)) = some opening) :
    ∃ before token after,
      GivesUpWithin limit 0 index (.expr (.behind p) e) ts opening before token after := by
  rcases r.head_expr rfl with ⟨first, rest, rfl, -⟩
  have hbeyond : Opening.beyond limit ⟨depth, index⟩ = true := by
    simp only [Opening.beyond, decide_eq_true_eq]
    omega
  rw [List.find?_cons_of_pos hbeyond] at deep
  cases deep
  refine ⟨[], first, rest, rfl, leaves, rfl, ?_⟩
  intro _ _ eof
  refine ⟨.bad eof, ?_⟩
  intro bound later s _ tokens
  exact tooDeep_of_tokens tokens

/-- An expression at some place is given up where its inside is, unless no level is left. -/
theorem exists_givesUpWithin_of_place {place : Place} {e : Expr} (r : Rendering (.expr place e) cut ts)
    (leaves : (Part.expr place e).Leaves limit depth levels) {later : List Opening}
    (deep : (place.opening depth index ++ later).find? (Opening.beyond limit) = some opening)
    (inside : ∀ ⦃below : Nat⦄, depth + below = limit →
      later.find? (Opening.beyond limit) = some opening →
      ∃ before token after, (ts = before ++ token :: after ∧ opening.depth = limit + 1 ∧
        opening.index = index + before.length) ∧
        ∀ ⦃precedence : Nat⦄, Precedence.lowest ≤ precedence → precedence ≤ Precedence.unary →
          place.Fits precedence Precedence.lowest →
          GivesUp before token fun bound => exprLevel bound (expr bound below) precedence) :
    ∃ before token after,
      GivesUpWithin limit levels index (.expr place e) ts opening before token after := by
  cases place with
  | front p =>
      rcases inside leaves deep with ⟨before, token, after, ⟨htokens, hdepth, hindex⟩, hup⟩
      refine ⟨before, token, after, htokens, hdepth, hindex, ?_⟩
      intro precedence low high binds
      exact hup low high ⟨binds, Nat.le_trans low (Nat.le_of_lt binds)⟩
  | behind p =>
      cases levels with
      | zero => exact exists_givesUpWithin_of_no_level r leaves deep
      | succ below =>
          have hleaves : depth + below = limit := Nat.succ.inj leaves
          have hwithin : ¬ Opening.beyond limit ⟨depth, index⟩ = true := by
            simp only [Opening.beyond, decide_eq_true_eq]
            omega
          rw [Place.opening, List.cons_append, List.find?_cons_of_neg hwithin] at deep
          rcases inside hleaves deep with ⟨before, token, after, ⟨htokens, hdepth, hindex⟩, hup⟩
          refine ⟨before, token, after, htokens, hdepth, hindex, ?_⟩
          intro low high
          exact hup low high ⟨Nat.le_refl p, low, high⟩

end Parts

/-! ## Every rendering -/

/-- Reading a rendering is given up at the first token at which an expression begins too deep. -/
theorem exists_givesUpWithin {limit : Nat} {part : Part} {cut : Bool} {ts : List Token}
    (r : Rendering part cut ts) : ∀ {depth levels index : Nat} {opening : Opening},
      part.Leaves limit depth levels →
      (r.openings depth index).find? (Opening.beyond limit) = some opening →
      ∃ before token after,
        GivesUpWithin limit levels index part ts opening before token after := by
  -- Induction on the rendering. What stands in front of the part with the first expression that is
  -- too deep is read back, and reading that part is given up.
  induction r with
  | ident | int | str | trueWord | falseWord | listNil | entriesNil | returnNothing | breakLoop
  | stmtsNil =>
      intro depth levels index opening _ deep
      cases deep
  | unary sign is_op _ ih =>
      intro depth levels index opening leaves deep
      rcases ih (Part.leaves_below leaves) deep with
        ⟨before, token, after, rfl, hdepth, hindex, hup⟩
      refine ⟨sign :: before, token, after, rfl, hdepth, ?_, ?_⟩
      · rw [hindex, List.length_cons]
        omega
      · intro precedence low _ _
        exact (unary_givesUp sign is_op (hup lowest_le_unary (Nat.le_refl _))).lead low
  -- What stands in front of an operator is read at the same precedence as the operator itself.
  | @binary _ _ _ _ ts us front sign is_op behind ihfront ihbehind =>
      intro depth levels index opening leaves deep
      have hprec := BinaryOp.precedence_of_ofKind? is_op
      rcases find?_append_cases deep with hfront | ⟨hshallow, hbehind⟩
      · rcases ihfront leaves hfront with ⟨before, token, after, rfl, hdepth, hindex, hup⟩
        refine ⟨before, token, after ++ sign :: us, by simp, hdepth, hindex, ?_⟩
        intro precedence low high binds
        exact hup low high binds
      · rcases ihbehind (Part.leaves_below leaves) hbehind with
          ⟨before, token, after, rfl, hdepth, hindex, hup⟩
        refine ⟨ts ++ sign :: before, token, after, by simp, hdepth, ?_, ?_⟩
        · rw [hindex, List.length_append, List.length_cons]
          omega
        · intro precedence low high binds
          have hlead := fetchesLead_of_find? leaves hshallow high binds (Nat.le_of_eq hprec)
          exact binary_givesUp low hlead is_op binds
            (hup (Nat.le_trans low (Nat.le_of_lt binds)) (BinaryOp.precedence_le_unary _))
  -- The test and the block of a conditional lie one deeper, and the test is read back if the block is
  -- the first part with an expression that is too deep.
  | @ifThen _ _ _ ts us word parenthesis condition closing body ihtest ihbody =>
      intro depth levels index opening leaves deep
      have hleaves := Part.leaves_below leaves
      rcases find?_append_cases deep with htest | ⟨hshallow, hbody⟩
      · rcases ihtest hleaves htest with ⟨before, token, after, rfl, hdepth, hindex, hup⟩
        refine ⟨word.val :: parenthesis.val :: before, token, after ++ closing.val :: us, by simp,
          hdepth, ?_, ?_⟩
        · rw [hindex, List.length_cons, List.length_cons]
          omega
        · intro precedence low _ _
          exact (ifTest_givesUp word parenthesis (hup (Nat.le_refl _) lowest_le_unary)).lead low
      · rcases ihbody hleaves hbody with ⟨before, token, after, rfl, hdepth, hindex, hup⟩
        refine ⟨word.val :: parenthesis.val :: (ts ++ closing.val :: before), token, after, by simp,
          hdepth, ?_, ?_⟩
        · simp only [hindex, List.length_cons, List.length_append]
          omega
        · intro precedence low _ _
          have htest := fetches_of_find? hleaves hshallow lowest_le_unary
          exact (ifBody_givesUp word parenthesis htest closing (openBrace_headD body) hup).lead low
  | @ifElse _ _ _ _ ts us vs word parenthesis condition closing body other otherBody ihtest ihbody
      ihother =>
      intro depth levels index opening leaves deep
      have hleaves := Part.leaves_below leaves
      rcases find?_append_cases deep with htest | ⟨hshallow, hblocks⟩
      · rcases ihtest hleaves htest with ⟨before, token, after, rfl, hdepth, hindex, hup⟩
        refine ⟨word.val :: parenthesis.val :: before, token,
          after ++ closing.val :: (us ++ other.val :: vs), by simp, hdepth, ?_, ?_⟩
        · rw [hindex, List.length_cons, List.length_cons]
          omega
        · intro precedence low _ _
          exact (ifTest_givesUp word parenthesis (hup (Nat.le_refl _) lowest_le_unary)).lead low
      · have htest := fetches_of_find? hleaves hshallow lowest_le_unary
        rcases find?_append_cases hblocks with hbody | ⟨hshallow', hother⟩
        · rcases ihbody hleaves hbody with ⟨before, token, after, rfl, hdepth, hindex, hup⟩
          refine ⟨word.val :: parenthesis.val :: (ts ++ closing.val :: before), token,
            after ++ other.val :: vs, by simp, hdepth, ?_, ?_⟩
          · simp only [hindex, List.length_cons, List.length_append]
            omega
          · intro precedence low _ _
            exact (ifBody_givesUp word parenthesis htest closing (openBrace_headD body) hup).lead
              low
        · rcases ihother hleaves hother with ⟨before, token, after, rfl, hdepth, hindex, hup⟩
          refine ⟨word.val :: parenthesis.val :: (ts ++ closing.val :: (us ++ other.val :: before)),
            token, after, by simp, hdepth, ?_, ?_⟩
          · simp only [hindex, List.length_cons, List.length_append]
            omega
          · intro precedence low _ _
            have hnesting := body.nesting_le_of_find? hleaves hshallow'
            rcases body.head_block with ⟨brace, us, rfl⟩
            have hblock (bound : Nat) :=
              fetchesPart_of_rendering bound body (show body.nesting ≤ levels by omega)
            exact (elseBody_givesUp word parenthesis htest closing hblock other
              (openBrace_headD otherBody) hup).lead low
  | @whileDo _ _ _ ts us word parenthesis condition closing body ihtest ihbody =>
      intro depth levels index opening leaves deep
      have hleaves := Part.leaves_below leaves
      rcases find?_append_cases deep with htest | ⟨hshallow, hbody⟩
      · rcases ihtest hleaves htest with ⟨before, token, after, rfl, hdepth, hindex, hup⟩
        refine ⟨word.val :: parenthesis.val :: before, token, after ++ closing.val :: us, by simp,
          hdepth, ?_, ?_⟩
        · rw [hindex, List.length_cons, List.length_cons]
          omega
        · intro precedence low _ _
          exact (whileTest_givesUp word parenthesis (hup (Nat.le_refl _) lowest_le_unary)).lead low
      · rcases ihbody hleaves hbody with ⟨before, token, after, rfl, hdepth, hindex, hup⟩
        refine ⟨word.val :: parenthesis.val :: (ts ++ closing.val :: before), token, after, by simp,
          hdepth, ?_, ?_⟩
        · simp only [hindex, List.length_cons, List.length_append]
          omega
        · intro precedence low _ _
          have htest := fetches_of_find? hleaves hshallow lowest_le_unary
          exact (whileBody_givesUp word parenthesis htest closing (openBrace_headD body) hup).lead
            low
  | @function _ _ _ ts us word parenthesis names closing body ih =>
      intro depth levels index opening leaves deep
      rcases ih (Part.leaves_below leaves) deep with
        ⟨before, token, after, rfl, hdepth, hindex, hup⟩
      refine ⟨word.val :: parenthesis.val :: (ts ++ closing.val :: before), token, after, by simp,
        hdepth, ?_, ?_⟩
      · simp only [hindex, List.length_cons, List.length_append]
        omega
      · intro precedence low _ _
        exact (functionBody_givesUp word parenthesis names closing (openBrace_headD body) hup).lead
          low
  | @call _ _ ts us front parenthesis items closing ihfront ihitems =>
      intro depth levels index opening leaves deep
      rcases find?_append_cases deep with hfront | ⟨hshallow, hitems⟩
      · rcases ihfront leaves hfront with ⟨before, token, after, rfl, hdepth, hindex, hup⟩
        refine ⟨before, token, after ++ parenthesis.val :: (us ++ [closing.val]), by simp, hdepth,
          hindex, ?_⟩
        intro precedence low high _
        exact hup low high (Nat.lt_of_le_of_lt high (by decide))
      · rcases ihitems (Part.leaves_below leaves) hitems with
          ⟨before, token, after, rfl, hdepth, hindex, hup⟩
        refine ⟨ts ++ parenthesis.val :: before, token, after ++ [closing.val], by simp, hdepth,
          ?_, ?_⟩
        · rw [hindex, List.length_append, List.length_cons]
          omega
        · intro precedence low high _
          -- Calls bind more tightly than every precedence at which an expression is read.
          have hbinds : precedence < Precedence.call := Nat.lt_of_le_of_lt high (by decide)
          have hlead := fetchesLead_of_find? leaves hshallow high hbinds
            (show Precedence.ofKind parenthesis.val.kind ≤ _ by rw [parenthesis.property]; rfl)
          exact call_givesUp low parenthesis hlead hbinds (startsExpr_headD_list items) hup
  | array bracket items closing ih =>
      intro depth levels index opening leaves deep
      rcases ih (Part.leaves_below leaves) deep with
        ⟨before, token, after, rfl, hdepth, hindex, hup⟩
      refine ⟨bracket.val :: before, token, after ++ [closing.val], by simp, hdepth, ?_, ?_⟩
      · rw [hindex, List.length_cons]
        omega
      · intro precedence low _ _
        exact (array_givesUp bracket (startsExpr_headD_list items) hup).lead low
  | hash brace items closing ih =>
      intro depth levels index opening leaves deep
      rcases ih (Part.leaves_below leaves) deep with
        ⟨before, token, after, rfl, hdepth, hindex, hup⟩
      refine ⟨brace.val :: before, token, after ++ [closing.val], by simp, hdepth, ?_, ?_⟩
      · rw [hindex, List.length_cons]
        omega
      · intro precedence low _ _
        exact (hash_givesUp brace hup).lead low
  | @index _ _ ts us front bracket inner closing ihfront ihinner =>
      intro depth levels index opening leaves deep
      rcases find?_append_cases deep with hfront | ⟨hshallow, hinner⟩
      · rcases ihfront leaves hfront with ⟨before, token, after, rfl, hdepth, hindex, hup⟩
        refine ⟨before, token, after ++ bracket.val :: (us ++ [closing.val]), by simp, hdepth,
          hindex, ?_⟩
        intro precedence low high _
        exact hup low high (Nat.lt_of_le_of_lt high (by decide))
      · rcases ihinner (Part.leaves_below leaves) hinner with
          ⟨before, token, after, rfl, hdepth, hindex, hup⟩
        refine ⟨ts ++ bracket.val :: before, token, after ++ [closing.val], by simp, hdepth, ?_, ?_⟩
        · rw [hindex, List.length_append, List.length_cons]
          omega
        · intro precedence low high _
          have hbinds : precedence < Precedence.index := Nat.lt_of_le_of_lt high (by decide)
          have hlead := fetchesLead_of_find? leaves hshallow high hbinds
            (show Precedence.ofKind bracket.val.kind ≤ _ by rw [bracket.property]; rfl)
          exact index_givesUp low bracket hlead hbinds (hup (Nat.le_refl _) lowest_le_unary)
  -- Without parentheses the inside is read by the call for the expression itself; inside them another
  -- call begins.
  | plain admitted inner ih =>
      intro depth levels index opening leaves deep
      refine exists_givesUpWithin_of_place (.plain admitted inner) leaves deep ?_
      intro below hbelow hdeep
      rcases ih hbelow hdeep with ⟨before, token, after, htokens, hdepth, hindex, hup⟩
      refine ⟨before, token, after, ⟨htokens, hdepth, hindex⟩, ?_⟩
      intro precedence low high fits
      exact hup low high (fits.whole admitted).enters
  | parens parenthesis inner closing ih =>
      intro depth levels index opening leaves deep
      refine exists_givesUpWithin_of_place (.parens parenthesis inner closing) leaves deep ?_
      intro below hbelow hdeep
      rcases ih (Part.leaves_below hbelow) hdeep with
        ⟨before, token, after, rfl, hdepth, hindex, hup⟩
      refine ⟨parenthesis.val :: before, token, after ++ [closing.val], ⟨by simp, hdepth, ?_⟩, ?_⟩
      · rw [hindex, List.length_cons]
        omega
      · intro precedence low _ _
        exact (grouped_givesUp parenthesis (hup (Nat.le_refl _) lowest_le_unary)).lead low
  | listLast item ih =>
      intro depth levels index opening leaves deep
      rcases ih leaves deep with ⟨before, token, after, htokens, hdepth, hindex, hup⟩
      exact ⟨before, token, after, htokens, hdepth, hindex,
        listItem_givesUp (hup (Nat.le_refl _) lowest_le_unary)⟩
  | @listCons _ _ _ ts us item comma rest ihitem ihrest =>
      intro depth levels index opening leaves deep
      rcases find?_append_cases deep with hitem | ⟨hshallow, hrest⟩
      · rcases ihitem leaves hitem with ⟨before, token, after, rfl, hdepth, hindex, hup⟩
        exact ⟨before, token, after ++ comma.val :: us, by simp, hdepth, hindex,
          listItem_givesUp (hup (Nat.le_refl _) lowest_le_unary)⟩
      · rcases ihrest leaves hrest with ⟨before, token, after, rfl, hdepth, hindex, hup⟩
        refine ⟨ts ++ comma.val :: before, token, after, by simp, hdepth, ?_, ?_⟩
        · rw [hindex, List.length_append, List.length_cons]
          omega
        · exact listRest_givesUp (fetches_of_find? leaves hshallow lowest_le_unary) comma hup
  | @entriesLast _ _ ts us key colon value ihkey ihvalue =>
      intro depth levels index opening leaves deep
      rcases find?_append_cases deep with hkey | ⟨hshallow, hvalue⟩
      · rcases ihkey leaves hkey with ⟨before, token, after, rfl, hdepth, hindex, hup⟩
        exact ⟨before, token, after ++ colon.val :: us, by simp, hdepth, hindex,
          entryKey_givesUp (startsExpr_headD key rfl) (hup (Nat.le_refl _) lowest_le_unary)⟩
      · rcases ihvalue leaves hvalue with ⟨before, token, after, rfl, hdepth, hindex, hup⟩
        refine ⟨ts ++ colon.val :: before, token, after, by simp, hdepth, ?_, ?_⟩
        · rw [hindex, List.length_append, List.length_cons]
          omega
        · have hkey := fetches_of_find? leaves hshallow lowest_le_unary
          rcases key.head_expr rfl with ⟨first, ts, rfl, hfirst⟩
          exact entryValue_givesUp hfirst hkey colon (hup (Nat.le_refl _) lowest_le_unary)
  -- The first expression that is too deep lies in the key, in the value or in a later entry.
  | @entriesCons _ _ _ ts us vs key colon value comma rest ihkey ihvalue ihrest =>
      intro depth levels index opening leaves deep
      rcases find?_append_cases deep with hkey | ⟨hshallow, hlater⟩
      · rcases ihkey leaves hkey with ⟨before, token, after, rfl, hdepth, hindex, hup⟩
        exact ⟨before, token, after ++ colon.val :: (us ++ comma.val :: vs), by simp, hdepth,
          hindex, entryKey_givesUp (startsExpr_headD key rfl)
            (hup (Nat.le_refl _) lowest_le_unary)⟩
      · have hkey := fetches_of_find? leaves hshallow lowest_le_unary
        rcases find?_append_cases hlater with hvalue | ⟨hshallow', hrest⟩
        · rcases ihvalue leaves hvalue with ⟨before, token, after, rfl, hdepth, hindex, hup⟩
          refine ⟨ts ++ colon.val :: before, token, after ++ comma.val :: vs, by simp, hdepth, ?_,
            ?_⟩
          · rw [hindex, List.length_append, List.length_cons]
            omega
          · rcases key.head_expr rfl with ⟨first, ts, rfl, hfirst⟩
            exact entryValue_givesUp hfirst hkey colon (hup (Nat.le_refl _) lowest_le_unary)
        · rcases ihrest leaves hrest with ⟨before, token, after, rfl, hdepth, hindex, hup⟩
          refine ⟨ts ++ colon.val :: (us ++ comma.val :: before), token, after, by simp, hdepth, ?_,
            ?_⟩
          · simp only [hindex, List.length_append, List.length_cons]
            omega
          · have hvalue := fetches_of_find? leaves hshallow' lowest_le_unary
            rcases key.head_expr rfl with ⟨first, ts, rfl, hfirst⟩
            exact entriesRest_givesUp hfirst hkey colon hvalue comma hup
  | define word name sign value ih =>
      intro depth levels index opening leaves deep
      rcases ih leaves deep with ⟨before, token, after, rfl, hdepth, hindex, hup⟩
      refine ⟨word.val :: name.val :: sign.val :: before, token, after, rfl, hdepth, ?_, ?_⟩
      · simp only [hindex, List.length_cons]
        omega
      · exact define_givesUp word name sign (hup (Nat.le_refl _) lowest_le_unary)
  | returnValue word value ih =>
      intro depth levels index opening leaves deep
      rcases ih leaves deep with ⟨before, token, after, rfl, hdepth, hindex, hup⟩
      refine ⟨word.val :: before, token, after, rfl, hdepth, ?_, ?_⟩
      · rw [hindex, List.length_cons]
        omega
      · exact returnValue_givesUp word (startsExpr_headD value rfl)
          (hup (Nat.le_refl _) lowest_le_unary)
  | exprStmt value ih =>
      intro depth levels index opening leaves deep
      rcases ih leaves deep with ⟨before, token, after, htokens, hdepth, hindex, hup⟩
      have hstarts := startsExpr_headD (htokens ▸ value) rfl
      exact ⟨before, token, after, htokens, hdepth, hindex,
        exprStmt_givesUp hstarts (hup (Nat.le_refl _) lowest_le_unary)⟩
  | semicolon sign rest ih =>
      intro depth levels index opening leaves deep
      rcases ih leaves deep with ⟨before, token, after, rfl, hdepth, hindex, hup⟩
      refine ⟨sign.val :: before, token, after, rfl, hdepth, ?_, semicolon_givesUp sign hup⟩
      rw [hindex, List.length_cons]
      omega
  | @stmtsCons _ _ _ ts us head rest apart ihhead ihrest =>
      intro depth levels index opening leaves deep
      rcases find?_append_cases deep with hhead | ⟨hshallow, hrest⟩
      · rcases ihhead leaves hhead with ⟨before, token, after, rfl, hdepth, hindex, hup⟩
        exact ⟨before, token, after ++ us, by simp, hdepth, hindex,
          stmtsHead_givesUp (startsStmt_headD head) hup⟩
      · rcases ihrest leaves hrest with ⟨before, token, after, rfl, hdepth, hindex, hup⟩
        refine ⟨ts ++ before, token, after, by simp, hdepth, ?_, ?_⟩
        · rw [hindex, List.length_append]
          omega
        -- The statement in front is read back, up to the first token of the rest.
        · have hnesting := head.nesting_le_of_find? leaves hshallow
          have hleaves : depth + levels = limit + 1 := leaves
          have hfetch (bound : Nat) :=
            fetchesPart_of_rendering bound head (show head.nesting ≤ levels by omega)
          have hfirst : (before ++ token :: after).head? = some (before.headD token) := by
            rcases exists_rest_of_headD before token after with ⟨more, hmore⟩
            rw [hmore, List.head?_cons]
          rcases head.head_stmt with ⟨first, ts, rfl, hstarts⟩
          refine stmtsRest_givesUp hstarts hfetch ?_ (apart _ hfirst) hup
          intro helse
          have hnext := rest.head_stmts _ hfirst
          rw [helse] at hnext
          rcases hnext with h | h <;> cases h
  | stmtsCut head ih =>
      intro depth levels index opening leaves deep
      rcases ih leaves deep with ⟨before, token, after, rfl, hdepth, hindex, hup⟩
      exact ⟨before, token, after, rfl, hdepth, hindex,
        stmtsHead_givesUp (startsStmt_headD head) hup⟩
  | block brace body closing ih =>
      intro depth levels index opening leaves deep
      rcases ih leaves deep with ⟨before, token, after, rfl, hdepth, hindex, hup⟩
      refine ⟨brace.val :: before, token, after ++ [closing.val], by simp, hdepth, ?_,
        block_givesUp brace hup⟩
      rw [hindex, List.length_cons]
      omega
  | blockCut brace body ih =>
      intro depth levels index opening leaves deep
      rcases ih leaves deep with ⟨before, token, after, rfl, hdepth, hindex, hup⟩
      refine ⟨brace.val :: before, token, after, rfl, hdepth, ?_, block_givesUp brace hup⟩
      rw [hindex, List.length_cons]
      omega

/-! ## Programs of one expression -/

/-- The first expression that begins below the limit lies right below it, so no other one of that
depth begins before it. -/
theorem find?_depth_eq {limit : Nat} {openings : List Opening} {opening : Opening}
    (deep : openings.find? (Opening.beyond limit) = some opening)
    (depth : opening.depth = limit + 1) :
    openings.find? (fun other => other.depth == limit + 1) = some opening := by
  rw [List.find?_eq_some_iff_append] at deep ⊢
  rcases deep with ⟨-, earlier, later, rfl, hearlier⟩
  refine ⟨by simp [depth], earlier, later, rfl, ?_⟩
  intro other hother
  have hwithin := hearlier other hother
  simp only [Opening.beyond, Bool.not_eq_true', decide_eq_false_iff_not, beq_eq_false_iff_ne]
    at hwithin ⊢
  omega

/-- A program in which expressions nest too deeply is read up to the first one that does. -/
theorem parseTokens_of_deep {sts : List Stmt} {cut : Bool} {ts : List Token}
    (r : Rendering (.stmts sts) cut ts) (deep : maxNesting < r.nesting) :
    ∃ before token after, ts = before ++ token :: after ∧
      (r.openings 1 0).find? (fun opening => opening.depth == maxNesting + 1) =
        some ⟨maxNesting + 1, before.length⟩ ∧
      ∀ eof : Token.Of .eof, ∃ program, ∀ rest,
        parseTokens (before ++ token :: (rest ++ [eof.val])) =
          (program, [⟨token.pos, .tooDeep⟩]) := by
  have hleaves : 1 + maxNesting = maxNesting + 1 := Nat.add_comm 1 maxNesting
  -- If nothing began too deep, all expressions would fit into the levels.
  obtain ⟨opening, hfind⟩ :
      ∃ opening, (r.openings 1 0).find? (Opening.beyond maxNesting) = some opening := by
    apply Option.ne_none_iff_exists'.1
    intro hnone
    have hnesting := r.nesting_le_of_find? hleaves hnone
    omega
  rcases exists_givesUpWithin r hleaves hfind with
    ⟨before, token, after, htokens, hdepth, hindex, hup⟩
  have hopening : opening = ⟨maxNesting + 1, before.length⟩ := by
    rw [← hdepth, ← Nat.zero_add before.length, ← hindex]
  refine ⟨before, token, after, htokens, ?_, ?_⟩
  · rw [find?_depth_eq hfind hdepth, hopening]
  · intro eof
    rcases hup eof [] ends_isEof rfl with ⟨program, hprogram⟩
    refine ⟨⟨program⟩, ?_⟩
    intro rest
    let tokens := before ++ token :: (rest ++ [eof.val])
    have hlength : tokens.length = before.length + rest.length + 2 := by
      simp only [tokens, List.length_append, List.length_cons, List.length_nil]
      omega
    have hstart : (State.ofTokens tokens).tokens = tokens ∧
        (State.ofTokens tokens).report = .empty := by
      cases before <;> exact ⟨rfl, rfl⟩
    have hread := hprogram tokens.length (by omega) (Nat.le_of_eq hlength.symm) hstart.1
    rw [hstart.2] at hread
    simp only [parseTokens, Parse.program, tokens, hread]
    rfl

/-- A program of one expression begins with that one. -/
theorem parseTokens_of_deep_expr {e : Expr} {ts : List Token}
    (r : Rendering (.expr (.behind Precedence.lowest) e) false ts)
    (deep : maxNesting < r.nesting) :
    ∃ before token after, ts = before ++ token :: after ∧
      (r.openings 1 0).find? (fun opening => opening.depth == maxNesting + 1) =
        some ⟨maxNesting + 1, before.length⟩ ∧
      ∀ eof : Token.Of .eof, ∃ program, ∀ rest,
        parseTokens (before ++ token :: (rest ++ [eof.val])) =
          (program, [⟨token.pos, .tooDeep⟩]) := by
  rcases r.head_expr rfl with ⟨first, us, rfl, -⟩
  let stmts : Rendering (.stmts [.expr first e]) false (first :: us ++ []) :=
    .stmtsCons (.exprStmt r) .stmtsNil nofun
  have hopenings : stmts.openings 1 0 = r.openings 1 0 := List.append_nil _
  have hdeep : maxNesting < stmts.nesting := Nat.lt_of_lt_of_le deep (Nat.le_max_left _ _)
  have hprogram := parseTokens_of_deep stmts hdeep
  rwa [hopenings, List.append_nil] at hprogram

/-! ## Integers in parentheses -/

def parenthesized (n : Nat) (text : String) : String :=
  String.ofList (List.replicate n '(' ++ text.toList ++ List.replicate n ')')

/-- One pair of parentheses more. -/
theorem toList_parenthesized_succ (n : Nat) (text : String) :
    (parenthesized (n + 1) text).toList = '(' :: ((parenthesized n text).toList ++ [')']) := by
  simp [parenthesized, List.replicate_succ, ← List.replicate_succ']

/-- An integer in parentheses, as a text and as a rendering. -/
theorem exists_rendering_parenthesized {digits : String} {value : Int64}
    (numeral : Numeral digits value) (n : Nat) : ∀ pos : Pos,
    ∃ (token : Token) (ts : List Token), Spelled pos (parenthesized n digits).toList ts ∧
      ∃ r : Rendering (.expr (.behind Precedence.lowest) (.int token value)) false ts,
        r.nesting = n + 1 := by
  -- Induction on the number of parentheses, at every place: the inside starts behind the first one.
  induction n with
  | zero =>
      intro pos
      let literal : Token.Of .int := ⟨⟨.int, digits, pos⟩, rfl⟩
      have hspelled : Spelled pos (parenthesized 0 digits).toList [literal.val] := by
        have htext : (parenthesized 0 digits).toList = digits.toList := by simp [parenthesized]
        rw [htext]
        exact Lexeme.spelled_number numeral.1 pos
      exact ⟨literal.val, _, hspelled, .plain trivial (.int literal value numeral), rfl⟩
  | succ n ih =>
      intro pos
      rcases ih (pos.after '(') with ⟨token, ts, hspelled, r, hr⟩
      let opening : Token.Of .openParen := ⟨⟨.openParen, "(", pos⟩, rfl⟩
      let closing : Token.Of .closeParen :=
        ⟨⟨.closeParen, ")", (pos.after '(').afterAll (parenthesized n digits).toList⟩, rfl⟩
      refine ⟨token, opening.val :: (ts ++ [closing.val]), ?_, .parens opening r closing, ?_⟩
      · rw [toList_parenthesized_succ]
        exact (hspelled.append_sign rfl (.nil _)).sign rfl
      · rw [Rendering.nesting, hr]

/-- An integer in parentheses is read without a finding as long as there are fewer of them than
levels. -/
theorem parse_parenthesized {digits : String} {value : Int64} (numeral : Numeral digits value)
    (n : Nat) : (parse (parenthesized n digits)).2 = [] ↔ n < maxNesting := by
  rcases exists_rendering_parenthesized numeral n .start with ⟨token, ts, hspelled, r, hr⟩
  rw [parse, hspelled.tokenize_eq]
  by_cases hsmall : n < maxNesting
  · rcases r.head_expr rfl with ⟨first, us, rfl, -⟩
    rw [parseTokens_of_expr r (by omega) rfl]
    exact iff_of_true rfl hsmall
  · rcases parseTokens_of_deep_expr r (by omega) with ⟨before, token', after, rfl, -, hdeep⟩
    rcases hdeep ⟨⟨.eof, "", _⟩, rfl⟩ with ⟨program, hprogram⟩
    rw [List.append_assoc, List.cons_append, hprogram after]
    exact iff_of_false (List.cons_ne_nil _ _) hsmall

/-! ## The limit -/

/-- The limit on nested expressions is exact. An expression within it is read without a finding. One
that goes beyond it has a single finding, at the first token at which an expression lies one deeper
than the limit, and nothing behind that token matters. So an integer may stand in as many
parentheses as there are levels below its own. -/
theorem nesting_limit :
    (∀ ⦃e : Expr⦄ ⦃ts : List Token⦄ (r : Rendering (.expr (.behind Precedence.lowest) e) false ts),
      (r.nesting ≤ maxNesting → ∀ eof : Token.Of .eof, ∃ first,
        parseTokens (ts ++ [eof.val]) = (⟨[.expr first e]⟩, [])) ∧
      (maxNesting < r.nesting → ∃ before token after, ts = before ++ token :: after ∧
        (r.openings 1 0).find? (fun opening => opening.depth == maxNesting + 1) =
          some ⟨maxNesting + 1, before.length⟩ ∧
        ∀ eof : Token.Of .eof, ∃ program, ∀ rest,
          parseTokens (before ++ token :: (rest ++ [eof.val])) =
            (program, [⟨token.pos, .tooDeep⟩]))) ∧
    (∀ (n : Nat) ⦃digits : String⦄ ⦃value : Int64⦄, Numeral digits value →
      ((parse (parenthesized n digits)).2 = [] ↔ n < maxNesting)) ∧
    Diagnostic.Cause.message .tooDeep = "expression nesting too deep (limit 1024)" := by
  refine ⟨?_, ?_, by decide⟩
  · intro e ts r
    refine ⟨?_, parseTokens_of_deep_expr r⟩
    intro small eof
    rcases r.head_expr rfl with ⟨first, us, rfl, -⟩
    exact ⟨first, parseTokens_of_expr r small eof.property⟩
  · intro n digits value numeral
    exact parse_parenthesized numeral n

/-- An integer in as many parentheses as there are levels is one expression too many. -/
theorem nesting_limit_seven :
    Numeral "7" 7 ∧
      (∃ (seven : Token) (ts : List Token)
        (r : Rendering (.expr (.behind Precedence.lowest) (.int seven 7)) false ts),
        maxNesting < r.nesting ∧ ∃ before token after, ts = before ++ token :: after ∧
          (r.openings 1 0).find? (fun opening => opening.depth == maxNesting + 1) =
            some ⟨maxNesting + 1, before.length⟩ ∧
          ∀ eof : Token.Of .eof, ∃ program, ∀ rest,
            parseTokens (before ++ token :: (rest ++ [eof.val])) =
              (program, [⟨token.pos, .tooDeep⟩])) ∧
      (parse (parenthesized 1023 "7")).2 = [] ∧ (parse (parenthesized 1024 "7")).2 ≠ [] := by
  have hseven : Numeral "7" 7 := ⟨⟨by simp, by simp⟩, rfl⟩
  rcases exists_rendering_parenthesized hseven maxNesting .start with ⟨seven, ts, -, r, hr⟩
  have hdeep : maxNesting < r.nesting := by omega
  refine ⟨hseven, ⟨seven, ts, r, hdeep, (nesting_limit.1 r).2 hdeep⟩, ?_, ?_⟩
  · exact (nesting_limit.2.1 1023 hseven).2 (by decide)
  · intro hquiet
    exact absurd ((nesting_limit.2.1 1024 hseven).1 hquiet) (by decide)

end Parse
end Scriptlet
