import Scriptlet.Proofs.Grammar

/-!
# Where expressions begin

The expressions of a rendering in the order in which they begin. Each one is given by the number of
expressions it lies in, itself included, and by the number of tokens in front of it. What stands in
front of an operator belongs to the expression of the operator and begins none of its own.

- `Opening` : where an expression begins
- `Rendering.openings` : all expressions of a rendering, in order
- `Part.Leaves` : the levels that are left for the expressions inside a part
- `Rendering.nesting_le_of_openings` : no expression lies deeper than the deepest one that begins
-/

namespace Scriptlet

/-- Where an expression begins: how many expressions it lies in, itself included, and how many
tokens stand in front of it. -/
structure Opening where
  depth : Nat
  index : Nat
  deriving DecidableEq, Repr

/-- An expression of its own begins at every place but those in front of an operator. -/
def Place.opening : Place → Nat → Nat → List Opening
  | .front _, _, _ => []
  | .behind _, depth, index => [⟨depth, index⟩]

namespace Rendering

/-- The expressions of a rendering in the order in which they begin, if it lies at the given depth
and behind the given number of tokens. -/
def openings (depth index : Nat) :
    ∀ {part : Part} {cut : Bool} {ts : List Token}, Rendering part cut ts → List Opening
  | _, _, _, .ident .. | _, _, _, .int .. | _, _, _, .str .. => []
  | _, _, _, .trueWord .. | _, _, _, .falseWord .. => []
  | _, _, _, .unary _ _ operand => operand.openings (depth + 1) (index + 1)
  | _, _, _, @binary _ _ _ _ ts _ front _ _ behind =>
    front.openings depth index ++ behind.openings (depth + 1) (index + ts.length + 1)
  | _, _, _, @ifThen _ _ _ ts _ _ _ condition _ body =>
    condition.openings (depth + 1) (index + 2) ++
      body.openings (depth + 1) (index + ts.length + 3)
  | _, _, _, @ifElse _ _ _ _ ts us _ _ _ condition _ body _ otherBody =>
    condition.openings (depth + 1) (index + 2) ++
      (body.openings (depth + 1) (index + ts.length + 3) ++
        otherBody.openings (depth + 1) (index + ts.length + us.length + 4))
  | _, _, _, @whileDo _ _ _ ts _ _ _ condition _ body =>
    condition.openings (depth + 1) (index + 2) ++
      body.openings (depth + 1) (index + ts.length + 3)
  | _, _, _, @function _ _ _ ts _ _ _ _ _ body =>
    body.openings (depth + 1) (index + ts.length + 3)
  | _, _, _, @call _ _ ts _ front _ items _ =>
    front.openings depth index ++ items.openings (depth + 1) (index + ts.length + 1)
  | _, _, _, .array _ items _ => items.openings (depth + 1) (index + 1)
  | _, _, _, .hash _ items _ => items.openings (depth + 1) (index + 1)
  | _, _, _, @Rendering.index _ _ ts _ front _ inner _ =>
    front.openings depth index ++ inner.openings (depth + 1) (index + ts.length + 1)
  | _, _, _, @plain place _ _ _ _ inner =>
    place.opening depth index ++ inner.openings depth index
  | _, _, _, @parens place _ _ _ inner _ =>
    place.opening depth index ++ inner.openings (depth + 1) (index + 1)
  | _, _, _, .listNil => []
  | _, _, _, .listLast item => item.openings depth index
  | _, _, _, @listCons _ _ _ ts _ item _ rest =>
    item.openings depth index ++ rest.openings depth (index + ts.length + 1)
  | _, _, _, .entriesNil => []
  | _, _, _, @entriesLast _ _ ts _ key _ value =>
    key.openings depth index ++ value.openings depth (index + ts.length + 1)
  | _, _, _, @entriesCons _ _ _ ts us _ key _ value _ rest =>
    key.openings depth index ++
      (value.openings depth (index + ts.length + 1) ++
        rest.openings depth (index + ts.length + us.length + 2))
  | _, _, _, .define _ _ _ value => value.openings depth (index + 3)
  | _, _, _, .returnNothing _ => []
  | _, _, _, .returnValue _ value => value.openings depth (index + 1)
  | _, _, _, .breakLoop _ => []
  | _, _, _, .exprStmt value => value.openings depth index
  | _, _, _, .stmtsNil => []
  | _, _, _, .semicolon _ rest => rest.openings depth (index + 1)
  | _, _, _, @stmtsCons _ _ _ ts _ head rest _ =>
    head.openings depth index ++ rest.openings depth (index + ts.length)
  | _, _, _, .stmtsCut head => head.openings depth index
  | _, _, _, .block _ body _ => body.openings depth (index + 1)
  | _, _, _, .blockCut _ body => body.openings depth (index + 1)

end Rendering

def Opening.beyond (limit : Nat) (opening : Opening) : Bool :=
  limit < opening.depth

/-- The levels that a limit leaves for the expressions inside a part at some depth. What belongs to
an expression that has begun already has used up one for it. -/
def Part.Leaves (limit depth levels : Nat) : Part → Prop
  | .bare _ | .expr (.front _) _ => depth + levels = limit
  | _ => depth + levels = limit + 1

/-- A part of an expression that has begun lies one deeper, with the same levels left. -/
theorem Part.leaves_below {limit depth levels : Nat} (leaves : depth + levels = limit) :
    depth + 1 + levels = limit + 1 := by
  omega

/-- An expression that begins within the limit has a level for itself. -/
theorem Part.Leaves.opened {limit depth levels index : Nat} {place : Place} {e : Expr}
    (leaves : (Part.expr place e).Leaves limit depth levels)
    (shallow : ∀ opening ∈ place.opening depth index, opening.depth ≤ limit) :
    ∃ below, depth + below = limit := by
  cases place with
  | front => exact ⟨levels, leaves⟩
  | behind =>
      have hdepth : depth ≤ limit := shallow _ (List.mem_singleton_self _)
      exact ⟨limit - depth, Nat.add_sub_of_le hdepth⟩

namespace Rendering

/-- If no expression begins deeper than the limit, none lies deeper. -/
theorem nesting_le_of_openings {limit : Nat} {part : Part} {cut : Bool} {ts : List Token}
    (r : Rendering part cut ts) : ∀ {depth levels index : Nat}, part.Leaves limit depth levels →
      (∀ opening ∈ r.openings depth index, opening.depth ≤ limit) →
      r.nesting + depth ≤ limit + 1 := by
  -- Induction on the rendering, at every depth and behind any number of tokens.
  induction r with
  | ident | int | str | trueWord | falseWord =>
      intro depth levels index leaves _
      have hleaves : depth + levels = limit := leaves
      simp only [nesting]
      omega
  | unary _ _ _ ih | function _ _ _ _ _ ih | array _ _ _ ih | hash _ _ _ ih =>
      intro depth levels index leaves shallow
      have hinner := ih (Part.leaves_below leaves) shallow
      simp only [nesting]
      omega
  | binary _ _ _ _ ihfront ihbehind | call _ _ _ _ ihfront ihbehind
  | index _ _ _ _ ihfront ihbehind =>
      intro depth levels index leaves shallow
      have hboth := List.forall_mem_append.1 shallow
      have hfront := ihfront leaves hboth.1
      have hbehind := ihbehind (Part.leaves_below leaves) hboth.2
      simp only [nesting]
      omega
  | ifThen _ _ _ _ _ ihtest ihbody | whileDo _ _ _ _ _ ihtest ihbody =>
      intro depth levels index leaves shallow
      have hboth := List.forall_mem_append.1 shallow
      have htest := ihtest (Part.leaves_below leaves) hboth.1
      have hbody := ihbody (Part.leaves_below leaves) hboth.2
      simp only [nesting]
      omega
  | ifElse _ _ _ _ _ _ _ ihtest ihbody ihother =>
      intro depth levels index leaves shallow
      have hparts := List.forall_mem_append.1 shallow
      have hblocks := List.forall_mem_append.1 hparts.2
      have htest := ihtest (Part.leaves_below leaves) hparts.1
      have hbody := ihbody (Part.leaves_below leaves) hblocks.1
      have hother := ihother (Part.leaves_below leaves) hblocks.2
      simp only [nesting]
      omega
  | plain _ _ ih =>
      intro depth levels index leaves shallow
      have hboth := List.forall_mem_append.1 shallow
      rcases leaves.opened hboth.1 with ⟨below, hbelow⟩
      exact ih hbelow hboth.2
  | parens _ _ _ ih =>
      intro depth levels index leaves shallow
      have hboth := List.forall_mem_append.1 shallow
      rcases leaves.opened hboth.1 with ⟨below, hbelow⟩
      have hinner := ih (Part.leaves_below hbelow) hboth.2
      simp only [nesting]
      omega
  | listNil | entriesNil | returnNothing | breakLoop | stmtsNil =>
      intro depth levels index leaves _
      have hleaves : depth + levels = limit + 1 := leaves
      simp only [nesting]
      omega
  | listLast _ ih | define _ _ _ _ ih | returnValue _ _ ih | exprStmt _ ih | semicolon _ _ ih
  | stmtsCut _ ih | block _ _ _ ih | blockCut _ _ ih =>
      intro depth levels index leaves shallow
      exact ih leaves shallow
  | listCons _ _ _ ihfirst ihrest | entriesLast _ _ _ ihfirst ihrest
  | stmtsCons _ _ _ ihfirst ihrest =>
      intro depth levels index leaves shallow
      have hboth := List.forall_mem_append.1 shallow
      have hfirst := ihfirst leaves hboth.1
      have hrest := ihrest leaves hboth.2
      simp only [nesting]
      omega
  | entriesCons _ _ _ _ _ ihkey ihvalue ihrest =>
      intro depth levels index leaves shallow
      have hparts := List.forall_mem_append.1 shallow
      have hlater := List.forall_mem_append.1 hparts.2
      have hkey := ihkey leaves hparts.1
      have hvalue := ihvalue leaves hlater.1
      have hrest := ihrest leaves hlater.2
      simp only [nesting]
      omega

/-- If no expression begins deeper than the limit, what is left is enough for all of them. -/
theorem nesting_le_of_find? {limit depth levels index : Nat} {part : Part} {cut : Bool}
    {ts : List Token} (r : Rendering part cut ts) (leaves : part.Leaves limit depth levels)
    (shallow : (r.openings depth index).find? (Opening.beyond limit) = none) :
    r.nesting + depth ≤ limit + 1 := by
  apply r.nesting_le_of_openings leaves
  intro opening hopening
  simpa [Opening.beyond] using List.find?_eq_none.1 shallow opening hopening

end Rendering

end Scriptlet
