import Mathlib.Logic.Basic
import Scriptlet.Proofs.Parse.Brackets
import Scriptlet.Proofs.Parse.Completeness
import Scriptlet.Proofs.Parse.Soundness
import Scriptlet.Proofs.Token.Lines

/-!
# Programs that are put together

Two programs with a semicolon between them are one program, with the statements of both, unless
blocks are still open at the end of the first one. An input that needs no more lines has no open
blocks, so such inputs can be written one below the other, with semicolons on lines of their own.

- `Rendering.exists_mapPos` : a rendering at other places
- `Rendering.exists_append` : two renderings with a semicolon between them
- `Program.unplaced` : a program without the places of its tokens
- `Parse.parse_joinSources` : sources that are put together
-/

namespace Scriptlet

/-! ## Renderings at other places -/

def Part.mapTokens (f : Token → Token) : Part → Part
  | .bare e => .bare (e.mapTokens f)
  | .expr place e => .expr place (e.mapTokens f)
  | .list es => .list (mapTokensExprs f es)
  | .entries pairs => .entries (mapTokensPairs f pairs)
  | .stmt st => .stmt (st.mapTokens f)
  | .stmts sts => .stmts (mapTokensStmts f sts)
  | .block b => .block (b.mapTokens f)

section Places

variable (g : Pos → Pos)

def Token.Of.mapPos {kind : Token.Kind} (token : Token.Of kind) : Token.Of kind :=
  ⟨token.val.mapPos g, token.property⟩

/-- Whether an expression may stand in a place does not depend on its tokens. -/
theorem Place.admits_mapTokens {place : Place} {e : Expr} (f : Token → Token)
    (h : place.Admits e) : place.Admits (e.mapTokens f) := by
  cases place <;> cases e <;> exact h

/-- Nor does what may follow a statement. -/
theorem Stmt.mayPrecede_mapTokens {st : Stmt} {kind : Token.Kind} (f : Token → Token)
    (h : st.MayPrecede kind) : (st.mapTokens f).MayPrecede kind := by
  cases st <;> exact h

/-- A parameter list with other positions is the same list. -/
theorem ParamList.mapPos {params : List Ident} {ts : List Token} (h : ParamList params ts) :
    ParamList (params.map (Ident.mapToken (Token.mapPos g))) (ts.map (Token.mapPos g)) := by
  induction h with
  | nil => exact .nil
  | last name => exact .last (name.mapPos g)
  | cons name comma _ ih => exact .cons (name.mapPos g) (comma.mapPos g) ih

/-- A rendering whose tokens stand elsewhere renders the tree that keeps these tokens. -/
theorem Rendering.exists_mapPos {part : Part} {cut : Bool} {ts : List Token}
    (r : Rendering part cut ts) :
    ∃ r' : Rendering (part.mapTokens (Token.mapPos g)) cut (ts.map (Token.mapPos g)),
      r'.nesting = r.nesting := by
  induction r with
  | ident name => exact ⟨.ident (name.mapPos g), rfl⟩
  | int digits value numeral => exact ⟨.int (digits.mapPos g) value numeral, rfl⟩
  | str text => exact ⟨.str (text.mapPos g), rfl⟩
  | trueWord word => exact ⟨.trueWord (word.mapPos g), rfl⟩
  | falseWord word => exact ⟨.falseWord (word.mapPos g), rfl⟩
  | unary sign is_op _ ih =>
      rcases ih with ⟨operand, h⟩
      exact ⟨.unary (sign.mapPos g) is_op operand, congrArg (· + 1) h⟩
  | binary _ sign is_op _ ihfront ihbehind =>
      rcases ihfront with ⟨front, hfront⟩
      rcases ihbehind with ⟨behind, hbehind⟩
      rw [List.map_append]
      exact ⟨.binary front (sign.mapPos g) is_op behind,
        congrArg₂ (fun m n => max m (n + 1)) hfront hbehind⟩
  | ifThen word opening _ closing _ ihtest ihyes =>
      rcases ihtest with ⟨test, htest⟩
      rcases ihyes with ⟨yes, hyes⟩
      rw [List.map_cons, List.map_cons, List.map_append]
      exact ⟨.ifThen (word.mapPos g) (opening.mapPos g) test (closing.mapPos g) yes,
        congrArg₂ (fun m n => max m n + 1) htest hyes⟩
  | ifElse word opening _ closing _ other _ ihtest ihyes ihno =>
      rcases ihtest with ⟨test, htest⟩
      rcases ihyes with ⟨yes, hyes⟩
      rcases ihno with ⟨no, hno⟩
      rw [List.map_cons, List.map_cons, List.map_append, List.map_cons, List.map_append]
      exact ⟨.ifElse (word.mapPos g) (opening.mapPos g) test (closing.mapPos g) yes
        (other.mapPos g) no,
        congrArg₂ (fun m n => max m n + 1) htest (congrArg₂ max hyes hno)⟩
  | whileDo word opening _ closing _ ihtest ihbody =>
      rcases ihtest with ⟨test, htest⟩
      rcases ihbody with ⟨body, hbody⟩
      rw [List.map_cons, List.map_cons, List.map_append]
      exact ⟨.whileDo (word.mapPos g) (opening.mapPos g) test (closing.mapPos g) body,
        congrArg₂ (fun m n => max m n + 1) htest hbody⟩
  | function word opening names closing _ ih =>
      rcases ih with ⟨body, h⟩
      rw [List.map_cons, List.map_cons, List.map_append]
      exact ⟨.function (word.mapPos g) (opening.mapPos g) (names.mapPos g) (closing.mapPos g) body,
        congrArg (· + 1) h⟩
  | call _ opening _ closing ihfront ihitems =>
      rcases ihfront with ⟨front, hfront⟩
      rcases ihitems with ⟨items, hitems⟩
      rw [List.map_append, List.map_cons, List.map_append]
      exact ⟨.call front (opening.mapPos g) items (closing.mapPos g),
        congrArg₂ (fun m n => max m (n + 1)) hfront hitems⟩
  | array opening _ closing ih =>
      rcases ih with ⟨items, h⟩
      rw [List.map_cons, List.map_append]
      exact ⟨.array (opening.mapPos g) items (closing.mapPos g), congrArg (· + 1) h⟩
  | hash opening _ closing ih =>
      rcases ih with ⟨items, h⟩
      rw [List.map_cons, List.map_append]
      exact ⟨.hash (opening.mapPos g) items (closing.mapPos g), congrArg (· + 1) h⟩
  | index _ opening _ closing ihfront ihkey =>
      rcases ihfront with ⟨front, hfront⟩
      rcases ihkey with ⟨key, hkey⟩
      rw [List.map_append, List.map_cons, List.map_append]
      exact ⟨.index front (opening.mapPos g) key (closing.mapPos g),
        congrArg₂ (fun m n => max m (n + 1)) hfront hkey⟩
  | plain admitted _ ih =>
      rcases ih with ⟨inner, h⟩
      exact ⟨.plain (Place.admits_mapTokens _ admitted) inner, h⟩
  | parens opening _ closing ih =>
      rcases ih with ⟨inner, h⟩
      rw [List.map_cons, List.map_append]
      exact ⟨.parens (opening.mapPos g) inner (closing.mapPos g), congrArg (· + 1) h⟩
  | listNil => exact ⟨.listNil, rfl⟩
  | listLast _ ih =>
      rcases ih with ⟨item, h⟩
      exact ⟨.listLast item, h⟩
  | listCons _ comma _ ihitem ihrest =>
      rcases ihitem with ⟨item, hitem⟩
      rcases ihrest with ⟨rest, hrest⟩
      rw [List.map_append]
      exact ⟨.listCons item (comma.mapPos g) rest, congrArg₂ max hitem hrest⟩
  | entriesNil => exact ⟨.entriesNil, rfl⟩
  | entriesLast _ colon _ ihkey ihvalue =>
      rcases ihkey with ⟨key, hkey⟩
      rcases ihvalue with ⟨value, hvalue⟩
      rw [List.map_append]
      exact ⟨.entriesLast key (colon.mapPos g) value, congrArg₂ max hkey hvalue⟩
  | entriesCons _ colon _ comma _ ihkey ihvalue ihrest =>
      rcases ihkey with ⟨key, hkey⟩
      rcases ihvalue with ⟨value, hvalue⟩
      rcases ihrest with ⟨rest, hrest⟩
      rw [List.map_append, List.map_cons, List.map_append]
      exact ⟨.entriesCons key (colon.mapPos g) value (comma.mapPos g) rest,
        congrArg₂ max (congrArg₂ max hkey hvalue) hrest⟩
  | define word name sign _ ih =>
      rcases ih with ⟨value, h⟩
      exact ⟨.define (word.mapPos g) (name.mapPos g) (sign.mapPos g) value, h⟩
  | returnNothing word => exact ⟨.returnNothing (word.mapPos g), rfl⟩
  | returnValue word _ ih =>
      rcases ih with ⟨value, h⟩
      exact ⟨.returnValue (word.mapPos g) value, h⟩
  | breakLoop word => exact ⟨.breakLoop (word.mapPos g), rfl⟩
  | exprStmt _ ih =>
      rcases ih with ⟨value, h⟩
      exact ⟨.exprStmt value, h⟩
  | stmtsNil => exact ⟨.stmtsNil, rfl⟩
  | semicolon sign _ ih =>
      rcases ih with ⟨rest, h⟩
      exact ⟨.semicolon (sign.mapPos g) rest, h⟩
  | @stmtsCons st sts cut ts us _ _ apart ihhead ihrest =>
      rcases ihhead with ⟨head, hhead⟩
      rcases ihrest with ⟨rest, hrest⟩
      rw [List.map_append]
      have hapart : ∀ next ∈ (us.map (Token.mapPos g)).head?,
          (st.mapTokens (Token.mapPos g)).MayPrecede next.kind := by
        intro next hnext
        rw [List.head?_map, Option.mem_def, Option.map_eq_some_iff] at hnext
        rcases hnext with ⟨token, htoken, rfl⟩
        exact Stmt.mayPrecede_mapTokens _ (apart token htoken)
      exact ⟨.stmtsCons head rest hapart, congrArg₂ max hhead hrest⟩
  | stmtsCut _ ih =>
      rcases ih with ⟨head, h⟩
      exact ⟨.stmtsCut head, h⟩
  | block opening _ closing ih =>
      rcases ih with ⟨body, h⟩
      rw [List.map_cons, List.map_append]
      exact ⟨.block (opening.mapPos g) body (closing.mapPos g), h⟩
  | blockCut opening _ ih =>
      rcases ih with ⟨body, h⟩
      exact ⟨.blockCut (opening.mapPos g) body, h⟩

end Places

/-! ## Semicolons between programs -/

/-- A semicolon may follow every statement. -/
theorem Stmt.mayPrecede_semicolon (st : Stmt) : st.MayPrecede .semicolon := by
  cases st with
  | returnNothing => exact .inl rfl
  | breakLoop => exact trivial
  | _ => exact rfl

/-- Statements, a semicolon and more statements. -/
theorem Rendering.exists_append {sts sts' : List Stmt} {cut : Bool} {us : List Token}
    (sign : Token.Of .semicolon) (second : Rendering (.stmts sts') cut us) :
    ∀ {ts : List Token} (first : Rendering (.stmts sts) false ts),
      ∃ r : Rendering (.stmts (sts ++ sts')) cut (ts ++ sign.val :: us),
        r.nesting = max first.nesting second.nesting
  | _, .stmtsNil => ⟨.semicolon sign second, (Nat.zero_max _).symm⟩
  | _, .semicolon other rest => by
      rcases exists_append sign second rest with ⟨r, hr⟩
      exact ⟨.semicolon other r, hr⟩
  | _, @stmtsCons st _ _ ts vs head rest apart => by
      rcases exists_append sign second rest with ⟨r, hr⟩
      have hapart : ∀ next ∈ (vs ++ sign.val :: us).head?, st.MayPrecede next.kind := by
        intro next hnext
        cases vs with
        | nil =>
            cases hnext
            rw [sign.property]
            exact st.mayPrecede_semicolon
        | cons token rest => exact apart next hnext
      rw [List.append_assoc]
      refine ⟨.stmtsCons head r hapart, ?_⟩
      simp only [nesting, hr, Nat.max_assoc]

namespace Parse

open Repl

/-- A text without diagnostics, and the statements in it. Where it is `cut` blocks are open at its
end. -/
structure Reads (cs : List Char) (sts : List Stmt) (cut : Bool) (ts : List Token) (eof : Token) :
    Prop where
  lexed : Lexed .start cs (ts ++ [eof])
  isEnd : eof.kind = .eof
  renders : Renders maxNesting (.stmts sts) cut ts

/-- A source without diagnostics renders the program it is read as. -/
theorem reads_of_quiet {src : String} (quiet : (parse src).2 = []) :
    ∃ cut ts eof, Reads src.toList (parse src).1.stmts cut ts eof := by
  have hlexed := lexed_tokenize src
  rcases program_sound (tokenStream_tokenize src) (clean_program_of_quiet quiet) with
    ⟨cut, ts, eof, htokens, heof, hrenders⟩
  rw [htokens] at hlexed
  exact ⟨cut, ts, eof, hlexed, heof, hrenders⟩

namespace Reads

variable {cs ds : List Char} {sts sts' : List Stmt} {cut : Bool} {ts us : List Token}
variable {eof eof' : Token}

/-- A source that renders a program is read as it, without diagnostics. -/
theorem parse_eq {src : String} (h : Reads src.toList sts cut ts eof) :
    parse src = (⟨sts⟩, []) := by
  rcases h.renders with ⟨r, hr⟩
  rw [parse, h.lexed.tokenize_eq]
  exact parseTokens_of_rendering r hr h.isEnd

/-- An input that needs no more lines has neither open blocks nor open quotes. -/
theorem of_complete {src : String} (h : Reads src.toList sts cut ts eof)
    (complete : Repl.incomplete src = false) :
    cut = false ∧ ∀ token ∈ ts ++ [eof], token.kind ≠ .unterminated := by
  rw [incomplete, h.lexed.tokenize_eq, Bool.or_eq_false_iff, decide_eq_false_iff_not] at complete
  refine ⟨?_, ?_⟩
  · have hbrackets : openBrackets (ts ++ [eof]) = openBrackets ts := by
      simp [openBrackets_append, openBrackets_cons, openBrackets_nil, h.isEnd, bracketWeight]
    rcases h.renders with ⟨r, -⟩
    rw [hbrackets] at complete
    cases cut with
    | false => rfl
    | true => exact absurd r.brackets complete.2
  · intro token htoken hkind
    have hopen : hasOpenText (ts ++ [eof]) = true :=
      List.any_eq_true.2 ⟨token, htoken, by rw [hkind]; rfl⟩
    rw [complete.1] at hopen
    cases hopen

/-- Two texts with a semicolon on a line of its own between them. -/
theorem append (first : Reads cs sts false ts eof)
    (closed : ∀ token ∈ ts ++ [eof], token.kind ≠ .unterminated)
    (second : Reads ds sts' cut us eof') :
    ∃ rows vs, Reads (cs ++ '\n' :: ';' :: '\n' :: ds)
      (sts ++ mapTokensStmts (Token.mapPos (Pos.below rows)) sts') cut vs
      (eof'.mapPos (Pos.below rows)) := by
  rcases first.lexed.append_semicolon closed second.lexed with ⟨sign, rows, hsign, hlexed⟩
  rcases first.renders with ⟨r, hr⟩
  rcases second.renders with ⟨r', hr'⟩
  rcases r'.exists_mapPos (Pos.below rows) with ⟨moved, hmoved⟩
  rcases Rendering.exists_append ⟨sign, hsign⟩ moved r with ⟨joined, hjoined⟩
  refine ⟨rows, _, ?_, second.isEnd, joined, ?_⟩
  · rw [List.dropLast_concat, List.map_append] at hlexed
    simpa using hlexed
  · rw [hjoined]
    exact Nat.max_le.2 ⟨hr, hmoved ▸ hr'⟩

end Reads

end Parse

/-! ## Any number of sources -/

/-- A token without its place. -/
def Token.unplaced : Token → Token :=
  Token.mapPos fun _ => .start

def Program.unplaced (program : Program) : Program :=
  program.mapTokens Token.unplaced

/-- Moving tokens is not seen once their positions are dropped. -/
theorem mapTokensStmts_unplaced (g : Pos → Pos) (sts : List Stmt) :
    mapTokensStmts Token.unplaced (mapTokensStmts (Token.mapPos g) sts) =
      mapTokensStmts Token.unplaced sts :=
  mapTokensStmts_mapTokensStmts Token.unplaced (Token.mapPos g) sts

def joinSources (sources : List String) : String :=
  "\n;\n".intercalate sources

/-- The first source is parted from the others by a semicolon on a line of its own. -/
theorem toList_joinSources_cons (src : String) {rest : List String} (h : rest ≠ []) :
    (joinSources (src :: rest)).toList =
      src.toList ++ '\n' :: ';' :: '\n' :: (joinSources rest).toList := by
  rw [joinSources, String.intercalate_cons_of_ne_nil h, String.toList_append, String.toList_append,
    List.append_assoc]
  rfl

namespace Parse

/-- Sources without diagnostics, all of them but the last one complete, are read as one. -/
theorem exists_reads_joinSources {sources : List String} (some : sources ≠ [])
    (quiet : ∀ src ∈ sources, (parse src).2 = [])
    (complete : ∀ src ∈ sources.dropLast, Repl.incomplete src = false) :
    ∃ sts cut ts eof, Reads (joinSources sources).toList sts cut ts eof ∧
      mapTokensStmts Token.unplaced sts =
        sources.flatMap fun src => (parse src).1.unplaced.stmts := by
  induction sources with
  | nil => exact absurd rfl some
  | cons src rest ih =>
      rcases reads_of_quiet (quiet src List.mem_cons_self) with ⟨cut, ts, eof, hsrc⟩
      by_cases hrest : rest = []
      · subst hrest
        exact ⟨_, cut, ts, eof, hsrc, (List.append_nil _).symm⟩
      · rw [List.dropLast_cons_of_ne_nil hrest] at complete
        rcases ih hrest (fun other hother => quiet other (List.mem_cons_of_mem _ hother))
          (fun other hother => complete other (List.mem_cons_of_mem _ hother)) with
          ⟨sts, cut', us, eof', hjoined, hsts⟩
        rcases hsrc.of_complete (complete src List.mem_cons_self) with ⟨rfl, hclosed⟩
        rcases hsrc.append hclosed hjoined with ⟨rows, vs, hboth⟩
        rw [← toList_joinSources_cons src hrest] at hboth
        refine ⟨_, cut', vs, _, hboth, ?_⟩
        rw [mapTokensStmts_append, mapTokensStmts_unplaced, hsts]
        rfl

/-- Sources without diagnostics, all but the last of them complete, are read joined as they are read
one after another. -/
theorem parse_joinSources {sources : List String} (some : sources ≠ [])
    (quiet : ∀ src ∈ sources, (parse src).2 = [])
    (complete : ∀ src ∈ sources.dropLast, Repl.incomplete src = false) :
    (parse (joinSources sources)).2 = [] ∧
      (parse (joinSources sources)).1.unplaced =
        ⟨sources.flatMap fun src => (parse src).1.unplaced.stmts⟩ := by
  rcases exists_reads_joinSources some quiet complete with ⟨sts, cut, ts, eof, hreads, hsts⟩
  rw [hreads.parse_eq]
  exact ⟨rfl, congrArg Program.mk hsts⟩

end Parse

end Scriptlet
