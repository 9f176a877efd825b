import Scriptlet.Proofs.Parse.Joined
import Scriptlet.Proofs.Repl.Pending
import Scriptlet.Proofs.Token.Places

/-!
# Programs in several lines

An input is entered line by line, and after each line the loop decides whether it goes on. For a
program without diagnostics that decision is exact: the part in front of a line break needs more
lines just if the line break lies inside a quoted text or between two brackets that belong together.

- `Lexed.passed_or_ahead` : no lexeme of a text crosses a line break behind closed quotes
- `Lexed.exists_crossing` : quotes that are open in front of a line break are closed behind it
- `Repl.InsideText`, `Repl.InsideBrackets` : where a place lies in a source text
- `Repl.incomplete_iff_inside` : which lines of a program need further ones
-/

namespace Scriptlet

open Text

/-! ## Quotes in front of a line break -/

namespace Lexeme

/-- Only a quote starts a lexeme that is not closed. -/
theorem quote_of_unterminated {c : Char} {cs : List Char} (h : (read c cs).kind = .unterminated) :
    c = '"' := by
  have hsign (kind : Token.Kind) (sign : kind.isSign = true) : kind ≠ .unterminated := by
    rintro rfl
    cases sign
  unfold read at h
  split at h
  · next kind hsingle => exact absurd h (hsign kind (isSign_of_ofSingle? hsingle).1)
  · split at h
    · next alone doubled hequality =>
        rcases isSign_of_ofEquality? hequality with ⟨⟨halone, -⟩, hdoubled, -⟩
        rcases kind_equality alone doubled c cs with hkind | hkind
        · exact absurd (hkind.symm.trans h) (hsign alone halone)
        · exact absurd (hkind.symm.trans h) (hsign doubled hdoubled)
    · split at h
      · next hquote => exact hquote
      · split at h
        · exact absurd (.inl h) (Repl.not_opens_ofWord _)
        · split at h <;> cases h

/-- Quotes that are not closed in a text, and closed by what stands behind it, reach into that. -/
theorem exists_beyond {c : Char} {cs more : List Char} (h : (read c cs).kind = .unterminated)
    (closed : (read c (cs ++ more)).kind ≠ .unterminated) :
    (read c (cs ++ more)).kind = .str ∧
      ∃ beyond, beyond ≠ [] ∧ (read c (cs ++ more)).chars = c :: (cs ++ beyond) := by
  cases quote_of_unterminated h
  have hread (ds : List Char) : read '"' ds = quoted ds := rfl
  rw [hread] at h closed ⊢
  unfold quoted at h closed ⊢
  cases hfound : readQuoted [] ['"'] (cs ++ more) with
  | none =>
      rw [hfound] at closed
      exact absurd rfl closed
  | some found =>
      rcases found with ⟨text, chars, rest⟩
      refine ⟨rfl, ?_⟩
      rcases readQuoted_eq_some_iff.1 hfound with ⟨body, hbody, rfl, hdecoded⟩
      -- A closing quote in front of the line break would have been found there.
      have hopen (front : List Char) : cs ≠ body ++ '"' :: front := by
        rintro rfl
        rw [hdecoded.readQuoted_eq] at h
        cases h
      have hpieces : body ++ ['"'] ++ rest = cs ++ more := by
        rw [hbody, List.append_assoc, List.singleton_append]
      rcases List.append_eq_append_iff.1 hpieces with ⟨front, hcs, -⟩ | ⟨beyond, hbeyond, -⟩
      · rw [List.append_assoc, List.singleton_append] at hcs
        exact absurd hcs (hopen front)
      · refine ⟨beyond, ?_, by rw [hbeyond]⟩
        rintro rfl
        rw [List.append_nil] at hbeyond
        exact hopen [] hbeyond.symm

end Lexeme

/-! ## Lexemes on both sides of a line break -/

/-- No step goes back behind the gap ahead. -/
theorem Cursor.pos_skipGap_le {cursor : Cursor} {n : Nat} :
    ∀ step ∈ cursor.steps n, cursor.skipGap.pos ≤ step.1.pos := by
  induction n generalizing cursor with
  | zero => exact List.forall_mem_nil _
  | succ n ih =>
      have hnext : cursor.next.1.pos = cursor.skipGap.pos ∧
          cursor.skipGap.pos ≤ cursor.next.2.skipGap.pos := by
        cases hrest : cursor.skipGap.rest with
        | nil =>
            have hend : cursor.next = (⟨.eof, "", cursor.skipGap.pos⟩, cursor.skipGap) := by
              simp only [next, hrest]
            rw [hend]
            exact ⟨rfl, Pos.le_afterAll _ _⟩
        | cons c rest =>
            rw [next_of_cons hrest]
            exact ⟨rfl, (Pos.le_afterAll _ _).trans (Pos.le_afterAll _ _)⟩
      intro step hstep
      rcases List.mem_cons.1 hstep with rfl | hlater
      · exact hnext.1.ge
      · exact hnext.2.trans (ih step hlater)

namespace Lexed

variable {pos : Pos} {cs : List Char} {ts : List Token}

/-- A text that starts with a lexeme behind a gap. -/
theorem exists_of_cons (h : Lexed pos cs ts) {c : Char} {rest : List Char}
    (gap : (spanGap cs).2 = c :: rest) :
    ∃ us, ts = ⟨(Lexeme.read c rest).kind, (Lexeme.read c rest).text,
        pos.afterAll (spanGap cs).1⟩ :: us ∧
      Lexed ((pos.afterAll (spanGap cs).1).afterAll (Lexeme.read c rest).chars)
        (Lexeme.read c rest).rest us := by
  cases h with
  | ends hends => cases gap.symm.trans hends
  | lexeme hgap more =>
      cases gap.symm.trans hgap
      exact ⟨_, rfl, more⟩

/-- A lexeme that is not an open quote is the same in front of a line break and another text. -/
theorem next_append_line {c : Char} {rest : List Char} (gap : (spanGap cs).2 = c :: rest)
    (closed : (Lexeme.read c rest).kind ≠ .unterminated) (pos : Pos) (offset : Nat)
    (ds : List Char) :
    ∃ offset', (⟨cs ++ '\n' :: ds, pos, offset⟩ : Cursor).next =
      (⟨(Lexeme.read c rest).kind, (Lexeme.read c rest).text, pos.afterAll (spanGap cs).1⟩,
        ⟨(Lexeme.read c rest).rest ++ '\n' :: ds,
          (pos.afterAll (spanGap cs).1).afterAll (Lexeme.read c rest).chars, offset'⟩) := by
  have hgap := spanGap_append_of_cons gap ('\n' :: ds)
  have hread := Lexeme.read_append closed (detached_line ds)
  simp only [Cursor.next, Cursor.skipGap, Cursor.moved, hgap, hread]
  exact ⟨_, rfl⟩

/-- A text with closed quotes and a line break behind it: each lexeme ends in front of the line
break, or starts behind it. -/
theorem passed_or_ahead (h : Lexed pos cs ts) (closed : ∀ token ∈ ts, token.kind ≠ .unterminated)
    (offset : Nat) (ds : List Char) (n : Nat) :
    ∀ step ∈ (⟨cs ++ '\n' :: ds, pos, offset⟩ : Cursor).steps n,
      step.2.pos ≤ pos.afterAll cs ∨ pos.afterAll cs < step.1.pos := by
  induction h generalizing offset n with
  | @ends pos cs gap =>
      intro step hstep
      -- The line break belongs to the gap, and all steps lead behind it.
      have hbehind := Cursor.pos_skipGap_le step hstep
      have hgap := spanGap_append_line gap ds
      simp only [Cursor.skipGap, Cursor.moved, hgap] at hbehind
      rw [Pos.afterAll_append, Pos.afterAll_append] at hbehind
      have hline : pos.afterAll cs < (pos.afterAll cs).afterAll ['\n'] := Pos.lt_afterAll _ (by simp)
      exact .inr (hline.trans_le ((Pos.le_afterAll _ _).trans hbehind))
  | @lexeme pos cs c rest ts gap more ih =>
      rcases next_append_line gap (closed _ List.mem_cons_self) pos offset ds with ⟨offset', hnext⟩
      cases n with
      | zero => exact List.forall_mem_nil _
      | succ n =>
          intro step hstep
          rw [← afterAll_rest pos gap]
          rw [Cursor.steps] at hstep
          simp only [hnext] at hstep
          rcases List.mem_cons.1 hstep with rfl | hlater
          · exact .inl (Pos.le_afterAll _ _)
          · exact ih (fun token htoken => closed token (List.mem_cons_of_mem _ htoken)) offset' n step
              hlater

/-- Quotes that are open in front of a line break are those of a text across it, if all quotes are
closed behind it. -/
theorem exists_crossing (h : Lexed pos cs ts) (opened : ∃ token ∈ ts, token.kind = .unterminated)
    {ds : List Char} {us : List Token} (whole : Lexed pos (cs ++ '\n' :: ds) us)
    (closed : ∀ token ∈ us, token.kind ≠ .unterminated) (offset : Nat) :
    ∃ n, ∃ step ∈ (⟨cs ++ '\n' :: ds, pos, offset⟩ : Cursor).steps n,
      step.1.kind = .str ∧ step.1.pos < pos.afterAll cs ∧ pos.afterAll cs < step.2.pos := by
  induction h generalizing us offset with
  | ends =>
      rcases opened with ⟨token, htoken, hkind⟩
      rw [List.mem_singleton.1 htoken] at hkind
      cases hkind
  | @lexeme pos cs c rest ts gap more ih =>
      have hgap := spanGap_append_of_cons gap ('\n' :: ds)
      rcases whole.exists_of_cons (congrArg Prod.snd hgap) with ⟨us, rfl, hmore⟩
      have hfirst := closed _ List.mem_cons_self
      by_cases hkind : (Lexeme.read c rest).kind = .unterminated
      -- The lexeme is the text across the line break.
      · rcases Lexeme.exists_beyond hkind hfirst with ⟨hstr, beyond, hne, hchars⟩
        have hnext := @Cursor.next_of_cons ⟨cs ++ '\n' :: ds, pos, offset⟩ _ _ (congrArg Prod.snd hgap)
        refine ⟨1, _, List.mem_cons_self, ?_⟩
        rw [hnext]
        simp only [Cursor.skipGap, Cursor.moved, hgap, hchars]
        have hcs : pos.afterAll cs = (pos.afterAll (spanGap cs).1).afterAll (c :: rest) := by
          rw [← gap, ← Pos.afterAll_append, spanGap_append]
        rw [hcs, ← List.cons_append, Pos.afterAll_append]
        exact ⟨hstr, Pos.lt_afterAll _ (List.cons_ne_nil _ _), Pos.lt_afterAll _ hne⟩
      · rcases next_append_line gap hkind pos offset ds with ⟨offset', hnext⟩
        have hread := Lexeme.read_append hkind (detached_line ds)
        rw [hread, hgap] at hmore
        have hopened : ∃ token ∈ ts, token.kind = .unterminated := by
          rcases opened with ⟨token, htoken, htokenKind⟩
          rcases List.mem_cons.1 htoken with rfl | hlater
          · exact absurd htokenKind hkind
          · exact ⟨token, hlater, htokenKind⟩
        rcases ih hopened hmore (fun token htoken => closed token (List.mem_cons_of_mem _ htoken))
          offset' with ⟨n, step, hstep, hcrosses⟩
        rw [afterAll_rest pos gap] at hcrosses
        refine ⟨n + 1, step, ?_, hcrosses⟩
        rw [Cursor.steps]
        simp only [hnext]
        exact List.mem_cons_of_mem _ hstep

/-- Every token but the end of file stands in front of the end of the text. -/
theorem pos_lt_afterAll (h : Lexed pos cs ts) : ∀ token ∈ ts.dropLast, token.pos < pos.afterAll cs := by
  induction h with
  | ends => exact List.forall_mem_nil _
  | @lexeme pos cs c rest ts gap more ih =>
      rw [List.dropLast_cons_of_ne_nil more.ne_nil, ← afterAll_rest pos gap]
      have hchars := Pos.lt_afterAll (pos.afterAll (spanGap cs).1) (Lexeme.read_chars_ne_nil c rest)
      exact List.forall_mem_cons.2 ⟨hchars.trans_le (Pos.le_afterAll _ _), ih⟩

end Lexed

/-! ## Lines of a program -/

namespace Repl

/-- A place inside a quoted text: behind its opening quote and in front of the end of its lexeme. -/
def InsideText (src : String) (place : Pos) : Prop :=
  ∃ n, ∃ step ∈ (Cursor.start src.toList).steps n,
    step.1.kind = .str ∧ step.1.pos < place ∧ place < step.2.pos

/-- A place between an opening bracket and the one that closes it. -/
def InsideBrackets (src : String) (place : Pos) : Prop :=
  ∃ front opening inner closing back,
    tokenize src = front ++ opening :: (inner ++ closing :: back) ∧
      opening.kind.closer? = some closing.kind ∧ Bracketed inner ∧
      opening.pos < place ∧ place < closing.pos

/-- A pair of brackets around a place is one that straddles it, if the tokens on both sides are
known. -/
theorem insideBrackets_iff {src : String} {place : Pos} {ts us : List Token}
    (tokens : tokenize src = ts ++ us) (passed : ∀ token ∈ ts, token.pos < place)
    (ahead : ∀ token ∈ us, place < token.pos) : InsideBrackets src place ↔ Straddled ts us := by
  constructor
  · rintro ⟨front, opening, inner, closing, back, heq, hcloses, hinner, hopening, hclosing⟩
    rw [tokens] at heq
    have hopen : opening ∉ us := fun hmem => absurd (ahead opening hmem) hopening.not_gt
    have hclose : closing ∉ ts := fun hmem => absurd (passed closing hmem) hclosing.not_gt
    rcases List.append_eq_append_iff.1 heq with ⟨more, rfl, rfl⟩ | ⟨more, rfl, hmore⟩
    · exact absurd (List.mem_append_right _ List.mem_cons_self) hopen
    · rcases List.append_eq_cons_iff.1 hmore.symm with ⟨rfl, rfl⟩ | ⟨rest, rfl, hrest⟩
      · exact absurd List.mem_cons_self hopen
      · rcases List.append_eq_append_iff.1 hrest with ⟨behind, rfl, hbehind⟩ | ⟨behind, rfl, rfl⟩
        · rcases List.append_eq_cons_iff.1 hbehind.symm with ⟨rfl, rfl⟩ | ⟨last, rfl, -⟩
          · exact ⟨front, opening, inner, [], closing, back, by rw [List.append_nil], rfl, hcloses,
              by rwa [List.append_nil]⟩
          · exact absurd (by simp) hclose
        · exact ⟨front, opening, rest, behind, closing, back, rfl, rfl, hcloses, hinner⟩
  · rintro ⟨front, opening, inner, more, closing, back, rfl, rfl, hcloses, hinner⟩
    refine ⟨front, opening, inner ++ more, closing, back, ?_, hcloses, hinner,
      passed opening (by simp), ahead closing (by simp)⟩
    rw [tokens]
    simp

/-- An input needs more lines if a quoted text is open in it, or a bracket. -/
theorem incomplete_iff {src : String} :
    incomplete src = true ↔
      (∃ token ∈ tokenize src, token.kind = .unterminated) ∨ 0 < openBrackets (tokenize src) := by
  simp only [incomplete, hasOpenText, Bool.or_eq_true, List.any_eq_true, beq_iff_eq,
    decide_eq_true_eq]

section Lines

variable {src before behind : String} (line : src = before ++ "\n" ++ behind)
include line

/-- A line break lies inside a quoted text just if there are open quotes in front of it. -/
theorem insideText_iff (closed : ∀ token ∈ tokenize src, token.kind ≠ .unterminated) :
    InsideText src (.behind before.toList) ↔
      ∃ token ∈ tokenize before, token.kind = .unterminated := by
  have hsrc : src.toList = before.toList ++ '\n' :: behind.toList := by simp [line]
  have hlexed := lexed_tokenize before
  unfold InsideText Cursor.start
  rw [hsrc, ← Pos.afterAll_start]
  constructor
  · rintro ⟨n, step, hstep, -, hpassed, hahead⟩
    by_contra hopen
    -- Without open quotes no lexeme crosses the line break.
    have hclosed : ∀ token ∈ tokenize before, token.kind ≠ .unterminated :=
      fun token htoken hkind => hopen ⟨token, htoken, hkind⟩
    rcases hlexed.passed_or_ahead hclosed 0 behind.toList n step hstep with hend | hstart
    · exact absurd hahead hend.not_gt
    · exact absurd hpassed hstart.not_gt
  · intro hopen
    have hwhole := lexed_tokenize src
    rw [hsrc] at hwhole
    exact hlexed.exists_crossing hopen hwhole closed 0

/-- Behind closed quotes a line break lies between brackets just if there are open ones in front of
it. -/
theorem insideBrackets_iff_open (closed : ∀ token ∈ tokenize before, token.kind ≠ .unterminated)
    (bracketed : Bracketed (tokenize src)) :
    InsideBrackets src (.behind before.toList) ↔ 0 < openBrackets (tokenize before) := by
  have hsrc : src.toList = before.toList ++ '\n' :: behind.toList := by simp [line]
  have hlexed := lexed_tokenize before
  rcases Lexed.exists_tokens ((Pos.start.afterAll before.toList).after '\n') behind.toList with
    ⟨us, hbehind⟩
  have hjoined := hlexed.append_line closed hbehind
  rw [← hsrc] at hjoined
  have htokens := hjoined.tokenize_eq
  -- The tokens of the first part stand in front of the line break, those of the second behind it.
  have hahead : ∀ token ∈ us, Pos.start.afterAll before.toList < token.pos := fun token htoken =>
    (Pos.lt_after _ _).trans_le (hbehind.le_pos token htoken)
  rw [← Pos.afterAll_start, insideBrackets_iff htokens hlexed.pos_lt_afterAll hahead]
  rcases (tokenStream_tokenize before).eq_concat with ⟨front, eof, hbefore, heof, -⟩
  have hcount : openBrackets (tokenize before) = openBrackets front := by
    rw [hbefore, openBrackets_append, openBrackets_cons, heof]
    exact Int.add_zero _
  rw [htokens, hbefore, List.dropLast_concat] at bracketed
  rw [hcount, hbefore, List.dropLast_concat]
  exact bracketed.straddled_iff

end Lines

/-- In a program without diagnostics that needs no more lines, the part in front of a line break
needs more lines just if the line break lies inside a quoted text, or between an opening bracket and
the one that closes it. -/
theorem incomplete_iff_inside {src before behind : String} (line : src = before ++ "\n" ++ behind)
    (quiet : (parse src).2 = []) (whole : incomplete src = false) :
    incomplete before = true ↔
      InsideText src (.behind before.toList) ∨ InsideBrackets src (.behind before.toList) := by
  rcases Parse.reads_of_quiet quiet with ⟨cut, ts, eof, hreads⟩
  rcases hreads.of_complete whole with ⟨rfl, hclosed⟩
  rcases hreads.renders with ⟨r, -⟩
  have hbracketed : Bracketed (ts ++ [eof]) :=
    Bracketed.append r.brackets (.plain (by rw [hreads.isEnd]; rfl) .nil)
  rw [← hreads.lexed.tokenize_eq] at hclosed hbracketed
  rw [incomplete_iff, insideText_iff line hclosed]
  by_cases hopen : ∃ token ∈ tokenize before, token.kind = .unterminated
  · exact iff_of_true (.inl hopen) (.inl hopen)
  · have hquotes : ∀ token ∈ tokenize before, token.kind ≠ .unterminated :=
      fun token htoken hkind => hopen ⟨token, htoken, hkind⟩
    rw [insideBrackets_iff_open line hquotes hbracketed]

/-- A line break behind a comment with a bracket in it, inside of a block. -/
theorem incomplete_iff_inside_block :
    let src := "let f = fn(x) \x7b\n  x[\"(\n\"] # ) \x7d\n\x7d"
    let before := "let f = fn(x) \x7b\n  x[\"(\n\"] # ) \x7d"
    let behind := "\x7d"
    src = before ++ "\n" ++ behind ∧ (parse src).2 = [] ∧ incomplete src = false ∧
      (incomplete before = true ↔
        InsideText src (.behind before.toList) ∨ InsideBrackets src (.behind before.toList)) := by
  intro src before behind
  have line : src = before ++ "\n" ++ behind := by decide
  have quiet : (parse src).2 = [] := by decide
  have whole : incomplete src = false := by decide
  exact ⟨line, quiet, whole, incomplete_iff_inside line quiet whole⟩

end Repl

end Scriptlet
