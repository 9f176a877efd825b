import Scriptlet.Proofs.Token.Forms

/-!
# Source texts divided into gaps and lexemes

Every source text is a row of lexemes with gaps between them, and in one way only: gaps hold blanks
and comments, each lexeme is the longest one of its form, and no lexeme starts like a gap. Its
tokens are those of the lexemes, each at the place where its lexeme starts, and the end of file.

- `Gap` : the blanks and comments in front of a text
- `Divided` : a text in pieces, and its tokens
- `Lexed.divided`, `Divided.lexed` : the tokens of a text are those of its pieces
- `Cursor.offset_lt_next`, `Cursor.next_next` : the single steps through a text
- `tokenize_divides` : every source text is divided, and nothing of it is lost
-/

namespace Scriptlet

open Text

/-! ## Gaps -/

/-- A gap in front of `rest`: blanks and comments. A comment runs from `#` to the end of its line,
or to the end of the text. -/
inductive Gap (rest : List Char) : List Char → Prop
  | nil : Gap rest []
  | blank {c : Char} {gap : List Char} (blank : isBlank c = true) (more : Gap rest gap) :
      Gap rest (c :: gap)
  | comment {line gap : List Char} (inside : '\n' ∉ line)
      (ends : ∀ c ∈ (gap ++ rest).head?, c = '\n') (more : Gap rest gap) :
      Gap rest ('#' :: (line ++ gap))

/-- The rest of a comment that has begun, and the gap behind it. -/
inductive Commented (rest : List Char) : List Char → Prop
  | intro {line gap : List Char} (inside : '\n' ∉ line)
      (ends : ∀ c ∈ (gap ++ rest).head?, c = '\n') (more : Gap rest gap) :
      Commented rest (line ++ gap)

namespace Commented

variable {rest gap : List Char}

theorem begin (h : Commented rest gap) : Gap rest ('#' :: gap) := by
  cases h with
  | intro inside ends more => exact .comment inside ends more

theorem line (h : Gap rest gap) : Commented rest ('\n' :: gap) :=
  @intro rest [] ('\n' :: gap) List.not_mem_nil (by simp) (.blank (by decide) h)

theorem cons {c : Char} (other : c ≠ '\n') (h : Commented rest gap) : Commented rest (c :: gap) := by
  cases h with
  | @intro line gap inside ends more =>
      refine @intro rest (c :: line) gap ?_ ends more
      rw [List.mem_cons, not_or]
      exact ⟨other.symm, inside⟩

end Commented

section Skipping

variable (rest : List Char)

theorem spanGapFrom_hash :
    spanGapFrom false [] ('#' :: rest) =
      ('#' :: (spanGapFrom true [] rest).1, (spanGapFrom true [] rest).2) :=
  spanGapFrom_found true ['#'] rest

theorem spanGapFrom_blank {c : Char} (blank : isBlank c = true) :
    spanGapFrom false [] (c :: rest) =
      (c :: (spanGapFrom false [] rest).1, (spanGapFrom false [] rest).2) := by
  have hhash : c ≠ '#' := by
    rintro rfl
    revert blank
    decide
  have hstep : spanGapFrom false [] (c :: rest) = spanGapFrom false [c] rest := by
    simp [spanGapFrom, hhash, blank]
  exact hstep.trans (spanGapFrom_found false [c] rest)

theorem spanGapFrom_inside {c : Char} (inside : c ≠ '\n') :
    spanGapFrom true [] (c :: rest) =
      (c :: (spanGapFrom true [] rest).1, (spanGapFrom true [] rest).2) := by
  have hstep : spanGapFrom true [] (c :: rest) = spanGapFrom (c != '\n') [c] rest := rfl
  rw [hstep, bne_iff_ne.2 inside]
  exact spanGapFrom_found true [c] rest

end Skipping

/-- What is skipped in front of a lexeme is a gap; what is skipped inside a comment is the rest of
it and a gap. -/
theorem gap_spanGapFrom (cs : List Char) :
    Gap (spanGapFrom false [] cs).2 (spanGapFrom false [] cs).1 ∧
      Commented (spanGapFrom true [] cs).2 (spanGapFrom true [] cs).1 := by
  induction cs with
  | nil => exact ⟨.nil, @Commented.intro [] [] [] List.not_mem_nil (by simp) .nil⟩
  | cons c rest ih =>
      refine ⟨?_, ?_⟩
      · by_cases hhash : c = '#'
        · subst hhash
          rw [spanGapFrom_hash]
          exact ih.2.begin
        · by_cases hblank : isBlank c = true
          · rw [spanGapFrom_blank rest hblank]
            exact .blank hblank ih.1
          · have hstop : spanGapFrom false [] (c :: rest) = ([], c :: rest) := by
              simp [spanGapFrom, hhash, hblank]
            rw [hstop]
            exact .nil
      -- A line break ends the comment, and belongs to the gap behind it.
      · by_cases hline : c = '\n'
        · subst hline
          have hstep : spanGapFrom true [] ('\n' :: rest) = spanGapFrom false ['\n'] rest := rfl
          rw [hstep, spanGapFrom_found]
          exact .line ih.1
        · rw [spanGapFrom_inside rest hline]
          exact ih.2.cons hline

/-- Inside of a line a comment takes up every character. -/
theorem spanGapFrom_line {line : List Char} (inside : '\n' ∉ line) (cs : List Char) :
    spanGapFrom true [] (line ++ cs) =
      (line ++ (spanGapFrom true [] cs).1, (spanGapFrom true [] cs).2) := by
  induction line with
  | nil => rfl
  | cons c rest ih =>
      rw [List.mem_cons, not_or] at inside
      rw [List.cons_append, spanGapFrom_inside _ (Ne.symm inside.1), ih inside.2]
      rfl

/-- At the end of a line a comment is over. -/
theorem spanGapFrom_ends {cs : List Char} (ends : ∀ c ∈ cs.head?, c = '\n') :
    spanGapFrom true [] cs = spanGapFrom false [] cs := by
  cases cs with
  | nil => rfl
  | cons c rest =>
      have hline : c = '\n' := ends c rfl
      subst hline
      rfl

/-- A gap is skipped as a whole, if the text behind it starts with a lexeme. -/
theorem Gap.spanGap_eq {rest gap : List Char} (h : Gap rest gap)
    (start : ∀ c ∈ rest.head?, c ≠ '#' ∧ isBlank c = false) : spanGap (gap ++ rest) = (gap, rest) := by
  unfold spanGap
  induction h with
  | nil =>
      cases rest with
      | nil => rfl
      | cons c cs => exact spanGap_cons (start c rfl).1 (start c rfl).2 cs
  | @blank c gap blank _ ih =>
      rw [List.cons_append, spanGapFrom_blank _ blank, ih]
  | @comment line gap inside ends _ ih =>
      rw [List.cons_append, List.append_assoc, spanGapFrom_hash, spanGapFrom_line inside,
        spanGapFrom_ends ends, ih]

/-! ## Pieces -/

/-- A text that starts at the given place, divided into pieces, and its tokens. The text is a gap,
or it is a gap, the longest lexeme of some form and another text. -/
inductive Divided : Pos → List Char → List Token → Prop
  | ends {pos : Pos} {gap : List Char} (blank : Gap [] gap) :
      Divided pos gap [⟨.eof, "", pos.afterAll gap⟩]
  | lexeme {pos : Pos} {gap chars rest : List Char} {kind : Token.Kind} {text : String}
      {ts : List Token} (blank : Gap (chars ++ rest) gap) (form : Lexeme.Form chars kind text)
      (longest : ∀ c ∈ rest.head?, kind.takesUp c = false)
      (more : Divided ((pos.afterAll gap).afterAll chars) rest ts) :
      Divided pos (gap ++ (chars ++ rest)) (⟨kind, text, pos.afterAll gap⟩ :: ts)

/-- Whatever is lexed divides the text into gaps and tokens. -/
theorem Lexed.divided {pos : Pos} {cs : List Char} {ts : List Token} (h : Lexed pos cs ts) :
    Divided pos cs ts := by
  induction h with
  | @ends pos cs gap =>
      have hgap := (gap_spanGapFrom cs).1
      have hcs := spanGap_append cs
      have hends : Divided pos (spanGap cs).1 _ := .ends (gap ▸ hgap)
      rw [gap, List.append_nil] at hcs
      rw [hcs] at hends ⊢
      exact hends
  | @lexeme pos cs c rest ts gap _ ih =>
      have hgap := (gap_spanGapFrom cs).1
      rcases Lexeme.longest_read (spanGapFrom_cons gap) rest with ⟨hform, hlongest⟩
      have hpieces :
          (spanGap cs).1 ++ ((Lexeme.read c rest).chars ++ (Lexeme.read c rest).rest) = cs := by
        rw [Lexeme.chars_append_rest, ← gap, spanGap_append]
      have hblank : Gap ((Lexeme.read c rest).chars ++ (Lexeme.read c rest).rest) (spanGap cs).1 := by
        rw [Lexeme.chars_append_rest, ← gap]
        exact hgap
      have hlexeme := Divided.lexeme hblank hform hlongest ih
      rw [hpieces] at hlexeme
      exact hlexeme

/-- A division of the text into gaps and longest tokens is what is lexed. -/
theorem Divided.lexed {pos : Pos} {cs : List Char} {ts : List Token} (h : Divided pos cs ts) :
    Lexed pos cs ts := by
  induction h with
  | @ends pos gap blank =>
      have hgap := blank.spanGap_eq (by simp)
      rw [List.append_nil] at hgap
      have hends : Lexed pos gap _ := .ends (congrArg Prod.snd hgap)
      rw [hgap] at hends
      exact hends
  | @lexeme pos gap chars rest kind text ts blank form longest _ ih =>
      rcases form.read_eq longest with ⟨c, cs, rfl, hstart, hread⟩
      -- The lexeme starts outside of gaps, so the gap is all that is skipped in front of it.
      have hhead : ∀ d ∈ (c :: cs ++ rest).head?, d ≠ '#' ∧ isBlank d = false := by
        intro d hd
        cases hd
        exact hstart
      have hgap := blank.spanGap_eq hhead
      have hlexeme := @Lexed.lexeme pos (gap ++ (c :: cs ++ rest)) c (cs ++ rest) ts
        (congrArg Prod.snd hgap)
      rw [hread, hgap] at hlexeme
      exact hlexeme ih

/-! ## Steps -/

namespace Cursor

/-- Every token but the end of file leads on. -/
theorem offset_lt_next (cursor : Cursor) (inside : cursor.next.1.kind ≠ .eof) :
    cursor.offset < cursor.next.2.offset := by
  unfold next at inside ⊢
  simp only at inside ⊢
  split at inside
  · exact absurd rfl inside
  · next c rest hrest =>
      have hpos := List.length_pos_iff.2 (Lexeme.read_chars_ne_nil c rest)
      simp only [moved, skipGap]
      omega

/-- At the end of the text every further step gives the end of file and leads nowhere. -/
theorem next_next (cursor : Cursor) (atEnd : cursor.next.1.kind = .eof) :
    cursor.next.2.next = cursor.next := by
  cases hrest : cursor.skipGap.rest with
  | nil =>
      have hnext : cursor.next = (⟨.eof, "", cursor.skipGap.pos⟩, cursor.skipGap) := by
        simp only [next, hrest]
      rw [hnext]
      generalize cursor.skipGap = here at hrest ⊢
      rcases here with ⟨rest, pos, offset⟩
      cases hrest
      rfl
  | cons c rest =>
      have hkind := (Lexeme.read_kind c rest).1
      simp only [next, hrest] at atEnd
      exact absurd atEnd hkind

end Cursor

/-- The tokens of a text are what the steps through it give one after the other. -/
theorem Lexed.steps_eq {pos : Pos} {cs : List Char} {ts : List Token} (h : Lexed pos cs ts)
    (offset : Nat) : ((⟨cs, pos, offset⟩ : Cursor).steps ts.length).map Prod.fst = ts := by
  induction h generalizing offset with
  | @ends pos cs gap =>
      simp [Cursor.steps, Cursor.next, Cursor.skipGap, Cursor.moved, gap]
  | @lexeme pos cs c rest ts gap _ ih =>
      simp only [List.length_cons, Cursor.steps, Cursor.next, Cursor.skipGap, Cursor.moved, gap,
        List.map_cons]
      rw [ih]

/-- The end of the input comes last, and only there. -/
theorem TokenStream.eq_concat {ts : List Token} (h : TokenStream ts) :
    ∃ front last, ts = front ++ [last] ∧ last.kind = .eof ∧ ∀ token ∈ front, token.kind ≠ .eof := by
  induction h with
  | last token eof => exact ⟨[], token, rfl, eof, List.forall_mem_nil _⟩
  | cons token rest inner _ _ ih =>
      rcases ih with ⟨front, last, rfl, heof, hfront⟩
      exact ⟨token :: front, last, rfl, heof, List.forall_mem_cons.2 ⟨inner, hfront⟩⟩

/-! ## Source texts -/

/-- The tokens of a source text are those of the one way to divide it into gaps and lexemes. They
end with the only end of file, and are what the steps through the text give one after the other.
Each step that gives another token leads on, and behind the end of file no step changes anything.
The token of a lexeme depends on its characters alone. -/
theorem tokenize_divides (src : String) :
    (∀ ts, tokenize src = ts ↔ Divided .start src.toList ts) ∧
    (∃ front last, tokenize src = front ++ [last] ∧ last.kind = .eof ∧
      ∀ token ∈ front, token.kind ≠ .eof) ∧
    ((Cursor.start src.toList).steps (tokenize src).length).map Prod.fst = tokenize src ∧
    (∀ cursor : Cursor, (cursor.next.1.kind ≠ .eof → cursor.offset < cursor.next.2.offset) ∧
      (cursor.next.1.kind = .eof → cursor.next.2.next = cursor.next)) ∧
    ∀ chars kind kind' text text', Lexeme.Form chars kind text → Lexeme.Form chars kind' text' →
      kind = kind' ∧ text = text' := by
  refine ⟨?_, (tokenStream_tokenize src).eq_concat, (lexed_tokenize src).steps_eq 0, ?_, ?_⟩
  · intro ts
    constructor
    · rintro rfl
      exact (lexed_tokenize src).divided
    · intro h
      exact h.lexed.tokenize_eq
  · intro cursor
    exact ⟨cursor.offset_lt_next, cursor.next_next⟩
  · intro chars kind kind' text text' h h'
    exact h.unique h'

end Scriptlet
