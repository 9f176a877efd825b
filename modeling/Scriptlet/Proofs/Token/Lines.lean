import Scriptlet.Proofs.Token.Stream

/-!
# Texts that are put together

A text behind another one can change the tokens of that one only by going on with its last lexeme or
its last comment. A line break does neither, except inside quotes that are not closed, so the tokens
of two texts with a line break between them are those of the first and those of the second.

- `Lexed` : a text that starts at some place, and its tokens
- `Detached` : texts that go on with no lexeme in front of them
- `Lexeme.read_append` : a lexeme in front of such a text
- `Lexed.append_line` : two texts with a line break between them
- `Lexed.map_below` : a text some rows further down
- `Lexed.append_semicolon` : two texts with a semicolon between them
-/

namespace Scriptlet

open Text

/-! ## Texts and their tokens -/

/-- A text that starts at the given place, and its tokens with the end of file. The text is a gap,
or it is a gap, a lexeme and another text. -/
inductive Lexed : Pos → List Char → List Token → Prop
  | ends {pos : Pos} {cs : List Char} (gap : (spanGap cs).2 = []) :
      Lexed pos cs [⟨.eof, "", pos.afterAll (spanGap cs).1⟩]
  | lexeme {pos : Pos} {cs : List Char} {c : Char} {rest : List Char} {ts : List Token}
      (gap : (spanGap cs).2 = c :: rest)
      (more : Lexed ((pos.afterAll (spanGap cs).1).afterAll (Lexeme.read c rest).chars)
        (Lexeme.read c rest).rest ts) :
      Lexed pos cs (⟨(Lexeme.read c rest).kind, (Lexeme.read c rest).text,
        pos.afterAll (spanGap cs).1⟩ :: ts)

namespace Lexed

variable {pos : Pos} {cs : List Char} {ts : List Token}

/-- Behind a gap there are fewer characters, and behind a lexeme fewer still. -/
theorem length_rest_lt {c : Char} {rest : List Char} (gap : (spanGap cs).2 = c :: rest) :
    (Lexeme.read c rest).rest.length < cs.length := by
  have hgap := congrArg List.length (spanGap_append cs)
  have hread := congrArg List.length (Lexeme.chars_append_rest c rest)
  have hpos := List.length_pos_iff.2 (Lexeme.read_chars_ne_nil c rest)
  simp only [List.length_append, List.length_cons, gap] at hgap hread
  omega

/-- Reading a text with enough room gives its tokens. -/
theorem tokensFrom_eq (h : Lexed pos cs ts) (found : List Token) (offset : Nat) {fuel : Nat}
    (room : cs.length < fuel) :
    Cursor.tokensFrom found fuel ⟨cs, pos, offset⟩ = found.reverse ++ ts := by
  induction h generalizing found offset fuel with
  | @ends pos cs gap =>
      obtain ⟨fuel, rfl⟩ : ∃ n, fuel = n + 1 := ⟨fuel - 1, by omega⟩
      simp [Cursor.tokensFrom, Cursor.next, Cursor.skipGap, Cursor.moved, gap]
  | @lexeme pos cs c rest ts gap _ ih =>
      obtain ⟨fuel, rfl⟩ : ∃ n, fuel = n + 1 := ⟨fuel - 1, by omega⟩
      have hkind := (Lexeme.read_kind c rest).1
      have hroom : (Lexeme.read c rest).rest.length < fuel := by
        have hshort := length_rest_lt gap
        omega
      simp only [Cursor.tokensFrom, Cursor.next, Cursor.skipGap, Cursor.moved, gap, hkind, if_false]
      rw [ih _ _ hroom]
      simp

/-- Every text has tokens. -/
theorem exists_tokens (pos : Pos) (cs : List Char) : ∃ ts, Lexed pos cs ts := by
  induction hn : cs.length using Nat.strongRecOn generalizing pos cs with
  | _ n ih =>
      cases hgap : (spanGap cs).2 with
      | nil => exact ⟨_, .ends hgap⟩
      | cons c rest =>
          have hshort := length_rest_lt hgap
          rw [hn] at hshort
          rcases ih _ hshort _ _ rfl with ⟨ts, hmore⟩
          exact ⟨_, .lexeme hgap hmore⟩

/-- A text has no other tokens than those that are lexed. -/
theorem tokenize_eq {src : String} (h : Lexed .start src.toList ts) : tokenize src = ts :=
  h.tokensFrom_eq [] 0 (Nat.lt_succ_self _)

end Lexed

/-- The tokens of a text are lexed from its start. -/
theorem lexed_tokenize (src : String) : Lexed .start src.toList (tokenize src) := by
  rcases Lexed.exists_tokens .start src.toList with ⟨ts, hts⟩
  rw [hts.tokenize_eq]
  exact hts

/-! ## Gaps in front of other texts -/

/-- A gap ends where it did. -/
theorem spanGapFrom_append_of_cons {comment : Bool} {gap cs : List Char} {c : Char}
    {rest : List Char} (h : (spanGapFrom comment gap cs).2 = c :: rest) (more : List Char) :
    spanGapFrom comment gap (cs ++ more) =
      ((spanGapFrom comment gap cs).1, c :: (rest ++ more)) := by
  fun_induction spanGapFrom comment gap cs with
  | case1 => cases h
  | case2 gap d ds ih => simp_all [spanGapFrom]
  | case3 gap ds ih => simp_all [spanGapFrom]
  | case4 gap d ds _ _ hblank ih => simp_all [spanGapFrom]
  | case5 gap d ds hcomment hd hblank =>
      cases h
      simp_all [spanGapFrom]

/-- A line break belongs to the gap in front of it, and a comment ends there. -/
theorem spanGapFrom_append_line {comment : Bool} {gap cs : List Char}
    (h : (spanGapFrom comment gap cs).2 = []) (more : List Char) :
    spanGapFrom comment gap (cs ++ '\n' :: more) =
      spanGapFrom false ('\n' :: (cs.reverse ++ gap)) more := by
  fun_induction spanGapFrom comment gap cs with
  | case1 comment gap =>
      cases comment with
      | true => rfl
      | false => rfl
  | case2 gap d ds ih => simp_all [spanGapFrom]
  | case3 gap ds ih => simp_all [spanGapFrom]
  | case4 gap d ds _ _ hblank ih => simp_all [spanGapFrom]
  | case5 gap d ds hcomment hd hblank => cases h

/-- A gap that ends inside a text ends there with more behind it. -/
theorem spanGap_append_of_cons {cs : List Char} {c : Char} {rest : List Char}
    (h : (spanGap cs).2 = c :: rest) (more : List Char) :
    spanGap (cs ++ more) = ((spanGap cs).1, c :: (rest ++ more)) :=
  spanGapFrom_append_of_cons h more

/-- What is in a gap so far stays in front of it. -/
theorem spanGapFrom_found (comment : Bool) (gap cs : List Char) :
    spanGapFrom comment gap cs =
      (gap.reverse ++ (spanGapFrom comment [] cs).1, (spanGapFrom comment [] cs).2) := by
  induction cs generalizing comment gap with
  | nil => simp [spanGapFrom]
  | cons c rest ih =>
      simp only [spanGapFrom]
      split
      · rw [ih _ (c :: gap), ih _ [c]]
        simp
      · split
        · rw [ih _ (c :: gap), ih _ [c]]
          simp
        · split
          · rw [ih _ (c :: gap), ih _ [c]]
            simp
          · simp

/-! ## Lexemes in front of other texts -/

/-- A text that goes on with no lexeme in front of it. -/
def Detached (more : List Char) : Prop :=
  ∀ c ∈ more.head?, isWordPart c = false ∧ c ≠ '='

theorem span_append {p : Char → Bool} {more : List Char} (h : ∀ c ∈ more.head?, p c = false)
    (cs : List Char) :
    (cs ++ more).takeWhile p = cs.takeWhile p ∧
      (cs ++ more).dropWhile p = cs.dropWhile p ++ more := by
  induction cs with
  | nil =>
      cases more with
      | nil => exact ⟨rfl, rfl⟩
      | cons c rest =>
          have hc : p c = false := h c rfl
          simp [hc]
  | cons c rest ih =>
      by_cases hc : p c = true
      · simp [hc, ih]
      · simp [hc]

/-- A string that is closed is so with more behind it. -/
theorem readQuoted_append_of_some {text read cs out chars rest : List Char}
    (h : readQuoted text read cs = some (out, chars, rest)) (more : List Char) :
    readQuoted text read (cs ++ more) = some (out, chars, rest ++ more) := by
  fun_induction readQuoted text read cs with
  | case1 => cases h
  | case2 text read tail =>
      cases h
      rfl
  | case3 text read c tail decoded hc ih =>
      have htail := ih h
      simp only [List.cons_append, readQuoted, hc]
      exact htail
  | case4 text read c tail hc ih =>
      have htail := ih h
      simp only [List.cons_append, readQuoted, hc]
      exact htail
  | case5 text read c tail hquote hescape ih =>
      have htail := ih h
      -- A backslash at the very end has nothing to stand for, and no quote behind it.
      have hne : c ≠ '\\' := by
        rintro rfl
        cases tail with
        | nil => cases h
        | cons d ds => exact hescape d ds rfl rfl
      rw [List.cons_append, readQuoted]
      · exact htail
      · exact hquote
      · exact fun _ _ hc _ => hne hc

namespace Lexeme

theorem equality_append (alone doubled : Token.Kind) (c : Char) (cs : List Char) {more : List Char}
    (h : Detached more) :
    equality alone doubled c (cs ++ more) =
      { equality alone doubled c cs with rest := (equality alone doubled c cs).rest ++ more } := by
  cases cs with
  | nil =>
      cases more with
      | nil => rfl
      | cons d ds =>
          have hd : d ≠ '=' := (h d rfl).2
          simp [equality, hd]
  | cons d ds =>
      by_cases hd : d = '='
      · subst hd
        rfl
      · simp [equality, hd]

/-- A word does not go on behind a character that belongs to none. -/
theorem word_append (c : Char) (cs : List Char) {more : List Char} (h : Detached more) :
    word c (cs ++ more) = { word c cs with rest := (word c cs).rest ++ more } := by
  have hspan := span_append (fun d hd => (h d hd).1) cs
  simp only [word, hspan]

/-- Nor does a number. -/
theorem number_append (c : Char) (cs : List Char) {more : List Char} (h : Detached more) :
    number c (cs ++ more) = { number c cs with rest := (number c cs).rest ++ more } := by
  have hdecimal : ∀ d ∈ more.head?, isDecimal d = false := by
    intro d hd
    have hpart := (h d hd).1
    rw [isWordPart, Bool.or_eq_false_iff] at hpart
    exact hpart.2
  have hspan := span_append hdecimal cs
  simp only [number, hspan]

/-- A closed string does not go on, whatever follows. -/
theorem quoted_append {cs : List Char} (closed : (quoted cs).kind ≠ .unterminated)
    (more : List Char) :
    quoted (cs ++ more) = { quoted cs with rest := (quoted cs).rest ++ more } := by
  unfold quoted at closed ⊢
  cases hread : readQuoted [] ['"'] cs with
  | none =>
      simp only [hread] at closed
      exact absurd rfl closed
  | some found =>
      rcases found with ⟨text, chars, rest⟩
      rw [readQuoted_append_of_some hread more]

/-- A lexeme stays the same in front of a text that does not go on with it, unless it is a quoted
text that is not closed. -/
theorem read_append {c : Char} {cs more : List Char} (closed : (read c cs).kind ≠ .unterminated)
    (h : Detached more) :
    read c (cs ++ more) = { read c cs with rest := (read c cs).rest ++ more } := by
  unfold read at closed ⊢
  cases hsingle : Token.Kind.ofSingle? c with
  | some kind => rfl
  | none =>
      cases hequality : Token.Kind.ofEquality? c with
      | some kinds => exact equality_append kinds.1 kinds.2 c cs h
      | none =>
          simp only [hsingle, hequality] at closed ⊢
          by_cases hquote : c = '"'
          · simp only [hquote, if_true] at closed ⊢
            exact quoted_append closed more
          · simp only [hquote, if_false]
            by_cases hword : isWordStart c = true
            · simp only [hword, if_true]
              exact word_append c cs h
            · by_cases hdecimal : isDecimal c = true
              · simp only [hword, hdecimal, if_true]
                exact number_append c cs h
              · simp [hword, hdecimal]

end Lexeme

/-! ## Two texts -/

/-- The position behind two texts is that behind the second one, from behind the first. -/
theorem Pos.afterAll_append (pos : Pos) (cs ds : List Char) :
    pos.afterAll (cs ++ ds) = (pos.afterAll cs).afterAll ds :=
  List.foldl_append

/-- A line break goes on with nothing. -/
theorem detached_line (more : List Char) : Detached ('\n' :: more) := by
  intro c hc
  cases hc
  decide

namespace Lexed

variable {pos : Pos} {cs ds : List Char} {ts us : List Token}

theorem ne_nil (h : Lexed pos cs ts) : ts ≠ [] := by
  cases h <;> exact List.cons_ne_nil _ _

/-- The first gap, the first lexeme and the rest are the whole text. -/
theorem afterAll_rest (pos : Pos) {c : Char} {rest : List Char} (gap : (spanGap cs).2 = c :: rest) :
    ((pos.afterAll (spanGap cs).1).afterAll (Lexeme.read c rest).chars).afterAll
      (Lexeme.read c rest).rest = pos.afterAll cs := by
  rw [← Pos.afterAll_append, Lexeme.chars_append_rest, ← gap, ← Pos.afterAll_append, spanGap_append]

/-- What stands in front of a text and belongs to its first gap adds no token. -/
theorem of_gap {before : List Char}
    (gap : spanGap cs = (before ++ (spanGap ds).1, (spanGap ds).2))
    (h : Lexed (pos.afterAll before) ds us) : Lexed pos cs us := by
  have hpos : (pos.afterAll before).afterAll (spanGap ds).1 = pos.afterAll (spanGap cs).1 := by
    rw [gap, Pos.afterAll_append]
  cases h with
  | ends hds =>
      rw [hpos]
      exact .ends (by rw [gap, hds])
  | lexeme hds more =>
      rw [hpos] at more ⊢
      exact .lexeme (by rw [gap, hds]) more

theorem spanGap_append_line (h : (spanGap cs).2 = []) (ds : List Char) :
    spanGap (cs ++ '\n' :: ds) = ((cs ++ ['\n']) ++ (spanGap ds).1, (spanGap ds).2) := by
  unfold spanGap at h ⊢
  rw [spanGapFrom_append_line h, spanGapFrom_found]
  simp

/-- A text in which all quotes are closed, a line break and another text: the end of file of the
first one gives way to the tokens of the second one. -/
theorem append_line (first : Lexed pos cs ts) (closed : ∀ token ∈ ts, token.kind ≠ .unterminated)
    (second : Lexed ((pos.afterAll cs).after '\n') ds us) :
    Lexed pos (cs ++ '\n' :: ds) (ts.dropLast ++ us) := by
  induction first with
  | @ends pos cs gap =>
      have hpos : pos.afterAll (cs ++ ['\n']) = (pos.afterAll cs).after '\n' :=
        Pos.afterAll_append pos cs ['\n']
      rw [← hpos] at second
      exact second.of_gap (spanGap_append_line gap ds)
  | @lexeme pos cs c rest ts gap more ih =>
      have hkind : (Lexeme.read c rest).kind ≠ .unterminated := closed _ List.mem_cons_self
      have hread := Lexeme.read_append hkind (detached_line ds)
      have hspan := spanGap_append_of_cons gap ('\n' :: ds)
      rw [← afterAll_rest pos gap] at second
      have hmore := ih (fun token htoken => closed token (List.mem_cons_of_mem _ htoken)) second
      rw [List.dropLast_cons_of_ne_nil more.ne_nil, List.cons_append]
      have hlexed := @Lexed.lexeme pos (cs ++ '\n' :: ds) c (rest ++ '\n' :: ds) (ts.dropLast ++ us)
        (by rw [hspan])
      rw [hread, hspan] at hlexed
      exact hlexed hmore

end Lexed

/-! ## Texts further down -/

namespace Pos

def below (rows : Nat) (pos : Pos) : Pos :=
  ⟨pos.row + rows, pos.col⟩

/-- Some rows further down, a character moves as far. -/
theorem after_below (rows : Nat) (pos : Pos) (c : Char) :
    (pos.below rows).after c = (pos.after c).below rows := by
  unfold after
  split
  · simp only [below, Nat.add_right_comm]
  · rfl

theorem afterAll_below (rows : Nat) (pos : Pos) (cs : List Char) :
    (pos.below rows).afterAll cs = (pos.afterAll cs).below rows := by
  induction cs generalizing pos with
  | nil => rfl
  | cons c rest ih =>
      have hrest := ih (pos.after c)
      rw [← after_below] at hrest
      exact hrest

end Pos

def Token.mapPos (g : Pos → Pos) (token : Token) : Token :=
  { token with pos := g token.pos }

/-- The tokens of a text some rows further down are those of the text, as far down. -/
theorem Lexed.map_below {pos : Pos} {cs : List Char} {ts : List Token} (h : Lexed pos cs ts)
    (rows : Nat) : Lexed (pos.below rows) cs (ts.map (Token.mapPos (Pos.below rows))) := by
  induction h with
  | @ends pos cs gap =>
      have hends : Lexed (pos.below rows) cs _ := .ends gap
      rw [Pos.afterAll_below] at hends
      exact hends
  | @lexeme pos cs c rest ts gap _ ih =>
      rw [← Pos.afterAll_below, ← Pos.afterAll_below] at ih
      have hlexeme : Lexed (pos.below rows) cs _ := .lexeme gap ih
      rw [Pos.afterAll_below] at hlexeme
      exact hlexeme

/-- Behind a line break a text starts in the first column of some row. -/
theorem Pos.after_line (pos : Pos) : pos.after '\n' = Pos.start.below pos.row := by
  simp [after, below, start, Nat.add_comm]

/-- Two texts with a semicolon on a line of its own between them. -/
theorem Lexed.append_semicolon {cs ds : List Char} {ts us : List Token}
    (first : Lexed .start cs ts) (closed : ∀ token ∈ ts, token.kind ≠ .unterminated)
    (second : Lexed .start ds us) :
    ∃ (sign : Token) (rows : Nat), sign.kind = .semicolon ∧
      Lexed .start (cs ++ '\n' :: ';' :: '\n' :: ds)
        (ts.dropLast ++ sign :: us.map (Token.mapPos (Pos.below rows))) := by
  have hsign (pos : Pos) : Lexed pos [';'] [⟨.semicolon, ";", pos⟩, ⟨.eof, "", pos.after ';'⟩] :=
    @Lexed.lexeme pos [';'] ';' [] _ rfl (.ends rfl)
  let line := (Pos.start.afterAll cs).after '\n'
  have hclosed : ∀ token ∈ [(⟨.semicolon, ";", line⟩ : Token), ⟨.eof, "", line.after ';'⟩],
      token.kind ≠ .unterminated := by
    simp
  have hdown := second.map_below (line.after ';').row
  rw [← Pos.after_line] at hdown
  have hbehind := (hsign line).append_line hclosed hdown
  exact ⟨⟨.semicolon, ";", line⟩, (line.after ';').row, rfl, first.append_line closed hbehind⟩

end Scriptlet
