import Scriptlet.Token.Cursor

/-!
# Token streams

The tokens of a source text end with the end of file, which stands nowhere else, and every integer
token is a row of digits.

- `TokenStream` : lists of tokens with these properties
- `Lexeme.chars_append_rest` : a lexeme and what follows it make up the text
- `tokenStream_tokenize` : the tokens of a source text are a stream
-/

namespace Scriptlet

def Digits (text : String) : Prop :=
  text.toList ≠ [] ∧ ∀ c ∈ text.toList, c.isDigit = true

/-- Tokens up to the end of file, which stands only at the end. -/
inductive TokenStream : List Token → Prop
  | last (token : Token) (eof : token.kind = .eof) : TokenStream [token]
  | cons (token : Token) (rest : List Token) (inner : token.kind ≠ .eof)
      (digits : token.kind = .int → Digits token.text) (stream : TokenStream rest) :
      TokenStream (token :: rest)

namespace TokenStream

variable {token : Token} {ts us : List Token}

theorem ne_nil (h : TokenStream ts) : ts ≠ [] := by
  cases h <;> simp

/-- Only the last token is the end of file. -/
theorem eof_iff (h : TokenStream (token :: ts)) : token.kind = .eof ↔ ts = [] := by
  cases h with
  | last _ eof => simp [eof]
  | cons _ _ inner _ stream => simp [inner, stream.ne_nil]

/-- The text of a number is made of digits. -/
theorem digits_of_int (h : TokenStream (token :: ts)) (int : token.kind = .int) :
    Digits token.text := by
  cases h with
  | last _ eof => simp [eof] at int
  | cons _ _ _ digits _ => exact digits int

theorem tail (h : TokenStream (token :: ts)) (more : ts ≠ []) : TokenStream ts := by
  cases h with
  | last _ _ => exact absurd rfl more
  | cons _ _ _ _ stream => exact stream

/-- Whatever is left of a stream is a stream. -/
theorem of_suffix (h : TokenStream ts) (left : us <:+ ts) (more : us ≠ []) : TokenStream us := by
  induction h with
  | last token eof =>
      rcases List.suffix_cons_iff.1 left with rfl | hnil
      · exact .last token eof
      · exact absurd (List.suffix_nil.1 hnil) more
  | cons token rest inner digits stream ih =>
      rcases List.suffix_cons_iff.1 left with rfl | hrest
      · exact .cons token rest inner digits stream
      · exact ih hrest

end TokenStream

/-! ## Lexemes -/

/-- Nothing is lost between a string and what is behind it. -/
theorem readQuoted_append {text read cs out chars rest : List Char}
    (h : readQuoted text read cs = some (out, chars, rest)) :
    chars ++ rest = read.reverse ++ cs := by
  -- The characters read so far are kept in reverse; each turn moves some of `cs` over to them.
  fun_induction readQuoted text read cs with
  | case1 => simp at h
  | case2 text read tail =>
      simp only [Option.some.injEq, Prod.mk.injEq] at h
      rcases h with ⟨-, rfl, rfl⟩
      simp
  | case3 text read c tail decoded _ ih =>
      have := ih h
      simpa using this
  | case4 text read c tail _ ih =>
      have := ih h
      simpa using this
  | case5 text read c tail _ _ ih =>
      have := ih h
      simpa using this

theorem readQuoted_chars_ne_nil {text read cs out chars rest : List Char}
    (h : readQuoted text read cs = some (out, chars, rest)) : chars ≠ [] := by
  fun_induction readQuoted text read cs with
  | case1 => simp at h
  | case2 text read tail =>
      simp only [Option.some.injEq, Prod.mk.injEq] at h
      rcases h with ⟨-, rfl, -⟩
      simp
  | case3 _ _ _ _ _ _ ih => exact ih h
  | case4 _ _ _ _ _ ih => exact ih h
  | case5 _ _ _ _ _ _ ih => exact ih h

namespace Lexeme

/-- A lexeme and what follows it make up the text. -/
theorem chars_append_rest (c : Char) (cs : List Char) :
    (read c cs).chars ++ (read c cs).rest = c :: cs := by
  unfold read
  split
  · rfl
  · split
    · unfold equality
      split <;> rfl
    · split
      · next hc =>
          unfold quoted
          split
          · next heq =>
              have := readQuoted_append heq
              simpa [hc] using this
          · simp [hc]
      · split
        · simp [word, List.takeWhile_append_dropWhile]
        · split
          · simp [number, List.takeWhile_append_dropWhile]
          · rfl

/-- Every token takes at least one character. -/
theorem read_chars_ne_nil (c : Char) (cs : List Char) : (read c cs).chars ≠ [] := by
  unfold read
  split
  · simp
  · split
    · unfold equality
      split <;> simp
    · split
      · unfold quoted
        split
        · next heq => exact readQuoted_chars_ne_nil heq
        · simp
      · split
        · simp [word]
        · split <;> simp [number]

/-- A word is a keyword or an identifier. -/
theorem ofWord_ne (word : String) :
    Token.Kind.ofWord word ≠ .eof ∧ Token.Kind.ofWord word ≠ .int := by
  unfold Token.Kind.ofWord Token.Kind.keywords
  simp only [List.lookup_cons, List.lookup_nil]
  repeat' split
  all_goals simp

theorem isDecimal_eq_isDigit (c : Char) : isDecimal c = c.isDigit := by
  simp [isDecimal, Char.isDigit, Char.le_def]

theorem digits_number (c : Char) (cs : List Char) (h : isDecimal c = true) :
    Digits (number c cs).text := by
  refine ⟨by simp [number], ?_⟩
  intro d hd
  have hd' : d = c ∨ d ∈ cs.takeWhile isDecimal := by
    simpa [number] using hd
  rcases hd' with rfl | hmem
  · simpa [isDecimal_eq_isDigit] using h
  · have hall := List.all_eq_true.1 (List.all_takeWhile (p := isDecimal) (l := cs)) d hmem
    simpa [isDecimal_eq_isDigit] using hall

/-- No lexeme is the end of file, and an integer is a row of digits. -/
theorem read_kind (c : Char) (cs : List Char) :
    (read c cs).kind ≠ .eof ∧ ((read c cs).kind = .int → Digits (read c cs).text) := by
  unfold read
  split
  · next kind heq =>
      -- The tables of signs hold neither the end of file nor an integer.
      have hsingle : kind ≠ .eof ∧ kind ≠ .int := by
        unfold Token.Kind.ofSingle? at heq
        split at heq <;> cases heq <;> decide
      exact ⟨hsingle.1, fun hint => absurd hint hsingle.2⟩
  · split
    · next alone doubled heq =>
        have hpair : (alone ≠ .eof ∧ alone ≠ .int) ∧ doubled ≠ .eof ∧ doubled ≠ .int := by
          unfold Token.Kind.ofEquality? at heq
          split at heq <;> cases heq <;> decide
        unfold equality
        split
        · exact ⟨hpair.2.1, fun hint => absurd hint hpair.2.2⟩
        · exact ⟨hpair.1.1, fun hint => absurd hint hpair.1.2⟩
    · split
      · unfold quoted
        split <;> simp
      · split
        · exact ⟨(ofWord_ne _).1, fun hint => absurd hint (ofWord_ne _).2⟩
        · split
          · next hdecimal => exact ⟨by simp [number], fun _ => digits_number c cs hdecimal⟩
          · simp

end Lexeme

/-! ## Cursors -/

/-- Nothing is lost between a gap and what is behind it. -/
theorem spanGapFrom_append (comment : Bool) (gap cs : List Char) :
    (spanGapFrom comment gap cs).1 ++ (spanGapFrom comment gap cs).2 = gap.reverse ++ cs := by
  fun_induction spanGapFrom comment gap cs <;> simp_all

/-- A gap and what follows it make up the text. -/
theorem spanGap_append (cs : List Char) : (spanGap cs).1 ++ (spanGap cs).2 = cs := by
  simpa [spanGap] using spanGapFrom_append false [] cs

namespace Cursor

/-- Every token but the end of file takes at least one character. -/
theorem next_cases (cursor : Cursor) :
    (cursor.next.1.kind = .eof ∧ cursor.next.2.rest = []) ∨
      (cursor.next.1.kind ≠ .eof ∧ (cursor.next.1.kind = .int → Digits cursor.next.1.text) ∧
        cursor.next.2.rest.length < cursor.rest.length) := by
  have hgap := congrArg List.length (spanGap_append cursor.rest)
  have hrest : cursor.skipGap.rest = (spanGap cursor.rest).2 := rfl
  unfold next
  simp only
  split
  · next heq => exact .inl ⟨rfl, heq⟩
  · next c cs heq =>
      refine .inr ⟨(Lexeme.read_kind c cs).1, (Lexeme.read_kind c cs).2, ?_⟩
      -- The gap, the lexeme and the rest add up to the text, and the lexeme is not empty.
      have hread := congrArg List.length (Lexeme.chars_append_rest c cs)
      have hchars : (Lexeme.read c cs).chars ≠ [] := Lexeme.read_chars_ne_nil c cs
      have hpos := List.length_pos_iff.2 hchars
      rw [hrest] at heq
      simp only [List.length_append, List.length_cons, heq] at hgap hread
      simp only [moved]
      omega

/-- With room for one token a character and the end, the tokens ahead are a stream. -/
theorem tokenStream_tokensFrom (found : List Token) (fuel : Nat) (cursor : Cursor)
    (room : cursor.rest.length < fuel) :
    ∃ ts, cursor.tokensFrom found fuel = found.reverse ++ ts ∧ TokenStream ts := by
  induction fuel generalizing found cursor with
  | zero => omega
  | succ fuel ih =>
      rcases cursor.next_cases with ⟨heof, -⟩ | ⟨hinner, hdigits, hshort⟩
      · refine ⟨[cursor.next.1], ?_, .last _ heof⟩
        simp [tokensFrom, heof]
      · rcases ih (cursor.next.1 :: found) cursor.next.2 (by omega) with ⟨ts, hts, hstream⟩
        refine ⟨cursor.next.1 :: ts, ?_, .cons _ _ hinner hdigits hstream⟩
        simp [tokensFrom, hinner, hts]

end Cursor

/-- The tokens of a source text are a stream. -/
theorem tokenStream_tokenize (src : String) : TokenStream (tokenize src) := by
  rcases Cursor.tokenStream_tokensFrom [] (src.toList.length + 1) (.start src.toList)
    (by simp [Cursor.start]) with ⟨ts, hts, hstream⟩
  simpa [tokenize, hts] using hstream

end Scriptlet
