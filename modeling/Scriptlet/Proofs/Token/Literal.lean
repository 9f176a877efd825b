import Mathlib.Data.List.TakeWhile
import Scriptlet.Proofs.Token.Lines
import Scriptlet.Text.Quoted

/-!
# Literals as tokens

The texts of numbers, words, quoted texts and punctuation, and the tokens that they are read as.
What follows a literal must not go on with it; punctuation stands for itself in front of everything.

- `Spelled` : a text and its tokens, in front of whatever goes on with no lexeme
- `Lexeme.Whole` : a text that is one lexeme
- `Lexeme.spelled_digits`, `Lexeme.whole_quoted` : numbers and quoted texts
-/

namespace Scriptlet

open Text

/-! ## Texts in front of other texts -/

/-- A text that starts at the given place has the given tokens in front of every text that does not
go on with it. -/
def Spelled (pos : Pos) (cs : List Char) (ts : List Token) : Prop :=
  ∀ ⦃rest : List Char⦄ ⦃us : List Token⦄, Detached rest → Lexed (pos.afterAll cs) rest us →
    Lexed pos (cs ++ rest) (ts ++ us)

/-- Outside of gaps a text starts with a lexeme. -/
theorem spanGap_cons {c : Char} (comment : c ≠ '#') (blank : isBlank c = false)
    (rest : List Char) : spanGap (c :: rest) = ([], c :: rest) := by
  simp [spanGap, spanGapFrom, comment, blank]

/-- Punctuation that never begins a longer token is in no gap, and it goes on with nothing. -/
theorem ofSingle?_apart {c : Char} {kind : Token.Kind} (h : Token.Kind.ofSingle? c = some kind) :
    (c ≠ '#' ∧ isBlank c = false) ∧ isWordPart c = false ∧ c ≠ '=' := by
  unfold Token.Kind.ofSingle? at h
  split at h <;> first | decide | cases h

namespace Spelled

variable {pos : Pos} {cs ds : List Char} {ts us : List Token}

theorem nil (pos : Pos) : Spelled pos [] [] := by
  intro rest us _ hrest
  exact hrest

/-- Two texts, of which the second one does not go on with the first one. -/
theorem append (first : Spelled pos cs ts) (second : Spelled (pos.afterAll cs) ds us)
    (apart : ∀ rest, Detached rest → Detached (ds ++ rest)) :
    Spelled pos (cs ++ ds) (ts ++ us) := by
  intro rest vs hrest hlexed
  rw [Pos.afterAll_append] at hlexed
  rw [List.append_assoc, List.append_assoc]
  exact first (apart rest hrest) (second hrest hlexed)

/-- A blank in front of a text. -/
theorem blank (h : Spelled (pos.after ' ') cs ts) : Spelled pos (' ' :: cs) ts := by
  intro rest us hrest hlexed
  have hgap : spanGap (' ' :: (cs ++ rest)) =
      ([' '] ++ (spanGap (cs ++ rest)).1, (spanGap (cs ++ rest)).2) :=
    spanGapFrom_found false [' '] (cs ++ rest)
  exact (h hrest hlexed).of_gap hgap

/-- Punctuation in front of any text. -/
theorem sign {c : Char} {kind : Token.Kind} (single : Token.Kind.ofSingle? c = some kind)
    (h : Spelled (pos.after c) cs ts) : Spelled pos (c :: cs) (⟨kind, kind.name, pos⟩ :: ts) := by
  intro rest us hrest hlexed
  have hapart := ofSingle?_apart single
  have hgap := spanGap_cons hapart.1.1 hapart.1.2 (cs ++ rest)
  have hread : Lexeme.read c (cs ++ rest) = ⟨kind, kind.name, [c], cs ++ rest⟩ := by
    simp only [Lexeme.read, single]
  have hlexeme := @Lexed.lexeme pos (c :: (cs ++ rest)) c (cs ++ rest) (ts ++ us) (by rw [hgap])
  rw [hread, hgap] at hlexeme
  exact hlexeme (h hrest hlexed)

/-- Punctuation behind a text and in front of any other. -/
theorem append_sign {c : Char} {kind : Token.Kind} (first : Spelled pos cs ts)
    (single : Token.Kind.ofSingle? c = some kind)
    (second : Spelled ((pos.afterAll cs).after c) ds us) :
    Spelled pos (cs ++ c :: ds) (ts ++ ⟨kind, kind.name, pos.afterAll cs⟩ :: us) := by
  refine first.append (second.sign single) ?_
  intro rest _ d hd
  cases hd
  exact (ofSingle?_apart single).2

/-- A whole source has the end of file behind its tokens. -/
theorem tokenize_eq {src : String} (h : Spelled .start src.toList ts) :
    tokenize src = ts ++ [⟨.eof, "", Pos.start.afterAll src.toList⟩] := by
  have hends : Lexed (Pos.start.afterAll src.toList) [] [⟨.eof, "", _⟩] := .ends rfl
  have hall := @h [] _ nofun hends
  rw [List.append_nil] at hall
  exact hall.tokenize_eq

end Spelled

/-! ## Single lexemes -/

namespace Lexeme

/-- A text that is one lexeme as a whole. -/
structure Whole (c : Char) (cs : List Char) (kind : Token.Kind) (text : String) : Prop where
  gap : c ≠ '#' ∧ isBlank c = false
  read : read c cs = ⟨kind, text, c :: cs, []⟩

/-- A single token that is the whole text. -/
theorem Whole.spelled {c : Char} {cs : List Char} {kind : Token.Kind} {text : String}
    (h : Whole c cs kind text) (closed : kind ≠ .unterminated) (pos : Pos) :
    Spelled pos (c :: cs) [⟨kind, text, pos⟩] := by
  intro rest us hrest hlexed
  have hgap := spanGap_cons h.gap.1 h.gap.2 (cs ++ rest)
  have hkind : (Lexeme.read c cs).kind ≠ .unterminated := by
    rw [h.read]
    exact closed
  have hread := read_append hkind hrest
  rw [h.read] at hread
  have hlexeme := @Lexed.lexeme pos (c :: (cs ++ rest)) c (cs ++ rest) us (by rw [hgap])
  rw [hread, hgap] at hlexeme
  exact hlexeme hlexed

theorem whole_true : Whole 't' ['r', 'u', 'e'] .trueKw "true" :=
  ⟨by decide, rfl⟩

theorem whole_false : Whole 'f' ['a', 'l', 's', 'e'] .falseKw "false" :=
  ⟨by decide, rfl⟩

/-! ## Numbers -/

/-- A digit starts no other token than a number. -/
theorem digit_apart {c : Char} (h : c.isDigit = true) : (c ≠ '#' ∧ isBlank c = false) ∧
    Token.Kind.ofSingle? c = none ∧ Token.Kind.ofEquality? c = none ∧ c ≠ '"' ∧
      isWordStart c = false := by
  have hcodes : ∀ n < 58, 48 ≤ n → (Char.ofNat n ≠ '#' ∧ isBlank (Char.ofNat n) = false) ∧
      Token.Kind.ofSingle? (Char.ofNat n) = none ∧ Token.Kind.ofEquality? (Char.ofNat n) = none ∧
        Char.ofNat n ≠ '"' ∧ isWordStart (Char.ofNat n) = false := by
    decide
  simp only [Char.isDigit, Bool.and_eq_true, decide_eq_true_eq] at h
  rw [← Char.ofNat_toNat c]
  exact hcodes c.toNat (Nat.lt_succ_of_le h.2) h.1

/-- A row of digits is a number. -/
theorem whole_number {c : Char} {cs : List Char} (digits : ∀ d ∈ c :: cs, d.isDigit = true) :
    Whole c cs .int (String.ofList (c :: cs)) := by
  rcases digit_apart (digits c List.mem_cons_self) with
    ⟨hgap, hsingle, hequality, hquote, hword⟩
  have hdecimal (d : Char) (hd : d ∈ c :: cs) : isDecimal d = true := by
    rw [isDecimal_eq_isDigit]
    exact digits d hd
  have hall (d : Char) (hd : d ∈ cs) : isDecimal d = true := hdecimal d (List.mem_cons_of_mem _ hd)
  refine ⟨hgap, ?_⟩
  simp [read, hsingle, hequality, hquote, hword, hdecimal c List.mem_cons_self, number,
    List.takeWhile_eq_self_iff.2 hall, List.dropWhile_eq_nil_iff.2 hall]

/-- Digits are spelled as a number. -/
theorem spelled_number {text : String} (digits : Digits text) (pos : Pos) :
    Spelled pos text.toList [⟨.int, text, pos⟩] := by
  cases htext : text.toList with
  | nil => exact absurd htext digits.1
  | cons c cs =>
      have hdigits := digits.2
      rw [htext] at hdigits
      have hspelled := (whole_number hdigits).spelled (by decide) pos
      rwa [← htext, String.ofList_toList, htext] at hspelled

theorem spelled_digits (n : Nat) (pos : Pos) :
    Spelled pos (Nat.toDigits 10 n) [⟨.int, n.repr, pos⟩] := by
  have htext : n.repr.toList = Nat.toDigits 10 n := by
    rw [Nat.repr_eq_ofList_toDigits, String.toList_ofList]
  have hdigits : Digits n.repr := by
    rw [Digits, htext]
    exact ⟨Nat.toDigits_ne_nil, fun c hc => Nat.isDigit_of_mem_toDigits (by decide) (by decide) hc⟩
  rw [← htext]
  exact spelled_number hdigits pos

end Lexeme

/-! ## Quoted texts -/

/-- The characters that are quoted in a way that quoted texts are read. -/
def Text.isPlain (c : Char) : Bool :=
  isPrintable c || c == '\n' || c == '\t' || c == '\r'

/-- A plain character is read back from the way it is quoted. -/
theorem readQuoted_escapeChar {c : Char} (plain : isPlain c = true) (text read more : List Char) :
    readQuoted text read (escapeChar c ++ more) =
      readQuoted (c :: text) ((escapeChar c).reverse ++ read) more := by
  by_cases hspecial : c = '"' ∨ c = '\\'
  · rw [escapeChar, if_pos hspecial]
    rcases hspecial with rfl | rfl
    · rfl
    · rfl
  · rw [not_or] at hspecial
    by_cases hprintable : isPrintable c = true
    · rw [escapeChar, if_neg (not_or.2 hspecial), if_pos hprintable]
      -- A character that stands for itself is neither the quote nor the start of an escape.
      rw [List.singleton_append, readQuoted]
      · rfl
      · exact hspecial.1
      · exact fun _ _ hc _ => hspecial.2 hc
    · have hletter : c = '\n' ∨ c = '\t' ∨ c = '\r' := by
        simpa [isPlain, hprintable, or_assoc] using plain
      rcases hletter with rfl | rfl | rfl
      · rfl
      · rfl
      · rfl

/-- Escaping is undone by reading a string. -/
theorem readQuoted_escaped {cs : List Char} (plain : ∀ c ∈ cs, isPlain c = true)
    (text read : List Char) :
    readQuoted text read (cs.flatMap escapeChar ++ ['"']) =
      some (text.reverse ++ cs, read.reverse ++ cs.flatMap escapeChar ++ ['"'], []) := by
  induction cs generalizing text read with
  | nil => simp [readQuoted]
  | cons c rest ih =>
      rw [List.flatMap_cons, List.append_assoc, readQuoted_escapeChar (plain c List.mem_cons_self),
        ih fun d hd => plain d (List.mem_cons_of_mem _ hd)]
      simp

namespace Lexeme

/-- A quoted text is a single string token. -/
theorem whole_quoted {s : String} (plain : ∀ c ∈ s.toList, isPlain c = true) :
    Whole '"' (s.toList.flatMap escapeChar ++ ['"']) .str s := by
  refine ⟨by decide, ?_⟩
  have hread : read '"' (s.toList.flatMap escapeChar ++ ['"']) =
      quoted (s.toList.flatMap escapeChar ++ ['"']) := rfl
  rw [hread, quoted, readQuoted_escaped plain]
  simp

end Lexeme

end Scriptlet
