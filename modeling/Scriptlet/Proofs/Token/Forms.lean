import Scriptlet.Proofs.Token.Verbatim

/-!
# The forms of lexemes

A lexeme is a word, a row of digits, a sign, a text between quotes, a character outside the
language, or a quote that is never closed. Its form gives the kind and the text of its token. A
lexeme is the longest one of its form: it takes up every character behind it that its kind takes up.

- `Decoded` : the characters between two quotes and what they stand for
- `readQuoted_eq_some_iff` : quoted texts are read up to the first quote that closes them
- `Lexeme.Form` : the characters of a lexeme with the kind and the text of its token
- `Token.Kind.takesUp` : the characters that go on with a lexeme
- `Lexeme.longest_read`, `Lexeme.Form.read_eq` : reading gives the longest lexeme of a form, and
  nothing else
-/

namespace Scriptlet

open Text

/-! ## Quoted texts -/

/-- The characters between two quotes, and the text that they stand for. A backslash stands for
itself if the next character makes no escape of it; so none stands directly in front of the closing
quote. -/
inductive Decoded : List Char → List Char → Prop
  | nil : Decoded [] []
  | escape {c decoded : Char} {body text : List Char} (known : unescape? c = some decoded)
      (more : Decoded body text) : Decoded ('\\' :: c :: body) (decoded :: text)
  | plain {c : Char} {body text : List Char} (quote : c ≠ '"')
      (lone : c = '\\' → ∃ d ∈ body.head?, unescape? d = none) (more : Decoded body text) :
      Decoded (c :: body) (c :: text)

/-- What is read behind an opening quote up to a quote that closes it. -/
theorem decoded_of_readQuoted {text read cs out chars rest : List Char}
    (h : readQuoted text read cs = some (out, chars, rest)) :
    ∃ body more, cs = body ++ '"' :: rest ∧ Decoded body more ∧ out = text.reverse ++ more ∧
      chars = read.reverse ++ body ++ ['"'] := by
  fun_induction readQuoted text read cs with
  | case1 => cases h
  | case2 text read tail =>
      cases h
      exact ⟨[], [], rfl, .nil, by simp, by simp⟩
  | case3 text read c tail decoded known ih =>
      rcases ih h with ⟨body, more, rfl, hbody, rfl, rfl⟩
      exact ⟨'\\' :: c :: body, decoded :: more, rfl, .escape known hbody, by simp, by simp⟩
  | case4 text read c tail unknown ih =>
      rcases ih h with ⟨body, more, hcs, hbody, rfl, rfl⟩
      -- The character behind the backslash is not the closing quote, which would make an escape.
      have hlone : ∃ d ∈ body.head?, unescape? d = none := by
        cases body with
        | nil =>
            cases hcs
            cases unknown
        | cons d ds =>
            cases hcs
            exact ⟨c, rfl, unknown⟩
      exact ⟨'\\' :: body, '\\' :: more, by rw [hcs]; rfl, .plain (by decide) (fun _ => hlone) hbody,
        by simp, by simp⟩
  | case5 text read c tail quote escape ih =>
      rcases ih h with ⟨body, more, rfl, hbody, rfl, rfl⟩
      have hplain : c ≠ '\\' := by
        rintro rfl
        cases body with
        | nil => exact escape _ _ rfl rfl
        | cons d ds => exact escape _ _ rfl rfl
      exact ⟨c :: body, c :: more, rfl, .plain quote (fun hc => absurd hc hplain) hbody, by simp,
        by simp⟩

/-- A string is read up to its closing quote. -/
theorem Decoded.readQuoted_eq {body more : List Char} (h : Decoded body more)
    (text read rest : List Char) :
    readQuoted text read (body ++ '"' :: rest) =
      some (text.reverse ++ more, read.reverse ++ body ++ ['"'], rest) := by
  induction h generalizing text read with
  | nil => simp [readQuoted]
  | @escape c decoded body more known _ ih =>
      simp only [List.cons_append, readQuoted, known]
      rw [ih]
      simp
  | @plain c body more quote lone _ ih =>
      have hstep : readQuoted text read (c :: (body ++ '"' :: rest)) =
          readQuoted (c :: text) (c :: read) (body ++ '"' :: rest) := by
        by_cases hc : c = '\\'
        · rcases lone hc with ⟨d, hd, unknown⟩
          cases body with
          | nil => cases hd
          | cons e ds =>
              cases hd
              subst hc
              simp only [List.cons_append, readQuoted, unknown]
        · rw [readQuoted]
          · exact quote
          · exact fun _ _ h _ => hc h
      rw [List.cons_append, hstep, ih]
      simp

/-- A quoted text is read up to the first quote that closes it. -/
theorem readQuoted_eq_some_iff {cs text chars rest : List Char} :
    readQuoted [] ['"'] cs = some (text, chars, rest) ↔
      ∃ body, cs = body ++ '"' :: rest ∧ chars = '"' :: (body ++ ['"']) ∧ Decoded body text := by
  constructor
  · intro h
    rcases decoded_of_readQuoted h with ⟨body, more, hcs, hbody, rfl, rfl⟩
    exact ⟨body, hcs, rfl, hbody⟩
  · rintro ⟨body, rfl, rfl, hbody⟩
    exact hbody.readQuoted_eq [] ['"'] rest

/-! ## Forms -/

def Token.Kind.isSign : Token.Kind → Bool
  | .openBrace | .closeBrace | .openBracket | .closeBracket | .openParen | .closeParen | .colon
  | .semicolon | .comma | .minus | .plus | .star | .slash | .equal | .notEqual | .greater | .less
  | .greaterEqual | .lessEqual | .assign | .bang => true
  | _ => false

/-- A character outside the language: no gap holds it and no other lexeme starts with it. -/
structure Illegal (c : Char) : Prop where
  blank : isBlank c = false
  comment : c ≠ '#'
  quote : c ≠ '"'
  word : isWordStart c = false
  digit : isDecimal c = false
  sign : ∀ kind : Token.Kind, kind.isSign = true → kind.name.toList.head? ≠ some c

namespace Lexeme

/-- The characters of a lexeme, and the kind and the text of its token. Words, numbers and signs
have the lexeme itself as their text. -/
inductive Form : List Char → Token.Kind → String → Prop
  | word {c : Char} {cs : List Char} (start : isWordStart c = true)
      (parts : ∀ d ∈ cs, isWordPart d = true) :
      Form (c :: cs) (.ofWord (String.ofList (c :: cs))) (String.ofList (c :: cs))
  | number {c : Char} {cs : List Char} (digits : ∀ d ∈ c :: cs, isDecimal d = true) :
      Form (c :: cs) .int (String.ofList (c :: cs))
  | sign {kind : Token.Kind} (sign : kind.isSign = true) : Form kind.name.toList kind kind.name
  | quoted {body text : List Char} (decoded : Decoded body text) :
      Form ('"' :: (body ++ ['"'])) .str (String.ofList text)
  | illegal {c : Char} (illegal : Illegal c) : Form [c] .illegal (illegalText c)
  | unterminated {body : List Char}
      (unclosed : ∀ front rest text, body = front ++ '"' :: rest → ¬ Decoded front text) :
      Form ('"' :: body) .unterminated unterminatedText

end Lexeme

/-- The characters that a lexeme of the given kind takes up if they stand directly behind it. -/
def Token.Kind.takesUp : Token.Kind → Char → Bool
  | .letKw, c | .fnKw, c | .whileKw, c | .breakKw, c | .ifKw, c | .elseKw, c | .returnKw, c
  | .trueKw, c | .falseKw, c | .ident, c => isWordPart c
  | .int, c => isDecimal c
  | .assign, c | .bang, c | .less, c | .greater, c => c == '='
  | .unterminated, _ => true
  | _, _ => false

theorem Token.Kind.takesUp_ofWord (word : String) (c : Char) :
    (Token.Kind.ofWord word).takesUp c = isWordPart c := by
  unfold ofWord keywords
  simp only [List.lookup_cons, List.lookup_nil]
  repeat' split
  all_goals rfl

/-! ## Characters that start lexemes -/

def blankCodes : List Nat :=
  List.range' 0x09 5 ++ [0x20, 0x85, 0xA0, 0x1680] ++ List.range' 0x2000 11 ++
    [0x2028, 0x2029, 0x202F, 0x205F, 0x3000]

/-- Every blank has one of these codes. -/
theorem mem_blankCodes {c : Char} (h : isBlank c = true) : c.toNat ∈ blankCodes := by
  simp only [isBlank, Bool.or_eq_true, Bool.and_eq_true, decide_eq_true_eq, beq_iff_eq] at h
  simp only [blankCodes, List.mem_append, List.mem_range'_1, List.mem_cons, List.not_mem_nil, or_false]
  rcases h with (((((((((h | h) | h) | h) | h) | h) | h) | h) | h) | h) | h <;> omega

/-- A character that starts a word starts nothing else. -/
theorem wordStart_apart {c : Char} (h : isWordStart c = true) :
    (c ≠ '#' ∧ isBlank c = false) ∧ Token.Kind.ofSingle? c = none ∧
      Token.Kind.ofEquality? c = none ∧ c ≠ '"' := by
  have hblank : isBlank c = false := by
    refine Bool.eq_false_iff.2 fun hblank => ?_
    have hcodes : ∀ n ∈ blankCodes, isWordStart (Char.ofNat n) = false := by
      decide +kernel
    have hstart := hcodes c.toNat (mem_blankCodes hblank)
    rw [Char.ofNat_toNat, h] at hstart
    cases hstart
  refine ⟨⟨?_, hblank⟩, ?_, ?_, ?_⟩
  · rintro rfl
    revert h
    decide
  · unfold Token.Kind.ofSingle?
    split <;> first | rfl | (revert h; decide)
  · unfold Token.Kind.ofEquality?
    split <;> first | rfl | (revert h; decide)
  · rintro rfl
    revert h
    decide

/-- A sign of one character takes up nothing behind it. -/
theorem isSign_of_ofSingle? {c : Char} {kind : Token.Kind}
    (h : Token.Kind.ofSingle? c = some kind) :
    kind.isSign = true ∧ ∀ d, kind.takesUp d = false := by
  unfold Token.Kind.ofSingle? at h
  split at h <;> cases h <;> exact ⟨rfl, fun _ => rfl⟩

/-- A sign that can be doubled takes up an equals sign, once. -/
theorem isSign_of_ofEquality? {c : Char} {alone doubled : Token.Kind}
    (h : Token.Kind.ofEquality? c = some (alone, doubled)) :
    (alone.isSign = true ∧ ∀ d, alone.takesUp d = (d == '=')) ∧
      doubled.isSign = true ∧ ∀ d, doubled.takesUp d = false := by
  unfold Token.Kind.ofEquality? at h
  split at h <;> cases h <;> exact ⟨⟨rfl, fun _ => rfl⟩, rfl, fun _ => rfl⟩

/-- Every sign is in one of the two tables. -/
theorem sign_cases {kind : Token.Kind} (h : kind.isSign = true) :
    ∃ c, (c ≠ '#' ∧ isBlank c = false) ∧ (Token.Kind.ofSingle? c = some kind ∨
      Token.Kind.ofSingle? c = none ∧ ∃ alone doubled,
        Token.Kind.ofEquality? c = some (alone, doubled) ∧ (kind = alone ∨ kind = doubled)) := by
  cases kind with
  | openBrace => exact ⟨'\x7b', by decide, .inl rfl⟩
  | closeBrace => exact ⟨'\x7d', by decide, .inl rfl⟩
  | openBracket => exact ⟨'[', by decide, .inl rfl⟩
  | closeBracket => exact ⟨']', by decide, .inl rfl⟩
  | openParen => exact ⟨'(', by decide, .inl rfl⟩
  | closeParen => exact ⟨')', by decide, .inl rfl⟩
  | colon => exact ⟨':', by decide, .inl rfl⟩
  | semicolon => exact ⟨';', by decide, .inl rfl⟩
  | comma => exact ⟨',', by decide, .inl rfl⟩
  | plus => exact ⟨'+', by decide, .inl rfl⟩
  | minus => exact ⟨'-', by decide, .inl rfl⟩
  | star => exact ⟨'*', by decide, .inl rfl⟩
  | slash => exact ⟨'/', by decide, .inl rfl⟩
  | assign => exact ⟨'=', by decide, .inr ⟨rfl, _, _, rfl, .inl rfl⟩⟩
  | equal => exact ⟨'=', by decide, .inr ⟨rfl, _, _, rfl, .inr rfl⟩⟩
  | bang => exact ⟨'!', by decide, .inr ⟨rfl, _, _, rfl, .inl rfl⟩⟩
  | notEqual => exact ⟨'!', by decide, .inr ⟨rfl, _, _, rfl, .inr rfl⟩⟩
  | less => exact ⟨'<', by decide, .inr ⟨rfl, _, _, rfl, .inl rfl⟩⟩
  | lessEqual => exact ⟨'<', by decide, .inr ⟨rfl, _, _, rfl, .inr rfl⟩⟩
  | greater => exact ⟨'>', by decide, .inr ⟨rfl, _, _, rfl, .inl rfl⟩⟩
  | greaterEqual => exact ⟨'>', by decide, .inr ⟨rfl, _, _, rfl, .inr rfl⟩⟩
  | _ => cases h

/-- No sign begins with an illegal character. -/
theorem Illegal.not_sign {c : Char} (h : Illegal c) :
    Token.Kind.ofSingle? c = none ∧ Token.Kind.ofEquality? c = none := by
  refine ⟨Option.eq_none_iff_forall_ne_some.2 ?_, Option.eq_none_iff_forall_ne_some.2 ?_⟩
  · intro kind hkind
    refine h.sign kind (isSign_of_ofSingle? hkind).1 ?_
    rw [Lexeme.toList_name_of_ofSingle? hkind]
    rfl
  · rintro ⟨alone, doubled⟩ hkinds
    refine h.sign alone (isSign_of_ofEquality? hkinds).1.1 ?_
    rw [(Lexeme.toList_name_of_ofEquality? hkinds).1]
    rfl

/-- A character that is in no table and starts no other lexeme is outside the language. -/
theorem illegal_of_read {c : Char} (gap : c ≠ '#' ∧ isBlank c = false)
    (single : Token.Kind.ofSingle? c = none) (equality : Token.Kind.ofEquality? c = none)
    (quote : c ≠ '"') (word : isWordStart c = false) (digit : isDecimal c = false) : Illegal c := by
  refine ⟨gap.2, gap.1, quote, word, digit, ?_⟩
  intro kind hsign hhead
  rcases sign_cases hsign with ⟨d, -, hsingle | ⟨-, alone, doubled, hkinds, hkind⟩⟩
  · rw [Lexeme.toList_name_of_ofSingle? hsingle] at hhead
    cases hhead
    simp [single] at hsingle
  · rcases Lexeme.toList_name_of_ofEquality? hkinds with ⟨halone, hdoubled⟩
    rcases hkind with rfl | rfl
    · rw [halone] at hhead
      cases hhead
      simp [equality] at hkinds
    · rw [hdoubled] at hhead
      cases hhead
      simp [equality] at hkinds

/-! ## Reading and forms -/

namespace Lexeme

/-- A row that ends where the next character is another one. -/
theorem takeWhile_all {p : Char → Bool} {cs rest : List Char} (all : ∀ d ∈ cs, p d = true)
    (stop : ∀ d ∈ rest.head?, p d = false) :
    (cs ++ rest).takeWhile p = cs ∧ (cs ++ rest).dropWhile p = rest := by
  rcases span_append stop cs with ⟨htake, hdrop⟩
  rw [htake, hdrop, List.takeWhile_eq_self_iff.2 all, List.dropWhile_eq_nil_iff.2 all]
  exact ⟨rfl, rfl⟩

theorem head?_dropWhile (p : Char → Bool) (cs : List Char) :
    ∀ d ∈ (cs.dropWhile p).head?, p d = false := by
  intro d hd
  have h := List.head?_dropWhile_not p cs
  rw [hd] at h
  simpa using h

/-- A lexeme that has a form and takes up nothing of what stands behind it. -/
structure Longest (lexeme : Lexeme) : Prop where
  form : Form lexeme.chars lexeme.kind lexeme.text
  stops : ∀ d ∈ lexeme.rest.head?, lexeme.kind.takesUp d = false

theorem longest_single {c : Char} {kind : Token.Kind} (h : Token.Kind.ofSingle? c = some kind)
    (rest : List Char) : Longest ⟨kind, kind.name, [c], rest⟩ := by
  rcases isSign_of_ofSingle? h with ⟨hsign, htakes⟩
  rw [← toList_name_of_ofSingle? h]
  exact ⟨.sign hsign, fun d _ => htakes d⟩

/-- A sign that can be doubled is as long as it can be. -/
theorem longest_equality {c : Char} {alone doubled : Token.Kind}
    (h : Token.Kind.ofEquality? c = some (alone, doubled)) (rest : List Char) :
    Longest (equality alone doubled c rest) := by
  rcases isSign_of_ofEquality? h with ⟨⟨hsign, htakes⟩, hsign', htakes'⟩
  rcases toList_name_of_ofEquality? h with ⟨halone, hdoubled⟩
  unfold equality
  split
  · rw [← hdoubled]
    exact ⟨.sign hsign', fun d _ => htakes' d⟩
  · next hrest =>
      rw [← halone]
      refine ⟨.sign hsign, fun d hd => ?_⟩
      rw [htakes, beq_eq_false_iff_ne]
      rintro rfl
      cases rest with
      | nil => cases hd
      | cons e es =>
          cases hd
          exact hrest es rfl

/-- A string is, since it ends at its quote. -/
theorem longest_quoted (rest : List Char) : Longest (quoted rest) := by
  unfold quoted
  cases hfound : readQuoted [] ['"'] rest with
  | some found =>
      rcases found with ⟨text, chars, more⟩
      rcases readQuoted_eq_some_iff.1 hfound with ⟨body, -, rfl, hbody⟩
      exact ⟨.quoted hbody, fun d _ => rfl⟩
  | none =>
      refine ⟨.unterminated ?_, by simp⟩
      rintro front more text rfl hfront
      rw [hfront.readQuoted_eq] at hfound
      cases hfound

/-- A word ends where no more of it follows. -/
theorem longest_word {c : Char} (start : isWordStart c = true) (rest : List Char) :
    Longest (word c rest) := by
  refine ⟨.word start (List.all_eq_true.1 List.all_takeWhile), ?_⟩
  intro d hd
  exact (Token.Kind.takesUp_ofWord _ d).trans (head?_dropWhile isWordPart rest d hd)

/-- So does a number. -/
theorem longest_number {c : Char} (digit : isDecimal c = true) (rest : List Char) :
    Longest (number c rest) :=
  ⟨.number (List.forall_mem_cons.2 ⟨digit, List.all_eq_true.1 List.all_takeWhile⟩),
    head?_dropWhile isDecimal rest⟩

/-- The lexeme at a character outside of gaps has a form, and it is the longest one of its form. -/
theorem longest_read {c : Char} (gap : c ≠ '#' ∧ isBlank c = false) (rest : List Char) :
    Longest (read c rest) := by
  -- The cases are those of reading, in its order.
  cases hsingle : Token.Kind.ofSingle? c with
  | some kind =>
      have hread : read c rest = ⟨kind, kind.name, [c], rest⟩ := by
        simp only [read, hsingle]
      exact hread ▸ longest_single hsingle rest
  | none =>
      cases hequality : Token.Kind.ofEquality? c with
      | some kinds =>
          have hread : read c rest = equality kinds.1 kinds.2 c rest := by
            simp only [read, hsingle, hequality]
          exact hread ▸ longest_equality hequality rest
      | none =>
          by_cases hquote : c = '"'
          · subst hquote
            exact longest_quoted rest
          · cases hword : isWordStart c with
            | true =>
                have hread : read c rest = word c rest := by
                  simp only [read, hsingle, hequality, hquote, hword, if_false, if_true]
                exact hread ▸ longest_word hword rest
            | false =>
                cases hdecimal : isDecimal c with
                | true =>
                    have hread : read c rest = number c rest := by
                      simp [read, hsingle, hequality, hquote, hword, hdecimal]
                    exact hread ▸ longest_number hdecimal rest
                | false =>
                    have hread : read c rest = ⟨.illegal, illegalText c, [c], rest⟩ := by
                      simp [read, hsingle, hequality, hquote, hword, hdecimal]
                    rw [hread]
                    exact ⟨.illegal (illegal_of_read gap hsingle hequality hquote hword hdecimal),
                      fun d _ => rfl⟩

/-- A sign that may be doubled is read with the character behind it only if that doubles it. -/
theorem equality_alone {c : Char} {alone doubled : Token.Kind}
    (h : Token.Kind.ofEquality? c = some (alone, doubled)) {rest : List Char}
    (longest : ∀ d ∈ rest.head?, alone.takesUp d = false) :
    equality alone doubled c rest = ⟨alone, alone.name, [c], rest⟩ := by
  unfold equality
  split
  · next tail =>
      have hequals := longest '=' rfl
      rw [(isSign_of_ofEquality? h).1.2] at hequals
      cases hequals
  · rfl

/-- Quotes that are not closed take up the whole rest of the text. -/
theorem quoted_unclosed {body : List Char}
    (unclosed : ∀ front rest text, body = front ++ '"' :: rest → ¬ Decoded front text) :
    quoted body = ⟨.unterminated, unterminatedText, '"' :: body, []⟩ := by
  rw [quoted]
  cases hfound : readQuoted [] ['"'] body with
  | none => rfl
  | some found =>
      rcases found with ⟨text, chars, more⟩
      rcases readQuoted_eq_some_iff.1 hfound with ⟨front, hbody, -, hfront⟩
      exact absurd hfront (unclosed front more text hbody)

/-- The longest lexeme of a form is read as what it is, and no gap starts with it. -/
theorem Form.read_eq {chars : List Char} {kind : Token.Kind} {text : String}
    (h : Form chars kind text) {rest : List Char}
    (longest : ∀ d ∈ rest.head?, kind.takesUp d = false) :
    ∃ c cs, chars = c :: cs ∧ (c ≠ '#' ∧ isBlank c = false) ∧
      read c (cs ++ rest) = ⟨kind, text, chars, rest⟩ := by
  cases h with
  | @word c cs start parts =>
      rcases wordStart_apart start with ⟨hgap, hsingle, hequality, hquote⟩
      have hstop : ∀ d ∈ rest.head?, isWordPart d = false := by
        intro d hd
        exact (Token.Kind.takesUp_ofWord _ d).symm.trans (longest d hd)
      rcases takeWhile_all parts hstop with ⟨htake, hdrop⟩
      refine ⟨c, cs, rfl, hgap, ?_⟩
      simp only [read, hsingle, hequality, hquote, start, if_false, if_true, Lexeme.word, htake, hdrop]
  | @number c cs digits =>
      have hdigit := digits c List.mem_cons_self
      rcases digit_apart ((isDecimal_eq_isDigit c).symm.trans hdigit) with
        ⟨hgap, hsingle, hequality, hquote, hword⟩
      rcases takeWhile_all (fun d hd => digits d (List.mem_cons_of_mem _ hd)) longest with
        ⟨htake, hdrop⟩
      refine ⟨c, cs, rfl, hgap, ?_⟩
      simp [read, hsingle, hequality, hquote, hword, hdigit, Lexeme.number, htake, hdrop]
  | sign hsign =>
      rcases sign_cases hsign with ⟨c, hgap, hsingle | ⟨hnone, alone, doubled, hkinds, hkind⟩⟩
      · have hname := toList_name_of_ofSingle? hsingle
        refine ⟨c, [], hname, hgap, ?_⟩
        simp only [read, hsingle, hname, List.nil_append]
      · rcases toList_name_of_ofEquality? hkinds with ⟨halone, hdoubled⟩
        have hread (ds : List Char) : read c ds = equality alone doubled c ds := by
          simp only [read, hnone, hkinds]
        rcases hkind with rfl | rfl
        · refine ⟨c, [], halone, hgap, ?_⟩
          rw [hread, halone]
          exact equality_alone hkinds longest
        · refine ⟨c, ['='], hdoubled, hgap, ?_⟩
          rw [hread, hdoubled]
          rfl
  | @quoted body decodedText decoded =>
      refine ⟨'"', body ++ ['"'], rfl, by decide, ?_⟩
      have hread : read '"' (body ++ ['"'] ++ rest) = Lexeme.quoted (body ++ ['"'] ++ rest) := rfl
      rw [hread, Lexeme.quoted, List.append_assoc]
      have hfound := decoded.readQuoted_eq [] ['"'] rest
      simp only [List.singleton_append, hfound]
      rfl
  | @illegal c illegal =>
      rcases illegal.not_sign with ⟨hsingle, hequality⟩
      refine ⟨c, [], rfl, ⟨illegal.comment, illegal.blank⟩, ?_⟩
      simp [read, hsingle, hequality, illegal.quote, illegal.word, illegal.digit]
  | @unterminated body unclosed =>
      -- The whole rest of the text belongs to the lexeme.
      have hrest : rest = [] := by
        cases rest with
        | nil => rfl
        | cons d ds => cases longest d rfl
      subst hrest
      refine ⟨'"', body, rfl, by decide, ?_⟩
      rw [List.append_nil]
      exact quoted_unclosed unclosed

/-- The characters of a lexeme determine the kind and the text of its token. -/
theorem Form.unique {chars : List Char} {kind kind' : Token.Kind} {text text' : String}
    (h : Form chars kind text) (h' : Form chars kind' text') : kind = kind' ∧ text = text' := by
  -- Both are what is read from these characters alone.
  rcases @Form.read_eq _ _ _ h [] (by simp) with ⟨c, cs, rfl, -, hread⟩
  rcases @Form.read_eq _ _ _ h' [] (by simp) with ⟨d, ds, hchars, -, hread'⟩
  cases hchars
  rw [hread] at hread'
  cases hread'
  exact ⟨rfl, rfl⟩

end Lexeme

end Scriptlet
