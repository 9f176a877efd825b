import Scriptlet.Proofs.Token.Literal
import Scriptlet.Tree.Basic

/-!
# Tokens that are their own text

A token for a word, a number or punctuation carries the characters that it was read from, so writing
its text gives the token again, wherever it stands and whatever detached text follows. A quoted text
is decoded, so this is not so for it.

- `Token.Kind.isVerbatim` : the kinds of tokens that carry their own characters
- `Token.Verbatim` : tokens that are read from their text
- `Lexed.verbatim` : the tokens of a text
- `spelled_keyword`, `spelled_binary`, `Spelled.bang` : words, operators and the negation sign
- `Lexeme.whole_str` : a text between quotes as it is
-/

namespace Scriptlet

open Text

/-- The kinds of tokens that carry the characters they were read from. -/
def Token.Kind.isVerbatim : Token.Kind → Bool
  | .str | .illegal | .unterminated | .eof => false
  | _ => true

/-- A token that is read from its text, wherever it stands. -/
def Token.Verbatim (token : Token) : Prop :=
  ∀ pos, Spelled pos token.text.toList [⟨token.kind, token.text, pos⟩]

/-! ## Lexemes that are read from themselves -/

/-- Behind a gap there is neither a blank nor a comment. -/
theorem spanGapFrom_cons {comment : Bool} {gap cs rest : List Char} {c : Char}
    (h : (spanGapFrom comment gap cs).2 = c :: rest) : c ≠ '#' ∧ isBlank c = false := by
  fun_induction spanGapFrom comment gap cs with
  | case1 => cases h
  | case2 _ _ _ ih => exact ih h
  | case3 _ _ _ _ ih => exact ih h
  | case4 _ _ _ _ _ _ _ ih => exact ih h
  | case5 _ _ _ _ _ hcomment hblank =>
      cases h
      exact ⟨hcomment, Bool.eq_false_iff.2 hblank⟩

namespace Lexeme

theorem toList_name_of_ofSingle? {c : Char} {kind : Token.Kind}
    (h : Token.Kind.ofSingle? c = some kind) : kind.name.toList = [c] := by
  unfold Token.Kind.ofSingle? at h
  split at h <;> cases h <;> rfl

theorem toList_name_of_ofEquality? {c : Char} {alone doubled : Token.Kind}
    (h : Token.Kind.ofEquality? c = some (alone, doubled)) :
    alone.name.toList = [c] ∧ doubled.name.toList = [c, '='] := by
  unfold Token.Kind.ofEquality? at h
  split at h <;> cases h <;> exact ⟨rfl, rfl⟩

theorem kind_equality (alone doubled : Token.Kind) (c : Char) (cs : List Char) :
    (equality alone doubled c cs).kind = alone ∨ (equality alone doubled c cs).kind = doubled := by
  unfold equality
  split
  · exact .inr rfl
  · exact .inl rfl

theorem takeWhile_takeWhile_self (p : Char → Bool) (cs : List Char) :
    (cs.takeWhile p).takeWhile p = cs.takeWhile p ∧ (cs.takeWhile p).dropWhile p = [] := by
  have hall : ∀ d ∈ cs.takeWhile p, p d = true :=
    List.all_eq_true.1 List.all_takeWhile
  exact ⟨List.takeWhile_eq_self_iff.2 hall, List.dropWhile_eq_nil_iff.2 hall⟩

/-- A lexeme whose token carries its own characters is read from these characters alone. -/
theorem whole_of_read {c : Char} {rest : List Char} (gap : c ≠ '#' ∧ isBlank c = false)
    (verbatim : (read c rest).kind.isVerbatim = true) :
    ∃ cs, (read c rest).text.toList = c :: cs ∧
      Whole c cs (read c rest).kind (read c rest).text := by
  cases hsingle : Token.Kind.ofSingle? c with
  | some kind =>
      have hread (ds : List Char) : read c ds = ⟨kind, kind.name, [c], ds⟩ := by
        simp only [read, hsingle]
      rw [hread rest]
      exact ⟨[], toList_name_of_ofSingle? hsingle, gap, hread []⟩
  | none =>
      cases hequality : Token.Kind.ofEquality? c with
      | some kinds =>
          rcases kinds with ⟨alone, doubled⟩
          have hread (ds : List Char) : read c ds = equality alone doubled c ds := by
            simp only [read, hsingle, hequality]
          rcases toList_name_of_ofEquality? hequality with ⟨halone, hdoubled⟩
          rw [hread rest]
          -- The sign alone, or with an equals sign directly behind it.
          unfold equality
          split
          · exact ⟨['='], hdoubled, gap, hread ['=']⟩
          · exact ⟨[], halone, gap, hread []⟩
      | none =>
          by_cases hquote : c = '"'
          · exfalso
            subst hquote
            have hread : read '"' rest = quoted rest := rfl
            rw [hread, quoted] at verbatim
            split at verbatim <;> cases verbatim
          · by_cases hword : isWordStart c = true
            · have hread (ds : List Char) : read c ds = word c ds := by
                simp only [read, hsingle, hequality, hquote, hword, if_false, if_true]
              rcases takeWhile_takeWhile_self isWordPart rest with ⟨htake, hdrop⟩
              rw [hread rest]
              refine ⟨rest.takeWhile isWordPart, String.toList_ofList, gap, ?_⟩
              rw [hread, word, htake, hdrop]
              rfl
            · by_cases hdecimal : isDecimal c = true
              · have hread (ds : List Char) : read c ds = number c ds := by
                  simp only [read, hsingle, hequality, hquote, hword, hdecimal, if_false, if_true]
                  rfl
                rcases takeWhile_takeWhile_self isDecimal rest with ⟨htake, hdrop⟩
                rw [hread rest]
                refine ⟨rest.takeWhile isDecimal, String.toList_ofList, gap, ?_⟩
                rw [hread, number, htake, hdrop]
                rfl
              · exfalso
                simp [read, hsingle, hequality, hquote, hword, hdecimal,
                  Token.Kind.isVerbatim] at verbatim

/-- A text without quotes and backslashes stands between quotes as it is. -/
theorem whole_str {s : String} (plain : ∀ c ∈ s.toList, c ≠ '"' ∧ c ≠ '\\') :
    Whole '"' (s.toList ++ ['"']) .str s := by
  have hread (cs text chars : List Char) (hcs : ∀ c ∈ cs, c ≠ '"' ∧ c ≠ '\\') :
      readQuoted text chars (cs ++ ['"']) =
        some (text.reverse ++ cs, chars.reverse ++ cs ++ ['"'], []) := by
    induction cs generalizing text chars with
    | nil => simp [readQuoted]
    | cons c rest ih =>
        rcases hcs c List.mem_cons_self with ⟨hquote, hescape⟩
        rw [List.cons_append, readQuoted]
        · rw [ih _ _ fun d hd => hcs d (List.mem_cons_of_mem _ hd)]
          simp
        · exact hquote
        · exact fun _ _ hc _ => hescape hc
  refine ⟨by decide, ?_⟩
  have hquoted : read '"' (s.toList ++ ['"']) = quoted (s.toList ++ ['"']) := rfl
  rw [hquoted, quoted, hread _ _ _ plain]
  simp

end Lexeme

/-! ## Tokens of a source text -/

/-- Names, numbers and keywords have the text that stands in the source. -/
theorem Lexed.verbatim {pos : Pos} {cs : List Char} {ts : List Token} (h : Lexed pos cs ts)
    {token : Token} (mem : token ∈ ts) (verbatim : token.kind.isVerbatim = true) :
    token.Verbatim := by
  induction h with
  | ends gap =>
      rw [List.mem_singleton] at mem
      subst mem
      cases verbatim
  | @lexeme pos cs c rest ts gap _ ih =>
      rcases List.mem_cons.1 mem with rfl | hmem
      · intro pos'
        rcases Lexeme.whole_of_read (spanGapFrom_cons gap) verbatim with ⟨ds, htext, hwhole⟩
        dsimp only
        rw [htext]
        refine hwhole.spelled ?_ pos'
        intro hkind
        dsimp only at verbatim
        rw [hkind] at verbatim
        cases verbatim
      · exact ih hmem

/-! ## Words and operators -/

/-- A keyword is spelled as itself. -/
theorem spelled_keyword {word : String} {kind : Token.Kind}
    (h : (word, kind) ∈ Token.Kind.keywords) (pos : Pos) :
    Spelled pos word.toList [⟨kind, word, pos⟩] := by
  simp only [Token.Kind.keywords, List.mem_cons, Prod.mk.injEq, List.not_mem_nil, or_false] at h
  rcases h with ⟨rfl, rfl⟩ | ⟨rfl, rfl⟩ | ⟨rfl, rfl⟩ | ⟨rfl, rfl⟩ | ⟨rfl, rfl⟩ | ⟨rfl, rfl⟩ |
    ⟨rfl, rfl⟩ | ⟨rfl, rfl⟩ | ⟨rfl, rfl⟩
  all_goals exact Lexeme.Whole.spelled ⟨by decide, rfl⟩ (by decide) pos

/-- An operator between its operands is written by its symbol. -/
theorem spelled_binary {op : BinaryOp} {kind : Token.Kind} (h : BinaryOp.ofKind? kind = some op)
    (pos : Pos) : Spelled pos op.symbol.toList [⟨kind, op.symbol, pos⟩] := by
  cases kind <;> cases h
  all_goals exact Lexeme.Whole.spelled ⟨by decide, rfl⟩ (by decide) pos

namespace Spelled

variable {pos : Pos} {cs ds : List Char} {ts us : List Token}

/-- Two texts with a blank between them. -/
theorem append_blank (first : Spelled pos cs ts)
    (second : Spelled ((pos.afterAll cs).after ' ') ds us) :
    Spelled pos (cs ++ ' ' :: ds) (ts ++ us) := by
  refine first.append second.blank ?_
  intro rest _ c hc
  cases hc
  decide

/-- No text whose first token is another one starts with an equals sign. -/
theorem head_ne_equals {first : Token} (h : Spelled pos cs (first :: ts))
    (assign : first.kind ≠ .assign) (equal : first.kind ≠ .equal) : ∀ c ∈ cs.head?, c ≠ '=' := by
  rintro c hc rfl
  cases cs with
  | nil => cases hc
  | cons d rest =>
      cases hc
      have hends : Lexed (pos.afterAll ('=' :: rest)) [] [⟨.eof, "", _⟩] := .ends rfl
      have hlexed := @h [] _ nofun hends
      generalize htokens : first :: ts ++ [_] = tokens at hlexed
      -- An equals sign, alone or doubled, is the first token of a text that starts with one.
      cases hlexed with
      | ends gap => cases gap
      | lexeme gap more =>
          cases gap
          obtain ⟨rfl, -⟩ := List.cons.inj htokens
          rcases Lexeme.kind_equality .assign .equal '=' (rest ++ []) with halone | hdoubled
          · exact assign halone
          · exact equal hdoubled

/-- A negation sign in front of a text that does not start with an equals sign. -/
theorem bang (h : Spelled (pos.after '!') cs ts) (apart : ∀ c ∈ cs.head?, c ≠ '=') :
    Spelled pos ('!' :: cs) (⟨.bang, "!", pos⟩ :: ts) := by
  intro rest us hrest hlexed
  have hread : Lexeme.read '!' (cs ++ rest) = ⟨.bang, "!", ['!'], cs ++ rest⟩ := by
    have hequality : Lexeme.read '!' (cs ++ rest) =
        Lexeme.equality .bang .notEqual '!' (cs ++ rest) := rfl
    have hhead : ∀ c ∈ (cs ++ rest).head?, c ≠ '=' := by
      cases cs with
      | nil => exact fun c hc => (hrest c hc).2
      | cons d ds => exact apart
    rw [hequality]
    generalize cs ++ rest = text at hhead
    cases text with
    | nil => rfl
    | cons d ds =>
        have hd : d ≠ '=' := hhead d rfl
        simp [Lexeme.equality, hd, Token.Kind.name]
  have hgap : spanGap ('!' :: (cs ++ rest)) = ([], '!' :: (cs ++ rest)) :=
    spanGap_cons (by decide) (by decide) _
  have hlexeme := @Lexed.lexeme pos ('!' :: (cs ++ rest)) '!' (cs ++ rest) (ts ++ us) (by rw [hgap])
  rw [hread, hgap] at hlexeme
  exact hlexeme (h hrest hlexed)

end Spelled

end Scriptlet
