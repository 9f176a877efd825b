import Scriptlet.Proofs.Parse.Parallel
import Scriptlet.Proofs.Session

/-!
# Layout

Blanks, comments and line breaks change nothing but the places of tokens. Two source texts whose
tokens have the same kinds and texts are read as the same program up to these places, with the same
messages, also where the text is not a program at all. What such programs do is the same.

- `Parse.State.Alike` : states with the same kinds and texts of tokens, and the same causes
- `parseTokens_map` : reading tokens at other places
- `Token.ofShown_shown` : a kind can be told from its name and the text of its token
- `layout_irrelevant` : source texts with the same kinds and texts of tokens
-/

namespace Scriptlet

namespace Parse

/-! ## Tokens at other places -/

/-- Two states whose tokens correspond to each other, with the same causes at them. -/
structure State.Alike (f : Token → Token) (s s' : State) : Prop where
  cur : s'.cur = f s.cur
  ahead : s'.ahead = s.ahead.map f
  sealed : s'.report.sealed = s.report.sealed
  causes : s'.report.toList.map Diagnostic.cause = s.report.toList.map Diagnostic.cause

namespace State.Alike

variable {f : Token → Token} {s s' : State}

theorem peek (h : s.Alike f s') : s'.peek = f s.peek := by
  unfold State.peek
  rw [h.ahead, h.cur]
  cases s.ahead <;> rfl

theorem advance (h : s.Alike f s') : s.advance.Alike f s'.advance := by
  have hahead := h.ahead
  cases hs : s.ahead with
  | nil =>
      rw [hs] at hahead
      rw [advance_of_nil hs, advance_of_nil hahead]
      exact h
  | cons token rest =>
      rw [hs] at hahead
      rw [advance_of_ahead hs, advance_of_ahead hahead]
      exact ⟨rfl, rfl, h.sealed, h.causes⟩

/-- A fault has the same cause on both sides, whatever its positions are. -/
theorem causes_add (h : s.Alike f s') (pos pos' : Pos) (cause : Diagnostic.Cause) :
    (s'.report.add (some ⟨pos', cause⟩)).toList.map Diagnostic.cause =
      (s.report.add (some ⟨pos, cause⟩)).toList.map Diagnostic.cause := by
  rw [Report.toList_add, Report.toList_add, h.sealed]
  split
  · exact h.causes
  · rw [List.map_append, List.map_append, h.causes]
    rfl

theorem fault (h : s.Alike f s') (token token' : Token) (cause : Diagnostic.Cause) :
    (s.fault token cause).Alike f (s'.fault token' cause) := by
  refine ⟨h.cur, h.ahead, ?_, h.causes_add _ _ cause⟩
  unfold State.fault
  rw [Report.sealed_add, Report.sealed_add, h.sealed]

theorem tooDeep (h : s.Alike f s') : (tooDeep s).2.Alike f (tooDeep s').2 := by
  refine ⟨?_, rfl, rfl, h.causes_add _ _ .tooDeep⟩
  -- The last token is the one that corresponds to the last token.
  show s'.ahead.getLastD s'.cur = f (s.ahead.getLastD s.cur)
  rw [h.ahead, h.cur, List.getLastD_eq_getLast?, List.getLastD_eq_getLast?, List.getLast?_map]
  cases s.ahead.getLast? <;> rfl

end State.Alike

/-- States with corresponding tokens stay so, whichever way reading goes. -/
theorem parallel_alike (bound : Nat) {f : Token → Token}
    (kind : ∀ token, (f token).kind = token.kind) (text : ∀ token, (f token).text = token.text) :
    Parallel bound f (fun s s' => Ready bound s ∧ s.Alike f s')
      (fun s s' => Ready bound s ∧ s.Alike f s') where
  kind := kind
  text := text
  ready fresh := fresh.1
  cur fresh := fresh.2.cur
  cur_done done := done.2.cur
  peek done := done.2.peek
  keep fresh _ := fresh
  advance done := ⟨done.1.of_extends (extends_advance _), done.2.advance⟩
  faultCur fresh _ := ⟨fresh.1.of_extends (extends_fault _ _ _), fresh.2.fault _ _ _⟩
  faultPeek done _ := ⟨done.1.of_extends (extends_fault _ _ _), done.2.fault _ _ _⟩
  tooDeep fresh := ⟨fresh.1.of_extends (extends_tooDeep _), fresh.2.tooDeep⟩

end Parse

/-- Tokens of the same kinds and texts are read as the same program up to tokens, with the same
causes. -/
theorem parseTokens_map {tokens : List Token} (stream : TokenStream tokens) {f : Token → Token}
    (kind : ∀ token, (f token).kind = token.kind) (text : ∀ token, (f token).text = token.text) :
    (parseTokens (tokens.map f)).1 = (parseTokens tokens).1.mapTokens f ∧
      (parseTokens (tokens.map f)).2.map Diagnostic.cause =
        (parseTokens tokens).2.map Diagnostic.cause := by
  have hstart : (Parse.State.ofTokens tokens).Alike f (.ofTokens (tokens.map f)) := by
    cases stream with
    | last => exact ⟨rfl, rfl, rfl, rfl⟩
    | cons => exact ⟨rfl, rfl, rfl, rfl⟩
  have hprogram := (Parse.parallel_alike tokens.length kind text).program (List.length_map f)
    ⟨Parse.ready_ofTokens stream, hstart⟩
  exact ⟨hprogram.result, hprogram.state.2.causes⟩

/-! ## Kinds and texts -/

namespace Token

/-- What a token shows of itself, wherever it stands: the name of its kind, and its text. -/
def shown (token : Token) : String × String :=
  (token.kind.name, token.text)

namespace Kind

def named : List Kind := [
  .letKw, .fnKw, .whileKw, .breakKw, .ifKw, .elseKw, .returnKw, .trueKw, .falseKw, .openBrace,
  .closeBrace, .openBracket, .closeBracket, .openParen, .closeParen, .colon, .semicolon, .comma,
  .minus, .plus, .star, .slash, .equal, .notEqual, .greater, .less, .greaterEqual, .lessEqual,
  .assign, .bang, .ident, .int, .str, .eof]

/-- The kind of a token that shows the given name and text. The two kinds of lexical errors have one
name, and differ in the text. -/
def ofShown (shown : String × String) : Kind :=
  match named.find? fun kind => kind.name = shown.1 with
  | some kind => kind
  | none => if shown.2 = Lexeme.unterminatedText then .unterminated else .illegal

/-- Kinds that are no errors are told by their names. -/
theorem find?_named {kind : Kind} (plain : kind.isError = false) :
    (named.find? fun other => other.name = kind.name) = some kind := by
  cases kind with
  | illegal | unterminated => cases plain
  | _ => decide

end Kind

/-- The text of a lexical error says which one it is. -/
structure ErrorText (kind : Kind) (text : String) : Prop where
  illegal (eq : kind = .illegal) : text ≠ Lexeme.unterminatedText
  unterminated (eq : kind = .unterminated) : text = Lexeme.unterminatedText

namespace ErrorText

variable {kind : Kind} {text : String}

/-- The text of a token that is no error may be any. -/
theorem of_plain (plain : kind.isError = false) : ErrorText kind text := by
  refine ⟨?_, ?_⟩
  · rintro rfl
    cases plain
  · rintro rfl
    cases plain

/-- An illegal character has a text of its own. -/
theorem of_illegal (ne : text ≠ Lexeme.unterminatedText) : ErrorText .illegal text := by
  refine ⟨fun _ => ne, ?_⟩
  intro eq
  cases eq

theorem of_unterminated (eq : text = Lexeme.unterminatedText) : ErrorText .unterminated text := by
  refine ⟨?_, fun _ => eq⟩
  intro h
  cases h

end ErrorText

/-- The kind of a token can be told from what it shows. -/
theorem ofShown_shown {token : Token} (h : ErrorText token.kind token.text) :
    Kind.ofShown token.shown = token.kind := by
  unfold Kind.ofShown shown
  cases hkind : token.kind with
  | illegal =>
      have hnone : (Kind.named.find? fun other => other.name = Kind.illegal.name) = none := by
        decide
      simp only [hnone]
      exact if_neg (h.illegal hkind)
  | unterminated =>
      have hnone : (Kind.named.find? fun other => other.name = Kind.unterminated.name) = none := by
        decide
      simp only [hnone]
      exact if_pos (h.unterminated hkind)
  | _ =>
      rw [Kind.find?_named rfl]

end Token

namespace Lexeme

/-- The text for an illegal character is never the one for an unterminated string. -/
theorem illegalText_ne (c : Char) : illegalText c ≠ unterminatedText := by
  intro h
  have hillegal : (illegalText c).toList.head? = some 'i' := by
    have happend : (illegalText c).toList = "illegal character ".toList ++ c.toString.toList :=
      String.toList_append
    have hfirst : "illegal character ".toList = 'i' :: "llegal character ".toList := by
      decide
    simp only [happend, hfirst, List.cons_append, List.head?_cons]
  have hunterminated : unterminatedText.toList.head? = some 'u' := by
    decide
  rw [h, hunterminated] at hillegal
  exact absurd hillegal (by decide)

/-- No word is read as an error. -/
theorem isError_ofWord (word : String) : (Token.Kind.ofWord word).isError = false := by
  unfold Token.Kind.ofWord Token.Kind.keywords
  simp only [List.lookup_cons, List.lookup_nil]
  repeat' split
  all_goals rfl

/-- The kind and the text that are read agree on whether something is wrong. -/
theorem errorText_read (c : Char) (cs : List Char) :
    Token.ErrorText (read c cs).kind (read c cs).text := by
  unfold read
  split
  · next kind heq =>
      refine .of_plain ?_
      unfold Token.Kind.ofSingle? at heq
      split at heq <;> cases heq <;> rfl
  · split
    · next alone doubled heq =>
        have hpair : alone.isError = false ∧ doubled.isError = false := by
          unfold Token.Kind.ofEquality? at heq
          split at heq <;> cases heq <;> decide
        unfold equality
        split
        · exact .of_plain hpair.2
        · exact .of_plain hpair.1
    · split
      · unfold quoted
        split
        · exact .of_plain rfl
        · exact .of_unterminated rfl
      · split
        · exact .of_plain (isError_ofWord _)
        · split
          · exact .of_plain rfl
          · exact .of_illegal (illegalText_ne c)

end Lexeme

/-- So they do in every token of a source. -/
theorem Lexed.errorText {pos : Pos} {cs : List Char} {ts : List Token} (h : Lexed pos cs ts) :
    ∀ token ∈ ts, Token.ErrorText token.kind token.text := by
  induction h with
  | ends => exact List.forall_mem_singleton.2 (.of_plain rfl)
  | @lexeme pos cs c rest ts _ _ ih =>
      exact List.forall_mem_cons.2 ⟨Lexeme.errorText_read c rest, ih⟩

/-- Tokens that show the same are the same up to their places. -/
theorem map_unplaced_eq {src src' : String}
    (h : (tokenize src).map Token.shown = (tokenize src').map Token.shown) :
    (tokenize src).map Token.unplaced = (tokenize src').map Token.unplaced := by
  -- What tokens show has an inverse on the tokens of source texts.
  have hback (src : String) : (tokenize src).map Token.unplaced =
      ((tokenize src).map Token.shown).map fun shown =>
        ⟨Token.Kind.ofShown shown, shown.2, .start⟩ := by
    rw [List.map_map]
    refine List.map_congr_left fun token htoken => ?_
    have hkind := Token.ofShown_shown ((lexed_tokenize src).errorText token htoken)
    simp only [Function.comp_apply, hkind]
    rfl
  rw [hback src, hback src', h]

/-! ## Source texts -/

/-- Two source texts that show the same tokens are read alike. -/
theorem parse_eq_of_shown {src src' : String}
    (h : (tokenize src).map Token.shown = (tokenize src').map Token.shown) :
    (parse src).1.unplaced = (parse src').1.unplaced ∧
      (parse src).2.map Diagnostic.cause = (parse src').2.map Diagnostic.cause := by
  have hmap (src : String) := parseTokens_map (tokenStream_tokenize src) (f := Token.unplaced)
    (fun _ => rfl) (fun _ => rfl)
  have hplaces := map_unplaced_eq h
  have hprogram : (parse src).1.unplaced = (parse src').1.unplaced := by
    calc
      (parse src).1.unplaced = (parseTokens ((tokenize src).map Token.unplaced)).1 :=
        (hmap src).1.symm
      _ = (parseTokens ((tokenize src').map Token.unplaced)).1 := by rw [hplaces]
      _ = (parse src').1.unplaced := (hmap src').1
  have hcauses : (parse src).2.map Diagnostic.cause = (parse src').2.map Diagnostic.cause := by
    calc
      (parse src).2.map Diagnostic.cause
          = (parseTokens ((tokenize src).map Token.unplaced)).2.map Diagnostic.cause :=
        (hmap src).2.symm
      _ = (parseTokens ((tokenize src').map Token.unplaced)).2.map Diagnostic.cause := by
        rw [hplaces]
      _ = (parse src').2.map Diagnostic.cause := (hmap src').2
  exact ⟨hprogram, hcauses⟩

/-- Two source texts whose tokens have the same kinds and texts are read as the same program, up to
the places of tokens, with the same messages. In new sessions with the same limits these programs
either both have no outcome, or they have values of the same type and with the same text, and print
the same lines. -/
theorem layout_irrelevant {src src' : String}
    (h : (tokenize src).map Token.shown = (tokenize src').map Token.shown) :
    (parse src).1.unplaced = (parse src').1.unplaced ∧
    (parse src).2.map Diagnostic.message = (parse src').2.map Diagnostic.message ∧
    ∀ turns levels : Nat,
      let session : Session := ⟨⟨.standard, turns⟩, levels, .initial⟩
      let seen (found : Value × Session) := (found.1.type, found.1.inspect, found.2.store.printed)
      (session.run (parse src).1).map seen = (session.run (parse src').1).map seen := by
  rcases parse_eq_of_shown h with ⟨hprogram, hcauses⟩
  refine ⟨hprogram, ?_, ?_⟩
  · have hmessages := congrArg (List.map Diagnostic.Cause.message) hcauses
    rw [List.map_map, List.map_map] at hmessages
    exact hmessages
  · intro turns levels session seen
    -- What is seen of an outcome does not depend on the places that functions keep.
    have hseen (outcome : Option (Value × Session)) :
        (Session.unplaced outcome).map seen = outcome.map seen := by
      cases outcome with
      | none => rfl
      | some found =>
          simp only [Session.unplaced, Option.map_some, seen, Value.type_mapTokens,
            Value.inspect_mapTokens]
          rfl
    calc
      (session.run (parse src).1).map seen
          = (Session.unplaced (session.run (parse src).1)).map seen := (hseen _).symm
      _ = (Session.unplaced (session.run (parse src').1)).map seen := by
        rw [Session.unplaced_run_eq hprogram turns levels]
      _ = (session.run (parse src').1).map seen := hseen _

/-- The same function, call and illegal character with and without blanks and comments. What stands
in front of the illegal character is done either way. -/
theorem layout_irrelevant_illegal_character :
    let src := "let f = fn(x) \x7b x + 1 \x7d\nputs(f(2)) @ f(3)"
    let src' := "let f=fn(x)\x7bx+1\x7d # next\n\n puts( f( 2 ) )@\n f(3)"
    let session : Session := ⟨⟨.standard, 2⟩, 20, .initial⟩
    let seen (found : Value × Session) := (found.1.type, found.1.inspect, found.2.store.printed)
    (tokenize src).map Token.shown = (tokenize src').map Token.shown ∧
      (tokenize src).map Token.pos ≠ (tokenize src').map Token.pos ∧
      (parse src).1.unplaced = (parse src').1.unplaced ∧
      (parse src').2.map Diagnostic.message = ["illegal character @"] ∧
      (session.run (parse src').1).map seen =
        some (.error, "ERROR: invalid expression", #["3"]) := by
  intro src src' session seen
  have hshown : (tokenize src).map Token.shown = (tokenize src').map Token.shown := by
    decide +kernel
  have hpos : (tokenize src).map Token.pos ≠ (tokenize src').map Token.pos := by
    decide +kernel
  rcases layout_irrelevant hshown with ⟨hprogram, hmessages, hrun⟩
  refine ⟨hshown, hpos, hprogram, ?_, ?_⟩
  · rw [← hmessages]
    decide +kernel
  · rw [← hrun 2 20]
    decide +kernel

end Scriptlet
