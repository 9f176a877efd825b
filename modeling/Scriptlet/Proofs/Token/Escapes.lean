import Scriptlet.Proofs.Token.Division

/-!
# Texts as literals

A literal is read up to the first quote that no backslash takes up, and a backslash takes up the
character behind it only if the two make an escape. So whoever writes a literal has to put a
backslash in front of every quote and of every backslash, also of those that stand in front of an
`n`, and of nothing else. Line breaks, tabs and carriage returns may be written with a letter, each
time anew, or stand for themselves.

- `WrittenAs` : a text and a way to write it between quotes
- `exists_writtenAs` : every text can be written
- `WrittenAs.decoded` : what is written stands for the text
- `Cursor.next_of_form` : one step over a lexeme that nothing behind it goes on with
- `literals_express_every_text` : every text is read back from each way to write it
-/

namespace Scriptlet

/-- A text, and the characters that stand for it between quotes. -/
inductive WrittenAs : List Char → List Char → Prop
  | nil : WrittenAs [] []
  | verbatim {c : Char} {text body : List Char} (plain : c ≠ '"' ∧ c ≠ '\\')
      (more : WrittenAs text body) : WrittenAs (c :: text) (c :: body)
  | guarded {c : Char} {text body : List Char} (special : c = '"' ∨ c = '\\')
      (more : WrittenAs text body) : WrittenAs (c :: text) ('\\' :: c :: body)
  | lineBreak {text body : List Char} (more : WrittenAs text body) :
      WrittenAs ('\n' :: text) ('\\' :: 'n' :: body)
  | tab {text body : List Char} (more : WrittenAs text body) :
      WrittenAs ('\t' :: text) ('\\' :: 't' :: body)
  | carriageReturn {text body : List Char} (more : WrittenAs text body) :
      WrittenAs ('\r' :: text) ('\\' :: 'r' :: body)

/-- Every text can be written, with a backslash only where there has to be one. -/
theorem exists_writtenAs (text : List Char) : ∃ body, WrittenAs text body := by
  induction text with
  | nil => exact ⟨[], .nil⟩
  | cons c text ih =>
      rcases ih with ⟨body, hbody⟩
      by_cases hspecial : c = '"' ∨ c = '\\'
      · exact ⟨'\\' :: c :: body, .guarded hspecial hbody⟩
      · exact ⟨c :: body, .verbatim (not_or.1 hspecial) hbody⟩

/-- What is written for a text stands for it. No backslash is left over in front of the closing
quote: one that is written belongs to the character behind it. -/
theorem WrittenAs.decoded {text body : List Char} (h : WrittenAs text body) :
    Decoded body text := by
  induction h with
  | nil => exact .nil
  | verbatim plain _ ih =>
      apply Decoded.plain plain.1
      · intro hbackslash
        exact absurd hbackslash plain.2
      · exact ih
  | guarded special _ ih =>
      rcases special with rfl | rfl
      · exact .escape rfl ih
      · exact .escape rfl ih
  | lineBreak _ ih => exact .escape rfl ih
  | tab _ ih => exact .escape rfl ih
  | carriageReturn _ ih => exact .escape rfl ih

/-- A lexeme that nothing behind it goes on with is the next token, and the step over it ends
directly behind it. -/
theorem Cursor.next_of_form {chars : List Char} {kind : Token.Kind} {text : String}
    (form : Lexeme.Form chars kind text) {rest : List Char}
    (longest : ∀ d ∈ rest.head?, kind.takesUp d = false) (pos : Pos) (offset : Nat) :
    Cursor.next ⟨chars ++ rest, pos, offset⟩ =
      (⟨kind, text, pos⟩, ⟨rest, pos.afterAll chars, offset + chars.length⟩) := by
  rcases form.read_eq longest with ⟨c, cs, rfl, hgap, hread⟩
  have hskip : Cursor.skipGap ⟨c :: (cs ++ rest), pos, offset⟩ =
      ⟨c :: (cs ++ rest), pos, offset⟩ := by
    rw [skipGap, spanGap_cons hgap.1 hgap.2]
    rfl
  rw [List.cons_append, next, hskip]
  simp only [hread, moved]

/-- Every text can be written between quotes. However that is done, and whatever follows the closing
quote, the next token is a string with that text, and the step over it ends directly behind the
closing quote. -/
theorem literals_express_every_text (s : String) :
    (∃ body, WrittenAs s.toList body) ∧
    ∀ body, WrittenAs s.toList body → ∀ (rest : List Char) (pos : Pos) (offset : Nat),
      Cursor.next ⟨'"' :: (body ++ '"' :: rest), pos, offset⟩ =
        (⟨.str, s, pos⟩,
          ⟨rest, pos.afterAll ('"' :: (body ++ ['"'])), offset + (body.length + 2)⟩) := by
  refine ⟨exists_writtenAs s.toList, ?_⟩
  intro body written rest pos offset
  have hform : Lexeme.Form ('"' :: (body ++ ['"'])) .str s := by
    have hquoted := Lexeme.Form.quoted written.decoded
    rwa [String.ofList_toList] at hquoted
  have hchars : '"' :: (body ++ '"' :: rest) = '"' :: (body ++ ['"']) ++ rest := by simp
  have hlength : ('"' :: (body ++ ['"'])).length = body.length + 2 := by simp
  -- Nothing goes on with a literal that is closed.
  have hclosed : ∀ d ∈ rest.head?, Token.Kind.str.takesUp d = false := fun _ _ => rfl
  have hstep := Cursor.next_of_form hform hclosed pos offset
  rwa [← hchars, hlength] at hstep

/-- Two backslashes in front of a quote, one in front of an `n`, and two line breaks that are
written in the two ways, with another literal right behind. -/
theorem literals_express_every_text_backslashes :
    let s := "\\\\\"\\n\n\n"
    let body := ['\\', '\\', '\\', '\\', '\\', '"', '\\', '\\', 'n', '\\', 'n', '\n']
    WrittenAs s.toList body ∧
      Cursor.next ⟨'"' :: (body ++ '"' :: ['"', '"']), ⟨3, 5⟩, 20⟩ =
        (⟨.str, s, ⟨3, 5⟩⟩, ⟨['"', '"'], ⟨4, 2⟩, 34⟩) := by
  intro s body
  have htext : s.toList = ['\\', '\\', '"', '\\', 'n', '\n', '\n'] := by decide
  have hwritten : WrittenAs s.toList body := by
    rw [htext]
    exact .guarded (.inr rfl) (.guarded (.inr rfl) (.guarded (.inl rfl) (.guarded (.inr rfl)
      (.verbatim (by decide) (.lineBreak (.verbatim (by decide) .nil))))))
  exact ⟨hwritten, (literals_express_every_text s).2 body hwritten ['"', '"'] ⟨3, 5⟩ 20⟩

end Scriptlet
