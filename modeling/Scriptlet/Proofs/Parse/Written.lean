import Scriptlet.Proofs.Parse.Span
import Scriptlet.Proofs.Token.Literal

/-!
# Texts that are parts of a program

A text can be read wherever it stands: it has tokens, and these are a rendering of some part of a
program. Such texts are put together in the way that the parts are.

- `Written` : a text with its tokens, and the part of a program that they render
- `Written.list_cons`, `Written.entries_cons` : lists with commas between their items
- `Written.array`, `Written.hash` : lists in brackets and braces
-/

namespace Scriptlet

open Parse

/-- A text that starts at the given place, and the part of a program that it is. -/
structure Written (n : Nat) (part : Part) (pos : Pos) (cs : List Char) (ts : List Token) :
    Prop where
  spelled : Spelled pos cs ts
  renders : Renders n part false ts

abbrev Part.whole (e : Expr) : Part :=
  .expr (.behind Precedence.lowest) e

namespace Written

variable {n m : Nat} {pos : Pos} {cs ds fs : List Char} {ts us vs : List Token}

/-- What is written within a depth is so within a greater one. -/
theorem mono {part : Part} (h : Written n part pos cs ts) (hle : n ≤ m) :
    Written m part pos cs ts := by
  rcases h with ⟨hspelled, r, hr⟩
  exact ⟨hspelled, r, Nat.le_trans hr hle⟩

/-! ## Lists -/

theorem list_nil (pos : Pos) : Written 0 (.list []) pos [] [] :=
  ⟨.nil pos, .listNil, Nat.le_refl 0⟩

/-- The last item of a list. -/
theorem list_last {e : Expr} (h : Written n (.whole e) pos cs ts) :
    Written n (.list [e]) pos cs ts := by
  rcases h with ⟨hspelled, r, hr⟩
  exact ⟨hspelled, .listLast r, hr⟩

/-- An item in front of others, with a comma and a blank between them. -/
theorem list_cons {e next : Expr} {es : List Expr} (first : Written n (.whole e) pos cs ts)
    (rest : Written n (.list (next :: es)) (((pos.afterAll cs).after ',').after ' ') ds us) :
    ∃ vs, Written n (.list (e :: next :: es)) pos (cs ++ ',' :: ' ' :: ds) vs := by
  rcases first with ⟨hspelled, r, hr⟩
  rcases rest with ⟨hspelled', r', hr'⟩
  let comma : Token.Of .comma := ⟨⟨.comma, ",", pos.afterAll cs⟩, rfl⟩
  exact ⟨ts ++ comma.val :: us, hspelled.append_sign rfl hspelled'.blank, .listCons r comma r',
    Nat.max_le.2 ⟨hr, hr'⟩⟩

/-- Expressions with commas between them in brackets. -/
theorem array {es : List Expr} (h : Written n (.list es) (pos.after '[') cs ts) :
    ∃ us, Written (n + 1) (.bare (.array ⟨.openBracket, "[", pos⟩ es)) pos
      ('[' :: (cs ++ [']'])) us := by
  rcases h with ⟨hspelled, r, hr⟩
  let opening : Token.Of .openBracket := ⟨⟨.openBracket, "[", pos⟩, rfl⟩
  let closing : Token.Of .closeBracket :=
    ⟨⟨.closeBracket, "]", (pos.after '[').afterAll cs⟩, rfl⟩
  exact ⟨opening.val :: (ts ++ [closing.val]), (hspelled.append_sign rfl (.nil _)).sign rfl,
    .array opening r closing, Nat.succ_le_succ hr⟩

/-! ## Entries -/

theorem entries_nil (pos : Pos) : Written 0 (.entries []) pos [] [] :=
  ⟨.nil pos, .entriesNil, Nat.le_refl 0⟩

/-- The last entry of a hash literal. -/
theorem entries_last {k v : Expr} (key : Written n (.whole k) pos cs ts)
    (value : Written n (.whole v) (((pos.afterAll cs).after ':').after ' ') ds us) :
    ∃ vs, Written n (.entries [(k, v)]) pos (cs ++ ':' :: ' ' :: ds) vs := by
  rcases key with ⟨hspelled, r, hr⟩
  rcases value with ⟨hspelled', r', hr'⟩
  let colon : Token.Of .colon := ⟨⟨.colon, ":", pos.afterAll cs⟩, rfl⟩
  exact ⟨ts ++ colon.val :: us, hspelled.append_sign rfl hspelled'.blank, .entriesLast r colon r',
    Nat.max_le.2 ⟨hr, hr'⟩⟩

/-- An entry in front of others, with a comma and a blank between them. -/
theorem entries_cons {k v : Expr} {pairs : List (Expr × Expr)} {behind : Pos}
    (place : behind = ((pos.afterAll cs).after ':').after ' ')
    (key : Written n (.whole k) pos cs ts) (value : Written n (.whole v) behind ds us)
    (rest : Written n (.entries pairs) (((behind.afterAll ds).after ',').after ' ') fs vs) :
    ∃ ws, Written n (.entries ((k, v) :: pairs)) pos
      (cs ++ ':' :: ' ' :: (ds ++ ',' :: ' ' :: fs)) ws := by
  subst place
  rcases key with ⟨hspelled, r, hr⟩
  rcases value with ⟨hspelled', r', hr'⟩
  rcases rest with ⟨hspelled'', r'', hr''⟩
  let colon : Token.Of .colon := ⟨⟨.colon, ":", pos.afterAll cs⟩, rfl⟩
  let comma : Token.Of .comma :=
    ⟨⟨.comma, ",", (((pos.afterAll cs).after ':').after ' ').afterAll ds⟩, rfl⟩
  refine ⟨ts ++ colon.val :: (us ++ comma.val :: vs), ?_, .entriesCons r colon r' comma r'', ?_⟩
  · exact hspelled.append_sign rfl (hspelled'.append_sign rfl hspelled''.blank).blank
  · exact Nat.max_le.2 ⟨Nat.max_le.2 ⟨hr, hr'⟩, hr''⟩

/-- Entries with commas between them in braces. -/
theorem hash {pairs : List (Expr × Expr)}
    (h : Written n (.entries pairs) (pos.after '\x7b') cs ts) :
    ∃ us, Written (n + 1) (.bare (.hash ⟨.openBrace, "\x7b", pos⟩ pairs)) pos
      ('\x7b' :: (cs ++ ['\x7d'])) us := by
  rcases h with ⟨hspelled, r, hr⟩
  let opening : Token.Of .openBrace := ⟨⟨.openBrace, "\x7b", pos⟩, rfl⟩
  let closing : Token.Of .closeBrace :=
    ⟨⟨.closeBrace, "\x7d", (pos.after '\x7b').afterAll cs⟩, rfl⟩
  exact ⟨opening.val :: (ts ++ [closing.val]), (hspelled.append_sign rfl (.nil _)).sign rfl,
    .hash opening r closing, Nat.succ_le_succ hr⟩

/-! ## Expressions at a place -/

/-- An expression without parentheses where these are not needed. -/
theorem plain {e : Expr} {place : Place} (h : Written n (.bare e) pos cs ts)
    (admitted : place.Admits e) : Written n (.expr place e) pos cs ts := by
  rcases h with ⟨hspelled, r, hr⟩
  exact ⟨hspelled, .plain admitted r, hr⟩

/-- An expression in parentheses, wherever it stands. -/
theorem parens {e : Expr} (h : Written n (.whole e) (pos.after '(') cs ts) (place : Place) :
    ∃ us, Written (n + 1) (.expr place e) pos ('(' :: (cs ++ [')'])) us := by
  rcases h with ⟨hspelled, r, hr⟩
  let opening : Token.Of .openParen := ⟨⟨.openParen, "(", pos⟩, rfl⟩
  let closing : Token.Of .closeParen := ⟨⟨.closeParen, ")", (pos.after '(').afterAll cs⟩, rfl⟩
  exact ⟨opening.val :: (ts ++ [closing.val]), (hspelled.append_sign rfl (.nil _)).sign rfl,
    .parens opening r closing, Nat.succ_le_succ hr⟩

end Written

/-! ## Items between separators -/

theorem toList_intercalate_cons_cons (separator first next : String) (rest : List String) :
    (separator.intercalate (first :: next :: rest)).toList =
      first.toList ++ (separator.toList ++ (separator.intercalate (next :: rest)).toList) := by
  rw [String.intercalate_cons_cons, String.toList_append, String.toList_append, List.append_assoc]

end Scriptlet
