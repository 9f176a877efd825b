import Scriptlet.Proofs.Token.Division
import Scriptlet.Proofs.Token.Positions

/-!
# Places in a text

A place can be counted from the characters in front of it: there is a row for each line break among
them, and a column for each character behind the last line break. All cursors on the way through a
text stand at the places that are so counted, and each token at that of the first character of its
lexeme. So a text behind a line break has its tokens in the columns where it has them alone.

- `Pos.behind` : the place behind some characters, counted
- `Cursor.Stands` : a cursor that stands in a text, at its counted place
- `Cursor.Stands.moved` : moving over characters keeps this
- `Cursor.behindTokens`, `cursorBehind` : the cursor behind a number of tokens
- `tokens_at_counted_places` : the cursors and tokens of every source text
- `tokenize_append_line` : two texts with a line break between them
-/

namespace Scriptlet

/-! ## Counted places -/

namespace Pos

def behind (cs : List Char) : Pos :=
  ⟨1 + cs.count '\n', 1 + (cs.reverse.takeWhile (· ≠ '\n')).length⟩

theorem behind_concat (cs : List Char) (c : Char) : behind (cs ++ [c]) = (behind cs).after c := by
  by_cases hline : c = '\n'
  · subst hline
    simp [behind, after, Nat.add_assoc]
  · simp [behind, after, hline, Nat.add_comm]

/-- The position behind a text is reached from behind any part in front. -/
theorem afterAll_behind (cs ds : List Char) : (behind cs).afterAll ds = behind (cs ++ ds) := by
  induction ds generalizing cs with
  | nil => rw [List.append_nil]; rfl
  | cons d rest ih =>
      calc (behind cs).afterAll (d :: rest)
          = ((behind cs).after d).afterAll rest := rfl
        _ = (behind (cs ++ [d])).afterAll rest := by rw [behind_concat]
        _ = behind (cs ++ [d] ++ rest) := ih (cs ++ [d])
        _ = behind (cs ++ d :: rest) := by rw [List.append_assoc, List.singleton_append]

/-- Stepping through a text counts its places. -/
theorem afterAll_start (cs : List Char) : start.afterAll cs = behind cs :=
  afterAll_behind [] cs

/-- Of two places in a text the one with fewer characters in front of it comes first. -/
theorem behind_take_lt {text : List Char} {i j : Nat} (less : i < j) (inside : j ≤ text.length) :
    behind (text.take i) < behind (text.take j) := by
  -- The longer part of the text is the shorter one with at least one character behind it.
  have htake : text.take j = text.take i ++ (text.take j).drop i := by
    have hfront : (text.take j).take i = text.take i := by
      rw [List.take_take, Nat.min_eq_left (Nat.le_of_lt less)]
    rw [← hfront, List.take_append_drop]
  have hne : (text.take j).drop i ≠ [] := by
    rw [Ne, List.drop_eq_nil_iff, List.length_take, Nat.min_eq_left inside]
    exact Nat.not_le.2 less
  rw [htake, ← afterAll_behind]
  exact lt_afterAll _ hne

end Pos

/-! ## Cursors -/

namespace Cursor

/-- A cursor that stands in a text: what lies ahead of it is the text without the characters behind
it, and its place is counted from these. -/
structure Stands (text : List Char) (cursor : Cursor) : Prop where
  inside : cursor.offset ≤ text.length
  rest : cursor.rest = text.drop cursor.offset
  pos : cursor.pos = .behind (text.take cursor.offset)

variable {text : List Char} {cursor : Cursor}

/-- A cursor stands at the start of its text. -/
theorem stands_start (text : List Char) : (start text).Stands text :=
  ⟨Nat.zero_le _, rfl, rfl⟩

/-- The text up to the end of the characters ahead. -/
theorem Stands.take_add (h : cursor.Stands text) {chars rest : List Char}
    (ahead : cursor.rest = chars ++ rest) :
    text.take (cursor.offset + chars.length) = text.take cursor.offset ++ chars := by
  rw [List.take_add, ← h.rest, ahead, List.take_left]

/-- The characters ahead are the part of the text behind the cursor. -/
theorem Stands.drop_take (h : cursor.Stands text) {chars rest : List Char}
    (ahead : cursor.rest = chars ++ rest) :
    (text.take (cursor.offset + chars.length)).drop cursor.offset = chars := by
  have hfront : (text.take cursor.offset).length = cursor.offset := by
    rw [List.length_take, Nat.min_eq_left h.inside]
  rw [h.take_add ahead]
  exact List.drop_left' hfront

/-- Moving over characters leads to the counted place behind them. -/
theorem Stands.moved (h : cursor.Stands text) {chars rest : List Char}
    (ahead : cursor.rest = chars ++ rest) : (cursor.moved chars rest).Stands text := by
  refine ⟨?_, ?_, ?_⟩
  · have hlength := congrArg List.length (h.rest.symm.trans ahead)
    have hinside := h.inside
    simp only [List.length_drop, List.length_append] at hlength
    simp only [Cursor.moved]
    omega
  · simp only [Cursor.moved]
    rw [← List.drop_drop, ← h.rest, ahead, List.drop_left]
  · simp only [Cursor.moved]
    rw [h.pos, Pos.afterAll_behind, h.take_add ahead]

/-- How the next token lies in a text: behind a gap, from the character with the number `first` up
to where the cursor stands behind it. The end of file lies behind all characters. -/
structure Finds (text : List Char) (cursor : Cursor) (first : Nat) : Prop where
  behind : cursor.offset ≤ first
  inside : first ≤ text.length
  gap : Gap (text.drop first) ((text.take first).drop cursor.offset)
  lexeme : cursor.next.1.kind ≠ .eof → first < cursor.next.2.offset ∧
    Lexeme.Form ((text.take cursor.next.2.offset).drop first) cursor.next.1.kind cursor.next.1.text
  ends : cursor.next.1.kind = .eof → first = text.length ∧ cursor.next.2.offset = first

/-- A step over a lexeme. -/
theorem next_of_cons {c : Char} {rest : List Char} (ahead : cursor.skipGap.rest = c :: rest) :
    cursor.next =
      (⟨(Lexeme.read c rest).kind, (Lexeme.read c rest).text, cursor.skipGap.pos⟩,
        cursor.skipGap.moved (Lexeme.read c rest).chars (Lexeme.read c rest).rest) := by
  simp only [next, ahead]

/-- One step: the cursor behind the next token stands in the text, and the token at the counted
place of the first character of its lexeme. -/
theorem Stands.next (h : cursor.Stands text) :
    cursor.next.2.Stands text ∧
      ∃ first, cursor.Finds text first ∧ cursor.next.1.pos = .behind (text.take first) := by
  -- The token stands where the gap ends.
  have hahead := (spanGap_append cursor.rest).symm
  have hhere : cursor.skipGap.Stands text := h.moved hahead
  have hbehind : cursor.offset ≤ cursor.skipGap.offset := Nat.le_add_right _ _
  have hgap : Gap (text.drop cursor.skipGap.offset)
      ((text.take cursor.skipGap.offset).drop cursor.offset) := by
    have hskipped : (text.take cursor.skipGap.offset).drop cursor.offset = (spanGap cursor.rest).1 :=
      h.drop_take hahead
    rw [hskipped, ← hhere.rest]
    exact (gap_spanGapFrom cursor.rest).1
  cases hrest : cursor.skipGap.rest with
  | nil =>
      have hnext : cursor.next = (⟨.eof, "", cursor.skipGap.pos⟩, cursor.skipGap) := by
        simp only [Cursor.next, hrest]
      have hend : cursor.skipGap.offset = text.length :=
        Nat.le_antisymm hhere.inside (List.drop_eq_nil_iff.1 (hhere.rest.symm.trans hrest))
      rw [hnext]
      refine ⟨hhere, cursor.skipGap.offset, ⟨hbehind, hhere.inside, hgap, ?_, ?_⟩, hhere.pos⟩
      · rw [hnext]
        exact fun hinside => absurd rfl hinside
      · rw [hnext]
        exact fun _ => ⟨hend, rfl⟩
  | cons c rest =>
      have hnext := next_of_cons hrest
      have hread : cursor.skipGap.rest = (Lexeme.read c rest).chars ++ (Lexeme.read c rest).rest := by
        rw [hrest, Lexeme.chars_append_rest]
      have hform := (Lexeme.longest_read (spanGapFrom_cons hrest) rest).form
      have hpos := List.length_pos_iff.2 (Lexeme.read_chars_ne_nil c rest)
      rw [hnext]
      refine ⟨hhere.moved hread, cursor.skipGap.offset, ⟨hbehind, hhere.inside, hgap, ?_, ?_⟩,
        hhere.pos⟩
      · rw [hnext]
        refine fun _ => ⟨Nat.lt_add_of_pos_right hpos, ?_⟩
        have hchars : (text.take (cursor.skipGap.offset + (Lexeme.read c rest).chars.length)).drop
            cursor.skipGap.offset = (Lexeme.read c rest).chars := hhere.drop_take hread
        simp only [Cursor.moved, hchars]
        exact hform
      · rw [hnext]
        exact fun heof => absurd heof (Lexeme.read_kind c rest).1

def behindTokens (cursor : Cursor) : Nat → Cursor
  | 0 => cursor
  | n + 1 => (cursor.behindTokens n).next.2

/-- Every number of steps leaves the cursor in the text, at its counted place. -/
theorem Stands.behindTokens (h : cursor.Stands text) (n : Nat) :
    (cursor.behindTokens n).Stands text := by
  induction n with
  | zero => exact h
  | succ n ih => exact ih.next.1

/-- A token does not lead back. -/
theorem Stands.offset_le_next (h : cursor.Stands text) : cursor.offset ≤ cursor.next.2.offset := by
  rcases h.next with ⟨-, first, hfinds, -⟩
  by_cases hend : cursor.next.1.kind = .eof
  · rw [(hfinds.ends hend).2]
    exact hfinds.behind
  · exact Nat.le_of_lt (cursor.offset_lt_next hend)

theorem Stands.offset_behindTokens_le (h : cursor.Stands text) {n m : Nat} (le : n ≤ m) :
    (cursor.behindTokens n).offset ≤ (cursor.behindTokens m).offset := by
  induction le with
  | refl => exact Nat.le_refl _
  | @step m _ ih => exact Nat.le_trans ih (h.behindTokens m).offset_le_next

theorem behindTokens_next (cursor : Cursor) (n : Nat) :
    cursor.next.2.behindTokens n = cursor.behindTokens (n + 1) := by
  induction n with
  | zero => rfl
  | succ n ih => rw [behindTokens, ih, ← behindTokens]

/-- Each step is taken from the cursor behind the tokens of the earlier ones. -/
theorem getElem?_steps (cursor : Cursor) {n k : Nat} (less : n < k) :
    (cursor.steps k)[n]? = some (cursor.behindTokens n).next := by
  induction k generalizing cursor n with
  | zero => exact absurd less (Nat.not_lt_zero n)
  | succ k ih =>
      cases n with
      | zero => rfl
      | succ n =>
          rw [steps, List.getElem?_cons_succ, ih _ (Nat.lt_of_succ_lt_succ less),
            behindTokens_next]

end Cursor

/-! ## Source texts -/

def cursorBehind (src : String) (n : Nat) : Cursor :=
  (Cursor.start src.toList).behindTokens n

/-- Behind any number of tokens, the cursor stands in the text. -/
theorem stands_cursorBehind (src : String) (n : Nat) :
    (cursorBehind src n).Stands src.toList :=
  (Cursor.stands_start src.toList).behindTokens n

/-- The tokens of a source text are those that come next behind the earlier ones. -/
theorem eq_next_of_mem_tokenize {src : String} {n : Nat} {token : Token}
    (found : (tokenize src)[n]? = some token) : token = (cursorBehind src n).next.1 := by
  have hless : n < (tokenize src).length := (List.getElem?_eq_some_iff.1 found).1
  have hsteps := congrArg (·[n]?) ((lexed_tokenize src).steps_eq 0)
  have hstep := (Cursor.start src.toList).getElem?_steps hless
  simp only [List.getElem?_map] at hsteps
  rw [found, ← Cursor.start, hstep] at hsteps
  exact (Option.some.inj hsteps).symm

/-- Behind any number of tokens the cursor stands at the place that is counted from the characters
behind it. The token that comes next, which is the next one of the text, stands at the counted place
of the first character of its lexeme, or of the end of the text, and in front of all tokens behind
it. -/
theorem tokens_at_counted_places (src : String) (n : Nat) :
    (cursorBehind src n).Stands src.toList ∧
      (∀ token ∈ (tokenize src)[n]?, token = (cursorBehind src n).next.1) ∧
      (∃ first, (cursorBehind src n).Finds src.toList first ∧
        (cursorBehind src n).next.1.pos = .behind (src.toList.take first)) ∧
      ∀ m, n < m → (cursorBehind src n).next.1.kind ≠ .eof →
        (cursorBehind src n).next.1.pos < (cursorBehind src m).next.1.pos := by
  have hstands := stands_cursorBehind src n
  rcases hstands.next with ⟨-, first, hfinds, hpos⟩
  refine ⟨hstands, fun _ => eq_next_of_mem_tokenize, ⟨first, hfinds, hpos⟩, ?_⟩
  intro m hless hinside
  rcases (stands_cursorBehind src m).next with ⟨-, first', hfinds', hpos'⟩
  -- The lexeme has at least one character, and no later one starts before its end.
  have hle : (cursorBehind src n).next.2.offset ≤ (cursorBehind src m).offset :=
    (Cursor.stands_start src.toList).offset_behindTokens_le hless
  have hfirst : first < first' :=
    Nat.lt_of_lt_of_le (hfinds.lexeme hinside).1 (Nat.le_trans hle hfinds'.behind)
  rw [hpos, hpos']
  exact Pos.behind_take_lt hfirst hfinds'.inside

/-- The tokens of two texts with a line break between them are those of the first one without its
end of file and those of the second one, as many rows further down as the first one and the line
break take. All quotes of the first one have to be closed. -/
theorem tokenize_append_line (l r : String)
    (closed : ∀ token ∈ tokenize l, token.kind ≠ .unterminated) :
    ∃ front eof, tokenize l = front ++ [eof] ∧ eof.kind = .eof ∧
      tokenize (l ++ "\n" ++ r) =
        front ++ (tokenize r).map (Token.mapPos (.below (1 + l.toList.count '\n'))) := by
  rcases (tokenStream_tokenize l).eq_concat with ⟨front, eof, hl, heof, -⟩
  refine ⟨front, eof, hl, heof, ?_⟩
  -- Behind the line break the second text starts in the first column of a new row.
  have hrows : (Pos.start.afterAll l.toList).row = 1 + l.toList.count '\n' := by
    rw [Pos.afterAll_start]
    rfl
  have hsecond := (lexed_tokenize r).map_below (1 + l.toList.count '\n')
  rw [← hrows, ← Pos.after_line, hrows] at hsecond
  have hlexed := (lexed_tokenize l).append_line closed hsecond
  rw [hl, List.dropLast_concat] at hlexed
  have hchars : (l ++ "\n" ++ r).toList = l.toList ++ '\n' :: r.toList := by simp
  exact (hchars ▸ hlexed).tokenize_eq

/-- A quote inside a comment, quotes around a line break, and a sign at the end of a line that would
take up the sign at the start of the next one. -/
theorem tokenize_append_line_sign :
    let l := "x < # a \" here\n\"\\\"\n#\" !"
    let r := "= 1"
    (∀ token ∈ tokenize l, token.kind ≠ .unterminated) ∧
      ∃ front eof, tokenize l = front ++ [eof] ∧ eof.kind = .eof ∧
        tokenize (l ++ "\n" ++ r) =
          front ++ (tokenize r).map (Token.mapPos (.below (1 + l.toList.count '\n'))) := by
  intro l r
  have closed : ∀ token ∈ tokenize l, token.kind ≠ .unterminated := by decide
  exact ⟨closed, tokenize_append_line l r closed⟩

end Scriptlet
