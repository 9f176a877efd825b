import Mathlib.Data.Prod.Lex
import Scriptlet.Proofs.Token.Lines

/-!
# The order of places

Places are ordered by row, and inside a row by column. Every character leads to a later place, so
the tokens of a text stand in the order of their places, and no two of them at the same one.

- `Pos.lt_iff`, `Pos.le_iff` : what comes first
- `Pos.le_afterAll`, `Pos.lt_afterAll` : characters lead on
- `Lexed.pairwise_lt` : each token stands behind the ones in front of it
-/

namespace Scriptlet

namespace Pos

/-- Rows come first, and columns inside a row. -/
def key (pos : Pos) : Lex (Nat × Nat) :=
  toLex (pos.row, pos.col)

theorem key_injective : Function.Injective key := by
  rintro ⟨row, col⟩ ⟨row', col'⟩ h
  cases h
  rfl

instance : LinearOrder Pos :=
  LinearOrder.lift' key key_injective

/-- Positions are ordered by rows, and by columns inside a row. -/
theorem lt_iff {pos pos' : Pos} :
    pos < pos' ↔ pos.row < pos'.row ∨ pos.row = pos'.row ∧ pos.col < pos'.col :=
  Prod.Lex.toLex_lt_toLex

theorem le_iff {pos pos' : Pos} :
    pos ≤ pos' ↔ pos.row < pos'.row ∨ pos.row = pos'.row ∧ pos.col ≤ pos'.col :=
  Prod.Lex.toLex_le_toLex

/-- Every character leads further on. -/
theorem lt_after (pos : Pos) (c : Char) : pos < pos.after c := by
  rw [lt_iff]
  unfold after
  split
  · exact .inl (Nat.lt_succ_self _)
  · exact .inr ⟨rfl, Nat.lt_succ_self _⟩

theorem le_afterAll (pos : Pos) (cs : List Char) : pos ≤ pos.afterAll cs := by
  induction cs generalizing pos with
  | nil => exact le_rfl
  | cons c rest ih => exact (pos.lt_after c).le.trans (ih (pos.after c))

/-- So does every text that is not empty. -/
theorem lt_afterAll (pos : Pos) {cs : List Char} (h : cs ≠ []) : pos < pos.afterAll cs := by
  cases cs with
  | nil => exact absurd rfl h
  | cons c rest => exact (pos.lt_after c).trans_le (le_afterAll (pos.after c) rest)

end Pos

namespace Lexed

variable {pos : Pos} {cs : List Char} {ts : List Token}

/-- No token of a text stands in front of it. -/
theorem le_pos (h : Lexed pos cs ts) : ∀ token ∈ ts, pos ≤ token.pos := by
  induction h with
  | @ends pos cs gap =>
      intro token htoken
      rw [List.mem_singleton.1 htoken]
      exact pos.le_afterAll _
  | @lexeme pos cs c rest ts gap _ ih =>
      intro token htoken
      have hgap := pos.le_afterAll (spanGap cs).1
      rcases List.mem_cons.1 htoken with rfl | hmore
      · exact hgap
      · exact (hgap.trans (Pos.le_afterAll _ _)).trans (ih token hmore)

/-- Each token stands behind the ones in front of it. -/
theorem pairwise_lt (h : Lexed pos cs ts) : ts.Pairwise (·.pos < ·.pos) := by
  induction h with
  | ends => exact List.pairwise_singleton _ _
  | @lexeme pos cs c rest ts gap more ih =>
      refine List.pairwise_cons.2 ⟨?_, ih⟩
      intro token htoken
      -- A lexeme has characters, and the next one starts behind them.
      have hchars := Pos.lt_afterAll (pos.afterAll (spanGap cs).1) (Lexeme.read_chars_ne_nil c rest)
      exact hchars.trans_le (more.le_pos token htoken)

end Lexed

end Scriptlet
