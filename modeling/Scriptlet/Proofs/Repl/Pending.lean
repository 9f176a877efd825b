import Scriptlet.Proofs.Token.Division
import Scriptlet.Repl.Event

/-!
# What an input that needs more lines looks like

An input needs more lines only if there is an opening bracket or a quote in it. Neither a blank
input nor the line that ends a loop has one, however many lines it is made of.

- `Text.readUtf8_append_line` : bytes with a line feed between them are read one by one
- `Repl.openers` : the characters that open something
- `Repl.exists_opener` : an input that needs more lines has one of them
- `Repl.trimText_of_incomplete` : such an input is neither blank nor the end of a loop, whatever
  follows it
- `Repl.tokenize_of_blank` : a blank input has no token but the end of file
-/

namespace Scriptlet

open Text

/-! ## Bytes of several lines -/

namespace Text

/-- A line feed is no part of a longer sequence. -/
theorem leadChar?_append_line (b : UInt8) (rest more : List UInt8) :
    leadChar? b (rest ++ lineFeed :: more) = leadChar? b rest := by
  have hfeed : continuation? lineFeed = none := rfl
  unfold leadChar?
  -- The longest sequence has three bytes behind its first one.
  rcases rest with _ | ⟨x, _ | ⟨y, _ | ⟨z, rest⟩⟩⟩
  · rcases more with _ | ⟨_, _ | ⟨_, more⟩⟩ <;> simp [hfeed]
  · rcases more with _ | ⟨_, more⟩ <;> simp [hfeed]
  · simp [hfeed]
  · simp

/-- A sequence has all its bytes. -/
theorem le_length_of_leadChar? {b : UInt8} {rest : List UInt8} {c : Char} {extra : Nat}
    (h : leadChar? b rest = some (c, extra)) : extra ≤ rest.length := by
  unfold leadChar? at h
  simp only [Option.bind_eq_bind, Option.pure_def] at h
  split at h
  · cases h
    exact Nat.zero_le _
  · split at h
    · cases h
    · split at h
      · split at h
        · simp only [Option.bind_eq_some_iff] at h
          rcases h with ⟨_, _, _, _, ⟨⟩⟩
          simp
        · cases h
      · split at h
        · split at h
          · simp only [Option.bind_eq_some_iff] at h
            rcases h with ⟨_, _, _, _, _, _, ⟨⟩⟩
            simp
          · cases h
        · split at h
          · split at h
            · simp only [Option.bind_eq_some_iff] at h
              rcases h with ⟨_, _, _, _, _, _, _, _, ⟨⟩⟩
              simp
            · cases h
          · cases h

/-- The characters that were read before come first. -/
theorem readUtf8From_seen (skip : Nat) (seen : List Char) (bytes : List UInt8) :
    readUtf8From skip seen bytes = seen.reverse ++ readUtf8From skip [] bytes := by
  induction bytes generalizing skip seen with
  | nil => simp [readUtf8From]
  | cons b rest ih =>
      cases skip with
      | succ k => exact ih k seen
      | zero =>
          simp only [readUtf8From]
          split
          · next c extra _ =>
              rw [ih extra (c :: seen), ih extra [c]]
              simp
          · rw [ih 0 (replacementChar :: seen), ih 0 [replacementChar]]
            simp

/-- Decoding goes on anew behind a line feed, which is part of no longer character. -/
theorem readUtf8From_append_line {skip : Nat} {bytes : List UInt8} (inside : skip ≤ bytes.length)
    (seen : List Char) (more : List UInt8) :
    readUtf8From skip seen (bytes ++ lineFeed :: more) =
      readUtf8From skip seen bytes ++ '\n' :: readUtf8 more := by
  induction bytes generalizing skip seen with
  | nil =>
      obtain rfl : skip = 0 := Nat.le_zero.1 inside
      have hstep : readUtf8From 0 seen (lineFeed :: more) = readUtf8From 0 ('\n' :: seen) more := rfl
      rw [List.nil_append, hstep, readUtf8From_seen]
      simp [readUtf8From, readUtf8]
  | cons b rest ih =>
      cases skip with
      | succ k => exact ih (Nat.le_of_succ_le_succ inside) seen
      | zero =>
          -- The same sequence is read with the line behind it, and it ends inside of `bytes`.
          simp only [List.cons_append, readUtf8From, leadChar?_append_line]
          split
          · next c extra hlead => exact ih (le_length_of_leadChar? hlead) (c :: seen)
          · exact ih (Nat.zero_le _) _

/-- Bytes with a line feed between them are read one by one. -/
theorem readUtf8_append_line (bytes more : List UInt8) :
    readUtf8 (bytes ++ lineFeed :: more) = readUtf8 bytes ++ '\n' :: readUtf8 more :=
  readUtf8From_append_line (Nat.zero_le _) [] more

end Text

namespace Repl

/-- The text of joined lines is that of the lines, joined. -/
theorem toList_text_joined (src line : Bytes) :
    (src ++ lineFeed :: line).text.toList = src.text.toList ++ '\n' :: line.text.toList := by
  simp only [Bytes.text, String.toList_ofList]
  exact readUtf8_append_line src line

/-! ## Openers -/

/-- The characters that open something: brackets and quotes. -/
def openers : List Char :=
  ['(', '[', '\x7b', '"']

/-- The kinds of tokens that make an input need more lines. -/
def Opens (kind : Token.Kind) : Prop :=
  kind = .unterminated ∨ 0 < bracketWeight kind

instance (kind : Token.Kind) : Decidable (Opens kind) :=
  inferInstanceAs (Decidable (_ ∨ _))

/-- No word opens a bracket. -/
theorem not_opens_ofWord (word : String) : ¬ Opens (.ofWord word) := by
  unfold Opens Token.Kind.ofWord Token.Kind.keywords
  simp only [List.lookup_cons, List.lookup_nil]
  repeat' split
  all_goals decide

/-- The lexeme of a token that opens something starts with an opener. -/
theorem opener_of_form {chars : List Char} {kind : Token.Kind} {text : String}
    (h : Lexeme.Form chars kind text) (opens : Opens kind) : ∃ c ∈ chars, c ∈ openers := by
  cases h with
  | word => exact absurd opens (not_opens_ofWord _)
  | number => exact absurd opens (by decide)
  | sign sign =>
      cases kind with
      | openParen => exact ⟨'(', by decide, by decide⟩
      | openBracket => exact ⟨'[', by decide, by decide⟩
      | openBrace => exact ⟨'\x7b', by decide, by decide⟩
      | unterminated => cases sign
      | _ => exact absurd opens (by decide)
  | quoted => exact absurd opens (by decide)
  | illegal => exact absurd opens (by decide)
  | unterminated => exact ⟨'"', List.mem_cons_self, by decide⟩

/-- A token that opens a bracket or a string comes from a character that does. -/
theorem opener_of_divided {pos : Pos} {cs : List Char} {ts : List Token} (h : Divided pos cs ts)
    {token : Token} (mem : token ∈ ts) (opens : Opens token.kind) : ∃ c ∈ cs, c ∈ openers := by
  induction h with
  | ends =>
      have hend : ¬ Opens .eof := by decide
      rw [List.mem_singleton.1 mem] at opens
      exact absurd opens hend
  | lexeme _ form _ _ ih =>
      rcases List.mem_cons.1 mem with rfl | hmore
      · rcases opener_of_form form opens with ⟨c, hc, hopener⟩
        exact ⟨c, List.mem_append_right _ (List.mem_append_left _ hc), hopener⟩
      · rcases ih hmore with ⟨c, hc, hopener⟩
        exact ⟨c, List.mem_append_right _ (List.mem_append_right _ hc), hopener⟩

/-- More brackets are open than closed only if there is one that opens. -/
theorem exists_opens {tokens : List Token} (h : 0 < openBrackets tokens) :
    ∃ token ∈ tokens, Opens token.kind := by
  -- While nothing opens, the depth does not rise above zero.
  have hfold (depth : Int) (low : depth ≤ 0)
      (positive : 0 < tokens.foldl (fun depth token => depth + bracketWeight token.kind) depth) :
      ∃ token ∈ tokens, Opens token.kind := by
    clear h
    induction tokens generalizing depth with
    | nil => exact absurd positive (Int.not_lt.2 low)
    | cons token rest ih =>
        by_cases hweight : 0 < bracketWeight token.kind
        · exact ⟨token, List.mem_cons_self, .inr hweight⟩
        · rcases ih (depth + bracketWeight token.kind) (by omega) positive with
            ⟨other, hother, hopens⟩
          exact ⟨other, List.mem_cons_of_mem _ hother, hopens⟩
  exact hfold 0 (Int.le_refl 0) h

/-- An input that needs more lines has an opener. -/
theorem exists_opener {src : String} (h : incomplete src = true) :
    ∃ c ∈ src.toList, c ∈ openers := by
  have hopens : ∃ token ∈ tokenize src, Opens token.kind := by
    simp only [incomplete, hasOpenText, Bool.or_eq_true, List.any_eq_true, beq_iff_eq,
      decide_eq_true_eq] at h
    rcases h with ⟨token, mem, hkind⟩ | hopen
    · exact ⟨token, mem, .inl hkind⟩
    · exact exists_opens hopen
  rcases hopens with ⟨token, mem, hkind⟩
  exact opener_of_divided (lexed_tokenize src).divided mem hkind

/-! ## Blanks at the ends -/

/-- A character that is not blank is not trimmed. -/
theorem mem_dropWhile_isBlank {c : Char} {cs : List Char} (mem : c ∈ cs)
    (inside : isBlank c = false) : c ∈ cs.dropWhile isBlank := by
  rw [← List.takeWhile_append_dropWhile (p := isBlank) (l := cs)] at mem
  rcases List.mem_append.1 mem with hfront | hback
  · have hblank := List.all_eq_true.1 List.all_takeWhile c hfront
    rw [inside] at hblank
    cases hblank
  · exact hback

/-- Nothing but blanks is trimmed. -/
theorem mem_trimText {c : Char} {src : String} (mem : c ∈ src.toList)
    (inside : isBlank c = false) : c ∈ (trimText src).toList := by
  have hfront := mem_dropWhile_isBlank mem inside
  have hback := mem_dropWhile_isBlank (List.mem_reverse.2 hfront) inside
  rw [trimText, String.toList_ofList]
  exact List.mem_reverse.2 hback

/-- An input that needs more lines is neither blank nor the end of a loop, and it does not become so
by what is added to it. -/
theorem trimText_of_incomplete {src longer : String} (h : incomplete src = true)
    (part : src.toList ⊆ longer.toList) :
    (trimText longer).isEmpty = false ∧ (trimText longer == quitCommand) = false := by
  -- The opener is not trimmed, and there is none in the line that ends a loop.
  have hblank : openers.all (fun d => !isBlank d) = true := by decide
  have hquit : openers.all (fun d => !quitCommand.toList.contains d) = true := by decide
  rw [List.all_eq_true] at hblank hquit
  rcases exists_opener h with ⟨c, hc, hopener⟩
  have hmem := mem_trimText (part hc) (by simpa using hblank c hopener)
  refine ⟨?_, ?_⟩
  · refine Bool.eq_false_iff.2 fun hempty => ?_
    rw [String.isEmpty_iff.1 hempty] at hmem
    cases hmem
  · refine beq_eq_false_iff_ne.2 fun heq => ?_
    rw [heq] at hmem
    simpa [hmem] using hquit c hopener

/-! ## Blank inputs -/

/-- Only blanks are trimmed away altogether. -/
theorem isBlank_of_trimText {src : String} (h : (trimText src).isEmpty = true) :
    ∀ c ∈ src.toList, isBlank c = true := by
  intro c hc
  cases hblank : isBlank c with
  | true => rfl
  | false =>
      have hmem := mem_trimText hc hblank
      rw [String.isEmpty_iff.1 h] at hmem
      cases hmem

/-- A blank input has no token but the end of file. -/
theorem tokenize_of_blank {src : String} (h : (trimText src).isEmpty = true) :
    ∃ pos, tokenize src = [⟨.eof, "", pos⟩] := by
  have hgap : Gap [] src.toList := by
    have hblank := isBlank_of_trimText h
    generalize src.toList = cs at hblank
    induction cs with
    | nil => exact .nil
    | cons c rest ih =>
        exact .blank (hblank c List.mem_cons_self)
          (ih fun d hd => hblank d (List.mem_cons_of_mem _ hd))
  exact ⟨_, (Divided.ends hgap).lexed.tokenize_eq⟩

end Repl
end Scriptlet
