import Scriptlet.Proofs.Parse.Parallel
import Scriptlet.Proofs.Token.Positions

/-!
# The order of diagnostics

A cause is reported at the current token or at the next one, and a cause at the next token is
reported only when the current one is done. So the diagnostics of a text stand in the order of their
places, although productions go on behind others that have stopped short. Where expressions nest too
deeply, the report is sealed.

- `Report.Orderly` : diagnostics in order, at tokens of the text, none behind a given place
- `Report.Sealing` : nothing stands behind the diagnostic that seals a report
- `Parse.parallel_tidy` : every step of reading keeps diagnostics in order
- `parse_diagnostics_in_order` : the diagnostics of every source text
-/

namespace Scriptlet

/-! ## Reports in order -/

namespace Report

/-- Diagnostics in order, each one at a token, and none of them behind the place `limit`. -/
structure Orderly (tokens : List Token) (report : Report Diagnostic) (limit : Pos) : Prop where
  sorted : report.toList.Pairwise (·.pos ≤ ·.pos)
  placed : ∀ d ∈ report.toList, ∃ token ∈ tokens, d.pos = token.pos
  within : ∀ d ∈ report.toList, d.pos ≤ limit

/-- Only the last diagnostic may say that expressions nest too deeply, and only if the report is
sealed. -/
structure Sealing (report : Report Diagnostic) : Prop where
  unsealed : report.sealed = false → ∀ d ∈ report.toList, d.cause ≠ .tooDeep
  last : ∀ d ∈ report.toList.dropLast, d.cause ≠ .tooDeep

variable {tokens : List Token} {report : Report Diagnostic} {limit : Pos}

/-- Diagnostics that are in order up to a position are so up to a later one. -/
theorem Orderly.mono (h : report.Orderly tokens limit) {limit' : Pos} (le : limit ≤ limit') :
    report.Orderly tokens limit' :=
  ⟨h.sorted, h.placed, fun d hd => (h.within d hd).trans le⟩

/-- A diagnostic at the limit may be added. -/
theorem Orderly.add {token : Token} (h : report.Orderly tokens token.pos) (mem : token ∈ tokens)
    (cause : Diagnostic.Cause) :
    (report.add (some ⟨token.pos, cause⟩)).Orderly tokens token.pos := by
  -- A sealed report stays as it is; otherwise the new entry stands behind all others.
  cases hsealed : report.sealed with
  | true =>
      have hlist : (report.add (some ⟨token.pos, cause⟩)).toList = report.toList := by
        rw [toList_add, if_pos hsealed]
      exact ⟨hlist ▸ h.sorted, hlist ▸ h.placed, hlist ▸ h.within⟩
  | false =>
      have hlist : (report.add (some ⟨token.pos, cause⟩)).toList =
          report.toList ++ [⟨token.pos, cause⟩] := by
        rw [toList_add, hsealed]
        rfl
      refine ⟨?_, ?_, ?_⟩
      · rw [hlist, List.pairwise_append]
        refine ⟨h.sorted, List.pairwise_singleton _ _, ?_⟩
        intro d hd entry hentry
        rw [List.mem_singleton.1 hentry]
        exact h.within d hd
      · rw [hlist]
        exact List.forall_mem_append.2 ⟨h.placed, List.forall_mem_singleton.2 ⟨token, mem, rfl⟩⟩
      · rw [hlist]
        exact List.forall_mem_append.2 ⟨h.within, List.forall_mem_singleton.2 le_rfl⟩

/-- Whatever is added to a report that is not sealed stands behind all that is there. -/
theorem Sealing.last_add (h : report.Sealing) (d : Diagnostic) :
    ∀ e ∈ (report.add (some d)).toList.dropLast, e.cause ≠ .tooDeep := by
  rw [toList_add]
  split
  · exact h.last
  · next hsealed =>
      rw [List.dropLast_concat]
      exact h.unsealed (Bool.eq_false_iff.2 hsealed)

/-- A fault other than the nesting limit puts nothing behind the one that seals a report. -/
theorem Sealing.add (h : report.Sealing) (pos : Pos) {cause : Diagnostic.Cause}
    (other : cause ≠ .tooDeep) : (report.add (some ⟨pos, cause⟩)).Sealing := by
  refine ⟨?_, h.last_add _⟩
  rw [sealed_add, toList_add]
  intro hsealed
  rw [hsealed]
  exact List.forall_mem_append.2 ⟨h.unsealed hsealed, List.forall_mem_singleton.2 other⟩

/-- Closing a report keeps the diagnostic that seals it the last one. -/
theorem Sealing.close (h : report.Sealing) (d : Diagnostic) : (report.close (some d)).Sealing := by
  refine ⟨?_, h.last_add d⟩
  intro hsealed
  cases hsealed

end Report

/-- No single token shows that the program is nested too deep. -/
theorem Diagnostic.Cause.Shown.ne_tooDeep {token : Token} {cause : Diagnostic.Cause}
    (h : cause.Shown token) : cause ≠ .tooDeep := by
  cases h <;> simp

namespace Parse

/-! ## States -/

namespace State

theorem report_ofTokens (tokens : List Token) : (ofTokens tokens).report = .empty := by
  cases tokens <;> rfl

/-- The next token is one of those still to read. -/
theorem peek_mem_tokens (s : State) : s.peek ∈ s.tokens := by
  rcases s with ⟨cur, _ | ⟨next, rest⟩, report⟩
  · exact List.mem_cons_self
  · exact List.mem_cons_of_mem _ List.mem_cons_self

/-- So is the one at which draining ends. -/
theorem cur_drain_mem_tokens (s : State) : s.drain.cur ∈ s.tokens := by
  rcases s with ⟨cur, ahead, report⟩
  rcases List.eq_nil_or_concat ahead with rfl | ⟨front, last, rfl⟩
  · exact List.mem_cons_self
  · simp [drain, tokens]

/-- A state among the tokens of a text, with a report in order up to the given place. -/
structure Tidy (tokens : List Token) (s : State) (limit : Pos) : Prop where
  left : s.tokens <:+ tokens
  orderly : s.report.Orderly tokens limit
  sealing : s.report.Sealing

namespace Tidy

variable {tokens : List Token} {s : State} {limit : Pos}

theorem mono (h : s.Tidy tokens limit) {limit' : Pos} (le : limit ≤ limit') :
    s.Tidy tokens limit' :=
  ⟨h.left, h.orderly.mono le, h.sealing⟩

/-- The current token stands in front of the others. -/
theorem cur_le (h : s.Tidy tokens limit) (sorted : tokens.Pairwise (·.pos < ·.pos)) {token : Token}
    (mem : token ∈ s.tokens) : s.cur.pos ≤ token.pos := by
  have hsorted : s.tokens.Pairwise (·.pos < ·.pos) := sorted.sublist h.left.sublist
  rcases List.mem_cons.1 mem with rfl | hahead
  · exact le_rfl
  · exact ((List.pairwise_cons.1 hsorted).1 token hahead).le

/-- A fault at a token that is still to read keeps the diagnostics in order. -/
theorem fault {token : Token} (h : s.Tidy tokens token.pos) (mem : token ∈ s.tokens)
    {cause : Diagnostic.Cause} (shown : cause.Shown token) :
    (s.fault token cause).Tidy tokens token.pos :=
  ⟨h.left, h.orderly.add (h.left.subset mem) cause, h.sealing.add token.pos shown.ne_tooDeep⟩

end Tidy

end State

/-- Reading begins in order, with nothing reported. -/
theorem tidy_ofTokens {tokens : List Token} (stream : TokenStream tokens) :
    (State.ofTokens tokens).Tidy tokens (State.ofTokens tokens).cur.pos := by
  have hleft : (State.ofTokens tokens).tokens <:+ tokens := ⟨[], tokens_ofTokens stream⟩
  refine ⟨hleft, ?_, ?_⟩
  · rw [State.report_ofTokens]
    exact ⟨.nil, List.forall_mem_nil _, List.forall_mem_nil _⟩
  · rw [State.report_ofTokens]
    exact ⟨fun _ => List.forall_mem_nil _, List.forall_mem_nil _⟩

/-- Reading keeps diagnostics in order: up to the current token while that one is fresh, and up to
the next one when it is done. -/
theorem parallel_tidy {tokens : List Token} (stream : TokenStream tokens)
    (sorted : tokens.Pairwise (·.pos < ·.pos)) :
    Parallel tokens.length id (fun s s' => s' = s ∧ s.Tidy tokens s.cur.pos)
      (fun s s' => s' = s ∧ s.Tidy tokens s.peek.pos) where
  kind _ := rfl
  text _ := rfl
  ready fresh := ⟨stream.of_suffix fresh.2.left (List.cons_ne_nil _ _), fresh.2.left.length_le⟩
  cur fresh := by rw [fresh.1]; rfl
  cur_done done := by rw [done.1]; rfl
  peek done := by rw [done.1]; rfl
  keep := by
    -- The limit goes on to the next token, which stands behind the current one.
    rintro s s' ⟨rfl, htidy⟩ _
    exact ⟨rfl, htidy.mono (htidy.cur_le sorted s'.peek_mem_tokens)⟩
  advance := by
    rintro s s' ⟨rfl, htidy⟩
    have hreport : s'.advance.report = s'.report := by
      rcases s' with ⟨cur, _ | ⟨next, rest⟩, report⟩ <;> rfl
    refine ⟨rfl, (extends_advance s').1.trans htidy.left, ?_, ?_⟩
    · rw [hreport, State.cur_advance]
      exact htidy.orderly
    · rw [hreport]
      exact htidy.sealing
  faultCur := by
    rintro s s' cause ⟨rfl, htidy⟩ shown
    exact ⟨rfl, (htidy.fault List.mem_cons_self shown).mono
      (htidy.cur_le sorted s'.peek_mem_tokens)⟩
  faultPeek := by
    rintro s s' cause ⟨rfl, htidy⟩ shown
    exact ⟨rfl, htidy.fault s'.peek_mem_tokens shown⟩
  tooDeep := by
    rintro s s' ⟨rfl, htidy⟩
    -- Only the last token is left, and it stands behind the one where reading was given up.
    have hlast : s'.cur.pos ≤ s'.drain.cur.pos := htidy.cur_le sorted s'.cur_drain_mem_tokens
    have hcur : s'.cur ∈ tokens := htidy.left.subset List.mem_cons_self
    have hadd := (htidy.orderly.add hcur .tooDeep).mono hlast
    exact ⟨rfl, (extends_tooDeep s').1.trans htidy.left,
      ⟨hadd.sorted, hadd.placed, hadd.within⟩, htidy.sealing.close _⟩

end Parse

/-! ## Source texts -/

/-- The diagnostics of a source text stand in the order of their places, each one at the place of a
token of the text. If one of them says that expressions nest too deeply it is the last one, and the
only one that says so. -/
theorem parse_diagnostics_in_order (src : String) :
    ((parse src).2.map Diagnostic.pos).Pairwise (· ≤ ·) ∧
      (∀ d ∈ (parse src).2, ∃ token ∈ tokenize src, d.pos = token.pos) ∧
      ∀ front d back, (parse src).2 = front ++ d :: back → d.cause = .tooDeep →
        back = [] ∧ ∀ e ∈ front, e.cause ≠ .tooDeep := by
  have hstream := tokenStream_tokenize src
  have hparallel := Parse.parallel_tidy hstream (lexed_tokenize src).pairwise_lt
  have htidy := (hparallel.program rfl ⟨rfl, Parse.tidy_ofTokens hstream⟩).state.2
  have hparse : (parse src).2 = (Parse.program (tokenize src)).2.report.toList := by
    rw [parse, parseTokens]
  rw [hparse]
  refine ⟨List.pairwise_map.2 htidy.orderly.sorted, htidy.orderly.placed, ?_⟩
  intro front d back heq hdeep
  -- A diagnostic with others behind it is among those that are not the last one.
  have hlast := htidy.sealing.last
  rw [heq] at hlast
  cases back with
  | nil =>
      rw [List.dropLast_concat] at hlast
      exact ⟨rfl, hlast⟩
  | cons e rest =>
      rw [List.dropLast_append_cons, List.dropLast_cons_cons] at hlast
      exact absurd hdeep (hlast d (List.mem_append_right _ List.mem_cons_self))

end Scriptlet
