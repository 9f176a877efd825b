import Scriptlet.Proofs.Parse.Order
import Scriptlet.Proofs.Parse.Termination

/-!
# Lexical errors are reported

No step of reading leaves a token behind that carries a lexical error, unless it reports the error.
This holds also while reading recovers from another fault, so in the end every lexical error of a
text is in its diagnostics. Only a report that was sealed may lack some of them, and then it says
that expressions nest too deeply.

- `Token.lexical` : the diagnostic of a token with a lexical error
- `Report.Reasoned` : a sealed report has a reason for it
- `Parse.State.Vigilant` : every lexical error is still ahead or reported
- `Parse.parallel_vigilant` : every step of reading keeps it so
- `lexical_errors_reported` : the lexical errors of every source text
-/

namespace Scriptlet

/-- The diagnostic of a token with a lexical error: at its place, with its text as the message. -/
def Token.lexical (token : Token) : Diagnostic :=
  ⟨token.pos, .lexical token.text⟩

namespace Report

variable {report : Report Diagnostic}

/-- A report that is sealed has a reason for it. -/
def Reasoned (report : Report Diagnostic) : Prop :=
  report.sealed = true → ∃ d ∈ report.toList, d.cause = .tooDeep

/-- No diagnostic is lost when another one is added. -/
theorem subset_add (report : Report Diagnostic) (d : Diagnostic) :
    report.toList ⊆ (report.add (some d)).toList := by
  intro e he
  rw [toList_add]
  split
  · exact he
  · exact List.mem_append_left _ he

/-- It is added, unless the report is sealed. -/
theorem mem_add (unsealed : report.sealed = false) (d : Diagnostic) :
    d ∈ (report.add (some d)).toList := by
  rw [toList_add, unsealed]
  exact List.mem_append_right _ (List.mem_singleton_self d)

/-- A report that gives reasons does so after a further diagnostic. -/
theorem Reasoned.add (h : report.Reasoned) (d : Diagnostic) :
    (report.add (some d)).Reasoned := by
  intro hsealed
  rw [sealed_add] at hsealed
  rcases h hsealed with ⟨e, he, hdeep⟩
  exact ⟨e, report.subset_add d he, hdeep⟩

/-- Giving up is the reason why a report is sealed, the first time and ever after. -/
theorem Reasoned.close (h : report.Reasoned) (pos : Pos) :
    (report.close (some ⟨pos, .tooDeep⟩)).Reasoned := by
  intro _
  cases hsealed : report.sealed with
  | true =>
      rcases h hsealed with ⟨e, he, hdeep⟩
      exact ⟨e, report.subset_add _ he, hdeep⟩
  | false => exact ⟨_, mem_add hsealed ⟨pos, .tooDeep⟩, rfl⟩

end Report

namespace Parse

/-! ## States -/

namespace State

/-- Every lexical error among the tokens of a text is still in `pending` or reported, as long as the
report takes entries. -/
structure Vigilant (tokens pending : List Token) (s : State) : Prop where
  left : s.tokens <:+ tokens
  told : s.report.sealed = false → ∀ token ∈ tokens, token.kind.isError = true →
    token ∈ pending ∨ token.lexical ∈ s.report.toList
  reasoned : s.report.Reasoned

namespace Vigilant

variable {tokens pending : List Token} {s : State}

/-- What is not a lexical error need not be pending. -/
theorem drop (h : s.Vigilant tokens s.tokens) (plain : s.cur.kind.isError = false) :
    s.Vigilant tokens s.ahead := by
  refine ⟨h.left, ?_, h.reasoned⟩
  intro unsealed token mem error
  rcases h.told unsealed token mem error with hpending | htold
  · rcases List.mem_cons.1 hpending with rfl | hahead
    · simp [plain] at error
    · exact .inl hahead
  · exact .inr htold

/-- The token that is reached was accounted for as the next one. -/
theorem advance (h : s.Vigilant tokens s.ahead) : s.advance.Vigilant tokens s.advance.tokens := by
  rcases s with ⟨cur, _ | ⟨next, rest⟩, report⟩
  -- Without a token ahead there is no step, and nothing was pending.
  · refine ⟨h.left, ?_, h.reasoned⟩
    intro unsealed token mem error
    exact .inr ((h.told unsealed token mem error).resolve_left List.not_mem_nil)
  · exact ⟨(extends_advance _).1.trans h.left, h.told, h.reasoned⟩

/-- One more diagnostic takes none away. -/
theorem fault (h : s.Vigilant tokens pending) (token : Token) (cause : Diagnostic.Cause) :
    (s.fault token cause).Vigilant tokens pending := by
  refine ⟨h.left, ?_, h.reasoned.add _⟩
  intro unsealed other mem error
  have hunsealed : s.report.sealed = false := (s.report.sealed_add _).symm.trans unsealed
  exact (h.told hunsealed other mem error).imp id fun htold => s.report.subset_add _ htold

/-- A cause that the current token shows is its lexical error, if it has one. -/
theorem fault_cur (h : s.Vigilant tokens s.tokens) {cause : Diagnostic.Cause}
    (shown : cause.Shown s.cur) : (s.fault s.cur cause).Vigilant tokens s.ahead := by
  cases shown with
  | lexical =>
      refine ⟨h.left, ?_, h.reasoned.add _⟩
      intro unsealed token mem error
      have hunsealed : s.report.sealed = false := (s.report.sealed_add _).symm.trans unsealed
      rcases h.told hunsealed token mem error with hpending | htold
      · rcases List.mem_cons.1 hpending with rfl | hahead
        · exact .inr (Report.mem_add hunsealed _)
        · exact .inl hahead
      · exact .inr (s.report.subset_add _ htold)
  | unexpected plain => exact (h.drop plain).fault _ _
  | noOperand plain => exact (h.drop plain).fault _ _
  | integerRange int => exact (h.drop (by rw [int]; rfl)).fault _ _

/-- Giving up accounts for all tokens that are left. -/
theorem tooDeep (h : s.Vigilant tokens s.tokens) :
    (tooDeep s).2.Vigilant tokens (tooDeep s).2.ahead := by
  refine ⟨(extends_tooDeep s).1.trans h.left, ?_, h.reasoned.close s.cur.pos⟩
  intro unsealed
  cases unsealed

end Vigilant

end State

/-- Reading begins with every token pending. -/
theorem vigilant_ofTokens {tokens : List Token} (stream : TokenStream tokens) :
    (State.ofTokens tokens).Vigilant tokens (State.ofTokens tokens).tokens := by
  have htokens := tokens_ofTokens stream
  refine ⟨⟨[], htokens⟩, ?_, ?_⟩
  · intro _ token mem _
    exact .inl (htokens.symm ▸ mem)
  · intro hsealed
    rw [State.report_ofTokens] at hsealed
    cases hsealed

/-- A fresh token is pending; once it is done it is not, so a lexical error is reported by then. -/
theorem parallel_vigilant {tokens : List Token} (stream : TokenStream tokens) :
    Parallel tokens.length id (fun s s' => s' = s ∧ s.Vigilant tokens s.tokens)
      (fun s s' => s' = s ∧ s.Vigilant tokens s.ahead) where
  kind _ := rfl
  text _ := rfl
  ready fresh := ⟨stream.of_suffix fresh.2.left (List.cons_ne_nil _ _), fresh.2.left.length_le⟩
  cur fresh := by rw [fresh.1]; rfl
  cur_done done := by rw [done.1]; rfl
  peek done := by rw [done.1]; rfl
  keep := by
    rintro s s' ⟨rfl, hvigilant⟩ plain
    exact ⟨rfl, hvigilant.drop plain⟩
  advance := by
    rintro s s' ⟨rfl, hvigilant⟩
    exact ⟨rfl, hvigilant.advance⟩
  faultCur := by
    rintro s s' cause ⟨rfl, hvigilant⟩ shown
    exact ⟨rfl, hvigilant.fault_cur shown⟩
  faultPeek := by
    rintro s s' cause ⟨rfl, hvigilant⟩ _
    exact ⟨rfl, hvigilant.fault _ _⟩
  tooDeep := by
    rintro s s' ⟨rfl, hvigilant⟩
    exact ⟨rfl, hvigilant.tooDeep⟩

/-- All tokens are read, so in the end none is pending. -/
theorem vigilant_program {tokens : List Token} (stream : TokenStream tokens) :
    (program tokens).2.Vigilant tokens [] := by
  have hdone := ((parallel_vigilant stream).program rfl ⟨rfl, vigilant_ofTokens stream⟩).state.2
  rw [(program_ends stream).2] at hdone
  exact hdone

end Parse

/-! ## Source texts -/

/-- Unless expressions nest too deeply, each lexical error of a source text has a diagnostic at
its place with its text as the message. In any case a source text with a lexical error has
diagnostics. -/
theorem lexical_errors_reported (src : String) :
    ((∀ d ∈ (parse src).2, d.cause ≠ .tooDeep) → ∀ token ∈ tokenize src,
      token.kind.isError = true →
        ∃ d ∈ (parse src).2, d.pos = token.pos ∧ d.message = token.text) ∧
    ((∃ token ∈ tokenize src, token.kind.isError = true) → (parse src).2 ≠ []) := by
  have hvigilant := Parse.vigilant_program (tokenStream_tokenize src)
  have hparse : (parse src).2 = (Parse.program (tokenize src)).2.report.toList := by
    rw [parse, parseTokens]
  rw [hparse]
  generalize (Parse.program (tokenize src)).2 = s at hvigilant
  have htold (unsealed : s.report.sealed = false) {token : Token} (mem : token ∈ tokenize src)
      (error : token.kind.isError = true) : token.lexical ∈ s.report.toList :=
    (hvigilant.told unsealed token mem error).resolve_left List.not_mem_nil
  refine ⟨?_, ?_⟩
  · intro shallow token mem error
    have hunsealed : s.report.sealed = false := by
      refine Bool.eq_false_iff.2 fun hsealed => ?_
      rcases hvigilant.reasoned hsealed with ⟨d, hd, hdeep⟩
      exact shallow d hd hdeep
    exact ⟨token.lexical, htold hunsealed mem error, rfl, rfl⟩
  · rintro ⟨token, mem, error⟩
    cases hsealed : s.report.sealed with
    | true =>
        rcases hvigilant.reasoned hsealed with ⟨d, hd, -⟩
        exact List.ne_nil_of_mem hd
    | false => exact List.ne_nil_of_mem (htold hsealed mem error)

/-- One illegal character where a name has to be, another one behind it, and quotes that are not
closed inside a call. -/
theorem lexical_errors_reported_in_recovery :
    let src := "let @ = 1;\nf(2 $\n  \"x"
    (∀ d ∈ (parse src).2, d.cause ≠ .tooDeep) ∧
      ((tokenize src).filter fun token => token.kind.isError).map Token.pos =
        [⟨1, 5⟩, ⟨2, 5⟩, ⟨3, 3⟩] ∧
      ∀ token ∈ tokenize src, token.kind.isError = true →
        ∃ d ∈ (parse src).2, d.pos = token.pos ∧ d.message = token.text := by
  intro src
  have hshallow : ∀ d ∈ (parse src).2, d.cause ≠ .tooDeep := by decide +kernel
  exact ⟨hshallow, by decide +kernel, (lexical_errors_reported src).1 hshallow⟩

end Scriptlet
