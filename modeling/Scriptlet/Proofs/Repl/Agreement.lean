import Scriptlet.Proofs.Repl.Inputs

/-!
# The two loops agree

The loop at a terminal looks for the end of a loop in whole inputs, and the loop over plain lines in
single lines. Still both read the same groups of lines: no input of several lines is the line that
ends a loop. Only the loop over plain lines evaluates blank inputs, and for these nothing is shown.

- `Repl.interactive_follows` : the loop at a terminal reads groups of lines, too
- `Repl.shows` : what each event of a loop shows, and `Repl.perform_out` for the whole output
- `Repl.evaluated_shows` : what evaluations show is determined by the sources, and
  `Repl.evaluated_shows_eq` : blank ones make no difference
- `Repl.loops_agree` : both loops on the same lines
-/

namespace Scriptlet

open Text

namespace Repl

def isBlankSource (src : Bytes) : Bool :=
  (trimText src.text).isEmpty

/-- An incomplete source is not blank. -/
theorem isBlankSource_of_incomplete {src : Bytes} (h : incomplete src.text = true) :
    isBlankSource src = false :=
  (trimText_of_incomplete h (List.Subset.refl _)).1

/-- The command to quit is complete. -/
theorem incomplete_of_isQuit {line : Bytes} (h : isQuit line = true) :
    incomplete line.text = false := by
  refine Bool.eq_false_iff.2 fun hopen => ?_
  rw [isQuit, (trimText_of_incomplete hopen (List.Subset.refl _)).2] at h
  cases h

/-- It is not blank either. -/
theorem isBlankSource_of_isQuit {line : Bytes} (h : isQuit line = true) :
    isBlankSource line = false := by
  rw [isQuit, beq_iff_eq] at h
  rw [isBlankSource, h]
  rfl

/-- No input as a whole is the line that ends a loop: a single line is not, and with several lines
the first one opens something. -/
theorem OneInput.isQuit_joinLines {group : List Bytes} (h : OneInput group) :
    isQuit (joinLines group) = false := by
  rcases List.exists_cons_of_ne_nil h.ne_nil with ⟨first, more, rfl⟩
  by_cases hmore : more = []
  · subst hmore
    rw [joinLines_singleton]
    exact h.stays first (by simp)
  · have hopen := h.more [first] ⟨more, rfl⟩ (List.cons_ne_nil _ _) (by simpa using Ne.symm hmore)
    have hjoined : joinLines (first :: more) = first ++ lineFeed :: joinLines more := by
      rw [← List.singleton_append, joinLines_append (List.cons_ne_nil _ _) hmore,
        joinLines_singleton]
    rw [joinLines_singleton] at hopen
    refine (trimText_of_incomplete hopen ?_).2
    rw [hjoined, toList_text_joined]
    exact List.subset_append_left _ _

/-! ## At a terminal -/

/-- An input is evaluated if it is not blank, and after one that is cut short there is a last
prompt. -/
def interactiveManner : Manner where
  input src := if isBlankSource src then [] else [.evaluate src]
  cutShort src := [.evaluate src, .prompt, .newline]
  ends := [.newline]

/-- What the loop at a terminal does once it has read an input. -/
def afterReading (valid : Event → Bool) : List Event × Reading → Course
  | (done, .ended) => ⟨(.newline :: done).reverse, none⟩
  | (done, .refused) => ⟨done.reverse, some .invalidPrompt⟩
  | (done, .input src rest) =>
    if isBlankSource src then interactiveEventsFrom valid done rest
    else if isQuit src then ⟨done.reverse, none⟩
    else interactiveEventsFrom valid (.evaluate src :: done) rest

/-- The loop at a terminal, from the middle of an input on. -/
def resume (valid : Event → Bool) (done : List Event) (buffer : Bytes) (lines : List Bytes) :
    Course :=
  afterReading valid (readInput valid done buffer lines)

theorem interactiveEventsFrom_eq_resume (valid : Event → Bool) (done : List Event)
    (lines : List Bytes) : interactiveEventsFrom valid done lines = resume valid done [] lines := by
  rw [interactiveEventsFrom, resume]
  split
  case h_1 heq => rw [heq, afterReading]
  case h_2 heq => rw [heq, afterReading]
  case h_3 heq =>
    rw [heq, afterReading]
    rfl

section

variable {valid : Event → Bool} (prompt : valid .prompt = true)
  (continuation : valid .continuation = true)

include prompt continuation

/-- Both prompts can be shown, so each prompt that is asked for can. -/
theorem valid_promptFor (buffer : Bytes) : valid (promptFor buffer) = true := by
  rw [promptFor]
  split
  · exact prompt
  · exact continuation

theorem readInput_cons {front : List Bytes} (waiting : Waiting front) (line : Bytes)
    (done : List Event) (rest : List Bytes) :
    readInput valid done (joinLines front) (line :: rest) =
      let src := joinLines (front ++ [line])
      let done := promptFor (joinLines front) :: done
      if incomplete src.text then readInput valid done src rest else (done, .input src rest) := by
  rw [readInput]
  dsimp only
  rw [if_pos (valid_promptFor prompt continuation _), waiting.joined_joinLines]

/-- The loop at a terminal takes its steps in this manner. -/
theorem interactive_follows : Follows interactiveManner (resume valid) where
  waits := by
    intro front line waiting done rest
    have hsome : front ++ [line] ≠ [] := List.append_ne_nil_of_right_ne_nil _ (List.cons_ne_nil _ _)
    rw [resume, readInput_cons prompt continuation waiting.of_append]
    exact congrArg (afterReading valid) (if_pos (waiting.incomplete_joinLines hsome))
  input := by
    intro front line input closed done rest
    rw [resume, readInput_cons prompt continuation input.waiting_front]
    dsimp only
    rw [closed, if_neg Bool.false_ne_true, afterReading, input.isQuit_joinLines]
    cases hblank : isBlankSource (joinLines (front ++ [line])) <;>
      simp [hblank, interactiveManner, interactiveEventsFrom_eq_resume]
  cutShort := by
    intro front waiting some done
    have hopen := waiting.incomplete_joinLines some
    have hempty : (joinLines front).isEmpty = false := by
      rw [waiting.isEmpty_joinLines, List.isEmpty_eq_false_iff.2 some]
    -- The input is taken as it is: it is not blank, and it does not end the loop.
    have hquit : isQuit (joinLines front) = false := (waiting.oneInput some).isQuit_joinLines
    simp [resume, readInput, promptFor, hempty, continuation, afterReading, hquit,
      isBlankSource_of_incomplete hopen, interactiveEventsFrom_eq_resume, prompt, interactiveManner]
  ends := by
    intro done
    simp [resume, readInput, promptFor, prompt, afterReading, interactiveManner]
  quits := by
    intro line quit done rest
    -- Here the line is looked at as a whole input: it opens nothing, and it is not blank.
    simp [resume, readInput, promptFor, joined, prompt, incomplete_of_isQuit quit, afterReading,
      isBlankSource_of_isQuit quit, quit]

end

/-- The loop at a terminal evaluates every input that is not blank, up to the line that ends it. -/
theorem sources_interactive {lines unread : List Bytes} {groups : List (List Bytes)}
    (grouped : Grouped lines groups unread) (quits : Bool) :
    sources (transcript interactiveManner quits groups) =
      (groups.map joinLines).filter fun src => !isBlankSource src := by
  refine sources_transcript ?_ ?_ rfl grouped quits
  · intro src
    cases hblank : isBlankSource src <;> simp [interactiveManner, hblank, sources, Event.source?]
  · intro src hopen
    simp [interactiveManner, isBlankSource_of_incomplete hopen, sources, Event.source?]

/-! ## Output -/

/-- Nothing is shown for a blank source text, and nothing changes. -/
theorem evaluate_of_blank {src : Bytes} (h : isBlankSource src = true) (color : Bool)
    (session : Session) : evaluate color session src = some (⟨"", none⟩, session) := by
  rcases tokenize_of_blank h with ⟨pos, htokens⟩
  have hparse : parse src.text = (⟨[]⟩, []) := by
    rw [parse, htokens]
    rfl
  rw [evaluate, hparse]
  rfl

/-- What each event shows. -/
def shows (settings : Settings) (session : Session) : List Event → Option (List (Event × String))
  | [] => some []
  | event :: rest =>
    (performEvent settings ⟨session, "", #[]⟩ event).bind fun after =>
      (shows settings after.session rest).map ((event, after.out) :: ·)

/-- An event only adds to what was shown and logged. -/
theorem performEvent_eq (settings : Settings) (progress : Progress) (event : Event) :
    performEvent settings progress event =
      (performEvent settings ⟨progress.session, "", #[]⟩ event).map fun after =>
        ⟨after.session, progress.out ++ after.out, progress.records ++ after.records⟩ := by
  cases event with
  | evaluate src =>
      simp only [performEvent]
      cases evaluate settings.color progress.session src with
      | none => rfl
      | some result =>
          rcases result with ⟨⟨text, _ | n⟩, later⟩ <;> simp
  | _ => simp [performEvent, Progress.put]

/-- The output of a loop is what its events show, one after the other. -/
theorem perform_out (settings : Settings) (progress : Progress) (events : List Event) :
    (perform settings progress events).map Progress.out =
      (shows settings progress.session events).map fun shown =>
        progress.out ++ String.join (shown.map Prod.snd) := by
  induction events generalizing progress with
  | nil => simp [perform, shows]
  | cons event rest ih =>
      rw [perform, shows, performEvent_eq]
      cases performEvent settings ⟨progress.session, "", #[]⟩ event with
      | none => rfl
      | some after =>
          simp only [Option.map_some, Option.bind_some]
          rw [ih]
          simp [Function.comp_def, String.append_assoc]

/-- The source texts that are evaluated, each with what is shown for it. -/
def evaluated (shown : List (Event × String)) : List (Bytes × String) :=
  shown.filterMap fun piece => piece.1.source?.map fun src => (src, piece.2)

/-- Evaluates source texts in order and tells what is shown for each. -/
def evaluateAll (color : Bool) (session : Session) : List Bytes → Option (List (Bytes × String))
  | [] => some []
  | src :: rest =>
    (evaluate color session src).bind fun result =>
      (evaluateAll color result.2 rest).map ((src, result.1.text) :: ·)

/-- What evaluations show is determined by the source texts. -/
theorem evaluated_shows (settings : Settings) (session : Session) (events : List Event) :
    (shows settings session events).map evaluated =
      evaluateAll settings.color session (sources events) := by
  induction events generalizing session with
  | nil => rfl
  | cons event rest ih =>
      cases event with
      | evaluate src =>
          have hsources : sources (.evaluate src :: rest) = src :: sources rest := rfl
          rw [hsources, evaluateAll, shows, performEvent]
          cases evaluate settings.color session src with
          | none => rfl
          | some result =>
              rcases result with ⟨shown, later⟩
              simp only [Option.bind_some]
              rw [← ih later]
              cases shows settings later rest <;> rfl
      | _ =>
          -- All other events leave the session as it is.
          refine Eq.trans ?_ (ih session)
          simp only [shows, performEvent, Progress.put, Option.bind_some]
          cases shows settings session rest <;> rfl

/-- Blank source texts make no difference to the others. -/
theorem evaluateAll_filter (color : Bool) (session : Session) (srcs : List Bytes) :
    (evaluateAll color session srcs).map (List.filter fun result => !isBlankSource result.1) =
      evaluateAll color session (srcs.filter fun src => !isBlankSource src) := by
  induction srcs generalizing session with
  | nil => rfl
  | cons src rest ih =>
      cases hblank : isBlankSource src with
      | true =>
          rw [List.filter_cons_of_neg (by simp [hblank]), ← ih session, evaluateAll,
            evaluate_of_blank hblank]
          simp only [Option.bind_some]
          cases evaluateAll color session rest <;> simp [hblank]
      | false =>
          rw [List.filter_cons_of_pos (by simp [hblank]), evaluateAll, evaluateAll]
          cases evaluate color session src with
          | none => rfl
          | some result =>
              rcases result with ⟨shown, later⟩
              simp only [Option.bind_some]
              rw [← ih later]
              cases evaluateAll color later rest <;> simp [hblank]

/-- Two loops that evaluate the same source texts, blank ones apart, show the same for them. -/
theorem evaluated_shows_eq (settings : Settings) (session : Session) {events events' : List Event}
    (h : sources events' = (sources events).filter fun src => !isBlankSource src) :
    (shows settings session events).map
        (fun shown => (evaluated shown).filter fun result => !isBlankSource result.1) =
      (shows settings session events').map evaluated := by
  calc (shows settings session events).map
        (fun shown => (evaluated shown).filter fun result => !isBlankSource result.1)
      = ((shows settings session events).map evaluated).map
          (List.filter fun result => !isBlankSource result.1) := by rw [Option.map_map]; rfl
    _ = (evaluateAll settings.color session (sources events)).map
          (List.filter fun result => !isBlankSource result.1) := by rw [evaluated_shows]
    _ = evaluateAll settings.color session (sources events') := by rw [evaluateAll_filter, h]
    _ = (shows settings session events').map evaluated := (evaluated_shows _ _ _).symm

/-! ## Both loops -/

/-- On the same lines, and with prompts that can be shown, whatever that means, both loops read the
same groups of lines and end at the same line. The loop at a terminal evaluates the same source
texts, blank ones apart, for which nothing is shown. So what is shown for the source texts is the
same in both outputs. -/
theorem loops_agree {settings : Settings} {valid : String → Bool}
    (prompt : valid settings.prompt = true) (continuation : valid settings.continuation = true)
    (lines : List Bytes) :
    let plain := plainEvents (lines.map .line)
    let terminal := interactiveEvents valid settings.prompt settings.continuation lines
    plain.fault = none ∧ terminal.fault = none ∧
      (∃ groups unread, Grouped lines groups unread ∧
        plain.events = transcript plainManner (!unread.isEmpty) groups ∧
        terminal.events = .banner :: transcript interactiveManner (!unread.isEmpty) groups) ∧
      sources terminal.events = (sources plain.events).filter (fun src => !isBlankSource src) ∧
      (∀ src, isBlankSource src = true → ∀ session,
        evaluate settings.color session src = some (⟨"", none⟩, session)) ∧
      ∀ progress : Progress,
        (perform settings progress plain.events).map Progress.out =
          (shows settings progress.session plain.events).map
            (fun shown => progress.out ++ String.join (shown.map Prod.snd)) ∧
        (perform settings progress terminal.events).map Progress.out =
          (shows settings progress.session terminal.events).map
            (fun shown => progress.out ++ String.join (shown.map Prod.snd)) ∧
        (shows settings progress.session plain.events).map
            (fun shown => (evaluated shown).filter fun result => !isBlankSource result.1) =
          (shows settings progress.session terminal.events).map evaluated := by
  intro plain terminal
  rcases exists_grouped lines with ⟨groups, unread, hgrouped⟩
  have hplain : plain = ⟨transcript plainManner (!unread.isEmpty) groups, none⟩ :=
    plain_follows.events_eq hgrouped []
  have hterminal : terminal =
      ⟨.banner :: transcript interactiveManner (!unread.isEmpty) groups, none⟩ :=
    (interactiveEventsFrom_eq_resume _ _ _).trans
      ((interactive_follows prompt continuation).events_eq hgrouped [.banner])
  have hsources : sources terminal.events =
      (sources plain.events).filter fun src => !isBlankSource src := by
    rw [hplain, hterminal, sources_plain hgrouped]
    exact sources_interactive hgrouped _
  refine ⟨by rw [hplain], by rw [hterminal],
    ⟨groups, unread, hgrouped, by rw [hplain], by rw [hterminal]⟩, hsources,
    fun src hblank session => evaluate_of_blank hblank _ session, ?_⟩
  intro progress
  exact ⟨perform_out _ _ _, perform_out _ _ _, evaluated_shows_eq _ _ hsources⟩

/-- A blank line, brackets over two lines, and what stands behind the end of the loop. -/
theorem loops_agree_blank_line :
    let settings := Settings.default
    let lines := ["let a = [1,", "2];", " ", "a", " :quit", "b"].map Bytes.ofString
    let plain := plainEvents (lines.map .line)
    let terminal := interactiveEvents isValidPrompt settings.prompt settings.continuation lines
    isValidPrompt settings.prompt = true ∧ isValidPrompt settings.continuation = true ∧
      sources plain.events = ["let a = [1,\n2];", " ", "a"].map Bytes.ofString ∧
      sources terminal.events = (sources plain.events).filter (fun src => !isBlankSource src) ∧
      sources terminal.events = ["let a = [1,\n2];", "a"].map Bytes.ofString := by
  intro settings lines plain terminal
  have hprompt : isValidPrompt settings.prompt = true := by decide +kernel
  have hcontinuation : isValidPrompt settings.continuation = true := by decide +kernel
  have hplain : sources plain.events = ["let a = [1,\n2];", " ", "a"].map Bytes.ofString := by
    decide +kernel
  have hterminal := (loops_agree hprompt hcontinuation lines).2.2.2.1
  refine ⟨hprompt, hcontinuation, hplain, hterminal, hterminal.trans ?_⟩
  rw [hplain]
  decide +kernel

end Repl
end Scriptlet
