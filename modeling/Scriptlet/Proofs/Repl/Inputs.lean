import Scriptlet.Proofs.Repl.Pending
import Scriptlet.Repl.Perform

/-!
# Lines and inputs

A prompting loop reads lines in groups. Each group is one input: with only the first lines of it the
input needs more. There is one way only to group the lines of a text, so a loop neither loses a line
nor puts one elsewhere.

- `Repl.Grouped` : lines in groups, up to the line that ends a loop
- `Repl.exists_grouped`, `Repl.Grouped.unique` : there is one grouping of lines, and only one
- `Repl.transcript` : what a loop does with groups of lines
- `Repl.Follows` : what single steps of a loop do, and `Repl.Follows.events_eq` for whole runs
- `Repl.inputs_lose_no_line` : the loop over plain lines
-/

namespace Scriptlet

open Text

namespace Repl

/-! ## Lines put together -/

def joinLines (lines : List Bytes) : Bytes :=
  [lineFeed].intercalate lines

@[simp] theorem joinLines_singleton (line : Bytes) : joinLines [line] = line :=
  List.intercalate_singleton

/-- The lines of two groups are joined with a line feed between them. -/
theorem joinLines_append {front back : List Bytes} (some : front ≠ []) (more : back ≠ []) :
    joinLines (front ++ back) = joinLines front ++ lineFeed :: joinLines back := by
  induction front with
  | nil => exact absurd rfl some
  | cons line rest ih =>
      by_cases hrest : rest = []
      · subst hrest
        simp [joinLines, List.intercalate_cons_of_ne_nil more]
      · have hmore : rest ++ back ≠ [] := List.append_ne_nil_of_right_ne_nil rest more
        simp only [joinLines, List.cons_append, List.intercalate_cons_of_ne_nil hmore,
          List.intercalate_cons_of_ne_nil hrest] at ih ⊢
        simp [ih hrest]

/-- It does not matter which lines are put together first. -/
theorem joinLines_flatten {groups : List (List Bytes)} (some : ∀ group ∈ groups, group ≠ []) :
    joinLines (groups.map joinLines) = joinLines groups.flatten := by
  induction groups with
  | nil => rfl
  | cons group more ih =>
      rcases List.forall_mem_cons.1 some with ⟨hgroup, hmore⟩
      by_cases hnil : more = []
      · simp [hnil]
      · have hflatten : more.flatten ≠ [] := by
          rcases List.exists_mem_of_ne_nil more hnil with ⟨other, hother⟩
          exact List.flatten_ne_nil_iff.2 ⟨other, hother, hmore other hother⟩
        calc joinLines ((group :: more).map joinLines)
            = joinLines ([joinLines group] ++ more.map joinLines) := rfl
          _ = joinLines group ++ lineFeed :: joinLines (more.map joinLines) := by
              rw [joinLines_append (List.cons_ne_nil _ _) (by simpa using hnil), joinLines_singleton]
          _ = joinLines group ++ lineFeed :: joinLines more.flatten := by rw [ih hmore]
          _ = joinLines (group ++ more.flatten) := (joinLines_append hgroup hflatten).symm
          _ = joinLines (group :: more).flatten := by rw [List.flatten_cons]

/-- The prompts for the lines of an input. -/
def cues : List Bytes → List Event
  | [] => []
  | _ :: more => .prompt :: more.map fun _ => .continuation

/-! ## Groups of lines -/

/-- Lines that do not end a loop, where each input that starts with the first of them needs more. -/
structure Waiting (front : List Bytes) : Prop where
  stays : ∀ line ∈ front.head?, isQuit line = false
  more : ∀ part, part <+: front → part ≠ [] → incomplete (joinLines part).text = true

/-- Lines that are read as one input: with some of them only, the input needs more. -/
structure OneInput (group : List Bytes) : Prop where
  ne_nil : group ≠ []
  stays : ∀ line ∈ group.head?, isQuit line = false
  more : ∀ part, part <+: group → part ≠ [] → part ≠ group →
    incomplete (joinLines part).text = true

/-- Lines in groups, each one an input. Only the last one may need more, if there are no more lines.
What is not read begins with a line that ends a loop. -/
structure Grouped (lines : List Bytes) (groups : List (List Bytes)) (unread : List Bytes) :
    Prop where
  lines_eq : lines = groups.flatten ++ unread
  inputs : ∀ group ∈ groups, OneInput group
  complete : ∀ front group back, groups = front ++ group :: back →
    incomplete (joinLines group).text = true → back = [] ∧ unread = []
  quits : ∀ line ∈ unread.head?, isQuit line = true

theorem waiting_nil : Waiting [] :=
  ⟨by simp, fun part hpart hsome => absurd (List.prefix_nil.1 hpart) hsome⟩

/-- If input is awaited after some lines, it was after fewer. -/
theorem Waiting.of_append {front more : List Bytes} (h : Waiting (front ++ more)) :
    Waiting front := by
  refine ⟨?_, fun part hpart => h.more part (hpart.trans (List.prefix_append _ _))⟩
  intro line hline
  refine h.stays line ?_
  rw [Option.mem_def] at hline ⊢
  rw [List.head?_append, hline]
  rfl

/-- Lines after which more is awaited belong to one input. -/
theorem Waiting.oneInput {group : List Bytes} (h : Waiting group) (some : group ≠ []) :
    OneInput group :=
  ⟨some, h.stays, fun part hpart hsome _ => h.more part hpart hsome⟩

/-- Lines after which more is awaited make an incomplete source. -/
theorem Waiting.incomplete_joinLines {group : List Bytes} (h : Waiting group) (some : group ≠ []) :
    incomplete (joinLines group).text = true :=
  h.more group List.prefix_rfl some

/-- Lines that wait are not lost in an empty buffer: nothing is open in an empty text. -/
theorem Waiting.isEmpty_joinLines {front : List Bytes} (h : Waiting front) :
    (joinLines front).isEmpty = front.isEmpty := by
  cases front with
  | nil => rfl
  | cons line more =>
      refine Bool.eq_false_iff.2 fun hempty => ?_
      have hopen := h.incomplete_joinLines (List.cons_ne_nil line more)
      rw [List.isEmpty_iff.1 hempty] at hopen
      cases hopen

theorem Waiting.joined_joinLines {front : List Bytes} (h : Waiting front) (line : Bytes) :
    joined (joinLines front) line = joinLines (front ++ [line]) := by
  rw [joined, h.isEmpty_joinLines]
  by_cases hfront : front = []
  · subst hfront
    exact (joinLines_singleton line).symm
  · rw [joinLines_append hfront (List.cons_ne_nil _ _), joinLines_singleton,
      List.isEmpty_eq_false_iff.2 hfront, if_neg Bool.false_ne_true]

theorem Waiting.promptFor_joinLines {front : List Bytes} (h : Waiting front) :
    promptFor (joinLines front) = if front.isEmpty then .prompt else .continuation := by
  rw [promptFor, h.isEmpty_joinLines]

theorem Waiting.cues_concat {front : List Bytes} (h : Waiting front) (line : Bytes) :
    cues (front ++ [line]) = cues front ++ [promptFor (joinLines front)] := by
  rw [h.promptFor_joinLines]
  cases front with
  | nil => rfl
  | cons first more => simp [cues]

/-- One more line makes an input of lines that wait for it. -/
theorem Waiting.concat {front : List Bytes} (h : Waiting front) {line : Bytes}
    (stays : front = [] → isQuit line = false) : OneInput (front ++ [line]) := by
  refine ⟨by simp, ?_, ?_⟩
  · cases front with
    | nil => simpa using stays rfl
    | cons first more => simpa using h.stays first (by simp)
  · intro part hpart hsome hproper
    exact h.more part ((List.prefix_concat_iff.1 hpart).resolve_left hproper) hsome

namespace OneInput

/-- As long as one input is incomplete, more of it is awaited. -/
theorem waiting {group : List Bytes} (h : OneInput group)
    (unfinished : incomplete (joinLines group).text = true) : Waiting group := by
  refine ⟨h.stays, ?_⟩
  intro part hpart hsome
  by_cases hall : part = group
  · exact hall ▸ unfinished
  · exact h.more part hpart hsome hall

/-- Input is awaited before the last line of one input. -/
theorem waiting_front {front : List Bytes} {line : Bytes} (h : OneInput (front ++ [line])) :
    Waiting front := by
  have hproper {part : List Bytes} (hpart : part <+: front) : part ≠ front ++ [line] := by
    intro heq
    have hle := hpart.length_le
    rw [heq, List.length_append] at hle
    exact Nat.not_succ_le_self _ hle
  refine ⟨?_, fun part hpart hsome => h.more part (hpart.trans (List.prefix_append _ _)) hsome
    (hproper hpart)⟩
  cases front with
  | nil => simp
  | cons first more => simpa using h.stays first (by simp)

end OneInput

namespace Grouped

variable {lines unread unread' : List Bytes} {groups groups' : List (List Bytes)}

/-- The groups behind the first one group the lines behind it. -/
theorem tail {group : List Bytes} (h : Grouped lines (group :: groups) unread) :
    Grouped (groups.flatten ++ unread) groups unread where
  lines_eq := rfl
  inputs other hother := h.inputs other (List.mem_cons_of_mem _ hother)
  complete front other back heq := h.complete (group :: front) other back (by rw [heq]; rfl)
  quits := h.quits

/-- One more input that is complete may stand in front. -/
theorem cons {group : List Bytes} (h : Grouped lines groups unread) (input : OneInput group)
    (closed : incomplete (joinLines group).text = false) :
    Grouped (group ++ lines) (group :: groups) unread where
  lines_eq := by rw [h.lines_eq, List.flatten_cons, List.append_assoc]
  inputs := List.forall_mem_cons.2 ⟨input, h.inputs⟩
  complete := by
    rintro (_ | ⟨first, front⟩) other back heq hopen
    · rcases List.cons_eq_cons.1 heq with ⟨rfl, -⟩
      rw [closed] at hopen
      cases hopen
    · exact h.complete front other back (List.cons_eq_cons.1 heq).2 hopen
  quits := h.quits

/-- The first group is the first of the lines. -/
theorem flatten_eq {group : List Bytes} (h : Grouped lines (group :: groups) unread) :
    lines = group ++ (groups.flatten ++ unread) := by
  rw [h.lines_eq, List.flatten_cons, List.append_assoc]

/-- The first input is as long as another grouping says: a shorter one would need more. -/
theorem prefix_eq {group group' : List Bytes} (h : Grouped lines (group :: groups) unread)
    (h' : Grouped lines (group' :: groups') unread') (shorter : group <+: group') :
    group = group' := by
  by_contra hne
  have hopen := (h'.inputs group' List.mem_cons_self).more group shorter
    (h.inputs group List.mem_cons_self).ne_nil hne
  -- There are no more lines then, so the other input is not longer.
  rcases h.complete [] group groups rfl hopen with ⟨rfl, rfl⟩
  have hlonger : group' <+: group := ⟨_, by rw [← h'.flatten_eq, h.flatten_eq]; simp⟩
  exact hne (shorter.eq_of_length (Nat.le_antisymm shorter.length_le hlonger.length_le))

/-- What is not read is not an input. -/
theorem unread_ne {group : List Bytes} (h : Grouped lines [] unread)
    (h' : Grouped lines (group :: groups') unread') : False := by
  have hinput := h'.inputs group List.mem_cons_self
  rcases List.exists_cons_of_ne_nil hinput.ne_nil with ⟨line, more, rfl⟩
  have hunread : unread = line :: (more ++ (groups'.flatten ++ unread')) := by
    have hlines := h.lines_eq.symm.trans h'.flatten_eq
    simpa using hlines
  have hquit := h.quits line (by simp [hunread])
  rw [hinput.stays line (by simp)] at hquit
  cases hquit

/-- There is no other grouping of the same lines. -/
theorem unique (h : Grouped lines groups unread) (h' : Grouped lines groups' unread') :
    groups = groups' ∧ unread = unread' := by
  induction groups generalizing lines groups' with
  | nil =>
      cases groups' with
      | nil => exact ⟨rfl, h.lines_eq.symm.trans h'.lines_eq⟩
      | cons group' more' => exact (h.unread_ne h').elim
  | cons group more ih =>
      cases groups' with
      | nil => exact (h'.unread_ne h).elim
      | cons group' more' =>
          have hlines := h.flatten_eq.symm.trans h'.flatten_eq
          have hgroup : group = group' := by
            have hfront : group <+: lines := ⟨_, h.flatten_eq.symm⟩
            have hfront' : group' <+: lines := ⟨_, h'.flatten_eq.symm⟩
            rcases List.prefix_or_prefix_of_prefix hfront hfront' with hshort | hshort
            · exact h.prefix_eq h' hshort
            · exact (h'.prefix_eq h hshort).symm
          subst hgroup
          have hrest := List.append_cancel_left hlines
          rcases ih h.tail (hrest ▸ h'.tail) with ⟨hmore, hunread⟩
          exact ⟨by rw [hmore], hunread⟩

end Grouped

/-- Lines can be grouped into inputs from any line on at which an input is awaited. -/
theorem exists_grouped_from (lines : List Bytes) {front : List Bytes} (h : Waiting front) :
    ∃ groups unread, Grouped (front ++ lines) groups unread := by
  induction lines generalizing front with
  | nil =>
      by_cases hfront : front = []
      · exact ⟨[], [], by simp [hfront], by simp, by simp, by simp⟩
      · refine ⟨[front], [], by simp, ?_, ?_, by simp⟩
        · exact List.forall_mem_singleton.2 (h.oneInput hfront)
        · rintro (_ | ⟨first, rest⟩) group back heq -
          · exact ⟨(List.cons_eq_cons.1 heq).2.symm, rfl⟩
          · simp at heq
  | cons line rest ih =>
      -- Only a line with nothing in front of it can end the loop.
      by_cases hquit : front = [] ∧ isQuit line = true
      · exact ⟨[], line :: rest, by simp [hquit.1], by simp, by simp, by simpa using hquit.2⟩
      · have hinput : OneInput (front ++ [line]) :=
          h.concat fun hfront => Bool.eq_false_iff.2 fun hline => hquit ⟨hfront, hline⟩
        rw [List.append_cons]
        cases hopen : incomplete (joinLines (front ++ [line])).text with
        | true => exact ih (hinput.waiting hopen)
        | false =>
            rcases @ih [] waiting_nil with ⟨groups, unread, hgrouped⟩
            exact ⟨(front ++ [line]) :: groups, unread, hgrouped.cons hinput hopen⟩

/-- Lines can be grouped. -/
theorem exists_grouped (lines : List Bytes) : ∃ groups unread, Grouped lines groups unread :=
  exists_grouped_from lines waiting_nil

/-! ## What a loop does with groups of lines -/

/-- How a loop treats an input, one that is cut short by the end of the lines, and the end
itself. -/
structure Manner where
  input : Bytes → List Event
  cutShort : Bytes → List Event
  ends : List Event

/-- What a loop does with groups of lines. There is a prompt for every line, and one more where
there is no line left or where a line ends the loop. -/
def transcript (manner : Manner) (quits : Bool) : List (List Bytes) → List Event
  | [] => .prompt :: if quits then [] else manner.ends
  | group :: more =>
    let src := joinLines group
    cues group ++
      if incomplete src.text then .continuation :: manner.cutShort src
      else manner.input src ++ transcript manner quits more

/-- What single steps of a loop do, where `events done buffer lines` goes on with what was read of
an input and the events in `done`, which has the last one first. -/
structure Follows (manner : Manner) (events : List Event → Bytes → List Bytes → Course) : Prop where
  waits : ∀ {front line}, Waiting (front ++ [line]) → ∀ done rest,
    events done (joinLines front) (line :: rest) =
      events (promptFor (joinLines front) :: done) (joinLines (front ++ [line])) rest
  input : ∀ {front line}, OneInput (front ++ [line]) →
    incomplete (joinLines (front ++ [line])).text = false → ∀ done rest,
    events done (joinLines front) (line :: rest) =
      events ((manner.input (joinLines (front ++ [line]))).reverse ++
        promptFor (joinLines front) :: done) [] rest
  cutShort : ∀ {front}, Waiting front → front ≠ [] → ∀ done,
    events done (joinLines front) [] =
      ⟨done.reverse ++ .continuation :: manner.cutShort (joinLines front), none⟩
  ends : ∀ done, events done [] [] = ⟨done.reverse ++ .prompt :: manner.ends, none⟩
  quits : ∀ {line}, isQuit line = true → ∀ done rest,
    events done [] (line :: rest) = ⟨done.reverse ++ [.prompt], none⟩

namespace Follows

variable {manner : Manner} {events : List Event → Bytes → List Bytes → Course}

/-- While input is awaited, only prompts are shown. -/
theorem events_waiting_from (h : Follows manner events) {front more : List Bytes}
    (waiting : Waiting (front ++ more)) (done : List Event) (rest : List Bytes) :
    events ((cues front).reverse ++ done) (joinLines front) (more ++ rest) =
      events ((cues (front ++ more)).reverse ++ done) (joinLines (front ++ more)) rest := by
  induction more generalizing front with
  | nil => rw [List.append_nil, List.nil_append]
  | cons line more ih =>
      rw [List.append_cons] at waiting ⊢
      rw [List.cons_append, h.waits waiting.of_append, ← ih waiting,
        waiting.of_append.of_append.cues_concat]
      simp

/-- Lines that are waiting are pending after they were read. -/
theorem events_waiting (h : Follows manner events) {front : List Bytes} (waiting : Waiting front)
    (done : List Event) (rest : List Bytes) :
    events done [] (front ++ rest) =
      events ((cues front).reverse ++ done) (joinLines front) rest :=
  @events_waiting_from _ _ h [] front waiting done rest

/-- The events of a loop are those of the groups of its lines. -/
theorem events_eq (h : Follows manner events) {lines unread : List Bytes}
    {groups : List (List Bytes)} (grouped : Grouped lines groups unread) (done : List Event) :
    events done [] lines =
      ⟨done.reverse ++ transcript manner (!unread.isEmpty) groups, none⟩ := by
  induction groups generalizing lines done with
  | nil =>
      obtain rfl : lines = unread := grouped.lines_eq
      cases lines with
      | nil => exact h.ends done
      | cons line rest => exact h.quits (grouped.quits line (by simp)) done rest
  | cons group more ih =>
      have hinput := grouped.inputs group List.mem_cons_self
      rw [grouped.flatten_eq, transcript]
      cases hopen : incomplete (joinLines group).text with
      | true =>
          -- No line is left, so the input is cut short.
          rcases grouped.complete [] group more rfl hopen with ⟨rfl, rfl⟩
          rw [h.events_waiting (hinput.waiting hopen), List.flatten_nil, List.append_nil,
            h.cutShort (hinput.waiting hopen) hinput.ne_nil]
          simp
      | false =>
          -- All lines but the last one are read as those of an input that waits.
          rcases List.eq_nil_or_concat group with hnil | ⟨front, line, rfl⟩
          · exact absurd hnil hinput.ne_nil
          · rw [List.concat_eq_append] at *
            rw [List.append_assoc, h.events_waiting hinput.waiting_front, List.singleton_append,
              h.input hinput hopen, ih grouped.tail, hinput.waiting_front.cues_concat]
            simp

end Follows

/-! ## Sources -/

def Event.source? : Event → Option Bytes
  | .evaluate src => some src
  | _ => none

def sources (events : List Event) : List Bytes :=
  events.filterMap Event.source?

/-- The sources of a run are those of its parts. -/
theorem sources_append (events more : List Event) :
    sources (events ++ more) = sources events ++ sources more :=
  List.filterMap_append

/-- Prompts carry no source. -/
theorem sources_cues (lines : List Bytes) : sources (cues lines) = [] := by
  cases lines with
  | nil => rfl
  | cons line more => simp [sources, cues, Event.source?]

/-- A loop that evaluates the inputs of some kind evaluates those among the groups of its lines. -/
theorem sources_transcript {manner : Manner} {kept : Bytes → Bool}
    (input : ∀ src, sources (manner.input src) = [src].filter kept)
    (cutShort : ∀ src, incomplete src.text = true →
      sources (manner.cutShort src) = [src].filter kept)
    (ends : sources manner.ends = []) {lines unread : List Bytes} {groups : List (List Bytes)}
    (grouped : Grouped lines groups unread) (quits : Bool) :
    sources (transcript manner quits groups) = (groups.map joinLines).filter kept := by
  induction groups generalizing lines with
  | nil =>
      cases quits with
      | true => rfl
      | false => exact ends
  | cons group more ih =>
      have hfilter : ((group :: more).map joinLines).filter kept =
          [joinLines group].filter kept ++ (more.map joinLines).filter kept :=
        List.filter_append [joinLines group] _
      rw [transcript, sources_append, sources_cues, List.nil_append, hfilter]
      cases hopen : incomplete (joinLines group).text with
      | true =>
          rcases grouped.complete [] group more rfl hopen with ⟨rfl, -⟩
          rw [List.map_nil, List.filter_nil, List.append_nil]
          exact cutShort _ hopen
      | false =>
          rw [← ih grouped.tail, ← input]
          exact sources_append _ _

/-! ## Plain lines -/

/-- An input is evaluated, and so is one that is cut short, on a line of its own. -/
def plainManner : Manner where
  input src := [.evaluate src]
  cutShort src := [.newline, .evaluate src]
  ends := []

/-- One line more of an input: the loop waits on, or evaluates the input. -/
theorem plainEventsFrom_of_oneInput {front : List Bytes} {line : Bytes}
    (input : OneInput (front ++ [line])) (done : List Event) (rest : List LimitedLine) :
    plainEventsFrom done (joinLines front) (.line line :: rest) =
      let src := joinLines (front ++ [line])
      let done := promptFor (joinLines front) :: done
      if incomplete src.text then plainEventsFrom done src rest
      else plainEventsFrom (.evaluate src :: done) [] rest := by
  have hstays : ((joinLines front).isEmpty && isQuit line) = false := by
    rw [input.waiting_front.isEmpty_joinLines]
    cases front with
    | nil => exact input.stays line (by simp)
    | cons first more => rfl
  rw [plainEventsFrom]
  dsimp only
  rw [hstays, if_neg Bool.false_ne_true, input.waiting_front.joined_joinLines]

/-- The loop over plain lines takes its steps in this manner. -/
theorem plain_follows :
    Follows plainManner fun done buffer lines => plainEventsFrom done buffer (lines.map .line) where
  waits := by
    intro front line waiting done rest
    have hsome : front ++ [line] ≠ [] := List.append_ne_nil_of_right_ne_nil _ (List.cons_ne_nil _ _)
    rw [List.map_cons, plainEventsFrom_of_oneInput (waiting.oneInput hsome)]
    exact if_pos (waiting.incomplete_joinLines hsome)
  input := by
    intro front line input closed done rest
    rw [List.map_cons, plainEventsFrom_of_oneInput input]
    exact if_neg (Bool.eq_false_iff.1 closed)
  cutShort := by
    intro front waiting some done
    simp [plainEventsFrom, waiting.isEmpty_joinLines, waiting.promptFor_joinLines, some,
      plainManner]
  ends := by
    intro done
    simp [plainEventsFrom, promptFor, plainManner]
  quits := by
    intro line quit done rest
    simp [plainEventsFrom, quit, promptFor]

/-- The loop over plain lines evaluates every input, up to the line that ends it. -/
theorem sources_plain {lines unread : List Bytes} {groups : List (List Bytes)}
    (grouped : Grouped lines groups unread) (quits : Bool) :
    sources (transcript plainManner quits groups) = groups.map joinLines := by
  have hkept := @sources_transcript plainManner (fun _ => true) (fun _ => rfl) (fun _ _ => rfl) rfl
    lines unread groups grouped quits
  exact hkept.trans (List.filter_eq_self.2 fun _ _ => rfl)

/-- Lines that are not too long are read in groups, up to a line that ends the loop with nothing
pending. Each group is one source text, so what is evaluated are these lines in their order. The
groups are the only ones of this kind. -/
theorem inputs_lose_no_line {input : Bytes} {lines : List Bytes}
    (delivered : limitedLines lineLimit input = lines.map .line) :
    ∃ groups unread, Grouped lines groups unread ∧
      plainCourse input = ⟨transcript plainManner (!unread.isEmpty) groups, none⟩ ∧
      sources (plainCourse input).events = groups.map joinLines ∧
      joinLines (sources (plainCourse input).events) = joinLines groups.flatten ∧
      ∀ groups' unread', Grouped lines groups' unread' → groups' = groups ∧ unread' = unread := by
  rcases exists_grouped lines with ⟨groups, unread, hgrouped⟩
  have hcourse : plainCourse input = ⟨transcript plainManner (!unread.isEmpty) groups, none⟩ := by
    rw [plainCourse, delivered]
    exact plain_follows.events_eq hgrouped []
  have hsources : sources (plainCourse input).events = groups.map joinLines := by
    rw [hcourse]
    exact sources_plain hgrouped _
  refine ⟨groups, unread, hgrouped, hcourse, hsources, ?_, ?_⟩
  · rw [hsources]
    exact joinLines_flatten fun group hgroup => (hgrouped.inputs group hgroup).ne_nil
  · intro groups' unread' hgrouped'
    exact hgrouped'.unique hgrouped

/-- A line that would end the loop inside brackets, and one behind them. -/
theorem inputs_lose_no_line_quit_inside :
    let input := Bytes.ofString "1;\r\nputs(\n:quit\n)\n :quit\n2;\n"
    let lines := ["1;", "puts(", ":quit", ")", " :quit", "2;"].map Bytes.ofString
    limitedLines lineLimit input = lines.map .line ∧
      ∃ groups unread, Grouped lines groups unread ∧
        sources (plainCourse input).events = groups.map joinLines ∧
        sources (plainCourse input).events = ["1;", "puts(\n:quit\n)"].map Bytes.ofString := by
  intro input lines
  have hdelivered : limitedLines lineLimit input = lines.map .line := by decide +kernel
  rcases inputs_lose_no_line hdelivered with ⟨groups, unread, hgrouped, -, hsources, -⟩
  exact ⟨hdelivered, groups, unread, hgrouped, hsources, by decide +kernel⟩

end Repl
end Scriptlet
