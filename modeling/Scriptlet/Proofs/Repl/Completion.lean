import Scriptlet.Proofs.Text.Bytes
import Scriptlet.Repl.Completion
import Scriptlet.Text.Letter

/-!
# What completion offers

The word at the end of a line is the longest end of it that is made of ASCII letters, digits and
underscores. What is offered for it are the keywords and names of host functions that begin with it,
each behind the rest of the line. The word is looked for one byte behind the start of the character
in front of it. If that character takes more bytes, what is found there begins with its continuation
bytes, and no word does.

- `Repl.Known` : keywords and names of host functions
- `Repl.EndsIn` : a line and the word at its end
- `Repl.EndsIn.split_of_narrow`, `Repl.EndsIn.stem_of_wide` : what is found at the end of a line
- `Repl.Completes` : the lines that complete a word behind the rest of a line
- `Repl.completes_completions_iff` : when exactly these lines are offered
-/

namespace Scriptlet

/-! ## Known words -/

/-- The keywords are the words that are no names. -/
theorem Token.Kind.ofWord_ne_ident_iff {word : String} :
    Token.Kind.ofWord word ≠ .ident ↔ word ∈ Token.Kind.keywords.map Prod.fst := by
  have hkinds : ∀ entry ∈ Token.Kind.keywords, entry.2 ≠ .ident := by decide
  rw [Token.Kind.ofWord]
  cases hlookup : Token.Kind.keywords.lookup word with
  | none =>
      rw [List.lookup_eq_none_iff] at hlookup
      refine iff_of_false (fun hne => hne rfl) ?_
      intro hmem
      obtain ⟨entry, hentry, rfl⟩ := List.mem_map.1 hmem
      exact absurd (hlookup entry hentry) (by simp)
  | some kind =>
      obtain ⟨before, after, heq, -⟩ := List.lookup_eq_some_iff.1 hlookup
      have hmem : (word, kind) ∈ Token.Kind.keywords := by
        rw [heq]
        exact List.mem_append_right before List.mem_cons_self
      exact iff_of_true (hkinds _ hmem) (List.mem_map.2 ⟨_, hmem, rfl⟩)

/-- A host function is found under its names. -/
theorem Builtins.isSome_find?_iff {builtins : Builtins} {name : String} :
    (builtins.find? name).isSome ↔ name ∈ builtins.names := by
  rw [find?, List.lookup_isSome_iff, names, List.mem_map]
  refine exists_congr ?_
  intro entry
  rw [beq_iff_eq, eq_comm]

namespace Repl

/-- A word that means something without a definition: the reader takes it for a keyword, or there is
a host function of this name. -/
def Known (word : String) : Prop :=
  Token.Kind.ofWord word ≠ .ident ∨ (Builtins.standard.find? word).isSome

/-- A word that is inserted is there, with those that were. -/
theorem mem_insertWord {word other : String} {words : List String} :
    other ∈ insertWord word words ↔ other = word ∨ other ∈ words := by
  induction words with
  | nil => rw [insertWord, List.mem_cons]
  | cons first rest ih =>
      rw [insertWord]
      split
      · rw [List.mem_cons, ih, List.mem_cons, or_left_comm]
      · rw [List.mem_cons]

theorem mem_foldr_insertWord {word : String} {words base : List String} :
    word ∈ words.foldr insertWord base ↔ word ∈ words ∨ word ∈ base := by
  induction words with
  | nil => simp
  | cons first rest ih => rw [List.foldr_cons, mem_insertWord, ih, List.mem_cons, or_assoc]

/-- A new word in its place leaves the words in order, each there once. -/
theorem pairwise_insertWord {word : String} {words : List String}
    (sorted : words.Pairwise (· < ·)) (fresh : word ∉ words) :
    (insertWord word words).Pairwise (· < ·) := by
  induction words with
  | nil => exact List.pairwise_singleton _ _
  | cons first rest ih =>
      obtain ⟨hfirst, hrest⟩ := List.pairwise_cons.1 sorted
      obtain ⟨hne, hfresh⟩ := not_or.1 (mt List.mem_cons.2 fresh)
      rw [insertWord]
      split
      case isTrue hbefore =>
        refine List.pairwise_cons.2 ⟨?_, ih hrest hfresh⟩
        intro other hother
        rcases mem_insertWord.1 hother with rfl | hmem
        · exact hbefore
        · exact hfirst other hmem
      case isFalse hbehind =>
        have hless : word < first := Std.lt_of_le_of_ne (String.not_lt.1 hbehind) hne
        refine List.pairwise_cons.2 ⟨?_, sorted⟩
        intro other hother
        rcases List.mem_cons.1 hother with rfl | hmem
        · exact hless
        · exact String.lt_trans hless (hfirst other hmem)

/-- Different words that are inserted into sorted ones are sorted. -/
theorem pairwise_foldr_insertWord {words base : List String} (sorted : base.Pairwise (· < ·))
    (nodup : words.Nodup) (apart : ∀ word ∈ words, word ∉ base) :
    (words.foldr insertWord base).Pairwise (· < ·) := by
  induction words with
  | nil => exact sorted
  | cons first rest ih =>
      obtain ⟨hfirst, hrest⟩ := List.nodup_cons.1 nodup
      obtain ⟨hbase, hothers⟩ := List.forall_mem_cons.1 apart
      refine pairwise_insertWord (ih hrest hothers) ?_
      exact mt mem_foldr_insertWord.1 (not_or.2 ⟨hfirst, hbase⟩)

/-- The words to complete to are the keywords and the names of the host functions. -/
theorem mem_completionWords {word : String} : word ∈ completionWords ↔ Known word := by
  rw [completionWords, mem_foldr_insertWord, Known, Token.Kind.ofWord_ne_ident_iff,
    Builtins.isSome_find?_iff]

/-- They are in order, each of them once. -/
theorem pairwise_completionWords : completionWords.Pairwise (· < ·) :=
  pairwise_foldr_insertWord (by decide) (by decide) (by decide)

/-! ## The word at the end of a line -/

/-- The characters of words: ASCII letters and digits, and the underscore. -/
def WordChar (c : Char) : Prop :=
  'A' ≤ c ∧ c ≤ 'Z' ∨ 'a' ≤ c ∧ c ≤ 'z' ∨ '0' ≤ c ∧ c ≤ '9' ∨ c = '_'

theorem isCompletable_iff {c : Char} : isCompletable c = true ↔ WordChar c := by
  have hranges : isCompletable c = (((decide ('A' ≤ c ∧ c ≤ 'Z') ||
      decide ('a' ≤ c) && decide (c ≤ 'z')) || decide ('0' ≤ c) && decide (c ≤ '9')) ||
      c == '_') := rfl
  rw [hranges, WordChar]
  simp only [Bool.or_eq_true, Bool.and_eq_true, decide_eq_true_eq, beq_iff_eq, or_assoc]

/-- A line is a word behind something else, and no longer end of it is made of the characters of
words. -/
structure EndsIn (line before word : String) : Prop where
  line_eq : line = before ++ word
  made : ∀ c ∈ word.toList, WordChar c
  longest : ∀ tail : List Char, tail <:+ line.toList → (∀ c ∈ tail, WordChar c) →
    tail.length ≤ word.toList.length

variable {line before word : String}

/-- The character in front of the word is none of a word. -/
theorem EndsIn.not_wordChar (h : EndsIn line before word) {c : Char}
    (last : before.toList.getLast? = some c) : ¬ WordChar c := by
  intro hc
  obtain ⟨front, hfront⟩ := List.getLast?_eq_some_iff.1 last
  have htail : c :: word.toList <:+ line.toList := by
    refine ⟨front, ?_⟩
    rw [h.line_eq, String.toList_append, hfront, List.append_assoc, List.singleton_append]
  have hlong := h.longest _ htail (List.forall_mem_cons.2 ⟨hc, h.made⟩)
  exact Nat.not_succ_le_self _ hlong

/-- A word at the end of a line starts behind the last character that belongs to no word. -/
theorem endsIn_append (before word : String) (made : ∀ c ∈ word.toList, WordChar c)
    (stops : ∀ c, before.toList.getLast? = some c → ¬ WordChar c) :
    EndsIn (before ++ word) before word := by
  refine ⟨rfl, made, ?_⟩
  intro tail htail hmade
  rw [String.toList_append] at htail
  rcases List.suffix_or_suffix_of_suffix htail (List.suffix_append _ _) with hshort | hlong
  · exact hshort.length_le
  · obtain ⟨more, rfl⟩ := hlong
    obtain ⟨front, hfront⟩ := htail
    rw [← List.append_assoc, List.append_cancel_right_eq] at hfront
    -- Were there more in the tail, its last character would be the one in front of the word.
    rcases List.eq_nil_or_concat more with rfl | ⟨others, c, rfl⟩
    · exact Nat.le_refl _
    · refine absurd (hmade c (by simp)) (stops c ?_)
      rw [← hfront]
      simp

/-! ## The lines that are offered -/

/-- The lines that complete a word behind the rest of a line: one for each known word that begins
with it, in order and each once. -/
structure Completes (before word : String) (lines : List String) : Prop where
  sorted : lines.Pairwise (· < ·)
  mem_iff : ∀ line, line ∈ lines ↔
    ∃ known, Known known ∧ word.toList <+: known.toList ∧ line = before ++ known

/-- The character in front of a word, if there is one, is a single byte. -/
def Narrow (before : String) : Prop :=
  ∀ c, before.toList.getLast? = some c → c.utf8Size = 1

/-! ### Where the word is looked for -/

/-- The bytes of a character behind its first one are passed over. -/
theorem lastOtherFrom_length (index : Nat) (last : Option Nat) (more rest : Bytes) :
    lastOtherFrom more.length index last (more ++ rest) =
      lastOtherFrom 0 (index + more.length) last rest := by
  induction more generalizing index with
  | nil => rfl
  | cons b more ih =>
      rw [List.length_cons, List.cons_append, lastOtherFrom, ih, Nat.add_right_comm, Nat.add_assoc]

/-- A character is passed with all its bytes. -/
theorem lastOtherFrom_utf8EncodeChar (c : Char) (index : Nat) (last : Option Nat) (rest : Bytes) :
    lastOtherFrom 0 index last (String.utf8EncodeChar c ++ rest) =
      lastOtherFrom 0 (index + (String.utf8EncodeChar c).length)
        (if isCompletable c then last else some index) rest := by
  obtain ⟨b, more, hbytes, hlead⟩ := Text.leadChar?_utf8EncodeChar c rest
  rw [hbytes, List.cons_append, lastOtherFrom, hlead]
  dsimp only
  rw [lastOtherFrom_length, List.length_cons, Nat.add_assoc, Nat.add_comm 1]

/-- Whole characters are passed over, with whatever was found last among them. -/
theorem lastOtherFrom_flatMap (chars : List Char) (index : Nat) (last : Option Nat) (rest : Bytes) :
    ∃ found, lastOtherFrom 0 index last (chars.flatMap String.utf8EncodeChar ++ rest) =
      lastOtherFrom 0 (index + (chars.flatMap String.utf8EncodeChar).length) found rest := by
  induction chars generalizing index last with
  | nil => exact ⟨last, rfl⟩
  | cons c chars ih =>
      rw [List.flatMap_cons, List.append_assoc, lastOtherFrom_utf8EncodeChar, List.length_append,
        ← Nat.add_assoc]
      exact ih _ _

/-- The characters of a word make no difference. -/
theorem lastOtherFrom_of_made {chars : List Char} (made : ∀ c ∈ chars, WordChar c) (index : Nat)
    (last : Option Nat) :
    lastOtherFrom 0 index last (chars.flatMap String.utf8EncodeChar) = last := by
  induction chars generalizing index with
  | nil => rfl
  | cons c chars ih =>
      obtain ⟨hc, hchars⟩ := List.forall_mem_cons.1 made
      rw [List.flatMap_cons, lastOtherFrom_utf8EncodeChar, if_pos (isCompletable_iff.2 hc),
        ih hchars]

/-- A word with nothing in front of it starts at the first byte. -/
theorem EndsIn.wordStart_of_empty (h : EndsIn line "" word) :
    wordStart (.ofString line) = 0 := by
  have hline : line.toList = word.toList := by rw [h.line_eq, String.empty_append]
  rw [wordStart, lastOther?, Bytes.ofString_eq_flatMap, hline, lastOtherFrom_of_made h.made]

/-- Otherwise it is looked for one byte behind the start of the character in front of it. -/
theorem EndsIn.wordStart_of_concat (h : EndsIn line before word) {front : List Char} {c : Char}
    (concat : before.toList = front ++ [c]) :
    wordStart (.ofString line) = (front.flatMap String.utf8EncodeChar).length + 1 := by
  have hc : isCompletable c = false := by
    refine Bool.eq_false_iff.2 (mt isCompletable_iff.1 (h.not_wordChar ?_))
    rw [concat, List.getLast?_concat]
  have hbytes : Bytes.ofString line = front.flatMap String.utf8EncodeChar ++
      (String.utf8EncodeChar c ++ word.toList.flatMap String.utf8EncodeChar) := by
    rw [Bytes.ofString_eq_flatMap, h.line_eq, String.toList_append, concat]
    simp only [List.flatMap_append, List.flatMap_singleton, List.append_assoc]
  obtain ⟨found, hfront⟩ := lastOtherFrom_flatMap front 0 none
    (String.utf8EncodeChar c ++ word.toList.flatMap String.utf8EncodeChar)
  rw [wordStart, lastOther?, hbytes, hfront, lastOtherFrom_utf8EncodeChar, hc,
    lastOtherFrom_of_made h.made, if_neg Bool.false_ne_true, Nat.zero_add]

/-- Behind a narrow character, or none, a line is taken apart where the word starts. -/
theorem EndsIn.split_of_narrow (h : EndsIn line before word) (narrow : Narrow before) :
    (Bytes.ofString line).take (wordStart (.ofString line)) = Bytes.ofString before ∧
      (Bytes.ofString line).drop (wordStart (.ofString line)) = Bytes.ofString word := by
  have hbytes : Bytes.ofString line = Bytes.ofString before ++ Bytes.ofString word := by
    rw [h.line_eq, Bytes.ofString_append]
  have hstart : wordStart (.ofString line) = (Bytes.ofString before).length := by
    rcases List.eq_nil_or_concat before.toList with hempty | ⟨front, c, hconcat⟩
    · obtain rfl := String.toList_eq_nil_iff.1 hempty
      rw [h.wordStart_of_empty, Bytes.ofString_empty]
      rfl
    · rw [List.concat_eq_append] at hconcat
      have hwidth : c.utf8Size = 1 := narrow c (by rw [hconcat, List.getLast?_concat])
      rw [h.wordStart_of_concat hconcat, Bytes.ofString_eq_flatMap, hconcat, List.flatMap_append,
        List.flatMap_singleton, List.length_append, String.length_utf8EncodeChar, hwidth]
  rw [hstart, hbytes]
  exact ⟨List.take_left, List.drop_left⟩

/-- Behind a wide character it is taken apart inside of that character: what is looked for begins
with a continuation byte. -/
theorem EndsIn.stem_of_wide (h : EndsIn line before word) (wide : ¬ Narrow before) :
    ∃ b more, (Text.continuation? b).isSome ∧
      (Bytes.ofString line).drop (wordStart (.ofString line)) = b :: more := by
  simp only [Narrow, Classical.not_forall] at wide
  obtain ⟨c, hc, hwide⟩ := wide
  obtain ⟨front, hconcat⟩ := List.getLast?_eq_some_iff.1 hc
  have hbytes : Bytes.ofString line =
      front.flatMap String.utf8EncodeChar ++ (String.utf8EncodeChar c ++ Bytes.ofString word) := by
    rw [h.line_eq, Bytes.ofString_append, Bytes.ofString_eq_flatMap before, hconcat]
    simp only [List.flatMap_append, List.flatMap_singleton, List.append_assoc]
  have hcontinuation := @Text.continuation?_of_mem_tail c
  have hwidth := String.length_utf8EncodeChar c
  rw [h.wordStart_of_concat hconcat, hbytes, List.drop_length_add_append]
  -- The first byte is passed, and there is at least one more.
  rcases hencoded : String.utf8EncodeChar c with _ | ⟨lead, _ | ⟨b, more⟩⟩
  · obtain ⟨b, more, hcons, -⟩ := Text.leadChar?_utf8EncodeChar c []
    rw [hencoded] at hcons
    cases hcons
  · rw [hencoded] at hwidth
    exact absurd hwidth.symm hwide
  · rw [hencoded] at hcontinuation
    exact ⟨b, more ++ Bytes.ofString word, hcontinuation List.mem_cons_self, rfl⟩

/-! ### What is offered -/

/-- Behind a narrow character, or none, the known words that begin with the word are offered. -/
theorem EndsIn.completions_of_narrow (h : EndsIn line before word) (narrow : Narrow before)
    (nonempty : word ≠ "") :
    completions line = (completionWords.filter fun known =>
      word.toList.isPrefixOf known.toList).map (before ++ ·) := by
  have hword : (Bytes.ofString word).isEmpty = false := by
    refine Bool.eq_false_iff.2 fun hempty => nonempty ?_
    rw [← Bytes.text_ofString word, List.isEmpty_iff.1 hempty]
    rfl
  have hbegins : (fun known => (Bytes.ofString word).isPrefixOf known) ∘ Bytes.ofString =
      fun known => word.toList.isPrefixOf known.toList := by
    funext known
    rw [Function.comp_apply, Bool.eq_iff_iff, List.isPrefixOf_iff_prefix,
      List.isPrefixOf_iff_prefix, Bytes.ofString_prefix_iff]
  have hoffered : (Bytes.text ∘ (Bytes.ofString before ++ ·)) ∘ Bytes.ofString = (before ++ ·) := by
    funext known
    rw [Function.comp_apply, Function.comp_apply, ← Bytes.ofString_append, Bytes.text_ofString]
  simp only [completions, completer, h.split_of_narrow narrow, hword, Bool.false_eq_true, if_false]
  rw [List.filter_map, List.map_map, List.map_map, hbegins, hoffered]

/-- Behind a wide character nothing is offered, since no word begins with a continuation byte. -/
theorem EndsIn.completions_of_wide (h : EndsIn line before word) (wide : ¬ Narrow before) :
    completions line = [] := by
  obtain ⟨b, more, hb, hstem⟩ := h.stem_of_wide wide
  have hnone : (completionWords.map Bytes.ofString).filter (fun known =>
      (b :: more).isPrefixOf known) = [] := by
    rw [List.filter_eq_nil_iff]
    intro known hknown
    obtain ⟨text, -, rfl⟩ := List.mem_map.1 hknown
    rw [List.isPrefixOf_iff_prefix]
    exact Bytes.not_prefix_of_continuation hb more text
  simp only [completions, completer, hstem, hnone]
  rfl

/-- So the character in front is narrow wherever something is offered. -/
theorem EndsIn.narrow_of_mem (h : EndsIn line before word) {completed : String}
    (mem : completed ∈ completions line) : Narrow before := by
  refine Classical.byContradiction fun hwide => ?_
  rw [h.completions_of_wide hwide] at mem
  exact List.not_mem_nil mem

/-- Nothing is offered where no word has been begun. -/
theorem EndsIn.completions_of_empty (h : EndsIn line before "") : completions line = [] := by
  by_cases hnarrow : Narrow before
  · have hstem : ((Bytes.ofString line).drop (wordStart (.ofString line))).isEmpty = true := by
      rw [(h.split_of_narrow hnarrow).2, Bytes.ofString_empty]
      rfl
    simp only [completions, completer, hstem, if_true, List.map_nil]
  · exact h.completions_of_wide hnarrow

/-- Behind a narrow character, or none, what is offered completes the word. -/
theorem EndsIn.completes_of_narrow (h : EndsIn line before word) (narrow : Narrow before)
    (nonempty : word ≠ "") : Completes before word (completions line) := by
  rw [h.completions_of_narrow narrow nonempty]
  constructor
  · rw [List.pairwise_map]
    refine (pairwise_completionWords.filter _).imp ?_
    intro first second hless
    rw [String.lt_iff] at hless ⊢
    rw [String.toList_append, String.toList_append]
    exact List.append_left_lt hless
  · intro other
    simp only [List.mem_map, List.mem_filter, mem_completionWords, List.isPrefixOf_iff_prefix,
      and_assoc]
    refine exists_congr ?_
    intro known
    rw [eq_comm (a := other)]

/-- What is offered begins with the line. -/
theorem Completes.prefix_of_mem {lines : List String} (h : Completes before word lines)
    {completed : String} (mem : completed ∈ lines) :
    (before ++ word).toList <+: completed.toList := by
  obtain ⟨known, -, hbegins, rfl⟩ := (h.mem_iff completed).1 mem
  rw [String.toList_append, String.toList_append]
  exact List.prefix_append_right_inj _ |>.2 hbegins

/-- The word at the end of a line is completed to every known word that begins with it, in order and
each once, if what is in front of it is narrow. Otherwise nothing is offered, which is right only
for a word that no known word begins with. For a line without a word at its end nothing is offered,
and what is offered always goes on from the line. -/
theorem completes_completions_iff {line before word : String} (ends : EndsIn line before word) :
    (word = "" → completions line = []) ∧
    (word ≠ "" → (Completes before word (completions line) ↔
      Narrow before ∨ ∀ known, Known known → ¬ word.toList <+: known.toList)) ∧
    (¬ Narrow before → completions line = []) ∧
    ∀ completed ∈ completions line, line.toList <+: completed.toList := by
  refine ⟨?_, ?_, ends.completions_of_wide, ?_⟩
  · rintro rfl
    exact ends.completions_of_empty
  · intro hword
    constructor
    · intro hcompletes
      rw [Classical.or_iff_not_imp_left]
      intro hwide known hknown hbegins
      exact hwide (ends.narrow_of_mem ((hcompletes.mem_iff _).2 ⟨known, hknown, hbegins, rfl⟩))
    · intro hcase
      by_cases hnarrow : Narrow before
      · exact ends.completes_of_narrow hnarrow hword
      · have hnone := hcase.resolve_left hnarrow
        rw [ends.completions_of_wide hnarrow]
        refine ⟨List.Pairwise.nil, ?_⟩
        intro other
        refine iff_of_false List.not_mem_nil ?_
        rintro ⟨known, hknown, hbegins, -⟩
        exact hnone known hknown hbegins
  · intro completed hmem
    have hword : word ≠ "" := by
      rintro rfl
      rw [ends.completions_of_empty] at hmem
      exact List.not_mem_nil hmem
    rw [ends.line_eq]
    exact (ends.completes_of_narrow (ends.narrow_of_mem hmem) hword).prefix_of_mem hmem

/-- A wide character further in front does no harm. -/
theorem completes_completions_iff_sum :
    EndsIn "len(\"€\") + le" "len(\"€\") + " "le" ∧
      Completes "len(\"€\") + " "le" (completions "len(\"€\") + le") := by
  have hends : EndsIn "len(\"€\") + le" "len(\"€\") + " "le" :=
    endsIn_append "len(\"€\") + " "le" (by simp [WordChar]) (by simp [WordChar])
  have hnarrow : Narrow "len(\"€\") + " := by
    intro c hc
    cases hc
    rfl
  exact ⟨hends, ((completes_completions_iff hends).2.1 (by decide)).2 (.inl hnarrow)⟩

/-- Directly behind a sign of several bytes, which is no letter, a word is not completed. -/
theorem not_completes_behind_sign :
    EndsIn "€le" "€" "le" ∧ Text.isLetter '€' = false ∧
      ¬ Completes "€" "le" (completions "€le") := by
  have hends : EndsIn "€le" "€" "le" :=
    endsIn_append "€" "le" (by simp [WordChar]) (by simp [WordChar])
  have hwide : ¬ Narrow "€" := fun hnarrow => absurd (hnarrow '€' rfl) (by decide)
  refine ⟨hends, by decide +kernel, ?_⟩
  intro hcompletes
  have hmem := (hcompletes.mem_iff "€len").2 ⟨"len", .inr rfl, by decide, rfl⟩
  exact hwide (hends.narrow_of_mem hmem)

end Repl
end Scriptlet
