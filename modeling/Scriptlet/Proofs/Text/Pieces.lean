import Scriptlet.Builtin.Scalar
import Scriptlet.Proofs.Value.Equality

/-!
# Cutting texts and joining the pieces

A text is cut at the leftmost separator, and what is behind it is cut in the same way. Separators of
several characters may overlap, with each other and with the ends of the text, so that a text with
the separator in it can be joined from pieces in several ways. Cutting gives the one in which every
separator is the leftmost one of what was left.

- `Cut` : a text and its pieces
- `Cut.intercalate_eq`, `Cut.free` : what joins to the text, and has no separator inside
- `Cut.unique` : a text is cut in one way only
- `cut_splitChars` : cutting is done like that
- `Occurs` : texts inside of texts
- `split_join_inverse` : the host functions undo each other
-/

namespace Scriptlet
namespace Text

variable {sep before text : List Char}

/-- A text and its pieces. The separator behind a piece is the leftmost one: none ends earlier. -/
inductive Cut (sep : List Char) : List Char → List (List Char) → Prop
  | last {text : List Char} (free : ¬ sep <:+: text) : Cut sep text [text]
  | first {piece rest : List Char} {pieces : List (List Char)}
      (leftmost : ¬ sep <:+: piece ++ sep.dropLast) (more : Cut sep rest pieces) :
      Cut sep (piece ++ sep ++ rest) (piece :: pieces)

namespace Cut

variable {pieces others : List (List Char)}

/-- There is at least one piece. -/
theorem ne_nil (h : Cut sep text pieces) : pieces ≠ [] := by
  cases h <;> exact List.cons_ne_nil _ _

/-- The pieces with separators between them are the text. -/
theorem intercalate_eq (h : Cut sep text pieces) : sep.intercalate pieces = text := by
  induction h with
  | last => exact List.intercalate_singleton
  | first _ more ih => rw [List.intercalate_cons_of_ne_nil more.ne_nil, ih]

/-- No piece has a separator in it. -/
theorem free (h : Cut sep text pieces) : ∀ piece ∈ pieces, ¬ sep <:+: piece := by
  induction h with
  | last free => exact List.forall_mem_singleton.2 free
  | @first piece rest pieces leftmost _ ih =>
      refine List.forall_mem_cons.2 ⟨?_, ih⟩
      intro hinside
      exact leftmost (hinside.trans (List.prefix_append piece sep.dropLast).isInfix)

end Cut

/-- A front without a separator ends before the separator behind any other front does. -/
theorem length_lt_of_free {front other : List Char} (free : ¬ sep <:+: front)
    (hfront : front <+: text) (hother : other ++ sep <+: text) :
    front.length < (other ++ sep).length := by
  apply Nat.lt_of_not_le
  intro hle
  have hprefix : other ++ sep <+: front := List.prefix_of_prefix_length_le hother hfront hle
  exact free ((List.suffix_append other sep).isInfix.trans hprefix.isInfix)

/-- No separator starts before the leftmost one. -/
theorem length_le_of_leftmost (nonempty : sep ≠ []) {piece other rest : List Char}
    (leftmost : ¬ sep <:+: piece ++ sep.dropLast) (hother : other ++ sep <+: piece ++ sep ++ rest) :
    piece.length ≤ other.length := by
  have hfront : piece ++ sep.dropLast <+: piece ++ sep ++ rest :=
    ((List.prefix_append_right_inj piece).2 sep.dropLast_prefix).trans (List.prefix_append _ rest)
  have hlt := length_lt_of_free leftmost hfront hother
  have hpos := List.length_pos_iff.2 nonempty
  simp only [List.length_append, List.length_dropLast] at hlt
  omega

/-- A text is cut in one way only. -/
theorem Cut.unique (nonempty : sep ≠ []) {pieces others : List (List Char)}
    (h : Cut sep text pieces) (h' : Cut sep text others) : pieces = others := by
  induction h generalizing others with
  | @last text free =>
      cases h' with
      | last => rfl
      | @first piece rest pieces _ _ => exact absurd (List.infix_append piece sep rest) free
  | @first piece rest pieces leftmost _ ih =>
      -- The two cuts are of the same text, which is named so that they can be compared.
      generalize htext : piece ++ sep ++ rest = whole at h'
      cases h' with
      | last free =>
          rw [← htext] at free
          exact absurd (List.infix_append piece sep rest) free
      | @first piece' rest' pieces' leftmost' more' =>
          have hprefix : piece ++ sep <+: piece' ++ sep ++ rest' := ⟨rest, htext⟩
          have hprefix' : piece' ++ sep <+: piece ++ sep ++ rest := ⟨rest', htext.symm⟩
          have hlength : piece.length = piece'.length :=
            Nat.le_antisymm (length_le_of_leftmost nonempty leftmost hprefix')
              (length_le_of_leftmost nonempty leftmost' hprefix)
          rw [List.append_assoc, List.append_assoc] at htext
          rcases List.append_inj htext hlength with ⟨rfl, hbehind⟩
          cases List.append_cancel_left hbehind
          rw [ih more']

/-! ## Cutting from the left -/

/-- No separator starts in front of the text that is still to be cut. -/
def Ahead (sep before text : List Char) : Prop :=
  ∀ front, front ++ sep <+: before ++ text → before.length ≤ front.length

namespace Ahead

theorem nil (sep text : List Char) : Ahead sep [] text :=
  fun _ _ => Nat.zero_le _

/-- A character where no separator starts. -/
theorem concat {c : Char} (h : Ahead sep before (c :: text)) (other : ¬ sep <+: c :: text) :
    Ahead sep (before ++ [c]) text := by
  intro front hfront
  rw [List.append_assoc, List.singleton_append] at hfront
  have hle := h front hfront
  rw [List.length_append, List.length_singleton]
  apply Nat.succ_le_of_lt
  apply Nat.lt_of_le_of_ne hle
  -- A separator right behind `before` would start at the character.
  intro hlength
  have hbefore : front <+: before ++ c :: text := (List.prefix_append front sep).trans hfront
  have heq : front = before := by
    rw [List.prefix_iff_eq_take.1 hbefore, ← hlength, List.take_left]
  rw [heq, List.prefix_append_right_inj] at hfront
  exact other hfront

/-- What is shorter than a separator and stands behind `before` does not end one. -/
theorem free (h : Ahead sep before text) {tail : List Char} (htail : tail <+: text)
    (short : tail.length < sep.length) : ¬ sep <:+: before ++ tail := by
  rintro ⟨front, after, heq⟩
  have hfront : front ++ sep <+: before ++ text := by
    refine List.IsPrefix.trans ?_ ((List.prefix_append_right_inj before).2 htail)
    rw [← heq]
    exact List.prefix_append (front ++ sep) after
  have hle := h front hfront
  have hlength := congrArg List.length heq
  simp only [List.length_append] at hlength
  omega

end Ahead

/-- Cutting goes on with the open piece where a text is left after skipping. -/
theorem cut_splitFrom (nonempty : sep ≠ []) (skip : Nat) (piece : List Char)
    (pieces : List (List Char)) (text : List Char)
    (ahead : Ahead sep piece.reverse (text.drop skip)) :
    ∃ more, splitFrom sep skip piece pieces text = pieces.reverse ++ more ∧
      Cut sep (piece.reverse ++ text.drop skip) more := by
  have hpos : 0 < sep.length := List.length_pos_iff.2 nonempty
  fun_induction splitFrom sep skip piece pieces text with
  | case1 skip piece pieces =>
      refine ⟨[piece.reverse], List.reverse_cons, ?_⟩
      have hfree := ahead.free List.nil_prefix hpos
      rw [List.append_nil] at hfree
      rw [List.drop_nil, List.append_nil]
      exact .last hfree
  | case2 piece pieces c rest k ih => exact ih ahead
  | case3 piece pieces c rest hsep ih =>
      rcases List.isPrefixOf_iff_prefix.1 hsep with ⟨behind, hbehind⟩
      rw [List.drop_zero] at ahead
      -- The separator is leftmost, and the next piece starts behind it.
      have hleftmost : ¬ sep <:+: piece.reverse ++ sep.dropLast := by
        refine ahead.free (sep.dropLast_prefix.trans ⟨behind, hbehind⟩) ?_
        rw [List.length_dropLast]
        omega
      have hdrop : rest.drop (sep.length - 1) = behind := by
        calc rest.drop (sep.length - 1)
            = (c :: rest).drop (sep.length - 1 + 1) := List.drop_succ_cons.symm
          _ = (sep ++ behind).drop sep.length := by rw [hbehind, Nat.sub_add_cancel hpos]
          _ = behind := List.drop_left
      rw [hdrop] at ih
      rcases ih (.nil sep behind) with ⟨more, hmore, hcut⟩
      refine ⟨piece.reverse :: more, ?_, ?_⟩
      · rw [hmore, List.reverse_cons, List.append_assoc, List.singleton_append]
      · rw [List.drop_zero, ← hbehind, ← List.append_assoc]
        exact .first hleftmost hcut
  | case4 piece pieces c rest hsep ih =>
      rw [List.drop_zero] at ahead ih
      have hother : ¬ sep <+: c :: rest := fun h => hsep (List.isPrefixOf_iff_prefix.2 h)
      rw [List.reverse_cons] at ih
      rcases ih (ahead.concat hother) with ⟨more, hmore, hcut⟩
      rw [List.append_assoc, List.singleton_append] at hcut
      exact ⟨more, hmore, hcut⟩

/-- Splitting at a separator that is not empty cuts the text at it. -/
theorem cut_splitChars (nonempty : sep ≠ []) (text : List Char) :
    Cut sep text (splitChars sep text) := by
  have hempty : sep.isEmpty = false := List.isEmpty_eq_false_iff.2 nonempty
  rcases cut_splitFrom nonempty 0 [] [] text (.nil sep text) with ⟨more, hmore, hcut⟩
  rw [splitChars, hempty, if_neg Bool.false_ne_true, hmore]
  exact hcut

/-- Single characters put together are the text. -/
theorem intercalate_nil_singletons (text : List Char) :
    List.intercalate [] (text.map fun c => [c]) = text := by
  induction text with
  | nil => rfl
  | cons c text ih =>
      cases text with
      | nil => rfl
      | cons d text =>
          calc List.intercalate [] ((c :: d :: text).map fun c => [c])
              = [c] ++ [] ++ List.intercalate [] ((d :: text).map fun c => [c]) :=
                List.intercalate_cons_cons
            _ = c :: d :: text := by rw [ih]; rfl

/-- Joining the pieces gives the text again, also if it was cut between any two characters. -/
theorem intercalate_splitChars (sep text : List Char) :
    sep.intercalate (splitChars sep text) = text := by
  by_cases hsep : sep = []
  · subst hsep
    exact intercalate_nil_singletons text
  · exact (cut_splitChars hsep text).intercalate_eq

/-- Pieces without a character are what their text is cut into at that character. -/
theorem splitChars_intercalate {c : Char} {pieces : List (List Char)} (present : pieces ≠ [])
    (free : ∀ piece ∈ pieces, ¬ [c] <:+: piece) :
    splitChars [c] ([c].intercalate pieces) = pieces := by
  have hcut : Cut [c] ([c].intercalate pieces) pieces := by
    induction pieces with
    | nil => exact absurd rfl present
    | cons piece pieces ih =>
        rcases List.forall_mem_cons.1 free with ⟨hpiece, hpieces⟩
        by_cases hmore : pieces = []
        · subst hmore
          rw [List.intercalate_singleton]
          exact .last hpiece
        · rw [List.intercalate_cons_of_ne_nil hmore]
          refine .first ?_ (ih hmore hpieces)
          rw [List.dropLast_singleton, List.append_nil]
          exact hpiece
  exact (cut_splitChars (List.cons_ne_nil c []) _).unique (List.cons_ne_nil c []) hcut

/-! ## Texts inside of texts -/

def Occurs (sought text : String) : Prop :=
  ∃ before after, text = before ++ sought ++ after

/-- A text occurs in another just if its characters do in a row. -/
theorem occurs_iff {sought text : String} :
    Occurs sought text ↔ sought.toList <:+: text.toList := by
  constructor
  · rintro ⟨before, after, rfl⟩
    rw [String.toList_append, String.toList_append]
    exact List.infix_append _ _ _
  · rintro ⟨before, after, heq⟩
    refine ⟨String.ofList before, String.ofList after, ?_⟩
    apply String.toList_inj.1
    rw [String.toList_append, String.toList_append, String.toList_ofList, String.toList_ofList, heq]

theorem map_toList_splitText (s sep : String) :
    (splitText s sep).map String.toList = splitChars sep.toList s.toList := by
  have hsame : String.toList ∘ String.ofList = id := funext fun _ => String.toList_ofList
  rw [splitText, List.map_map, hsame, List.map_id]

/-- The pieces joined with the separator are the text. -/
theorem intercalate_splitText (s sep : String) : sep.intercalate (splitText s sep) = s := by
  apply String.toList_inj.1
  rw [String.toList_intercalate, map_toList_splitText, intercalate_splitChars]

/-- No piece of a text has the separator in it. -/
theorem not_occurs_of_mem_splitText {s sep piece : String} (nonempty : sep ≠ "")
    (h : piece ∈ splitText s sep) : ¬ Occurs sep piece := by
  have hsep : sep.toList ≠ [] := fun hnil => nonempty (String.toList_eq_nil_iff.1 hnil)
  have hmem : piece.toList ∈ splitChars sep.toList s.toList := by
    rw [← map_toList_splitText]
    exact List.mem_map_of_mem h
  rw [occurs_iff]
  exact (cut_splitChars hsep s.toList).free piece.toList hmem

/-- Texts that are joined with a single character none of them contains are got back by
splitting. -/
theorem splitText_intercalate {sep : String} (single : sep.length = 1) {xs : List String}
    (present : xs ≠ []) (free : ∀ x ∈ xs, ¬ Occurs sep x) :
    splitText (sep.intercalate xs) sep = xs := by
  rw [← String.length_toList, List.length_eq_one_iff] at single
  rcases single with ⟨c, hc⟩
  have hfree : ∀ piece ∈ xs.map String.toList, ¬ [c] <:+: piece := by
    refine List.forall_mem_map.2 fun x hx => ?_
    rw [← hc, ← occurs_iff]
    exact free x hx
  have hpresent : xs.map String.toList ≠ [] := fun hnil => present (List.map_eq_nil_iff.1 hnil)
  have hsame : String.ofList ∘ String.toList = id := funext fun _ => String.ofList_toList
  rw [splitText, String.toList_intercalate, hc, splitChars_intercalate hpresent hfree, List.map_map,
    hsame, List.map_id]

end Text

/-! ## Host functions -/

open Text

/-- The text of a string on its own is the string. -/
theorem map_inspect_str (xs : List String) : (xs.map Value.str).map Value.inspect = xs := by
  have hsame : Value.inspect ∘ Value.str = id := by
    funext s
    rw [Function.comp_apply, Value.inspect, Value.inspectIn]
    rfl
  rw [List.map_map, hsame, List.map_id]

/-- Joining an array of strings. -/
theorem join_strings (xs : List String) (sep : String) :
    Builtin.join [.array (xs.map .str), .str sep] = .str (sep.intercalate xs) := by
  rw [Builtin.join, map_inspect_str]

/-- Splitting a string gives an array of its pieces. -/
theorem split_text (s sep : String) :
    Builtin.split [.str s, .str sep] = .array ((splitText s sep).map .str) :=
  rfl

/-- Joining the pieces of a text with the separator that it was cut at gives the text again, also
with the empty separator, and no piece has a separator in it that is not empty. Texts without a
character that are joined with that character are what cutting at it gives again, if there are
any. -/
theorem split_join_inverse :
    (∀ s sep : String, Builtin.join [Builtin.split [.str s, .str sep], .str sep] = .str s) ∧
    (∀ s sep : String, sep ≠ "" → ∃ pieces : List String,
      Builtin.split [.str s, .str sep] = .array (pieces.map .str) ∧
        ∀ piece ∈ pieces, ¬ Occurs sep piece) ∧
    ∀ (sep : String) (xs : List String), sep.length = 1 → xs ≠ [] →
      (∀ x ∈ xs, ¬ Occurs sep x) →
        (Builtin.split [Builtin.join [.array (xs.map .str), .str sep], .str sep]).equal
          (.array (xs.map .str)) = true := by
  refine ⟨?_, ?_, ?_⟩
  · intro s sep
    rw [split_text, join_strings, intercalate_splitText]
  · intro s sep nonempty
    exact ⟨splitText s sep, split_text s sep, fun _ => not_occurs_of_mem_splitText nonempty⟩
  · intro sep xs single present free
    have hbuilt : (Value.array (xs.map .str)).Built :=
      .array (List.forall_mem_map.2 fun x _ => .str x)
    rw [join_strings, split_text, splitText_intercalate single present free, hbuilt.equal_self_eq]
    exact Value.isSignalFree_array.2 (List.forall_mem_map.2 fun _ _ => rfl)

/-- A separator that overlaps itself at both ends of the text and in the middle, and three texts of
which one is empty. -/
theorem split_join_inverse_overlapping :
    let s := "aaabaaa"
    let xs := ["a", "", "ab"]
    Builtin.split [.str s, .str "aa"] = .array [.str "", .str "ab", .str "a"] ∧
      Builtin.join [Builtin.split [.str s, .str "aa"], .str "aa"] = .str s ∧
      (∃ pieces : List String, Builtin.split [.str s, .str "aa"] = .array (pieces.map .str) ∧
        ∀ piece ∈ pieces, ¬ Occurs "aa" piece) ∧
      (∀ x ∈ xs, ¬ Occurs "," x) ∧
      (Builtin.split [Builtin.join [.array (xs.map .str), .str ","], .str ","]).equal
        (.array (xs.map .str)) = true := by
  intro s xs
  have hpieces : splitText s "aa" = ["", "ab", "a"] := by decide
  have hsplit : Builtin.split [.str s, .str "aa"] = .array [.str "", .str "ab", .str "a"] := by
    rw [split_text, hpieces]
    rfl
  have hfree : ∀ x ∈ xs, ¬ Occurs "," x := by
    simp only [occurs_iff]
    decide
  exact ⟨hsplit, split_join_inverse.1 s "aa", split_join_inverse.2.1 s "aa" (by decide), hfree,
    split_join_inverse.2.2 "," xs (by decide) (by decide) hfree⟩

end Scriptlet
