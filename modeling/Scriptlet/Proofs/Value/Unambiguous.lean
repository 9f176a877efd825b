import Scriptlet.Proofs.Value.Equality
import Scriptlet.Proofs.Value.Inspect

/-!
# Texts of values are unambiguous

A value that is made of numbers, truth values, null, texts, arrays and hashes can be told from the
text that it shows as inside an array or a hash, down to the order in which its hashes were filled.
Texts may hold brackets, commas and quotes. So the induction is on a value with any text behind it
that may stand there.

The first character tells texts, arrays and hashes apart. Numbers, truth values and null are words,
which run up to the next mark.

- `Value.Concrete` : values that can be told from their texts
- `Value.opening?` : the mark that opens the text of a value
- `Value.Concrete.readable` : the induction
- `inspectNested_unambiguous` : the same text, the same value
-/

namespace Scriptlet

open Text

/-- Values that are made of numbers, truth values, null, texts, arrays, and hashes that were filled
entry by entry. -/
inductive Value.Concrete : Value → Prop
  | int (n : Int64) : Concrete (.int n)
  | bool (b : Bool) : Concrete (.bool b)
  | null : Concrete .null
  | str (s : String) : Concrete (.str s)
  | array {items : List Value} (h : ∀ v ∈ items, Concrete v) : Concrete (.array items)
  | hash {writes : List (Key × Value)} (h : ∀ write ∈ writes, Concrete write.2) :
      Concrete (.hash (Entries.ofList writes))

theorem Key.concrete_toValue (key : Key) : key.toValue.Concrete := by
  cases key with
  | int n => exact .int n
  | str s => exact .str s

theorem Value.Concrete.built {v : Value} (h : v.Concrete) : v.Built := by
  induction h with
  | int n => exact .int n
  | bool b => exact .bool b
  | null => exact .null
  | str s => exact .str s
  | array _ ih => exact .array ih
  | hash _ ih => exact .hash ih

theorem Value.Concrete.isSignalFree {v : Value} (h : v.Concrete) : v.isSignalFree = true := by
  induction h with
  | array _ ih => exact isSignalFree_array.2 ih
  | hash _ ih =>
      exact isSignalFree_hash.2 fun entry hentry => ih entry (Entries.mem_of_mem_ofList hentry)
  | _ => rfl

/-! ## Numbers -/

theorem isMark_of_numeral {c : Char} (h : c.isDigit = true ∨ c = '-') : isMark c = false := by
  rw [Bool.eq_false_iff]
  intro hmark
  simp only [isMark, Bool.or_eq_true, decide_eq_true_eq] at hmark
  rcases hmark with (((((rfl | rfl) | rfl) | rfl) | rfl) | rfl) | rfl <;> simp at h

theorem mem_repr {n : Int} {c : Char} (h : c ∈ n.repr.toList) : c.isDigit = true ∨ c = '-' := by
  have hdigits {m : Nat} (h : c ∈ m.repr.toList) : c.isDigit = true := by
    rw [Nat.toList_repr] at h
    exact Nat.isDigit_of_mem_toDigits (by decide) (by decide) h
  rw [Int.repr_eq_if] at h
  split at h
  · exact .inl (hdigits h)
  · rw [String.toList_append, List.mem_append] at h
    rcases h with hsign | hdigit
    · exact .inr (List.mem_singleton.1 hsign)
    · exact .inl (hdigits hdigit)

theorem repr_ne_nil (n : Int) : n.repr.toList ≠ [] := by
  rw [Int.repr_eq_if]
  split
  · rw [Nat.toList_repr]
    exact Nat.toDigits_ne_nil
  · simp

/-- No number is written like a word that starts with another character. -/
theorem repr_ne_cons {n : Int} {c : Char} (h : ¬ (c.isDigit = true ∨ c = '-')) (cs : List Char) :
    n.repr.toList ≠ c :: cs := by
  intro heq
  refine h (mem_repr (n := n) ?_)
  rw [heq]
  exact List.mem_cons_self

/-- The digits of a number tell its value, so different numbers are written differently. -/
theorem eq_of_repr_eq {n m : Int} (h : n.repr = m.repr) : n = m := by
  have hdigits {k l : Nat} (h : k.repr = l.repr) : k = l := by
    have hvalue (i : Nat) : Nat.ofDigitChars 10 i.repr.toList 0 = i := by
      rw [Nat.toList_repr, Nat.ofDigitChars_toDigits (by decide) (by decide)]
    rw [← hvalue k, ← hvalue l, h]
  -- No digit is a sign, so the first characters tell which numbers are negative.
  have hsign (k l : Nat) : k.repr ≠ "-" ++ l.repr := by
    intro heq
    have hmem : '-' ∈ k.repr.toList := by
      rw [heq]
      simp
    rw [Nat.toList_repr] at hmem
    exact absurd (Nat.isDigit_of_mem_toDigits (by decide) (by decide) hmem) (by decide)
  rw [Int.repr_eq_if, Int.repr_eq_if] at h
  split at h <;> split at h
  · have hnat := hdigits h
    omega
  · exact absurd h (hsign _ _)
  · exact absurd h.symm (hsign _ _)
  · rw [String.append_right_inj] at h
    have hnat := hdigits h
    omega

namespace Value

/-! ## First characters -/

def opening? : Value → Option Char
  | .str _ => some '"'
  | .array _ => some '['
  | .hash _ => some '\x7b'
  | _ => none

variable {v w : Value}

/-- A value without an opening mark shows as a word. -/
theorem Concrete.word (hv : v.Concrete) (h : v.opening? = none) :
    v.chars ≠ [] ∧ ∀ c ∈ v.chars, isMark c = false := by
  cases hv with
  | int n => exact ⟨repr_ne_nil _, fun c hc => isMark_of_numeral (mem_repr hc)⟩
  | bool b => cases b <;> simp [chars, inspectNested, inspectIn, isMark]
  | null => simp [chars, inspectNested, inspectIn, isMark]
  | str s => cases h
  | array _ => cases h
  | hash _ => cases h

/-- The first character is the opening mark, or no mark at all. -/
theorem Concrete.exists_chars (hv : v.Concrete) :
    ∃ c cs, v.chars = c :: cs ∧ v.opening? = if isMark c then some c else none := by
  cases hopening : v.opening? with
  | none =>
      rcases hv.word hopening with ⟨hne, hword⟩
      rcases List.exists_cons_of_ne_nil hne with ⟨c, cs, hchars⟩
      rw [hchars] at hword
      rw [hchars]
      exact ⟨c, cs, rfl, by rw [hword c List.mem_cons_self]; rfl⟩
  | some mark =>
      cases hv with
      | str s => cases hopening; exact ⟨_, _, chars_str s, rfl⟩
      | array _ => cases hopening; exact ⟨_, _, chars_array _, rfl⟩
      | hash _ => cases hopening; exact ⟨_, _, chars_hash _, rfl⟩
      | _ => cases hopening

/-- Values with the same text open alike. -/
theorem Concrete.opening?_eq (hv : v.Concrete) (hw : w.Concrete) {rest rest' : List Char}
    (h : v.chars ++ rest = w.chars ++ rest') : v.opening? = w.opening? := by
  rcases hv.exists_chars with ⟨c, cs, hc, hopening⟩
  rcases hw.exists_chars with ⟨d, ds, hd, hopening'⟩
  rw [hc, hd] at h
  rw [hopening, hopening', (List.cons.inj h).1]

/-- No value starts with the mark that closes an array or a hash. -/
theorem Concrete.startsApart (hv : v.Concrete) {close : Char}
    (h : close = ']' ∨ close = '\x7d') : StartsApart close v.chars := by
  rcases hv.exists_chars with ⟨c, cs, hchars, hopening⟩
  refine ⟨c, cs, hchars, ?_⟩
  rintro rfl
  rcases h with rfl | rfl <;> cases v <;> simp [opening?, isMark] at hopening

/-! ## Words -/

theorem eq_of_word (hv : v.Concrete) (hw : w.Concrete) (hopening : v.opening? = none)
    (hopening' : w.opening? = none) (h : v.chars = w.chars) : v = w := by
  cases hv with
  | int n =>
      cases hw with
      | int m =>
          have hrepr : n.toInt.repr = m.toInt.repr := String.toList_inj.1 h
          rw [Int64.toInt_inj.1 (eq_of_repr_eq hrepr)]
      | bool b => cases b <;> exact absurd h (repr_ne_cons (by decide) _)
      | null => exact absurd h (repr_ne_cons (by decide) _)
      | _ => cases hopening'
  | bool b =>
      cases hw with
      | int m => cases b <;> exact absurd h.symm (repr_ne_cons (by decide) _)
      | bool b' => cases b <;> cases b' <;> first | rfl | exact absurd h (by decide)
      | null => cases b <;> exact absurd h (by decide)
      | _ => cases hopening'
  | null =>
      cases hw with
      | int m => exact absurd h.symm (repr_ne_cons (by decide) _)
      | bool b => cases b <;> exact absurd h (by decide)
      | null => rfl
      | _ => cases hopening'
  | _ => cases hopening

theorem readable_word (hv : v.Concrete) (hopening : v.opening? = none) :
    Readable chars Concrete Marked v := by
  intro w hw rest rest' hrest hrest' h
  have hopening' : w.opening? = none := by
    rw [← hv.opening?_eq hw h, hopening]
  rcases word_inj (hv.word hopening).2 (hw.word hopening').2 hrest hrest' h with ⟨hchars, rfl⟩
  exact ⟨eq_of_word hv hw hopening hopening' hchars, rfl⟩

/-! ## Texts, arrays and hashes -/

/-- What stands between the marks, with the closing mark in front of what stands behind. -/
theorem of_enclosed {mark close : Char} {cs ds rest rest' : List Char}
    (h : (mark :: (cs ++ [close])) ++ rest = (mark :: (ds ++ [close])) ++ rest') :
    cs ++ close :: rest = ds ++ close :: rest' := by
  simpa using h

/-- A string is read back from its quoted text. -/
theorem readable_str (s : String) : Readable chars Concrete Marked (.str s) := by
  intro w hw rest rest' _ _ h
  have hopening := (Concrete.str s).opening?_eq hw h
  cases hw with
  | str t =>
      rw [chars_str, chars_str] at h
      rcases quoted_inj (of_enclosed h) with ⟨hchars, rfl⟩
      rw [String.toList_inj.1 hchars]
      exact ⟨rfl, rfl⟩
  | _ => cases hopening

/-- An array is read back if its items are. -/
theorem readable_array {items : List Value}
    (hitems : ∀ v ∈ items, v.Concrete ∧ Readable chars Concrete Marked v) :
    Readable chars Concrete Marked (.array items) := by
  intro w hw rest rest' _ _ h
  have hopening := (Concrete.array fun v hv => (hitems v hv).1).opening?_eq hw h
  cases hw with
  | @array others hothers =>
      rw [chars_array, chars_array] at h
      have hlisting := listing_inj (by decide) (fun v hv => hv.startsApart (.inl rfl))
        (marked_cons rfl) (marked_cons rfl) hitems hothers (of_enclosed h)
      rcases hlisting with ⟨rfl, rfl⟩
      exact ⟨rfl, rfl⟩
  | _ => cases hopening

theorem readable_key (key : Key) : Readable chars Concrete Marked key.toValue := by
  cases key with
  | int n => exact readable_word (.int n) rfl
  | str s => exact readable_str s

theorem readable_entry {entry : Key × Value} (hv : Readable chars Concrete Marked entry.2) :
    Readable entryChars (fun entry => entry.2.Concrete) Marked entry := by
  rcases entry with ⟨key, v⟩
  rintro ⟨other, w⟩ hw rest rest' hrest hrest' h
  rw [entryChars_eq, entryChars_eq, List.append_assoc, List.append_assoc] at h
  rcases readable_key key other.concrete_toValue (marked_cons rfl _) (marked_cons rfl _) h with
    ⟨hkey, hbehind⟩
  rcases hv hw hrest hrest' (List.cons.inj (List.cons.inj hbehind).2).2 with ⟨rfl, rfl⟩
  rw [Key.toValue_injective hkey]
  exact ⟨rfl, rfl⟩

theorem startsApart_entry (entry : Key × Value) : StartsApart '\x7d' (entryChars entry) := by
  rcases entry with ⟨key, v⟩
  rcases key.concrete_toValue.startsApart (.inr rfl) with ⟨c, cs, hchars, hne⟩
  rw [entryChars_eq, hchars]
  exact ⟨c, _, rfl, hne⟩

/-- A hash is read back if its values are. -/
theorem readable_hash {writes : List (Key × Value)}
    (hwrites : ∀ write ∈ writes, write.2.Concrete ∧ Readable chars Concrete Marked write.2) :
    Readable chars Concrete Marked (.hash (Entries.ofList writes)) := by
  intro w hw rest rest' _ _ h
  have hopening := (Concrete.hash fun write hwrite => (hwrites write hwrite).1).opening?_eq hw h
  cases hw with
  | @hash others hothers =>
      rw [chars_hash, chars_hash] at h
      have hentries : ∀ entry ∈ Entries.ofList writes, entry.2.Concrete ∧
          Readable entryChars (fun entry => entry.2.Concrete) Marked entry := by
        intro entry hentry
        have hwrite := hwrites entry (Entries.mem_of_mem_ofList hentry)
        exact ⟨hwrite.1, readable_entry hwrite.2⟩
      have hlisting := listing_inj (by decide) (fun entry _ => startsApart_entry entry)
        (marked_cons rfl) (marked_cons rfl) hentries
        (fun entry hentry => hothers entry (Entries.mem_of_mem_ofList hentry)) (of_enclosed h)
      rcases hlisting with ⟨heq, rfl⟩
      rw [heq]
      exact ⟨rfl, rfl⟩
  | _ => cases hopening

/-- A value can be told from its text, and so can what stands behind the text. -/
theorem Concrete.readable (hv : v.Concrete) : Readable chars Concrete Marked v := by
  induction hv with
  | int n => exact readable_word (.int n) rfl
  | bool b => exact readable_word (.bool b) rfl
  | null => exact readable_word .null rfl
  | str s => exact readable_str s
  | array hitems ih => exact readable_array fun v hv => ⟨hitems v hv, ih v hv⟩
  | hash hwrites ih =>
      exact readable_hash fun write hwrite => ⟨hwrites write hwrite, ih write hwrite⟩

end Value

/-- Values that show as the same text inside an array or a hash are equal, and they are the same
down to the order of the entries in their hashes. -/
theorem inspectNested_unambiguous {v w : Value} (hv : v.Concrete) (hw : w.Concrete)
    (h : v.inspectNested = w.inspectNested) : v.equal w = true ∧ v = w := by
  have hchars : v.chars ++ [] = w.chars ++ [] := by
    rw [Value.chars, h, Value.chars]
  have hend : Marked [] := by
    intro c hc
    cases hc
  rcases hv.readable hw hend hend hchars with ⟨rfl, -⟩
  exact ⟨by rw [hv.built.equal_self_eq, hv.isSignalFree], rfl⟩

/-- A hash that was filled in two ways, with separators, quotes and characters that cannot be
printed in its texts. -/
theorem inspectNested_unambiguous_overwritten :
    let inner : Value := .array [.str "], \x07\u0080", .bool false, .hash (Entries.ofList [])]
    let v : Value := .hash (Entries.ofList [(.str "a\", \"b", .null), (.int (-3), .null),
      (.str "a\", \"b", inner)])
    let w : Value := .hash (Entries.ofList [(.str "a\", \"b", inner), (.int (-3), .null)])
    v.Concrete ∧ w.Concrete ∧
      v.inspectNested =
        "\x7b\"a\\\", \\\"b\": [\"], \\a\\u0080\", false, \x7b\x7d], -3: null\x7d" ∧
      w.inspectNested = v.inspectNested ∧ v.equal w = true := by
  intro inner v w
  have hinner : inner.Concrete := .array (List.forall_mem_cons.2 ⟨.str _,
    List.forall_mem_cons.2 ⟨.bool _, List.forall_mem_singleton.2 (.hash (List.forall_mem_nil _))⟩⟩)
  have hv : v.Concrete := .hash (List.forall_mem_cons.2 ⟨.null,
    List.forall_mem_cons.2 ⟨.null, List.forall_mem_singleton.2 hinner⟩⟩)
  have hw : w.Concrete := .hash (List.forall_mem_cons.2 ⟨hinner,
    List.forall_mem_singleton.2 .null⟩)
  have htext : v.inspectNested =
      "\x7b\"a\\\", \\\"b\": [\"], \\a\\u0080\", false, \x7b\x7d], -3: null\x7d" := by
    decide +kernel
  exact ⟨hv, hw, htext, rfl, (inspectNested_unambiguous hv hw rfl).1⟩

end Scriptlet
