import Scriptlet.Text.Quoted

/-!
# Texts that are read in one way only

A form writes things as texts. It is readable if what is written can be told from the text, and also
where its text ends, whatever stands behind. Rows of readable texts are readable if it can be told
where the row ends.

Quoted texts are such rows. One character of a quoted text is one character, an escape with a letter
or an escape with two, four or eight hexadecimal digits, and the first two characters tell which.

- `Readable` : a thing that can be told from its text
- `row_inj`, `listing_inj` : rows, with commas between their items or without
- `readEscaped` : reads one character of a quoted text
- `quoted_inj` : quoted texts
- `word_inj` : texts that run up to a mark
-/

namespace Scriptlet
namespace Text

/-! ## Readable forms -/

section Forms

variable {α : Type} {form : α → List Char} {Valid : α → Prop} {Behind : List Char → Prop}

/-- A thing that can be told from its text, and so can what stands behind it, as long as `Behind`
holds of that. All valid things compete. -/
def Readable (form : α → List Char) (Valid : α → Prop) (Behind : List Char → Prop) (x : α) : Prop :=
  ∀ ⦃y : α⦄, Valid y → ∀ ⦃rest rest' : List Char⦄, Behind rest → Behind rest' →
    form x ++ rest = form y ++ rest' → x = y ∧ rest = rest'

/-- A text that starts with another character than the given one. -/
def StartsApart (close : Char) (cs : List Char) : Prop :=
  ∃ c rest, cs = c :: rest ∧ c ≠ close

theorem StartsApart.append_ne {close : Char} {cs : List Char} (h : StartsApart close cs)
    (more rest : List Char) : cs ++ more ≠ close :: rest := by
  rcases h with ⟨c, cs, rfl, hne⟩
  intro heq
  exact hne (List.cons.inj heq).1

/-- A row of readable texts up to a character that starts none of them. -/
theorem row_inj (form : α → List Char) {close : Char}
    (starts : ∀ x, Valid x → StartsApart close (form x)) (ends : ∀ rest, Behind (close :: rest))
    (goesOn : ∀ x, Valid x → ∀ rest, Behind (form x ++ rest))
    {xs ys : List α} (hxs : ∀ x ∈ xs, Valid x ∧ Readable form Valid Behind x)
    (hys : ∀ y ∈ ys, Valid y) {rest rest' : List Char}
    (h : xs.flatMap form ++ close :: rest = ys.flatMap form ++ close :: rest') :
    xs = ys ∧ rest = rest' := by
  have hbehind {zs : List α} (hzs : ∀ z ∈ zs, Valid z) (rest : List Char) :
      Behind (zs.flatMap form ++ close :: rest) := by
    cases zs with
    | nil => exact ends rest
    | cons z zs =>
        rw [List.flatMap_cons, List.append_assoc]
        exact goesOn z (hzs z List.mem_cons_self) _
  induction xs generalizing ys with
  | nil =>
      cases ys with
      | nil => exact ⟨rfl, (List.cons.inj h).2⟩
      | cons y ys =>
          rw [List.flatMap_cons, List.append_assoc] at h
          exact absurd h.symm ((starts y (hys y List.mem_cons_self)).append_ne _ _)
  | cons x xs ih =>
      rw [List.forall_mem_cons] at hxs
      rw [List.flatMap_cons, List.append_assoc] at h
      cases ys with
      | nil => exact absurd h ((starts x hxs.1.1).append_ne _ _)
      | cons y ys =>
          rw [List.forall_mem_cons] at hys
          rw [List.flatMap_cons, List.append_assoc] at h
          have hafter := hbehind fun z hz => (hxs.2 z hz).1
          rcases hxs.1.2 hys.1 (hafter rest) (hbehind hys.2 rest') h with ⟨rfl, hrest⟩
          rcases ih hxs.2 hys.2 hrest with ⟨rfl, rfl⟩
          exact ⟨rfl, rfl⟩

def separated (form : α → List Char) (x : α) : List Char :=
  ',' :: ' ' :: form x

def listing (form : α → List Char) : List α → List Char
  | [] => []
  | x :: xs => form x ++ xs.flatMap (separated form)

/-- What can be read back can be so behind a comma. -/
theorem Readable.separated {x : α} (h : Readable form Valid Behind x) :
    Readable (separated form) Valid Behind x := by
  intro y hy rest rest' hrest hrest' heq
  exact h hy hrest hrest' (List.cons.inj (List.cons.inj heq).2).2

/-- A listing of readable texts up to a character that starts none of them. -/
theorem listing_inj {close : Char} (comma : ',' ≠ close)
    (starts : ∀ x, Valid x → StartsApart close (form x)) (ends : ∀ rest, Behind (close :: rest))
    (goesOn : ∀ rest, Behind (',' :: rest)) {xs ys : List α}
    (hxs : ∀ x ∈ xs, Valid x ∧ Readable form Valid Behind x) (hys : ∀ y ∈ ys, Valid y)
    {rest rest' : List Char}
    (h : listing form xs ++ close :: rest = listing form ys ++ close :: rest') :
    xs = ys ∧ rest = rest' := by
  -- With a comma and a blank in front of the first item too, a listing is a row.
  have hrow (h : xs.flatMap (separated form) ++ close :: rest =
      ys.flatMap (separated form) ++ close :: rest') : xs = ys ∧ rest = rest' :=
    row_inj (separated form) (fun _ _ => ⟨',', _, rfl, comma⟩) ends (fun _ _ _ => goesOn _)
      (fun x hx => ⟨(hxs x hx).1, (hxs x hx).2.separated⟩) hys h
  have hapart {z : α} (hz : Valid z) (zs : List α) (more rest : List Char) :
      listing form (z :: zs) ++ more ≠ close :: rest := by
    rw [listing, List.append_assoc]
    exact (starts z hz).append_ne _ _
  cases xs with
  | nil =>
      cases ys with
      | nil => exact hrow h
      | cons y ys => exact absurd h.symm (hapart (hys y List.mem_cons_self) _ _ _)
  | cons x xs =>
      cases ys with
      | nil => exact absurd h (hapart (hxs x List.mem_cons_self).1 _ _ _)
      | cons y ys => exact hrow (congrArg (fun cs => ',' :: ' ' :: cs) h)

end Forms

/-! ## Hexadecimal digits -/

def hexValue (c : Char) : Nat :=
  if c.isDigit then c.toNat - 48 else c.toNat - 87

def readHex (digits : List Char) : Nat :=
  digits.foldl (fun n c => 16 * n + hexValue c) 0

/-- A digit is worth what it was written for. -/
theorem hexValue_digitChar {n : Nat} (h : n < 16) : hexValue n.digitChar = n := by
  revert n
  decide

/-- One digit more. -/
theorem readHex_concat (digits : List Char) (c : Char) :
    readHex (digits ++ [c]) = 16 * readHex digits + hexValue c := by
  rw [readHex, List.foldl_append]
  rfl

/-- A number is read back from its hexadecimal digits. -/
theorem readHex_toDigits (n : Nat) : readHex (Nat.toDigits 16 n) = n := by
  induction n using Nat.strongRecOn with
  | ind n ih =>
      by_cases hlt : n < 16
      · rw [Nat.toDigits_of_lt_base hlt]
        exact (Nat.zero_add _).trans (hexValue_digitChar hlt)
      · rw [Nat.toDigits_of_base_le (by decide) (Nat.le_of_not_lt hlt), readHex_concat,
          ih (n / 16) (by omega), hexValue_digitChar (Nat.mod_lt n (by decide))]
        omega

/-- So it is with zeros in front. -/
theorem readHex_hexDigits (width n : Nat) : readHex (hexDigits width n) = n := by
  have hzeros (k : Nat) (digits : List Char) :
      readHex (List.replicate k '0' ++ digits) = readHex digits := by
    induction k with
    | zero => rfl
    | succ k ih => exact ih
  rw [hexDigits, hzeros, readHex_toDigits]

/-- A number that fits has as many digits as are asked for. -/
theorem length_hexDigits {width n : Nat} (pos : 0 < width) (h : n < Nat.pow 16 width) :
    (hexDigits width n).length = width := by
  have hle := (Nat.length_toDigits_le_iff (by decide) pos).2 h
  rw [hexDigits, List.length_append, List.length_replicate]
  omega

/-! ## Quoted texts -/

/-- The character that an escape with a letter stands for. -/
def ofLetter : Char → Char
  | 'a' => '\x07'
  | 'b' => '\x08'
  | 't' => '\t'
  | 'n' => '\n'
  | 'v' => '\x0b'
  | 'f' => '\x0c'
  | 'r' => '\r'
  | c => c

/-- The character with the code that so many hexadecimal digits write, and what stands behind. -/
def readCode (width : Nat) (cs : List Char) : Char × List Char :=
  (Char.ofNat (readHex (cs.take width)), cs.drop width)

/-- Reads what stands behind the backslash of an escape, and gives what stands behind that. -/
def readEscape : List Char → Option (Char × List Char)
  | [] => none
  | 'x' :: rest => some (readCode 2 rest)
  | 'u' :: rest => some (readCode 4 rest)
  | 'U' :: rest => some (readCode 8 rest)
  | letter :: rest => some (ofLetter letter, rest)

/-- Reads one character of a quoted text, and gives what stands behind it. -/
def readEscaped : List Char → Option (Char × List Char)
  | [] => none
  | c :: rest => if c = '\\' then readEscape rest else some (c, rest)

/-- A character is read back from the digits of its code. -/
theorem readCode_hexDigits {width : Nat} {c : Char} (pos : 0 < width)
    (h : c.toNat < Nat.pow 16 width) (rest : List Char) :
    readCode width (hexDigits width c.toNat ++ rest) = (c, rest) := by
  have hlength := length_hexDigits pos h
  rw [readCode, List.take_left' hlength, List.drop_left' hlength, readHex_hexDigits,
    Char.ofNat_toNat]

/-- A character with a letter for it is read back from that letter. -/
theorem readEscape_letter {c letter : Char} (h : escapeLetter? c = some letter)
    (rest : List Char) : readEscape (letter :: rest) = some (c, rest) := by
  rw [← Char.ofNat_toNat c]
  unfold escapeLetter? at h
  split at h <;> cases h
  all_goals next hcode => rw [hcode]; rfl

/-- What is written for a character is read as that character, whatever stands behind. -/
theorem readEscaped_escapeChar (c : Char) (rest : List Char) :
    readEscaped (escapeChar c ++ rest) = some (c, rest) := by
  unfold escapeChar
  split
  · next hspecial => rcases hspecial with rfl | rfl <;> rfl
  · next hspecial =>
      split
      · exact if_neg fun hc => hspecial (.inr hc)
      · split
        · next letter hletter => exact readEscape_letter hletter rest
        -- The widths are chosen by the code, which fits in so many digits.
        · split
          · next hcode =>
              have hfits : c.toNat < Nat.pow 16 2 := Nat.lt_trans hcode (by decide)
              exact congrArg some (readCode_hexDigits (by decide) hfits rest)
          · split
            · next hcode => exact congrArg some (readCode_hexDigits (by decide) hcode rest)
            · have hfits : c.toNat < Nat.pow 16 8 := c.val.toNat_lt
              exact congrArg some (readCode_hexDigits (by decide) hfits rest)

/-- Every character is read back from the way it is escaped. -/
theorem readable_escapeChar (c : Char) :
    Readable escapeChar (fun _ => True) (fun _ => True) c := by
  intro d _ rest rest' _ _ h
  have hread := readEscaped_escapeChar c rest
  rw [h, readEscaped_escapeChar d rest'] at hread
  cases hread
  exact ⟨rfl, rfl⟩

/-- No escaped character begins with the quote. -/
theorem startsApart_escapeChar (c : Char) : StartsApart '"' (escapeChar c) := by
  unfold escapeChar
  split
  · exact ⟨'\\', _, rfl, by decide⟩
  · next hspecial =>
      split
      · exact ⟨c, _, rfl, fun hc => hspecial (.inl hc)⟩
      · split
        · exact ⟨'\\', _, rfl, by decide⟩
        · split
          · exact ⟨'\\', _, rfl, by decide⟩
          · split <;> exact ⟨'\\', _, rfl, by decide⟩

/-- A text and what stands behind its quoted form can be told. -/
theorem quoted_inj {cs ds rest rest' : List Char}
    (h : cs.flatMap escapeChar ++ '"' :: rest = ds.flatMap escapeChar ++ '"' :: rest') :
    cs = ds ∧ rest = rest' :=
  row_inj escapeChar (fun c _ => startsApart_escapeChar c) (fun _ => trivial)
    (fun _ _ _ => trivial) (fun c _ => ⟨trivial, readable_escapeChar c⟩) (fun _ _ => trivial) h

/-! ## Words -/

/-- The characters that structure the text of a value. -/
def isMark (c : Char) : Bool :=
  c = '"' || c = '[' || c = ']' || c = '\x7b' || c = '\x7d' || c = ',' || c = ':'

/-- A text that is empty or starts with a mark. -/
def Marked (cs : List Char) : Prop :=
  ∀ c ∈ cs.head?, isMark c = true

theorem marked_cons {c : Char} (h : isMark c = true) (cs : List Char) : Marked (c :: cs) := by
  intro d hd
  cases hd
  exact h

/-- A word ends where a mark begins. -/
theorem takeWhile_append_marked {cs rest : List Char} (word : ∀ c ∈ cs, isMark c = false)
    (marked : Marked rest) : (cs ++ rest).takeWhile (fun c => !isMark c) = cs := by
  have hrest : rest.takeWhile (fun c => !isMark c) = [] := by
    cases rest with
    | nil => rfl
    | cons c rest => rw [List.takeWhile_cons_of_neg (by rw [marked c rfl]; decide)]
  rw [List.takeWhile_append_of_pos (fun c hc => by rw [word c hc]; rfl), hrest, List.append_nil]

/-- Texts without marks can be told when they run up to a mark. -/
theorem word_inj {cs ds rest rest' : List Char} (hcs : ∀ c ∈ cs, isMark c = false)
    (hds : ∀ d ∈ ds, isMark d = false) (hrest : Marked rest) (hrest' : Marked rest')
    (h : cs ++ rest = ds ++ rest') : cs = ds ∧ rest = rest' := by
  have hword : cs = ds := by
    rw [← takeWhile_append_marked hcs hrest, h, takeWhile_append_marked hds hrest']
  subst hword
  exact ⟨rfl, List.append_cancel_left h⟩

end Text
end Scriptlet
