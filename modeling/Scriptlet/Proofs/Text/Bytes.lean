import Scriptlet.Text.Bytes

/-!
# Texts and their bytes

The bytes of a text are the bytes of its characters, one after another. Each character is read back
from its own bytes, whatever follows, so a text is read back from its bytes. All bytes of a
character but its first one are continuation bytes, with which no text begins.

- `Bytes.ofString_eq_flatMap` : the bytes of a text
- `Text.leadChar?_utf8EncodeChar` : a character in front of any bytes
- `Bytes.text_ofString` : the bytes of a text, read as a text
- `Bytes.ofString_prefix_iff` : texts and their bytes begin alike
- `Bytes.not_prefix_of_continuation` : no text begins with a continuation byte
-/

namespace Scriptlet

namespace Bytes

theorem toList_loop_eq_append_drop (bytes : ByteArray) (i : Nat) (seen : Bytes) :
    ByteArray.toList.loop bytes i seen = seen.reverse ++ bytes.data.toList.drop i := by
  induction i, seen using ByteArray.toList.loop.induct bytes with
  | case1 i seen inside ih =>
      have hlength : i < bytes.data.toList.length := inside
      have hget : bytes.get! i = bytes.data.toList[i] := getElem!_pos bytes.data i inside
      rw [ByteArray.toList.loop, if_pos inside, ih, hget, List.reverse_cons, List.append_assoc,
        List.singleton_append, List.drop_eq_getElem_cons hlength]
  | case2 i seen outside =>
      have hlength : bytes.data.toList.length ≤ i := Nat.not_lt.1 outside
      rw [ByteArray.toList.loop, if_neg outside, List.drop_of_length_le hlength, List.append_nil]

/-- The bytes of a text are those of its characters, one after another. -/
theorem ofString_eq_flatMap (s : String) : ofString s = s.toList.flatMap String.utf8EncodeChar := by
  have hbytes : s.toUTF8 = (s.toList.flatMap String.utf8EncodeChar).toByteArray := by
    have hchars := String.toByteArray_ofList (l := s.toList)
    rw [String.ofList_toList] at hchars
    exact hchars
  rw [ofString, hbytes, ByteArray.toList, toList_loop_eq_append_drop, List.toList_data_toByteArray]
  rfl

@[simp] theorem ofString_empty : ofString "" = [] := by
  rw [ofString_eq_flatMap]
  rfl

/-- Texts one after another have their bytes one after another. -/
theorem ofString_append (s t : String) : ofString (s ++ t) = ofString s ++ ofString t := by
  simp only [ofString_eq_flatMap, String.toList_append, List.flatMap_append]

end Bytes

namespace Text

/-- The code of a character is read as it, unless it is written too long. -/
theorem scalar?_toNat {c : Char} {least code : Nat} (eq : code = c.toNat) (long : least ≤ code) :
    scalar? least code = some c := by
  subst eq
  rw [scalar?, if_pos ⟨long, c.valid⟩, Char.ofNat_toNat]

theorem toNat_ofNat_of_lt {n : Nat} (small : n < 256) : (UInt8.ofNat n).toNat = n := by
  rw [UInt8.toNat_ofNat']
  exact Nat.mod_eq_of_lt small

/-- Six bits are read back from a continuation byte. -/
theorem continuation?_ofNat (n : Nat) :
    continuation? (UInt8.ofNat (n % 64 + 128)) = some (n % 64) := by
  rw [continuation?, toNat_ofNat_of_lt (by omega), if_pos (by omega), Nat.add_sub_cancel]

/-- A character is read from its bytes, and takes as many as it has. -/
theorem leadChar?_utf8EncodeChar (c : Char) (rest : List UInt8) :
    ∃ b more, String.utf8EncodeChar c = b :: more ∧
      leadChar? b (more ++ rest) = some (c, more.length) := by
  have hmax : c.toNat < 0x110000 := by
    have hvalid := c.valid
    simp only [UInt32.isValidChar, Nat.isValidChar, Char.toNat_val] at hvalid
    omega
  simp only [String.utf8EncodeChar, Char.toNat_val]
  -- The four widths: a character of more bytes is at least as large as the next bound.
  split
  · refine ⟨_, _, rfl, ?_⟩
    simp only [leadChar?]
    rw [toNat_ofNat_of_lt (by omega), if_pos (by omega), Char.ofNat_toNat]
    rfl
  · split
    · refine ⟨_, _, rfl, ?_⟩
      simp only [leadChar?]
      rw [toNat_ofNat_of_lt (by omega), if_neg (by omega), if_neg (by omega), if_pos (by omega)]
      simp only [List.cons_append, continuation?_ofNat, Option.bind_eq_bind, Option.bind_some]
      rw [scalar?_toNat (c := c) (by omega) (by omega)]
      rfl
    · split
      · refine ⟨_, _, rfl, ?_⟩
        simp only [leadChar?]
        rw [toNat_ofNat_of_lt (by omega), if_neg (by omega), if_neg (by omega), if_neg (by omega),
          if_pos (by omega)]
        simp only [List.cons_append, continuation?_ofNat, Option.bind_eq_bind, Option.bind_some]
        rw [scalar?_toNat (c := c) (by omega) (by omega)]
        rfl
      · refine ⟨_, _, rfl, ?_⟩
        simp only [leadChar?]
        rw [toNat_ofNat_of_lt (by omega), if_neg (by omega), if_neg (by omega), if_neg (by omega),
          if_neg (by omega), if_pos (by omega)]
        simp only [List.cons_append, continuation?_ofNat, Option.bind_eq_bind, Option.bind_some]
        rw [scalar?_toNat (c := c) (by omega) (by omega)]
        rfl

/-- A continuation byte starts no character. -/
theorem leadChar?_of_continuation {b : UInt8} (h : (continuation? b).isSome) (rest : List UInt8) :
    leadChar? b rest = none := by
  rw [continuation?, Option.isSome_ite] at h
  simp only [leadChar?]
  rw [if_neg (by omega), if_pos h.2]

/-- All bytes of a character but the first one are continuation bytes. -/
theorem continuation?_of_mem_tail {c : Char} {b : UInt8}
    (mem : b ∈ (String.utf8EncodeChar c).tail) : (continuation? b).isSome := by
  have hbyte (n : Nat) : (continuation? (UInt8.ofNat (n % 64 + 128))).isSome := by
    rw [continuation?_ofNat]
    rfl
  simp only [String.utf8EncodeChar] at mem
  split at mem
  · cases mem
  · split at mem
    · rw [List.tail_cons, List.mem_singleton] at mem
      exact mem ▸ hbyte _
    · split at mem
      · simp only [List.tail_cons, List.mem_cons, List.not_mem_nil, or_false] at mem
        rcases mem with rfl | rfl <;> exact hbyte _
      · simp only [List.tail_cons, List.mem_cons, List.not_mem_nil, or_false] at mem
        rcases mem with rfl | rfl | rfl <;> exact hbyte _

/-- The bytes that belong to a character are passed over. -/
theorem readUtf8From_length (seen : List Char) (more rest : List UInt8) :
    readUtf8From more.length seen (more ++ rest) = readUtf8From 0 seen rest := by
  induction more with
  | nil => rfl
  | cons b more ih => exact ih

/-- Decoding gives back the characters that were encoded. -/
theorem readUtf8From_flatMap (seen chars : List Char) :
    readUtf8From 0 seen (chars.flatMap String.utf8EncodeChar) = seen.reverse ++ chars := by
  induction chars generalizing seen with
  | nil => exact (List.append_nil _).symm
  | cons c chars ih =>
      obtain ⟨b, more, hbytes, hlead⟩ :=
        leadChar?_utf8EncodeChar c (chars.flatMap String.utf8EncodeChar)
      rw [List.flatMap_cons, hbytes, List.cons_append, readUtf8From, hlead]
      dsimp only
      rw [readUtf8From_length, ih, List.reverse_cons, List.append_assoc, List.singleton_append]

end Text

namespace Bytes

/-- A text is read back from its bytes. -/
theorem text_ofString (s : String) : (ofString s).text = s := by
  rw [text, Text.readUtf8, ofString_eq_flatMap, Text.readUtf8From_flatMap, List.reverse_nil,
    List.nil_append, String.ofList_toList]

/-- The bytes of a text begin with those of another one only if the text itself does: the first
character of each is read from the same bytes. -/
theorem prefix_of_flatMap {chars others : List Char}
    (h : chars.flatMap String.utf8EncodeChar <+: others.flatMap String.utf8EncodeChar) :
    chars <+: others := by
  induction chars generalizing others with
  | nil => exact List.nil_prefix
  | cons c chars ih =>
      obtain ⟨more, hmore⟩ := h
      rw [List.flatMap_cons, List.append_assoc] at hmore
      obtain ⟨b, bs, hbytes, hlead⟩ :=
        Text.leadChar?_utf8EncodeChar c (chars.flatMap String.utf8EncodeChar ++ more)
      cases others with
      | nil =>
          rw [hbytes] at hmore
          cases hmore
      | cons d others =>
          obtain ⟨b', bs', hbytes', hlead'⟩ :=
            Text.leadChar?_utf8EncodeChar d (others.flatMap String.utf8EncodeChar)
          have hsame := hmore
          rw [List.flatMap_cons, hbytes, hbytes', List.cons_append, List.cons_append] at hsame
          obtain ⟨rfl, hrest⟩ := List.cons_eq_cons.1 hsame
          rw [hrest, hlead'] at hlead
          obtain rfl : d = c := congrArg Prod.fst (Option.some.inj hlead)
          rw [List.flatMap_cons, List.append_cancel_left_eq] at hmore
          exact List.cons_prefix_cons.2 ⟨rfl, ih ⟨more, hmore⟩⟩

/-- A text begins with another one just if its bytes do. -/
theorem ofString_prefix_iff {s t : String} : ofString s <+: ofString t ↔ s.toList <+: t.toList := by
  rw [ofString_eq_flatMap, ofString_eq_flatMap]
  refine ⟨prefix_of_flatMap, ?_⟩
  rintro ⟨more, hmore⟩
  rw [← hmore, List.flatMap_append]
  exact List.prefix_append _ _

/-- No text begins with a continuation byte. -/
theorem not_prefix_of_continuation {b : UInt8} (h : (Text.continuation? b).isSome) (more : Bytes)
    (s : String) : ¬ b :: more <+: ofString s := by
  rw [ofString_eq_flatMap]
  cases s.toList with
  | nil => exact fun hprefix => List.cons_ne_nil _ _ (List.prefix_nil.1 hprefix)
  | cons c chars =>
      obtain ⟨first, rest, hbytes, hlead⟩ :=
        Text.leadChar?_utf8EncodeChar c (chars.flatMap String.utf8EncodeChar)
      rw [List.flatMap_cons, hbytes, List.cons_append, List.cons_prefix_cons]
      rintro ⟨rfl, -⟩
      rw [Text.leadChar?_of_continuation h] at hlead
      cases hlead

end Bytes

end Scriptlet
