import Mathlib.Data.List.Forall2
import Scriptlet.Proofs.Value.Entries

/-!
# Equality is an equivalence

Arrays are compared item by item, and a hash is compared by looking up each of its entries in the
other one. That alone says nothing about the entries of the other hash. They are as many, though,
and keys differ in a hash that was filled entry by entry, so none of them is left out.

A signal equals nothing, not even itself. All other values equal themselves, unless a signal lies
in them.

- `Value.Built` : values whose hashes were filled entry by entry, at any depth
- `Value.Built.equal_symm`, `Value.Built.equal_trans`, `Value.Built.equal_self_eq` : the three laws
- `evalBinary_eq_equal` : the operators
- `equal_equivalence` : all of it
-/

namespace Scriptlet

/-! ## Values and their parts -/

/-- Values whose hashes were filled entry by entry, at any depth. There are no other conditions: the
value may be a signal, or none at all, and so may its parts. -/
inductive Value.Built : Value → Prop
  | int (n : Int64) : Built (.int n)
  | bool (b : Bool) : Built (.bool b)
  | str (s : String) : Built (.str s)
  | null : Built .null
  | array {items : List Value} (h : ∀ v ∈ items, Built v) : Built (.array items)
  | hash {writes : List (Key × Value)} (h : ∀ entry ∈ writes, Built entry.2) :
      Built (.hash (Entries.ofList writes))
  | function (closure : Closure) : Built (.function closure)
  | builtin (b : Builtin) : Built (.builtin b)
  | error (fault : Fault) : Built (.error fault)
  | returned {v : Value} (h : Built v) : Built (.returned v)
  | broke : Built .broke
  | absent : Built .absent

namespace Value.Built

theorem item {items : List Value} (h : (Value.array items).Built) : ∀ v ∈ items, v.Built := by
  cases h with
  | array h => exact h

theorem nodup {entries : Entries} (h : (Value.hash entries).Built) :
    (entries.map Prod.fst).Nodup := by
  cases h with
  | hash _ => exact Entries.nodup_ofList _

theorem entry {entries : Entries} (h : (Value.hash entries).Built) :
    ∀ entry ∈ entries, entry.2.Built := by
  cases h with
  | hash h => exact fun entry hentry => h entry (Entries.mem_of_mem_ofList hentry)

/-- Any entries with keys that differ will do. -/
theorem hash_of_nodup {entries : Entries} (nodup : (entries.map Prod.fst).Nodup)
    (h : ∀ entry ∈ entries, entry.2.Built) : (Value.hash entries).Built := by
  rw [← Entries.ofList_of_nodup nodup]
  exact .hash h

end Value.Built

theorem equalItems_iff {items others : List Value} :
    equalItems items others = true ↔
      List.Forall₂ (fun v w : Value => v.equal w = true) items others := by
  induction items generalizing others with
  | nil => cases others <;> simp [equalItems]
  | cons v rest ih =>
      cases others with
      | nil => simp [equalItems]
      | cons w others => simp [equalItems, ih]

theorem entriesWithin_iff {entries others : Entries} :
    entriesWithin entries others = true ↔ ∀ entry ∈ entries, ∃ w,
      Entries.get? entry.1 others = some w ∧ entry.2.equal w = true := by
  induction entries with
  | nil => simp [entriesWithin]
  | cons entry rest ih =>
      rcases entry with ⟨key, v⟩
      have hentry : entryWithin (key, v) others = true ↔
          ∃ w, Entries.get? key others = some w ∧ v.equal w = true := by
        rw [entryWithin]
        cases Entries.get? key others <;> simp
      rw [entriesWithin, Bool.and_eq_true, hentry, ih, List.forall_mem_cons]

namespace Value

/-- Arrays are equal item by item. -/
theorem equal_array_iff {items others : List Value} :
    (array items).equal (.array others) = true ↔
      List.Forall₂ (fun v w : Value => v.equal w = true) items others := by
  rw [equal, equalItems_iff]

/-- Hashes of the same size are equal if the entries of one are among those of the other. -/
theorem equal_hash_iff {entries others : Entries} :
    (hash entries).equal (.hash others) = true ↔ entries.length = others.length ∧
      ∀ entry ∈ entries, ∃ w, Entries.get? entry.1 others = some w ∧ entry.2.equal w = true := by
  rw [equal, Bool.and_eq_true, beq_iff_eq, entriesWithin_iff]

/-! ## The three laws -/

/-- Each entry of the one hash has an equal one in the other, so the keys of the one are among those
of the other. They are as many, and differ, so it is the same keys. -/
theorem equal_hash_symm {entries others : Entries} (nodup : (entries.map Prod.fst).Nodup)
    (nodup' : (others.map Prod.fst).Nodup)
    (symm : ∀ entry ∈ entries, ∀ other ∈ others, entry.2.equal other.2 = true →
      other.2.equal entry.2 = true)
    (h : (hash entries).equal (.hash others) = true) :
    (hash others).equal (.hash entries) = true := by
  rw [equal_hash_iff] at h ⊢
  rcases h with ⟨hlength, hwithin⟩
  have hsubset : entries.map Prod.fst ⊆ others.map Prod.fst := by
    intro key hkey
    rcases List.mem_map.1 hkey with ⟨entry, hentry, rfl⟩
    rcases hwithin entry hentry with ⟨w, hw, -⟩
    exact List.mem_map.2 ⟨_, Entries.mem_of_get? hw, rfl⟩
  refine ⟨hlength.symm, ?_⟩
  intro other hother
  have hkey := Entries.keys_subset_of_length_eq nodup hlength hsubset (List.mem_map_of_mem hother)
  rcases List.mem_map.1 hkey with ⟨entry, hentry, heq⟩
  -- The other entry with this key is the one that was found for it.
  rcases hwithin entry hentry with ⟨w, hw, hequal⟩
  rw [heq, Entries.get?_of_mem nodup' hother] at hw
  cases hw
  refine ⟨entry.2, ?_, symm entry hentry other hother hequal⟩
  rw [← heq]
  exact Entries.get?_of_mem nodup hentry

theorem forall₂_equal_trans {items others ends : List Value}
    (trans : ∀ u ∈ items, ∀ v w : Value, u.equal v = true → v.equal w = true → u.equal w = true)
    (h : List.Forall₂ (fun u v : Value => u.equal v = true) items others)
    (h' : List.Forall₂ (fun v w : Value => v.equal w = true) others ends) :
    List.Forall₂ (fun u w : Value => u.equal w = true) items ends := by
  induction h generalizing ends with
  | nil => exact h'
  | cons hfirst _ ih =>
      rw [List.forall_mem_cons] at trans
      cases h' with
      | cons hnext hrest => exact .cons (trans.1 _ _ hfirst hnext) (ih trans.2 hrest)

/-- Equality goes both ways for values that a program can build. -/
theorem Built.equal_symm {v w : Value} (hv : v.Built) (hw : w.Built)
    (h : v.equal w = true) : w.equal v = true := by
  induction hv generalizing w with
  | @array items _ ih =>
      cases w with
      | array others =>
          rw [equal_array_iff] at h ⊢
          -- Each item comes with what is known about it, and so does its counterpart.
          have hitems := (List.forall₂_and_left _ _).2 ⟨ih, h⟩
          have hothers := (List.forall₂_and_left _ _).2 ⟨hw.item, hitems.flip⟩
          exact hothers.imp fun other item hpair => hpair.2.1 hpair.1 hpair.2.2
      | _ => simp [equal] at h
  | @hash writes _ ih =>
      cases w with
      | hash others =>
          refine equal_hash_symm (Entries.nodup_ofList writes) hw.nodup ?_ h
          intro entry hentry other hother
          exact ih entry (Entries.mem_of_mem_ofList hentry) (hw.entry other hother)
      | _ => simp [equal] at h
  | _ => cases w <;> simp_all [equal]

/-- It carries over from one value to the next. -/
theorem Built.equal_trans {u v w : Value} (hu : u.Built) (h : u.equal v = true)
    (h' : v.equal w = true) : u.equal w = true := by
  induction hu generalizing v w with
  | @array items _ ih =>
      cases v with
      | array others =>
          cases w with
          | array ends =>
              rw [equal_array_iff] at h h' ⊢
              exact forall₂_equal_trans (fun item hitem _ _ => ih item hitem) h h'
          | _ => simp [equal] at h'
      | _ => simp [equal] at h
  | @hash writes _ ih =>
      cases v with
      | hash others =>
          cases w with
          | hash ends =>
              rw [equal_hash_iff] at h h' ⊢
              refine ⟨h.1.trans h'.1, ?_⟩
              intro entry hentry
              rcases h.2 entry hentry with ⟨v, hv, hequal⟩
              rcases h'.2 _ (Entries.mem_of_get? hv) with ⟨w, hw, hequal'⟩
              exact ⟨w, hw, ih entry (Entries.mem_of_mem_ofList hentry) hequal hequal'⟩
          | _ => simp [equal] at h'
      | _ => simp [equal] at h
  | _ =>
      -- A value without parts equals values of its own kind alone.
      cases v <;> simp [equal] at h <;> cases w <;> simp_all [equal]

/-- A value equals itself exactly if no signal lies in it. -/
theorem Built.equal_self_eq {v : Value} (h : v.Built) : v.equal v = v.isSignalFree := by
  rw [Bool.eq_iff_iff]
  induction h with
  | array _ ih =>
      rw [equal_array_iff, isSignalFree_array, List.forall₂_same]
      exact forall₂_congr ih
  | @hash writes _ ih =>
      rw [equal_hash_iff, isSignalFree_hash]
      have hself : ∀ entry ∈ Entries.ofList writes,
          (∃ w, Entries.get? entry.1 (Entries.ofList writes) = some w ∧ entry.2.equal w = true) ↔
            entry.2.isSignalFree = true := by
        intro entry hentry
        rw [Entries.get?_of_mem (Entries.nodup_ofList writes) hentry,
          ← ih entry (Entries.mem_of_mem_ofList hentry)]
        simp
      simpa using forall₂_congr hself
  | _ => simp [equal, isSignalFree]

end Value

/-! ## Operators -/

/-- Integers and strings are compared on their own, and all other operands as values are. -/
theorem evalBinary_eq_equal (left right : Value) :
    evalBinary .eq left right = .bool (left.equal right) ∧
      evalBinary .ne left right = .bool (!left.equal right) := by
  unfold evalBinary
  split
  · exact ⟨by rw [evalIntegers, Value.equal], by rw [evalIntegers, Value.equal]; rfl⟩
  · exact ⟨by rw [evalStrings, Value.equal], by rw [evalStrings, Value.equal]; rfl⟩
  · exact ⟨rfl, rfl⟩

/-- Equality is symmetric and transitive, also where signals and no values at all are compared. It
is reflexive exactly where no signal lies in a value. The operators for it and against it give the
same answer for all operands. -/
theorem equal_equivalence :
    (∀ v w : Value, v.Built → w.Built → v.equal w = w.equal v) ∧
    (∀ u v w : Value, u.Built → v.Built → w.Built → u.equal v = true → v.equal w = true →
      u.equal w = true) ∧
    (∀ v : Value, v.Built → v.equal v = v.isSignalFree) ∧
    ∀ left right : Value, evalBinary .eq left right = .bool (left.equal right) ∧
      evalBinary .ne left right = .bool (!left.equal right) := by
  refine ⟨?_, ?_, ?_, ?_⟩
  · intro v w hv hw
    exact Bool.eq_iff_iff.2 ⟨hv.equal_symm hw, hw.equal_symm hv⟩
  · intro u v w hu _ _ h h'
    exact hu.equal_trans h h'
  · intro v hv
    exact hv.equal_self_eq
  · exact evalBinary_eq_equal

/-- Two hashes that were filled in different orders, with a function and no value at all in an array
in them, and an array with a signal in it. -/
theorem equal_equivalence_reordered :
    let first : Key × Value := (.int 1, .array [.function ⟨0, [], default, 0⟩, .absent])
    let second : Key × Value := (.str "a", .null)
    let v : Value := .hash (Entries.ofList [first, second])
    let w : Value := .hash (Entries.ofList [(.str "a", .int 5), first, second])
    let odd : Value := .array [v, .broke]
    (v.Built ∧ w.Built ∧ odd.Built) ∧ v.equal w = true ∧ v.equal w = w.equal v ∧
      v.equal v = true ∧ odd.equal odd = odd.isSignalFree ∧
      evalBinary .ne v w = .bool (!v.equal w) := by
  intro first second v w odd
  have hfirst : first.2.Built :=
    .array (List.forall_mem_cons.2 ⟨.function _, List.forall_mem_singleton.2 .absent⟩)
  have hv : v.Built :=
    .hash (List.forall_mem_cons.2 ⟨hfirst, List.forall_mem_singleton.2 .null⟩)
  have hw : w.Built := .hash (List.forall_mem_cons.2
    ⟨.int 5, List.forall_mem_cons.2 ⟨hfirst, List.forall_mem_singleton.2 .null⟩⟩)
  have hodd : odd.Built :=
    .array (List.forall_mem_cons.2 ⟨hv, List.forall_mem_singleton.2 .broke⟩)
  have hequal : v.equal w = true := by
    refine Value.equal_hash_iff.2 ⟨rfl, ?_⟩
    refine List.forall_mem_cons.2 ⟨⟨first.2, rfl, ?_⟩, List.forall_mem_singleton.2 ⟨.null, rfl, ?_⟩⟩
    · simp [first, Value.equal, equalItems]
    · simp [second, Value.equal]
  rcases equal_equivalence with ⟨hsymm, htrans, hself, hoperators⟩
  have hback : w.equal v = true := by rw [← hsymm v w hv hw, hequal]
  exact ⟨⟨hv, hw, hodd⟩, hequal, hsymm v w hv hw, htrans v w v hv hw hv hequal hback,
    hself odd hodd, (hoperators v w).2⟩

end Scriptlet
