import Mathlib.Data.Finset.Card
import Scriptlet.Proofs.Value.Entries

/-!
# What a hash keeps of the writes to it

A hash is filled by writing entries one after another. For each key it keeps the entry that was
written last, at the place where the key was written first. A hash may also be kept in two parts, an
index and the order of its keys. The order grows only where the index has no entry yet, so the two
stay in step, and together they list the same entries.

- `Entries.lastWrite?` : the last entry that was written under a key
- `Entries.get?_ofList`, `Entries.mem_ofList_iff` : the last write counts
- `Entries.pairwise_ofList` : the first writes give the order
- `Ledger` : a hash in two parts
- `Ledger.Holds` : the parts that belong to the entries of a hash
- `hash_after_writes` : all of it
-/

namespace Scriptlet
namespace Entries

/-! ## One write -/

/-- A key has a value just if it is among the keys. -/
theorem isSome_get?_iff {key : Key} {entries : Entries} :
    (get? key entries).isSome = true ↔ key ∈ entries.map Prod.fst := by
  induction entries with
  | nil => simp [get?]
  | cons entry rest ih =>
      by_cases hkey : entry.1 = key
      · simp [get?, hkey]
      · simp only [get?, if_neg hkey, ih, List.map_cons, List.mem_cons, Ne.symm hkey, false_or]

/-- A write shows under its own key, and under no other. -/
theorem get?_insert (key other : Key) (v : Value) (entries : Entries) :
    get? other (insert key v entries) = if key = other then some v else get? other entries := by
  induction entries with
  | nil => rfl
  | cons entry rest ih =>
      by_cases hkey : entry.1 = key
      · rw [insert, if_pos hkey, get?, get?, hkey]
        split <;> rfl
      · rw [insert, if_neg hkey, get?, get?, ih]
        by_cases hother : entry.1 = other
        · rw [if_pos hother, if_pos hother, if_neg fun heq => hkey (hother.trans heq.symm)]
        · rw [if_neg hother, if_neg hother]

/-- Only a key that is not there yet comes to the keys, and it comes last. -/
theorem map_fst_insert (key : Key) (v : Value) (entries : Entries) :
    (insert key v entries).map Prod.fst =
      if (get? key entries).isSome then entries.map Prod.fst
      else entries.map Prod.fst ++ [key] := by
  split
  · next hsome => exact map_fst_insert_of_mem (isSome_get?_iff.1 hsome) v
  · next hnone => rw [insert_of_not_mem (mt isSome_get?_iff.2 hnone), List.map_append]; rfl

/-! ## All writes -/

def lastWrite? (key : Key) (writes : List (Key × Value)) : Option (Key × Value) :=
  writes.reverse.find? fun write => write.1 = key

/-- The last write of a list is written last. -/
theorem ofList_concat (writes : List (Key × Value)) (write : Key × Value) :
    ofList (writes ++ [write]) = insert write.1 write.2 (ofList writes) := by
  rw [ofList, List.foldl_append]
  rfl

theorem lastWrite?_concat (key : Key) (writes : List (Key × Value)) (write : Key × Value) :
    lastWrite? key (writes ++ [write]) =
      if write.1 = key then some write else lastWrite? key writes := by
  rw [lastWrite?, List.reverse_append, List.reverse_singleton, List.singleton_append,
    List.find?_cons]
  by_cases hkey : write.1 = key <;> simp [hkey, lastWrite?]

theorem fst_of_lastWrite? {key : Key} {writes : List (Key × Value)} {write : Key × Value}
    (h : lastWrite? key writes = some write) : write.1 = key := by
  simpa using List.find?_some h

/-- Under a key there is what was written last. -/
theorem get?_ofList (key : Key) (writes : List (Key × Value)) :
    get? key (ofList writes) = (lastWrite? key writes).map Prod.snd := by
  induction writes using List.reverseRecOn with
  | nil => rfl
  | append_singleton writes write ih =>
      rw [ofList_concat, get?_insert, lastWrite?_concat, ih]
      split <;> rfl

/-- The entries are the last writes, one for each key. -/
theorem mem_ofList_iff {writes : List (Key × Value)} {entry : Key × Value} :
    entry ∈ ofList writes ↔ lastWrite? entry.1 writes = some entry := by
  constructor
  · intro hmem
    have hget := get?_of_mem (nodup_ofList writes) hmem
    rw [get?_ofList, Option.map_eq_some_iff] at hget
    rcases hget with ⟨write, hwrite, hvalue⟩
    rw [hwrite, Prod.ext (fst_of_lastWrite? hwrite) hvalue]
  · intro hlast
    have hget : get? entry.1 (ofList writes) = some entry.2 := by
      rw [get?_ofList, hlast]
      rfl
    exact mem_of_get? hget

/-- The keys of a hash are those that were written. -/
theorem mem_keys_ofList_iff {writes : List (Key × Value)} {key : Key} :
    key ∈ (ofList writes).map Prod.fst ↔ key ∈ writes.map Prod.fst := by
  rw [← isSome_get?_iff, get?_ofList, Option.isSome_map, lastWrite?, List.find?_isSome]
  simp

/-- A hash has as many entries as there are different keys among the writes. -/
theorem length_ofList (writes : List (Key × Value)) :
    (ofList writes).length = (writes.map Prod.fst).toFinset.card := by
  have hkeys : ((ofList writes).map Prod.fst).toFinset = (writes.map Prod.fst).toFinset := by
    ext key
    rw [List.mem_toFinset, List.mem_toFinset, mem_keys_ofList_iff]
  rw [← hkeys, List.toFinset_card_of_nodup (nodup_ofList writes), List.length_map]

/-- The keys stand in the order in which they were first written. -/
theorem pairwise_ofList (writes : List (Key × Value)) :
    ((ofList writes).map Prod.fst).Pairwise fun key later =>
      (writes.map Prod.fst).idxOf key < (writes.map Prod.fst).idxOf later := by
  induction writes using List.reverseRecOn with
  | nil => exact .nil
  | append_singleton writes write ih =>
      -- One more write does not move the first write of a key that is there.
      have hstays : ∀ key ∈ (ofList writes).map Prod.fst,
          ((writes ++ [write]).map Prod.fst).idxOf key = (writes.map Prod.fst).idxOf key := by
        intro key hkey
        rw [List.map_append, List.idxOf_append_of_mem (mem_keys_ofList_iff.1 hkey)]
      have hold : ((ofList writes).map Prod.fst).Pairwise fun key later =>
          ((writes ++ [write]).map Prod.fst).idxOf key <
            ((writes ++ [write]).map Prod.fst).idxOf later := by
        refine ih.imp_of_mem ?_
        intro key later hkey hlater hlt
        rw [hstays key hkey, hstays later hlater]
        exact hlt
      rw [ofList_concat, map_fst_insert]
      split
      · exact hold
      · next hnone =>
          have hnew : write.1 ∉ writes.map Prod.fst := by
            rw [← mem_keys_ofList_iff, ← isSome_get?_iff]
            exact hnone
          refine List.pairwise_append.2 ⟨hold, List.pairwise_singleton _ _, ?_⟩
          intro key hkey later hlater
          rw [List.mem_singleton.1 hlater, hstays key hkey, List.map_append,
            List.idxOf_append_of_notMem hnew]
          exact Nat.lt_add_right _ (List.idxOf_lt_length_of_mem (mem_keys_ofList_iff.1 hkey))

end Entries

/-! ## A hash in two parts -/

/-- A hash in two parts: an index that finds the entry with a key, and the order of the keys. -/
structure Ledger where
  index : Key → Option (Key × Value)
  order : List Key

namespace Ledger

def empty : Ledger := ⟨fun _ => none, []⟩

/-- Writes an entry. A key that the index does not find yet comes last in the order. -/
def set (ledger : Ledger) (key : Key) (value : Value) : Ledger where
  index := Function.update ledger.index key (some (key, value))
  order := if (ledger.index key).isSome then ledger.order else ledger.order ++ [key]

def get? (ledger : Ledger) (key : Key) : Option Value :=
  (ledger.index key).map Prod.snd

def pairs (ledger : Ledger) : List (Option (Key × Value)) :=
  ledger.order.map ledger.index

def ofList (writes : List (Key × Value)) : Ledger :=
  writes.foldl (fun ledger write => ledger.set write.1 write.2) empty

/-- The two parts that belong to the entries of a hash. -/
structure Holds (ledger : Ledger) (entries : Entries) : Prop where
  index_eq (key : Key) : ledger.index key = (entries.get? key).map (Prod.mk key)
  order_eq : ledger.order = entries.map Prod.fst

namespace Holds

variable {ledger : Ledger} {entries : Entries}

theorem empty : Ledger.empty.Holds [] :=
  ⟨fun _ => rfl, rfl⟩

/-- The index knows the keys of the entries. -/
theorem isSome_index (h : ledger.Holds entries) (key : Key) :
    (ledger.index key).isSome = (entries.get? key).isSome := by
  rw [h.index_eq, Option.isSome_map]

/-- A write to the parts is a write to the entries. -/
theorem set (h : ledger.Holds entries) (key : Key) (v : Value) :
    (ledger.set key v).Holds (entries.insert key v) where
  index_eq other := by
    rw [Ledger.set, Entries.get?_insert]
    by_cases hkey : key = other
    · subst hkey
      simp
    · rw [if_neg hkey, ← h.index_eq]
      exact Function.update_of_ne (Ne.symm hkey) _ _
  order_eq := by
    rw [Ledger.set, Entries.map_fst_insert, ← h.isSome_index key, h.order_eq]

/-- Looking a key up in the index gives the entry. -/
theorem get?_eq (h : ledger.Holds entries) (key : Key) : ledger.get? key = entries.get? key := by
  rw [Ledger.get?, h.index_eq, Option.map_map]
  exact Option.map_id_apply

theorem mem_order_iff (h : ledger.Holds entries) (key : Key) :
    key ∈ ledger.order ↔ (ledger.index key).isSome = true := by
  rw [h.order_eq, h.isSome_index, Entries.isSome_get?_iff]

/-- Each key in the order is found, with the value that stands with it. -/
theorem pairs_eq (h : ledger.Holds entries) (nodup : (entries.map Prod.fst).Nodup) :
    ledger.pairs = entries.map some := by
  rw [pairs, h.order_eq, List.map_map]
  refine List.map_congr_left ?_
  intro entry hentry
  rw [Function.comp_apply, h.index_eq, Entries.get?_of_mem nodup hentry]
  rfl

end Holds

/-- The two parts stay in step, whatever is written. -/
theorem holds_ofList (writes : List (Key × Value)) :
    (ofList writes).Holds (Entries.ofList writes) := by
  induction writes using List.reverseRecOn with
  | nil => exact .empty
  | append_singleton writes write ih =>
      rw [Entries.ofList_concat, ofList, List.foldl_append]
      exact ih.set write.1 write.2

end Ledger

/-- Whatever is written into an empty hash, the order of its keys has none of them twice and has
those that the index finds. The two parts list the entries of the hash. Their number is that of the
different keys that were written. A key finds the value that was written last under it. The entries
are the last writes to their keys, in the order of the first writes to their keys. Two values are
the same key exactly when they are equal. -/
theorem hash_after_writes (writes : List (Key × Value)) :
    ((Ledger.ofList writes).order.Nodup ∧ ∀ key,
      key ∈ (Ledger.ofList writes).order ↔ ((Ledger.ofList writes).index key).isSome = true) ∧
    ((Ledger.ofList writes).order = (Entries.ofList writes).map Prod.fst ∧
      (Ledger.ofList writes).pairs = (Entries.ofList writes).map some ∧
      ∀ key, (Ledger.ofList writes).get? key = (Entries.ofList writes).get? key) ∧
    (Entries.ofList writes).length = (writes.map Prod.fst).toFinset.card ∧
    (∀ key, (Entries.ofList writes).get? key = (Entries.lastWrite? key writes).map Prod.snd) ∧
    (∀ entry, entry ∈ Entries.ofList writes ↔ Entries.lastWrite? entry.1 writes = some entry) ∧
    ((Entries.ofList writes).map Prod.fst).Pairwise (fun key later =>
      (writes.map Prod.fst).idxOf key < (writes.map Prod.fst).idxOf later) ∧
    ∀ key other : Key, key.toValue.key? = other.toValue.key? ↔
      key.toValue.equal other.toValue = true := by
  have hholds := Ledger.holds_ofList writes
  have hnodup := Entries.nodup_ofList writes
  refine ⟨⟨?_, hholds.mem_order_iff⟩, ⟨hholds.order_eq, hholds.pairs_eq hnodup, hholds.get?_eq⟩,
    Entries.length_ofList writes, fun key => Entries.get?_ofList key writes,
    fun _ => Entries.mem_ofList_iff, Entries.pairwise_ofList writes, ?_⟩
  · rw [hholds.order_eq]
    exact hnodup
  · intro key other
    rw [Key.key?_toValue, Key.key?_toValue, Key.equal_toValue, Option.some_inj, decide_eq_true_iff]

end Scriptlet
