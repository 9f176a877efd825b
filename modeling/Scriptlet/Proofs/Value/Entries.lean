import Mathlib.Data.List.Perm.Subperm
import Scriptlet.Proofs.Value.SignalFree

/-!
# Keys of hashes

Writing to a key that is there changes its value in place, and a new key comes last. So the keys of
a hash that was filled entry by entry differ, and each entry is what its key gives.

- `Key.equal_toValue` : keys are equal only to themselves
- `Entries.nodup_ofList` : the keys of a hash differ
- `Entries.get?_of_mem` : an entry is what its key gives
- `Entries.keys_subset_of_length_eq` : as many keys, all of them among the others, are the others
-/

namespace Scriptlet

/-! ## Keys as values -/

theorem Key.key?_toValue (key : Key) : key.toValue.key? = some key := by
  cases key <;> rfl

/-- Different keys are different values. -/
theorem Key.toValue_injective : Function.Injective Key.toValue := by
  intro key other h
  rw [← Option.some_inj, ← key?_toValue, ← key?_toValue, h]

/-- Keys are the same exactly when they are equal values. -/
theorem Key.equal_toValue (key other : Key) :
    key.toValue.equal other.toValue = decide (key = other) := by
  cases key <;> cases other <;> simp [toValue, Value.equal, beq_eq_decide]

namespace Entries

/-! ## Writing -/

/-- A new key comes last. -/
theorem insert_of_not_mem {key : Key} {entries : Entries}
    (h : key ∉ entries.map Prod.fst) (v : Value) :
    insert key v entries = entries ++ [(key, v)] := by
  induction entries with
  | nil => rfl
  | cons entry rest ih =>
      rw [List.map_cons, List.mem_cons, not_or] at h
      rw [insert, if_neg (Ne.symm h.1), ih h.2]
      rfl

/-- Writing to a key that is there changes no key. -/
theorem map_fst_insert_of_mem {key : Key} {entries : Entries} (h : key ∈ entries.map Prod.fst)
    (v : Value) : (insert key v entries).map Prod.fst = entries.map Prod.fst := by
  induction entries with
  | nil => cases h
  | cons entry rest ih =>
      by_cases hkey : entry.1 = key
      · rw [insert, if_pos hkey, List.map_cons, List.map_cons, hkey]
      · have hrest : key ∈ rest.map Prod.fst := (List.mem_cons.1 h).resolve_left (Ne.symm hkey)
        rw [insert, if_neg hkey, List.map_cons, List.map_cons, ih hrest]

/-- No key is there twice after an entry is written. -/
theorem nodup_insert {entries : Entries} (nodup : (entries.map Prod.fst).Nodup) (key : Key)
    (v : Value) : ((insert key v entries).map Prod.fst).Nodup := by
  by_cases hmem : key ∈ entries.map Prod.fst
  · rw [map_fst_insert_of_mem hmem]
    exact nodup
  · rw [insert_of_not_mem hmem, List.map_append, List.map_singleton]
    exact List.nodup_append.2 ⟨nodup, List.pairwise_singleton _ key, by
      rintro other hother _ (_ | ⟨_, hnil⟩) rfl
      · exact hmem hother
      · cases hnil⟩

/-- What every write keeps holds of a hash that was filled entry by entry. -/
theorem ofList_induction {motive : Entries → Prop} {writes : List (Key × Value)}
    (empty : motive [])
    (write : ∀ entries, ∀ entry ∈ writes, motive entries →
      motive (insert entry.1 entry.2 entries)) :
    motive (ofList writes) :=
  List.foldlRecOn writes _ empty fun entries hentries entry hentry =>
    write entries entry hentry hentries

/-- The keys of a hash differ, whatever was written into it. -/
theorem nodup_ofList (writes : List (Key × Value)) : ((ofList writes).map Prod.fst).Nodup :=
  ofList_induction (motive := fun entries => (entries.map Prod.fst).Nodup) List.nodup_nil
    fun _ entry _ nodup => nodup_insert nodup entry.1 entry.2

/-- Every entry of a hash was written into it. -/
theorem mem_of_mem_ofList {writes : List (Key × Value)} {entry : Key × Value}
    (h : entry ∈ ofList writes) : entry ∈ writes := by
  revert h
  refine ofList_induction (motive := fun entries => entry ∈ entries → entry ∈ writes) ?_ ?_
  · intro h
    cases h
  · intro entries written hwritten ih h
    rcases mem_insert h with rfl | hold
    · exact hwritten
    · exact ih hold

/-- Entries with keys that differ can be written one after another. -/
theorem ofList_of_nodup {entries : Entries} (nodup : (entries.map Prod.fst).Nodup) :
    ofList entries = entries := by
  -- Writing starts with the entries in front, none of which has one of the keys to come.
  have hfrom (front rest : Entries) (nodup : ((front ++ rest).map Prod.fst).Nodup) :
      rest.foldl (fun entries write => insert write.1 write.2 entries) front = front ++ rest := by
    induction rest generalizing front with
    | nil => exact (List.append_nil front).symm
    | cons entry rest ih =>
        have hsplit : front ++ entry :: rest = (front ++ [entry]) ++ rest := by simp
        have hnew : entry.1 ∉ front.map Prod.fst := by
          rw [List.map_append, List.map_cons] at nodup
          intro hmem
          exact (List.nodup_append.1 nodup).2.2 _ hmem _ List.mem_cons_self rfl
        rw [hsplit] at nodup ⊢
        rw [List.foldl_cons, insert_of_not_mem hnew]
        exact ih _ nodup
  exact hfrom [] entries nodup

/-! ## Reading -/

/-- Under a key that stands once there is the value that stands with it. -/
theorem get?_of_mem {entries : Entries} (nodup : (entries.map Prod.fst).Nodup)
    {entry : Key × Value} (h : entry ∈ entries) : get? entry.1 entries = some entry.2 := by
  induction entries with
  | nil => cases h
  | cons first rest ih =>
      rw [List.map_cons, List.nodup_cons] at nodup
      rcases List.mem_cons.1 h with rfl | hmem
      · exact if_pos rfl
      · have hne : first.1 ≠ entry.1 := by
          intro heq
          exact nodup.1 (heq ▸ List.mem_map_of_mem hmem)
        rw [get?, if_neg hne]
        exact ih nodup.2 hmem

/-- As many keys as there are others, all different and all among the others, leave out none of
them. -/
theorem keys_subset_of_length_eq {entries others : Entries}
    (nodup : (entries.map Prod.fst).Nodup) (length : entries.length = others.length)
    (within : entries.map Prod.fst ⊆ others.map Prod.fst) :
    others.map Prod.fst ⊆ entries.map Prod.fst := by
  have hfewer : (others.map Prod.fst).length ≤ (entries.map Prod.fst).length := by
    simp [length]
  exact ((List.subperm_of_subset nodup within).perm_of_length_le hfewer).symm.subset

end Entries
end Scriptlet
