import Scriptlet.Proofs.Value.Equality
import Scriptlet.Proofs.Value.Writes

/-!
# Views of a hash

A program sees a hash through its keys, its values, its length, what it contains and what it gives
for a key. Whether a key is contained is looked up in the hash itself, but compared with each item
in the array of its keys. All these views show the same entries, and the two arrays together are
enough to build the hash again.

- `Entries.any_keys` : a key is among the keys exactly if something is found under it
- `Entries.getElem?_values` : the values stand at the places of their keys
- `Entries.zip_keys_values` : the two columns side by side
- `hash_views_agree` : all of it
-/

namespace Scriptlet
namespace Entries

/-- Searching the keys for an equal value comes to the same as looking up the key. -/
theorem any_keys (entries : Entries) (key : Key) :
    (keys entries).any (fun v => v.equal key.toValue) = (get? key entries).isSome := by
  rw [Bool.eq_iff_iff, isSome_get?_iff, keys, List.any_map, List.any_eq_true, List.mem_map]
  refine exists_congr ?_
  intro entry
  rw [Function.comp_apply, Key.equal_toValue, decide_eq_true_iff]

/-- The value at a place is what the key at that place finds. -/
theorem getElem?_values {entries : Entries} (nodup : (entries.map Prod.fst).Nodup) {i : Nat}
    {key : Key} (h : (entries.map Prod.fst)[i]? = some key) :
    (values entries)[i]? = get? key entries := by
  rw [List.getElem?_map, Option.map_eq_some_iff] at h
  rcases h with ⟨entry, hentry, rfl⟩
  rw [values, List.getElem?_map, hentry, get?_of_mem nodup (List.mem_of_getElem? hentry)]
  rfl

theorem zip_keys_values (entries : Entries) :
    (entries.map Prod.fst).zip (values entries) = entries := by
  induction entries with
  | nil => rfl
  | cons entry rest ih =>
      rw [values] at ih ⊢
      rw [List.map_cons, List.map_cons, List.zip_cons_cons, ih]

end Entries

/-! ## Host functions and lookups -/

theorem contains_hash (entries : Entries) (key : Key) :
    Builtin.contains [.hash entries, key.toValue] = .bool (entries.get? key).isSome := by
  cases key <;> rfl

theorem contains_array (items : List Value) (v : Value) :
    Builtin.contains [.array items, v] = .bool (items.any fun item => item.equal v) :=
  rfl

theorem evalIndex_hash (entries : Entries) (key : Key) :
    evalIndex (.hash entries) key.toValue = (entries.get? key).getD .null := by
  rw [evalIndex, Key.key?_toValue]

/-- A key is contained in a hash exactly if it is contained in the array of its keys, and a key that
is not contained gives null. The keys and the values stand in two arrays of the length of the hash,
and each key gives the value at its place. Writing these values under these keys into an empty hash
makes a hash that shows as the same text and is equal. -/
theorem hash_views_agree {writes : List (Key × Value)} (built : ∀ write ∈ writes, write.2.Built)
    (free : ∀ write ∈ writes, write.2.isSignalFree = true) {hash : Value}
    (filled : hash = .hash (Entries.ofList writes)) :
    (∀ key : Key, ∃ found, Builtin.contains [hash, key.toValue] = .bool found ∧
      Builtin.contains [Builtin.keys [hash], key.toValue] = .bool found ∧
      (found = false → evalIndex hash key.toValue = .null)) ∧
    ∃ (keys : List Key) (values : List Value),
      Builtin.keys [hash] = .array (keys.map Key.toValue) ∧
      Builtin.values [hash] = .array values ∧
      (∀ (i : Nat) (key : Key), keys[i]? = some key →
        values[i]? = some (evalIndex hash key.toValue)) ∧
      (∃ n, Builtin.len [hash] = .int n ∧ Builtin.len [Builtin.keys [hash]] = .int n ∧
        Builtin.len [Builtin.values [hash]] = .int n) ∧
      (Value.hash (Entries.ofList (keys.zip values))).inspect = hash.inspect ∧
      (Value.hash (Entries.ofList (keys.zip values))).equal hash = true := by
  subst filled
  have hnodup := Entries.nodup_ofList writes
  have hbuilt : (Value.hash (Entries.ofList writes)).Built := .hash built
  have hfree : (Value.hash (Entries.ofList writes)).isSignalFree = true :=
    Value.isSignalFree_hash.2 fun entry hentry => free entry (Entries.mem_of_mem_ofList hentry)
  -- The two columns have the entries in them, whose keys differ.
  have hagain : Entries.ofList (((Entries.ofList writes).map Prod.fst).zip
      (Entries.ofList writes).values) = Entries.ofList writes := by
    rw [Entries.zip_keys_values, Entries.ofList_of_nodup hnodup]
  refine ⟨?_, (Entries.ofList writes).map Prod.fst, (Entries.ofList writes).values, ?_, rfl, ?_,
    ⟨Int64.ofNat (Entries.ofList writes).length, rfl, ?_, ?_⟩, ?_, ?_⟩
  · intro key
    refine ⟨((Entries.ofList writes).get? key).isSome, contains_hash _ key, ?_, ?_⟩
    · rw [Builtin.keys, contains_array, Entries.any_keys]
    · intro hnone
      rw [evalIndex_hash, Option.isNone_iff_eq_none.1 (Option.isSome_eq_false_iff.1 hnone)]
      rfl
  · rw [Builtin.keys, Entries.keys, List.map_map]
    rfl
  · intro i key hkey
    have hsome := Entries.isSome_get?_iff.2 (List.mem_of_getElem? hkey)
    rcases Option.isSome_iff_exists.1 hsome with ⟨v, hv⟩
    rw [Entries.getElem?_values hnodup hkey, evalIndex_hash, hv]
    rfl
  · rw [Builtin.keys, Builtin.len, Entries.keys, List.length_map]
  · rw [Builtin.values, Builtin.len, Entries.values, List.length_map]
  · rw [hagain]
  · rw [hagain, hbuilt.equal_self_eq, hfree]

/-- A key that is written twice, with a hash under it the second time, beside a key that is written
once and one that is not there. -/
theorem hash_views_agree_overwritten :
    let inner : Value := .hash (Entries.ofList [(.int 7, .array [.null, .str "x"])])
    let writes : List (Key × Value) :=
      [(.str "a", .bool true), (.int (-1), .str ""), (.str "a", inner)]
    let hash : Value := .hash (Entries.ofList writes)
    let again : Value := .hash (Entries.ofList [(.str "a", inner), (.int (-1), .str "")])
    (∀ write ∈ writes, write.2.Built ∧ write.2.isSignalFree = true) ∧
      Builtin.keys [hash] = .array [.str "a", .int (-1)] ∧
      Builtin.values [hash] = .array [inner, .str ""] ∧
      Builtin.contains [Builtin.keys [hash], .int 7] = .bool false ∧
      evalIndex hash (.int 7) = .null ∧ again.inspect = hash.inspect ∧
      again.equal hash = true := by
  intro inner writes hash again
  have hinner : inner.Built := .hash (List.forall_mem_singleton.2
    (.array (List.forall_mem_cons.2 ⟨.null, List.forall_mem_singleton.2 (.str "x")⟩)))
  have hbuilt : ∀ write ∈ writes, write.2.Built := List.forall_mem_cons.2
    ⟨.bool true, List.forall_mem_cons.2 ⟨.str "", List.forall_mem_singleton.2 hinner⟩⟩
  have hfree : ∀ write ∈ writes, write.2.isSignalFree = true := List.forall_mem_cons.2
    ⟨rfl, List.forall_mem_cons.2 ⟨rfl, List.forall_mem_singleton.2 rfl⟩⟩
  have hfilled : hash = .hash (Entries.ofList writes) := rfl
  rcases hash_views_agree hbuilt hfree hfilled with
    ⟨hcontains, keys, values, hkeys, hvalues, -, -, hinspect, hequal⟩
  rcases hcontains (.int 7) with ⟨found, hfound, hsame, hnull⟩
  cases found with
  | true => cases hfound
  | false =>
      cases hvalues
      have hcolumn : [Key.str "a", .int (-1)].map Key.toValue = keys.map Key.toValue :=
        Value.array.inj hkeys
      rw [← List.map_injective_iff.2 Key.toValue_injective hcolumn] at hinspect hequal
      exact ⟨fun write hwrite => ⟨hbuilt write hwrite, hfree write hwrite⟩, rfl, rfl, hsame,
        hnull rfl, hinspect, hequal⟩

end Scriptlet
