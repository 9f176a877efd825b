import Scriptlet.Proofs.Text.Readable
import Scriptlet.Value.Entries
import Scriptlet.Value.Inspect

/-!
# The characters of the text of a value

- `toList_inspect_array`, `toList_inspect_hash`, `toList_inspectEntry` : brackets and separators
- `Value.chars`, `entryChars` : texts of values and of entries
- `Value.chars_array`, `Value.chars_hash` : their parts as listings
-/

namespace Scriptlet

open Text

theorem toList_inspect_array (items : List Value) : (Value.array items).inspectNested.toList =
    '[' :: ((", ".intercalate (inspectItems items)).toList ++ [']']) := by
  rw [Value.inspectNested, Value.inspectIn, String.toList_append, String.toList_append]
  rfl

theorem toList_inspect_hash (entries : Entries) : (Value.hash entries).inspectNested.toList =
    '\x7b' :: ((", ".intercalate (inspectEntries entries)).toList ++ ['\x7d']) := by
  rw [Value.inspectNested, Value.inspectIn, String.toList_append, String.toList_append]
  rfl

theorem toList_inspectEntry (key : Key) (v : Value) : (inspectEntry (key, v)).toList =
    key.inspect.toList ++ ':' :: ' ' :: v.inspectNested.toList := by
  rw [inspectEntry, String.toList_append, String.toList_append, List.append_assoc]
  rfl

/-! ## Listings -/

theorem toList_intercalate_eq_listing {α : Type} (text : α → String) (xs : List α) :
    (", ".intercalate (xs.map text)).toList = listing (fun x => (text x).toList) xs := by
  cases xs with
  | nil => rfl
  | cons x xs =>
      rw [listing]
      induction xs generalizing x with
      | nil => simp
      | cons y ys ih =>
          rw [List.map_cons, List.map_cons, String.intercalate_cons_cons, String.toList_append,
            String.toList_append, ← List.map_cons, ih y, List.append_assoc, List.flatMap_cons]
          rfl

theorem inspectItems_eq_map (items : List Value) :
    inspectItems items = items.map Value.inspectNested := by
  induction items with
  | nil => rfl
  | cons v rest ih => rw [inspectItems, ih, List.map_cons, Value.inspectNested]

theorem inspectEntries_eq_map (entries : List (Key × Value)) :
    inspectEntries entries = entries.map inspectEntry := by
  induction entries with
  | nil => rfl
  | cons entry rest ih => rw [inspectEntries, ih, List.map_cons]

/-- The characters of the text of a value inside an array or a hash. -/
def Value.chars (v : Value) : List Char :=
  v.inspectNested.toList

def entryChars (entry : Key × Value) : List Char :=
  (inspectEntry entry).toList

/-- A key shows as it does as a value. -/
theorem Key.inspect_eq (key : Key) : key.inspect = key.toValue.inspectNested := by
  cases key <;> rfl

theorem entryChars_eq (key : Key) (v : Value) :
    entryChars (key, v) = key.toValue.chars ++ ':' :: ' ' :: v.chars := by
  rw [entryChars, toList_inspectEntry, key.inspect_eq]
  rfl

namespace Value

theorem chars_str (s : String) :
    (str s).chars = '"' :: (s.toList.flatMap escapeChar ++ ['"']) := by
  rw [chars, inspectNested, inspectIn, cond_true, quoteText, String.toList_ofList]
  rfl

theorem chars_array (items : List Value) :
    (array items).chars = '[' :: (listing chars items ++ [']']) := by
  rw [chars, toList_inspect_array, inspectItems_eq_map, toList_intercalate_eq_listing]
  rfl

theorem chars_hash (entries : Entries) :
    (hash entries).chars = '\x7b' :: (listing entryChars entries ++ ['\x7d']) := by
  rw [chars, toList_inspect_hash, inspectEntries_eq_map, toList_intercalate_eq_listing]
  rfl

end Value

end Scriptlet
