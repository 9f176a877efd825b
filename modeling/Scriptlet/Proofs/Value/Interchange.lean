import Scriptlet.Proofs.Value.Equality

/-!
# Equal values are interchangeable

Equal values may differ: hashes in them may have been filled in different orders, at any depth. No
operation that looks into a value tells them apart. A lookup finds equal things in both, a search
compares with equal things in both, and everything else depends on the variant, on the number of
parts or on what a number or a text holds.

- `Value.Alike` : the ways in which values can be equal
- `Value.equal_congr` : comparing equal values
- `Entries.get?_congr`, `itemAt_congr`, `any_equal_congr` : looking up and searching
- `FailAlike` : two answers with the same fault
- `evalIndex_congr`, `contains_congr`, `len_congr` : operations
- `equal_interchangeable` : all of it
-/

namespace Scriptlet

/-! ## What equal values share -/

namespace Value

/-- The ways in which values can be equal. -/
inductive Alike : Value → Value → Prop
  | int (n : Int64) : Alike (.int n) (.int n)
  | bool (b : Bool) : Alike (.bool b) (.bool b)
  | str (s : String) : Alike (.str s) (.str s)
  | null : Alike .null .null
  | array {items others : List Value}
      (h : List.Forall₂ (fun v w : Value => v.equal w = true) items others) :
      Alike (.array items) (.array others)
  | hash {entries others : Entries} (h : (Value.hash entries).equal (.hash others) = true) :
      Alike (.hash entries) (.hash others)
  | function (f g : Closure) : Alike (.function f) (.function g)
  | builtin (b : Builtin) : Alike (.builtin b) (.builtin b)
  | absent : Alike .absent .absent

variable {v w v' w' : Value}

/-- Equal values are alike. -/
theorem alike_of_equal (h : v.equal w = true) : v.Alike w := by
  cases v with
  | array items =>
      cases w with
      | array others => exact .array (equal_array_iff.1 h)
      | _ => simp [equal] at h
  | hash entries =>
      cases w with
      | hash others => exact .hash h
      | _ => simp [equal] at h
  | function f =>
      cases w with
      | function g => exact .function f g
      | _ => simp [equal] at h
  | _ =>
      -- What is left has no parts, and equal values of it are the same.
      cases w <;> simp [equal] at h <;> subst_vars <;> constructor

theorem type_eq_of_equal (h : v.equal w = true) : v.type = w.type := by
  cases alike_of_equal h <;> rfl

theorem isTruthy_eq_of_equal (h : v.equal w = true) : v.isTruthy = w.isTruthy := by
  cases alike_of_equal h <;> rfl

/-- Equal values are the same key, or neither is a key. -/
theorem key?_eq_of_equal (h : v.equal w = true) : v.key? = w.key? := by
  cases alike_of_equal h <;> rfl

/-- The comparison of equal values with equal values. -/
theorem equal_congr (hv : v.Built) (hv' : v'.Built) (hw : w.Built) (hw' : w'.Built)
    (left : v.equal v' = true) (right : w.equal w' = true) : v.equal w = v'.equal w' := by
  rw [Bool.eq_iff_iff]
  constructor
  · intro h
    exact hv'.equal_trans (hv'.equal_trans (hv.equal_symm hv' left) h) right
  · intro h
    exact hv.equal_trans (hv.equal_trans left h) (hw.equal_symm hw' right)

end Value

/-! ## Looking up and searching -/

/-- Two lookups that both find nothing, or find equal values. -/
def FoundAlike (found other : Option Value) : Prop :=
  Option.Rel (fun v w : Value => v.equal w = true) found other

namespace FoundAlike

variable {found other : Option Value}

theorem isSome_eq (h : FoundAlike found other) : found.isSome = other.isSome := by
  cases h <;> rfl

theorem getD_null (h : FoundAlike found other) :
    (found.getD .null).equal (other.getD .null) = true := by
  cases h with
  | some h => exact h
  | none => simp [Value.equal]

end FoundAlike

/-- Under a key of equal hashes there are equal values, or none in either. -/
theorem Entries.get?_congr {entries others : Entries} (hentries : (Value.hash entries).Built)
    (hothers : (Value.hash others).Built)
    (h : (Value.hash entries).equal (.hash others) = true) (key : Key) :
    FoundAlike (entries.get? key) (others.get? key) := by
  have hback := hentries.equal_symm hothers h
  rw [Value.equal_hash_iff] at h hback
  cases hfound : entries.get? key with
  | some v =>
      rcases h.2 _ (Entries.mem_of_get? hfound) with ⟨w, hw, hequal⟩
      rw [hw]
      exact .some hequal
  | none =>
      cases hother : others.get? key with
      | none => exact .none
      | some w =>
          -- The entry of the other hash has an equal one here, so something was found here too.
          rcases hback.2 _ (Entries.mem_of_get? hother) with ⟨v, hv, -⟩
          rw [hfound] at hv
          cases hv

section Items

variable {items others : List Value}

theorem getElem?_congr (h : List.Forall₂ (fun v w : Value => v.equal w = true) items others)
    (place : Nat) : FoundAlike items[place]? others[place]? := by
  induction h generalizing place with
  | nil => exact .none
  | cons hfirst _ ih =>
      cases place with
      | zero => exact .some hfirst
      | succ place => exact ih place

/-- Equal arrays have equal items in the same places. -/
theorem itemAt_congr (h : List.Forall₂ (fun v w : Value => v.equal w = true) items others)
    (place : Int64) : (itemAt items place).equal (itemAt others place) = true := by
  unfold itemAt
  split
  · simp [Value.equal]
  · rw [List.getD_eq_getElem?_getD, List.getD_eq_getElem?_getD]
    exact (getElem?_congr h _).getD_null

/-- Searching equal items for equal values. -/
theorem any_equal_congr (hitems : ∀ item ∈ items, item.Built)
    (hothers : ∀ other ∈ others, other.Built)
    (h : List.Forall₂ (fun v w : Value => v.equal w = true) items others) {v w : Value}
    (hv : v.Built) (hw : w.Built) (hequal : v.equal w = true) :
    items.any (fun item => item.equal v) = others.any fun other => other.equal w := by
  induction h with
  | nil => rfl
  | cons hfirst _ ih =>
      rw [List.forall_mem_cons] at hitems hothers
      rw [List.any_cons, List.any_cons, ih hitems.2 hothers.2,
        Value.equal_congr hitems.1 hothers.1 hv hw hfirst hequal]

end Items

/-! ## Operations -/

/-- Two answers that are errors with the same fault, and so with the same message. -/
def FailAlike (answer other : Value) : Prop :=
  ∃ fault, answer = .error fault ∧ other = .error fault

variable {a a' b b' : Value}

/-- What stands inside equal values under equal keys. -/
theorem evalIndex_congr (ha : a.Built) (ha' : a'.Built) (left : a.equal a' = true)
    (right : b.equal b' = true) :
    (evalIndex a b).equal (evalIndex a' b') = true ∨
      FailAlike (evalIndex a b) (evalIndex a' b') := by
  cases Value.alike_of_equal left with
  | array h =>
      cases Value.alike_of_equal right with
      | int place => exact .inl (itemAt_congr h place)
      | _ => exact .inr ⟨_, rfl, rfl⟩
  | hash h =>
      rw [evalIndex, evalIndex, Value.key?_eq_of_equal right, Value.type_eq_of_equal right]
      cases b'.key? with
      | some key => exact .inl (Entries.get?_congr ha ha' h key).getD_null
      | none => exact .inr ⟨_, rfl, rfl⟩
  | _ => exact .inr ⟨_, rfl, rfl⟩

/-- Equal arguments are found alike, or fail alike. -/
theorem contains_congr (ha : a.Built) (ha' : a'.Built) (hb : b.Built) (hb' : b'.Built)
    (left : a.equal a' = true) (right : b.equal b' = true) :
    (∃ found, Builtin.contains [a, b] = .bool found ∧ Builtin.contains [a', b'] = .bool found) ∨
      FailAlike (Builtin.contains [a, b]) (Builtin.contains [a', b']) := by
  cases Value.alike_of_equal left with
  | str s =>
      cases Value.alike_of_equal right with
      | str sought => exact .inl ⟨_, rfl, rfl⟩
      | _ => exact .inr ⟨_, rfl, rfl⟩
  | array h =>
      refine .inl ⟨_, rfl, ?_⟩
      rw [any_equal_congr ha.item ha'.item h hb hb' right]
      rfl
  | hash h =>
      rw [Builtin.contains, Builtin.contains, Value.key?_eq_of_equal right,
        Value.type_eq_of_equal right]
      cases b'.key? with
      | some key =>
          refine .inl ⟨_, rfl, ?_⟩
          rw [(Entries.get?_congr ha ha' h key).isSome_eq]
      | none => exact .inr ⟨_, rfl, rfl⟩
  | _ => exact .inr ⟨_, rfl, rfl⟩

/-- Equal values are of the same length, or fail alike. -/
theorem len_congr (left : a.equal a' = true) :
    (∃ n, Builtin.len [a] = .int n ∧ Builtin.len [a'] = .int n) ∨
      FailAlike (Builtin.len [a]) (Builtin.len [a']) := by
  cases Value.alike_of_equal left with
  | str s => exact .inl ⟨_, rfl, rfl⟩
  | array h =>
      refine .inl ⟨_, rfl, ?_⟩
      rw [Builtin.len, h.length_eq]
  | hash h =>
      refine .inl ⟨_, rfl, ?_⟩
      rw [Builtin.len, (Value.equal_hash_iff.1 h).1]
  | _ => exact .inr ⟨_, rfl, rfl⟩

/-- Equal values in the place of others make no difference. What they give for a key is equal or
fails with the same fault, what they contain and how long they are is the same or fails with the
same fault, both count as true or neither does, their variants are the same, and so is the outcome
of comparing them. There are no signals in them, since values with signals in them equal nothing. -/
theorem equal_interchangeable (ha : a.Built) (ha' : a'.Built) (hb : b.Built) (hb' : b'.Built)
    (left : a.equal a' = true) (right : b.equal b' = true) :
    ((evalIndex a b).equal (evalIndex a' b') = true ∨
      FailAlike (evalIndex a b) (evalIndex a' b')) ∧
    ((∃ found, Builtin.contains [a, b] = .bool found ∧
        Builtin.contains [a', b'] = .bool found) ∨
      FailAlike (Builtin.contains [a, b]) (Builtin.contains [a', b'])) ∧
    ((∃ n, Builtin.len [a] = .int n ∧ Builtin.len [a'] = .int n) ∨
      FailAlike (Builtin.len [a]) (Builtin.len [a'])) ∧
    a.isTruthy = a'.isTruthy ∧ a.type = a'.type ∧
    evalBinary .eq a b = evalBinary .eq a' b' := by
  refine ⟨evalIndex_congr ha ha' left right, contains_congr ha ha' hb hb' left right,
    len_congr left, Value.isTruthy_eq_of_equal left, Value.type_eq_of_equal left, ?_⟩
  rw [(evalBinary_eq_equal a b).1, (evalBinary_eq_equal a' b').1,
    Value.equal_congr ha ha' hb hb' left right]

/-- Two hashes that were filled in different orders, in arrays and as what is sought in them. -/
theorem equal_interchangeable_reordered :
    let first : Key × Value := (.int 1, .array [.null])
    let second : Key × Value := (.str "a", .int 5)
    let v : Value := .hash (Entries.ofList [first, second])
    let w : Value := .hash (Entries.ofList [second, first])
    (v.Built ∧ w.Built) ∧ (Value.array [v]).equal (.array [w]) = true ∧ w.equal v = true ∧
      Builtin.contains [.array [v], w] = .bool true ∧
      Builtin.contains [.array [w], v] = .bool true ∧
      FailAlike (evalIndex (.array [v]) w) (evalIndex (.array [w]) v) := by
  intro first second v w
  have hfirst : first.2.Built := .array (List.forall_mem_singleton.2 .null)
  have hv : v.Built :=
    .hash (List.forall_mem_cons.2 ⟨hfirst, List.forall_mem_singleton.2 (.int 5)⟩)
  have hw : w.Built :=
    .hash (List.forall_mem_cons.2 ⟨.int 5, List.forall_mem_singleton.2 hfirst⟩)
  have hequal : v.equal w = true := by
    refine Value.equal_hash_iff.2 ⟨rfl, List.forall_mem_cons.2 ⟨⟨first.2, rfl, ?_⟩,
      List.forall_mem_singleton.2 ⟨second.2, rfl, ?_⟩⟩⟩
    · simp [first, Value.equal, equalItems]
    · simp [second, Value.equal]
  have hback : w.equal v = true := hv.equal_symm hw hequal
  have harrays : (Value.array [v]).equal (.array [w]) = true :=
    Value.equal_array_iff.2 (.cons hequal .nil)
  have hcontains : Builtin.contains [.array [v], w] = .bool true := by
    rw [Builtin.contains, List.any_cons, hequal]
    rfl
  rcases equal_interchangeable (.array (List.forall_mem_singleton.2 hv))
    (.array (List.forall_mem_singleton.2 hw)) hw hv harrays hback with
    ⟨-, ⟨found, hfound, hother⟩ | ⟨fault, hfault, -⟩, -⟩
  · rw [hcontains] at hfound
    cases hfound
    exact ⟨⟨hv, hw⟩, harrays, hback, hcontains, hother, ⟨_, rfl, rfl⟩⟩
  · rw [hcontains] at hfault
    cases hfault

end Scriptlet
