import Scriptlet.Value.Fault

/-!
# Errors and their messages

Every error has a wording of its own, but for those that a host words itself. So a message that says
that a break was outside of all loops comes from that error, or from a host.

- `Fault.isOrdinary` : errors that are neither made by a break nor worded by a host
- `Fault.message_ne` : their messages say something else
-/

namespace Scriptlet

/-- Whether an error has a fixed wording and is made by something else than a break. -/
def Fault.isOrdinary : Fault → Bool
  | .breakOutsideLoop | .custom _ => false
  | _ => true

namespace Fault

/-- What a message starts with, whatever it goes on with. -/
theorem starts_append {front : String} {c : Char} (h : front.toList.head? = some c)
    (rest : String) : (front ++ rest).toList.head? = some c := by
  rw [String.toList_append, List.head?_append, h]
  rfl

/-- The message of an ordinary error starts with another letter than that of a break. -/
theorem starts_message {fault : Fault} (ordinary : fault.isOrdinary = true) :
    ∃ c, fault.message.toList.head? = some c ∧ c ≠ 'b' := by
  cases fault with
  | recursionLimit => exact ⟨'r', by decide, by decide⟩
  | unknownName => exact ⟨'i', starts_append (by decide) _, by decide⟩
  | unknownUnary => exact ⟨'u', starts_append (starts_append (by decide) _) _, by decide⟩
  | unknownBinary => exact ⟨'u', starts_append (by decide) _, by decide⟩
  | typeMismatch => exact ⟨'t', starts_append (by decide) _, by decide⟩
  | divisionByZero => exact ⟨'d', by decide, by decide⟩
  | notAFunction => exact ⟨'n', starts_append (by decide) _, by decide⟩
  | argumentCount =>
      exact ⟨'w', starts_append (starts_append (starts_append (by decide) _) _) _, by decide⟩
  | notIndexable => exact ⟨'i', starts_append (by decide) _, by decide⟩
  | arrayIndex => exact ⟨'i', starts_append (starts_append (by decide) _) _, by decide⟩
  | unusableKey => exact ⟨'u', starts_append (by decide) _, by decide⟩
  | invalidExpression => exact ⟨'i', by decide, by decide⟩
  | unsupportedArgument =>
      exact ⟨'a', starts_append (starts_append (starts_append (by decide) _) _) _, by decide⟩
  | argumentType | someArgumentType =>
      exact ⟨'a', starts_append (starts_append (by decide) _) _, by decide⟩
  | firstArgumentType => exact ⟨'f', starts_append (starts_append (by decide) _) _, by decide⟩
  | secondArgumentType => exact ⟨'s', starts_append (starts_append (by decide) _) _, by decide⟩
  | separatorType => exact ⟨'s', starts_append (by decide) _, by decide⟩
  | noArguments =>
      exact ⟨'\x60', starts_append (starts_append (starts_append (by decide) _) _) _, by decide⟩
  | breakOutsideLoop | custom => cases ordinary

theorem message_ne {fault : Fault} (ordinary : fault.isOrdinary = true) :
    fault.message ≠ "break outside loop" := by
  rcases starts_message ordinary with ⟨c, hstarts, hother⟩
  intro heq
  have hbreak : "break outside loop".toList.head? = some 'b' := by decide
  rw [heq, hbreak] at hstarts
  exact hother (Option.some.inj hstarts).symm

end Fault

end Scriptlet
