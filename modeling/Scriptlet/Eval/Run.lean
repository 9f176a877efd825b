import Scriptlet.Store

/-!
# Runs

A run reads and changes the store. It has no outcome when a loop takes more turns than are allowed.

- `Run` : runs with an outcome of a given type
- `Run.andThen` : goes on with a value unless it is a signal
-/

namespace Scriptlet

abbrev Run := StateT Store Option

namespace Run

/-- Goes on with the value of a run. A signal is handed on instead. -/
@[inline]
def andThen (run : Run Value) (next : Value → Run Value) : Run Value := do
  let v ← run
  if v.isSignal then return v else next v

/-- Goes on with the values of a run, or hands on the signal that it met. -/
@[inline]
def andThenAll (run : Run (Except Value (List Value))) (next : List Value → Run Value) :
    Run Value := do
  match ← run with
  | .ok values => next values
  | .error signal => return signal

/-- Takes turns of a test and a body, at most `turns` of them, until the test fails or a signal
comes up. -/
def loop (test body : Run Value) : Nat → Run Value
  | 0 => fun _ => none
  | turns + 1 => do
    let t ← test
    if t.isSignal then return t.loopExit
    else if t.isTruthy then
      let v ← body
      if v.isSignal then return v.loopExit else loop test body turns
    else return .null

end Run

end Scriptlet
