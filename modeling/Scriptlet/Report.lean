/-!
# Reports

A report collects findings in order. Once it is sealed it takes no more.
-/

namespace Scriptlet

structure Report (α : Type) where
  entries : Array α
  sealed : Bool

namespace Report

variable {α : Type}

def empty : Report α := ⟨#[], false⟩

/-- Adds a finding, if there is one and the report is not sealed. -/
def add (report : Report α) (finding : Option α) : Report α :=
  match finding with
  | some entry =>
    if report.sealed then report else { report with entries := report.entries.push entry }
  | none => report

/-- Adds a last finding and seals the report. -/
def close (report : Report α) (finding : Option α) : Report α :=
  { report.add finding with sealed := true }

def hasEntries (report : Report α) : Bool :=
  !report.entries.isEmpty

def toList (report : Report α) : List α :=
  report.entries.toList

/-- A sealed report takes up no more findings. -/
theorem toList_add (report : Report α) (entry : α) :
    (report.add (some entry)).toList =
      if report.sealed then report.toList else report.toList ++ [entry] := by
  cases h : report.sealed with
  | true => simp [add, h]
  | false => simp [add, h, toList]

theorem sealed_add (report : Report α) (entry : α) :
    (report.add (some entry)).sealed = report.sealed := by
  cases h : report.sealed with
  | true => simp [add, h]
  | false => simp [add, h]

end Report

end Scriptlet
