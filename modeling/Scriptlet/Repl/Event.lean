import Scriptlet.Repl.Pending
import Scriptlet.Text.Blank
import Scriptlet.Text.Lines
import Scriptlet.Text.Printable

/-!
# What a prompting loop does

A prompting loop reads lines, puts them together to inputs and evaluates each input. What it does is
determined by the lines alone.

- `Repl.Event` : one thing that a loop does
- `Repl.plainEvents` : the loop over plain lines
- `Repl.readInput` : reading one input at a terminal
- `Repl.interactiveEvents` : the loop for a user at a terminal
-/

namespace Scriptlet
namespace Repl

inductive Event
  | banner
  | prompt
  | continuation
  | newline
  | evaluate (src : Bytes)
  deriving DecidableEq

inductive ReadFault
  | lineTooLong
  | invalidPrompt
  deriving DecidableEq

def ReadFault.message : ReadFault → String
  | .lineTooLong => "repl: read input: bufio.Scanner: token too long"
  | .invalidPrompt => "repl: read input: invalid prompt"

/-- The events of a loop, and the failure that ended it, if any. -/
structure Course where
  events : List Event
  fault : Option ReadFault

def quitCommand : String := ":quit"

/-- Whether a line, blanks apart, ends a loop. -/
def isQuit (line : Bytes) : Bool :=
  Text.trimText line.text == quitCommand

/-- What was read of an input, with one more line. Nothing was read of it if `buffer` is empty. -/
def joined (buffer line : Bytes) : Bytes :=
  if buffer.isEmpty then line else buffer ++ Text.lineFeed :: line

def promptFor (buffer : Bytes) : Event :=
  if buffer.isEmpty then .prompt else .continuation

/-! ## Plain lines -/

/-- The size that no plain line may reach, in bytes. -/
def lineLimit : Nat := Nat.pow 2 20

/-- Goes on with what was read of an input and the events in `done`, which has the last one first.
Only a line with nothing in front of it can end the loop. -/
def plainEventsFrom (done : List Event) (buffer : Bytes) : List Text.LimitedLine → Course
  | [] =>
    let done := promptFor buffer :: done
    if buffer.isEmpty then ⟨done.reverse, none⟩
    else ⟨(.evaluate buffer :: .newline :: done).reverse, none⟩
  | .tooLong :: _ => ⟨(.newline :: promptFor buffer :: done).reverse, some .lineTooLong⟩
  | .line line :: rest =>
    let done := promptFor buffer :: done
    if buffer.isEmpty && isQuit line then ⟨done.reverse, none⟩
    else
      let src := joined buffer line
      if incomplete src.text then plainEventsFrom done src rest
      else plainEventsFrom (.evaluate src :: done) [] rest

/-- The loop over plain lines. An input that is still pending at the end is evaluated as it is. -/
def plainEvents (lines : List Text.LimitedLine) : Course :=
  plainEventsFrom [] [] lines

/-! ## At a terminal -/

/-- Whether a character is neither printable nor a separator: a control or format character, or one
that stands for nothing. -/
def isUnprintable (c : Char) : Bool :=
  !(Text.isPrintable c ||
    [0xA0, 0x1680, 0x2028, 0x2029, 0x202F, 0x205F, 0x3000].contains c.toNat ||
    (decide (0x2000 ≤ c.toNat) && decide (c.toNat ≤ 0x200A)))

def isValidPrompt (text : String) : Bool :=
  text.toList.all fun c => !isUnprintable c

/-- What comes of reading an input: the input and the lines behind it, or the end of all lines, or a
prompt that cannot be shown. -/
inductive Reading
  | input (src : Bytes) (rest : List Bytes)
  | ended
  | refused

/-- Reads an input on, behind what was read of it. `valid` tells whether a prompt can be shown, and
`done` has the events so far, the last one first. At the end of all lines an input is taken as it
is. -/
def readInput (valid : Event → Bool) (done : List Event) (buffer : Bytes) :
    List Bytes → List Event × Reading
  | [] =>
    let cue := promptFor buffer
    if valid cue then (cue :: done, if buffer.isEmpty then .ended else .input buffer [])
    else (done, .refused)
  | line :: rest =>
    let cue := promptFor buffer
    if valid cue then
      let src := joined buffer line
      if incomplete src.text then readInput valid (cue :: done) src rest
      else (cue :: done, .input src rest)
    else (done, .refused)

/-- An input takes no lines that are not there. -/
theorem length_le_of_readInput {valid : Event → Bool} {done done' : List Event} {buffer src : Bytes}
    {lines rest : List Bytes}
    (h : readInput valid done buffer lines = (done', .input src rest)) :
    rest.length ≤ lines.length := by
  induction lines generalizing done buffer with
  | nil =>
      simp only [readInput] at h
      split at h
      · split at h <;> cases h
        exact Nat.le_refl _
      · cases h
  | cons line more ih =>
      simp only [readInput] at h
      split at h
      · split at h
        · exact Nat.le_succ_of_le (ih h)
        · cases h
          exact Nat.le_succ _
      · cases h

/-- An input that starts with the next line takes at least that line. -/
theorem length_lt_of_readInput {valid : Event → Bool} {done done' : List Event} {src : Bytes}
    {lines rest : List Bytes} (h : readInput valid done [] lines = (done', .input src rest)) :
    rest.length < lines.length := by
  cases lines with
  | nil =>
      simp only [readInput] at h
      split at h <;> cases h
  | cons line more =>
      simp only [readInput] at h
      split at h
      · split at h
        · exact Nat.lt_succ_of_le (length_le_of_readInput h)
        · cases h
          exact Nat.lt_succ_self _
      · cases h

/-- Goes on with the next input and the events in `done`. An input that is blank is passed over. -/
def interactiveEventsFrom (valid : Event → Bool) (done : List Event) (lines : List Bytes) :
    Course :=
  match _h : readInput valid done [] lines with
  | (done, .ended) => ⟨(.newline :: done).reverse, none⟩
  | (done, .refused) => ⟨done.reverse, some .invalidPrompt⟩
  | (done, .input src rest) =>
    if (Text.trimText src.text).isEmpty then interactiveEventsFrom valid done rest
    else if isQuit src then ⟨done.reverse, none⟩
    else interactiveEventsFrom valid (.evaluate src :: done) rest
termination_by lines.length
decreasing_by all_goals exact length_lt_of_readInput _h

/-- Whether an event can be shown with the two prompts, where `valid` tells which texts can be shown
as a prompt. -/
def canShow (valid : String → Bool) (prompt continuation : String) : Event → Bool
  | .prompt => valid prompt
  | .continuation => valid continuation
  | _ => true

/-- The loop for a user at a terminal, with the two prompts. -/
def interactiveEvents (valid : String → Bool) (prompt continuation : String) (lines : List Bytes) :
    Course :=
  interactiveEventsFrom (canShow valid prompt continuation) [.banner] lines

end Repl
end Scriptlet
