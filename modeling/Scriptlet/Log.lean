import Scriptlet.Text.Blank
import Scriptlet.Text.Bytes

/-!
# Log records

A record is one line of names and values. A value that would be hard to tell from its surroundings
is quoted.

- `LogRecord` : a message with attributes
- `LogRecord.render` : its line, given the time and a duration
-/

namespace Scriptlet

inductive LogValue
  | text (value : Bytes)
  | number (value : Int)
  | duration

structure LogRecord where
  message : String
  attributes : List (String × LogValue)

namespace LogRecord

def needsQuotes (c : Char) : Bool :=
  if c.toNat < 0x80 then c == ' ' || c == '=' || c == '"' || decide (c.toNat < 0x20)
  else c == Text.replacementChar || Text.isBlank c || !Text.isPrintable c

/-- A value, in quotes if it is empty or a character needs them. -/
def quoteIfNeeded (value : Bytes) : String :=
  let text := value.text
  if text.isEmpty || text.toList.any needsQuotes then value.quoted else text

def renderAttribute (duration : String) : String × LogValue → String
  | (name, .text value) => name ++ "=" ++ quoteIfNeeded value
  | (name, .number value) => name ++ "=" ++ value.repr
  | (name, .duration) => name ++ "=" ++ duration

def render (record : LogRecord) (time duration : String) : String :=
  " ".intercalate
    (["time=" ++ time, "level=DEBUG", "msg=" ++ quoteIfNeeded (.ofString record.message)] ++
      record.attributes.map (renderAttribute duration))

end LogRecord

end Scriptlet
