import EventRelay.Text.Blank
import EventRelay.Text.Digits
import EventRelay.Text.Utf8

/-!
The environment variables from which the program takes its settings.
-/

namespace EventRelay

/-- Variables by name. -/
structure Environment where
  bindings : List (String × Bytes)

namespace Environment

/-- The text of a variable; one that is not well-formed UTF-8 counts as unset. -/
def text? (env : Environment) (name : String) : Option String :=
  (env.bindings.lookup name).bind Utf8.toString?

def textD (env : Environment) (name default : String) : String :=
  (env.text? name).getD default

/-- Reads a number of 64 bits; blanks may stand around it. -/
def parseWord? (text : String) : Option UInt64 :=
  (Digits.unsigned? (UInt64.size - 1) (Text.trimChars text.toList)).map UInt64.ofNat

/-- The number in a variable; one that holds no number counts as unset. -/
def word? (env : Environment) (name : String) : Option UInt64 :=
  (env.text? name).bind parseWord?

def wordD (env : Environment) (name : String) (default : UInt64) : UInt64 :=
  (env.word? name).getD default

end Environment

end EventRelay
