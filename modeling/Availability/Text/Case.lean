/-!
# Letter case

Names of settings are ASCII, and the case of their letters does not count. Beside the capitals one
more character has an ASCII letter as its lower case, the Kelvin sign.
-/

namespace Availability.Text

/-- A character in lower case, as far as this is an ASCII letter. -/
def lowerChar (c : Char) : Char := if c = '\u212A' then 'k' else c.toLower

/-- A text in lower case, as far as this is ASCII. -/
def lower (s : String) : String := String.ofList (s.toList.map lowerChar)

end Availability.Text
