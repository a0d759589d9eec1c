/-!
Lower case, for texts that are compared with words of ASCII letters.
-/

set_option autoImplicit false
set_option relaxedAutoImplicit false

namespace WorkBroker.Text

/-- The lower case of an ASCII letter.  The Kelvin sign is the one other character whose lower case
is an ASCII letter. -/
def lowerChar (c : Char) : Char := if c = '\u212a' then 'k' else c.toLower

def lower (s : String) : String := s.map lowerChar

end WorkBroker.Text
