/-!
The characters with the property White_Space, and texts made of them alone.
-/

set_option autoImplicit false
set_option relaxedAutoImplicit false

namespace WorkBroker.Text

def blankRanges : List (Nat × Nat) :=
  [(0x9, 0xd), (0x20, 0x20), (0x85, 0x85), (0xa0, 0xa0), (0x1680, 0x1680), (0x2000, 0x200a),
    (0x2028, 0x2029), (0x202f, 0x202f), (0x205f, 0x205f), (0x3000, 0x3000)]

def inRanges (ranges : List (Nat × Nat)) (n : Nat) : Bool :=
  ranges.any fun r => r.1 ≤ n && n ≤ r.2

def isBlankChar (c : Char) : Bool := inRanges blankRanges c.toNat

/-- Whether a text is empty once the blanks at its ends are removed. -/
def isBlank (s : String) : Bool := s.toList.all isBlankChar

end WorkBroker.Text
