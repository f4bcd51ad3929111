/-!
# Texts as bytes

Programs measure, index and order texts by the bytes of their encoding, and visit them
character by character at byte positions.
-/

namespace Flowgraph.Text

/-- The bytes of a text. -/
def bytes (s : String) : List UInt8 := s.toByteArray.toList

/-- The byte at a position. -/
def byte? (s : String) (i : Nat) : Option UInt8 := s.toByteArray[i]?

/-- The character that starts at a byte position of a list of characters. -/
def charFrom? : List Char → Nat → Option Char
  | [], _ => none
  | c :: cs, i =>
    if i = 0 then some c
    else if i < c.utf8Size then none
    else charFrom? cs (i - c.utf8Size)

/-- The character that starts at a byte position of a text. -/
def charAt? (s : String) (i : Nat) : Option Char := charFrom? s.toList i

/-- Texts are ordered as their bytes are. -/
def order (s t : String) : Ordering := compareOfLessAndEq (bytes s) (bytes t)

end Flowgraph.Text
