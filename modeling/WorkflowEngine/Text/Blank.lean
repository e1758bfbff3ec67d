import WorkflowEngine.Text.Range

/-!
# Blank characters and trimming

The characters with the property `White_Space`, and the text that is left when they are taken
off one or both ends.
-/

namespace WorkflowEngine.Text

/-- The ranges of the property `White_Space`. -/
def blankRanges : List (Nat × Nat) := [
  (0x9, 0xD), (0x20, 0x20), (0x85, 0x85), (0xA0, 0xA0), (0x1680, 0x1680), (0x2000, 0x200A),
  (0x2028, 0x2029), (0x202F, 0x202F), (0x205F, 0x205F), (0x3000, 0x3000)]

/-- Blank characters: a zero-width space is not one of them. -/
def isBlank (c : Char) : Bool := inRanges blankRanges c

def trimStartChars (cs : List Char) : List Char := cs.dropWhile isBlank

def trimChars (cs : List Char) : List Char :=
  (trimStartChars (trimStartChars cs).reverse).reverse

def trim (s : String) : String := String.ofList (trimChars s.toList)

def allBlank (s : String) : Bool := s.toList.all isBlank

end WorkflowEngine.Text
