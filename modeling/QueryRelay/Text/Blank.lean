import QueryRelay.Text.CodeSet

/-!
# Blank characters

The characters with the property `White_Space`, and the removal of such characters from the ends
of a text.
-/

namespace QueryRelay.Text

/-- The characters with the property `White_Space`. -/
def blankSet : CodeSet :=
  ⟨[9, 14, 32, 33, 133, 134, 160, 161, 5760, 5761, 8192, 8203, 8232, 8234, 8239, 8240, 8287, 8288,
    12288, 12289]⟩

/-- Whether a character is white space. -/
def isBlank (c : Char) : Bool := blankSet.contains c

/-- Remove white space from the front. -/
def trimStart (cs : List Char) : List Char := cs.dropWhile isBlank

/-- Remove white space from the back. -/
def trimEnd (cs : List Char) : List Char := (cs.reverse.dropWhile isBlank).reverse

/-- Remove white space from both ends. -/
def trim (s : String) : String := String.ofList (trimEnd (trimStart s.toList))

end QueryRelay.Text
