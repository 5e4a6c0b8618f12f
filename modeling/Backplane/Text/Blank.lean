import Backplane.Text.Ranges
/-!
# `Backplane.Text.Blank`: white space

The characters with the White_Space property, and texts that hold nothing else.

`validate_declaration` refuses such texts.
-/
namespace Backplane

/-- White_Space. -/
def whiteSpace : Ranges :=
  [(9, 13), (32, 32), (133, 133), (160, 160), (5760, 5760), (8192, 8202), (8232, 8233),
    (8239, 8239), (8287, 8287), (12288, 12288)]

def isWhite (c : Char) : Bool := whiteSpace.has c

def isBlank (s : String) : Bool := s.toList.all isWhite

def trimEnd (s : String) : String := String.ofList ((s.toList.reverse.dropWhile isWhite).reverse)

def trimStart (s : String) : String := String.ofList (s.toList.dropWhile isWhite)

end Backplane
