/-!
# Blanks and letter case

Values given by hand are read without the blanks around them and without regard to the case of
ASCII letters. A blank is any white space of Unicode.
-/

namespace ClassLayout.Text

def isBlank (c : Char) : Bool :=
  let n := c.toNat
  (0x9 ≤ n && n ≤ 0xd) || n == 0x20 || n == 0x85 || n == 0xa0 || n == 0x1680 ||
    (0x2000 ≤ n && n ≤ 0x200a) || n == 0x2028 || n == 0x2029 || n == 0x202f || n == 0x205f ||
    n == 0x3000

/-- The text without the blanks at its two ends. -/
def trim (s : String) : String :=
  String.ofList ((s.toList.dropWhile isBlank).reverse.dropWhile isBlank).reverse

def isAllBlank (s : String) : Bool := s.toList.all isBlank

/-- ASCII letters in lower case, everything else as it is. -/
def lowered (s : String) : String := s.map Char.toLower

end ClassLayout.Text
