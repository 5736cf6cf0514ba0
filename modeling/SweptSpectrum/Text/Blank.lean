/-!
Blank characters: the Unicode `White_Space` property, and trimming by it.

The property holds of 25 code points: the ASCII controls tab to carriage return and the
space, next line, no-break space, ogham space mark, the spaces from en quad to hair space, line
and paragraph separators, the narrow no-break and medium mathematical spaces, and the
ideographic space.
-/

namespace SweptSpectrum.Text

/-- Whether a character has the Unicode `White_Space` property. -/
def isBlank (c : Char) : Bool :=
  let n := c.toNat
  (0x09 ≤ n ∧ n ≤ 0x0D) || n == 0x20 || n == 0x85 || n == 0xA0 || n == 0x1680 ||
    (0x2000 ≤ n ∧ n ≤ 0x200A) || n == 0x2028 || n == 0x2029 || n == 0x202F ||
    n == 0x205F || n == 0x3000

/-- A string without its leading and trailing blanks. -/
def trim (s : String) : String :=
  String.ofList ((s.toList.dropWhile isBlank).reverse.dropWhile isBlank).reverse

/-- A string without its trailing blanks. -/
def trimEnd (s : String) : String :=
  String.ofList (s.toList.reverse.dropWhile isBlank).reverse

/-- Whether a string holds a blank anywhere. -/
def hasBlank (s : String) : Bool := s.toList.any isBlank

end SweptSpectrum.Text
