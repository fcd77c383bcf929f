/-!
# Blank characters and trimming

The blank characters are those of the Unicode white space property and the four
information separators. Trimming removes them from both ends of a text.
-/

namespace WaveNotebook.Text

def isBlank (c : Char) : Bool :=
  let n := c.toNat
  (0x09 ≤ n && n ≤ 0x0D) || (0x1C ≤ n && n ≤ 0x20) || n == 0x85 || n == 0xA0 || n == 0x1680 ||
    (0x2000 ≤ n && n ≤ 0x200A) || n == 0x2028 || n == 0x2029 || n == 0x202F || n == 0x205F ||
    n == 0x3000

def trimLeft (s : List Char) : List Char :=
  s.dropWhile isBlank

def trimRight (s : List Char) : List Char :=
  (trimLeft s.reverse).reverse

def trim (s : List Char) : List Char :=
  trimRight (trimLeft s)

end WaveNotebook.Text
