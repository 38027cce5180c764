/-!
# White space

Three sets go by the name of white space. Trimming a text removes `isBlank`. A number given as a
text may be surrounded by `isSpacing`, which lacks the four ASCII information separators. Between
the words of a structured text only the four characters of `isJsonBlank` may stand.
-/

namespace ApiModel.Unicode

/-- White space in the sense of the character database. -/
def isSpacing (c : Char) : Bool :=
  let n := c.toNat
  (9 ≤ n && n ≤ 13) || n == 32 || n == 0x85 || n == 0xA0 || n == 0x1680 ||
    (0x2000 ≤ n && n ≤ 0x200A) || n == 0x2028 || n == 0x2029 || n == 0x202F || n == 0x205F ||
    n == 0x3000

/-- What trimming removes: white space and the information separators. -/
def isBlank (c : Char) : Bool :=
  isSpacing c || (0x1C ≤ c.toNat && c.toNat ≤ 0x1F)

/-- Space, tab, line feed and carriage return. -/
def isJsonBlank (c : Char) : Bool :=
  c == ' ' || c == '\t' || c == '\n' || c == '\r'

end ApiModel.Unicode
