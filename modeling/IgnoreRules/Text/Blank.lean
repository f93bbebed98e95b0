import IgnoreRules.Text.CodeRange

/-!
Blank characters in the wide sense: every space, line break and separator of the character set.
-/

namespace IgnoreRules.Text

def blankRanges : List CodeRange :=
  [(0x9, 0xD), (0x1C, 0x20), (0x85, 0x85), (0xA0, 0xA0), (0x1680, 0x1680), (0x2000, 0x200A),
    (0x2028, 0x2029), (0x202F, 0x202F), (0x205F, 0x205F), (0x3000, 0x3000)]

def isBlank (character : Char) : Bool :=
  CodeRange.covers blankRanges character.toNat

def dropEndWhile (test : Char → Bool) (text : List Char) : List Char :=
  (text.reverse.dropWhile test).reverse

def trimEnd (text : List Char) : List Char :=
  dropEndWhile isBlank text

end IgnoreRules.Text
