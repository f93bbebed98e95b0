/-!
Sets of characters that a single position of an expression may take, and how they are written.
-/

namespace IgnoreRules

inductive Member where
  | single (character : Char)
  | range (low high : Char)
deriving DecidableEq, Repr

namespace Member

def holds : Member → Char → Bool
  | single own, character => own == character
  | range low high, character => decide (low ≤ character) && decide (character ≤ high)

def isBackward : Member → Bool
  | single _ => false
  | range low high => decide (high < low)

/-- Reads the text between brackets from the left.  A dash between two characters makes a range;
first, last or right after a range it stands for itself. -/
def readAll : List Char → List Member
  | [] => []
  | [last] => [single last]
  | [last, '-'] => [single last, single '-']
  | low :: '-' :: high :: rest => range low high :: readAll rest
  | character :: rest => single character :: readAll rest

def writtenCharacter (character : Char) : List Char :=
  if character = '\\' then ['\\', '\\'] else [character]

def written : Member → List Char
  | single character => writtenCharacter character
  | range low high => writtenCharacter low ++ '-' :: writtenCharacter high

end Member

inductive CharSet where
  | exactly (character : Char)
  | allBut (character : Char)
  /-- The characters that some entry lets in, or that none does. -/
  | bracket (negated : Bool) (members : List Member)
deriving DecidableEq, Repr

namespace CharSet

def contains : CharSet → Char → Bool
  | exactly own, character => own == character
  | allBut excluded, character => !(excluded == character)
  | bracket negated members, character => members.any (·.holds character) != negated

/-- The characters that an expression gives a meaning of their own, and the blanks of the basic
set; written outside brackets they take a backslash. -/
def takesBackslash (character : Char) : Bool :=
  "()[]\x7b\x7d?*+-|^$\\.&~# \t\n\r\x0b\x0c".toList.contains character

def written : CharSet → List Char
  | exactly character => if takesBackslash character then ['\\', character] else [character]
  | allBut character =>
      if character = '\n' then ['.'] else '[' :: '^' :: character :: [']']
  | bracket negated members =>
      '[' :: (if negated then ['^'] else []) ++ members.flatMap Member.written ++ [']']

end CharSet

end IgnoreRules
