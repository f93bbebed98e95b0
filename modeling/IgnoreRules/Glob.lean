import IgnoreRules.Expression.Written

/-!
File-name globs.  A glob is scanned into pieces from the left; the pieces of one path segment make
an expression that has to take the whole segment.  This is how a package for ignore patterns
translates one segment, which is not part of what is modelled here: its description is followed.
-/

namespace IgnoreRules

namespace Glob

inductive Piece where
  | literal (character : Char)
  | star
  | question
  /-- One character of a set, given as the text between its brackets. -/
  | bracket (negated : Bool) (body : List Char)
deriving DecidableEq, Repr

def beforeClosing? : List Char → Option (List Char)
  | [] => none
  | ']' :: _ => some []
  | character :: rest => (beforeClosing? rest).map (character :: ·)

/-- The body of a set whose negation mark has been read: a closing bracket in front belongs to
it, and no character is escaped. -/
def bracketBody? : List Char → Option (List Char)
  | ']' :: rest => (beforeClosing? rest).map (']' :: ·)
  | text => beforeClosing? text

def bracketAfter? : List Char → Option (Bool × List Char)
  | '!' :: rest => (bracketBody? rest).map (true, ·)
  | '^' :: rest => (bracketBody? rest).map (true, ·)
  | text => (bracketBody? text).map (false, ·)

def bracketWidth (negated : Bool) (body : List Char) : Nat :=
  (if negated then 1 else 0) + body.length + 1

/-- Scans a glob after passing over `skipped` characters, which belong to a set already read.
There is no reading when the last character is a backslash that escapes nothing. -/
def scanAfter? : (skipped : Nat) → List Char → Option (List Piece)
  | _, [] => some []
  | skipped + 1, _ :: rest => scanAfter? skipped rest
  | 0, '\\' :: [] => none
  | 0, '\\' :: character :: rest => (scanAfter? 0 rest).map (.literal character :: ·)
  | 0, '*' :: rest => (scanAfter? 0 rest).map (.star :: ·)
  | 0, '?' :: rest => (scanAfter? 0 rest).map (.question :: ·)
  | 0, '[' :: rest =>
      match bracketAfter? rest with
      | some (negated, body) =>
          (scanAfter? (bracketWidth negated body) rest).map (.bracket negated body :: ·)
      | none => (scanAfter? 0 rest).map (.literal '[' :: ·)
  | 0, character :: rest => (scanAfter? 0 rest).map (.literal character :: ·)

def scan? (glob : List Char) : Option (List Piece) :=
  scanAfter? 0 glob

theorem scanAfter?_eq_scan?_drop (skipped : Nat) (glob : List Char) :
    scanAfter? skipped glob = scan? (glob.drop skipped) := by
  induction glob generalizing skipped with
  | nil => cases skipped <;> simp [scan?, scanAfter?]
  | cons character rest inductionHypothesis =>
      cases skipped with
      | zero => rfl
      | succ skipped => simpa [scanAfter?] using inductionHypothesis skipped

def notSlash : CharSet := .allBut '/'

def Piece.expression : Piece → Expression
  | literal character => .one (.exactly character)
  | star => .many notSlash
  | question => .one notSlash
  | bracket negated body => .one (.bracket negated (Member.readAll body))

def sequenceAll (expressions : List Expression) : Expression :=
  expressions.foldr .sequence .empty

def body? (glob : List Char) : Option Expression :=
  (scan? glob).map fun pieces => sequenceAll (pieces.map Piece.expression)

def segmentEnd : Expression :=
  .either (.one (.exactly '/')) .atEnd

/-- The expression of a glob that stands for a whole segment; a star alone asks for a character. -/
def segment? (glob : List Char) : Option Expression :=
  if glob = ['*'] then
    some (sequenceAll [.oneOrMore notSlash, .optional (.one (.exactly '/')), .atEnd])
  else
    (body? glob).map (.sequence · segmentEnd)

end Glob

end IgnoreRules
