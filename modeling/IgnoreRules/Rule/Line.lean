import IgnoreRules.Text.Blank

/-!
The written form of a rule: one line, with its marks in front and at the end taken off and every
remaining character labelled as escaped or not.

Whether a character is escaped is asked in two ways: backwards, by the number of backslashes that
stand before it, and forwards, by `Mark.readAll`.
-/

namespace IgnoreRules

structure Mark where
  character : Char
  escaped : Bool
deriving DecidableEq, Repr

/-- Labels characters from the left; a backslash at the very end escapes itself. -/
def Mark.readAll : List Char → List Mark
  | [] => []
  | ['\\'] => [⟨'\\', true⟩]
  | '\\' :: character :: rest => ⟨character, true⟩ :: readAll rest
  | character :: rest => ⟨character, false⟩ :: readAll rest

structure Line where
  negated : Bool
  rooted : Bool
  dirOnly : Bool
  pattern : List Mark
deriving DecidableEq, Repr

namespace Line

def withoutTerminator (line : List Char) : List Char :=
  let text := Text.dropEndWhile (· == '\n') line
  if text.getLast? = some '\r' then text.dropLast else text

/-- What follows is escaped by what stands before it, given reversed: the run of backslashes
nearest to it is odd. -/
def escapes : List Char → Bool
  | '\\' :: before => !escapes before
  | _ => false

def isEscapedAt (text : List Char) (position : Nat) : Bool :=
  escapes (text.take position).reverse

def dropBlanks : List Char → List Char
  | [] => []
  | character :: before =>
      if (character == ' ' || character == '\t') && !escapes before then dropBlanks before
      else character :: before

def trimBlanks (text : List Char) : List Char :=
  (dropBlanks text.reverse).reverse

/-- Takes the slashes off a reversed text, each with the backslash that escapes it. -/
def dropSlashes : List Char → List Char
  | '/' :: '\\' :: before =>
      if escapes ('\\' :: before) then dropSlashes before else '\\' :: before
  | '/' :: before => dropSlashes before
  | text => text

def trimSlashes (text : List Char) : List Char :=
  (dropSlashes text.reverse).reverse

def takeMark (mark : Char) : List Char → Bool × List Char
  | [] => (false, [])
  | character :: rest => if character = mark then (true, rest) else (false, character :: rest)

def ofTrimmed? (text : List Char) : Option Line :=
  match text with
  | [] => none
  | '#' :: _ => none
  | _ =>
      let (negated, text) := takeMark '!' text
      let (rooted, text) := takeMark '/' text
      let body := trimSlashes text
      if body = [] then none
      else some ⟨negated, rooted, text.getLast? == some '/', Mark.readAll body⟩

def read? (line : List Char) : Option Line :=
  ofTrimmed? (trimBlanks (withoutTerminator line))

end Line

end IgnoreRules
