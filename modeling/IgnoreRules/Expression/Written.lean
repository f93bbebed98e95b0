import IgnoreRules.Expression.Basic

/-!
The text form of an expression, and the first range in it that runs backwards.  The text form
serves only to say where such a range stands.
-/

namespace IgnoreRules

/-- A range whose ends are in the wrong order, and where it starts in the text form. -/
structure BackwardRange where
  low : Char
  high : Char
  position : Nat
deriving DecidableEq, Repr

def BackwardRange.message (range : BackwardRange) : String :=
  let shown := String.ofList (Member.range range.low range.high).written
  s!"bad character range {shown} at position {range.position}"

def Member.backwardRange? (position : Nat) : List Member → Option BackwardRange
  | [] => none
  | range low high :: rest =>
      if high < low then some ⟨low, high, position⟩
      else backwardRange? (position + (range low high).written.length) rest
  | single character :: rest =>
      backwardRange? (position + (single character).written.length) rest

def CharSet.backwardRange? (position : Nat) : CharSet → Option BackwardRange
  | bracket negated members =>
      Member.backwardRange? (position + if negated then 2 else 1) members
  | _ => none

namespace Expression

def written : Expression → List Char
  | empty => []
  | one set => set.written
  | many set => set.written ++ ['*']
  | oneOrMore set => set.written ++ ['+']
  | sequence first second => first.written ++ second.written
  | either left right => "(?:".toList ++ left.written ++ '|' :: right.written ++ [')']
  | optional (one set) => set.written ++ ['?']
  | optional expression => "(?:".toList ++ expression.written ++ ")?".toList
  | atEnd => ['$']

def backwardRange? (position : Nat) : Expression → Option BackwardRange
  | empty => none
  | one set => set.backwardRange? position
  | many set => set.backwardRange? position
  | oneOrMore set => set.backwardRange? position
  | sequence first second =>
      (first.backwardRange? position).or
        (second.backwardRange? (position + first.written.length))
  | either left right =>
      (left.backwardRange? (position + 3)).or
        (right.backwardRange? (position + 4 + left.written.length))
  | optional (one set) => set.backwardRange? position
  | optional expression => expression.backwardRange? (position + 3)
  | atEnd => none

end Expression

end IgnoreRules
