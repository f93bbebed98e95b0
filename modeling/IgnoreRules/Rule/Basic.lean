import IgnoreRules.Glob
import IgnoreRules.Log.Record
import IgnoreRules.Rule.Line
import IgnoreRules.Text.Pieces
import IgnoreRules.Text.Quoted

/-!
Rules.  A rule keeps the flags and the pattern of its line, and the pattern cut at its slashes into
segments, each compiled on its own.
-/

namespace IgnoreRules

inductive PatternError where
  /-- Nothing is left of the pattern, or it ends in a backslash that escapes nothing. -/
  | invalid (pattern : List Char)
  | backward (range : BackwardRange)
deriving DecidableEq, Repr

def PatternError.message : PatternError → String
  | invalid pattern => "Invalid git pattern: " ++ Text.quoted pattern
  | backward range => range.message

inductive Segment where
  /-- Any number of components. -/
  | globstar
  | name (expression : Expression)
deriving DecidableEq, Repr

namespace Segment

def isGlobstar (part : List Mark) : Bool :=
  part == [⟨'*', false⟩, ⟨'*', false⟩]

/-- The glob of a part.  An escaped character keeps its backslash; a blank at the very end stands
in brackets, so that it is not taken for an accident. -/
def glob : List Mark → List Char
  | [] => []
  | [last] =>
      if Text.isBlank last.character then ['[', last.character, ']']
      else if last.escaped then ['\\', last.character]
      else [last.character]
  | mark :: rest =>
      (if mark.escaped then ['\\', mark.character] else [mark.character]) ++ glob rest

/-- Compiles the glob of one component; the written form starts after its anchor and a slash in
front of the glob ties it to the start. -/
def ofGlob (text : List Char) : Except PatternError Segment :=
  match Glob.segment? text with
  | none => .error (.invalid ('/' :: text))
  | some expression =>
      match expression.backwardRange? 1 with
      | some range => .error (.backward range)
      | none => .ok (.name expression)

def ofPart (part : List Mark) : Except PatternError Segment :=
  if isGlobstar part then .ok .globstar else ofGlob (glob part)

def parts (pattern : List Mark) : List (List Mark) :=
  (Text.pieces (·.character == '/') pattern).filter (· != [])

def mergeGlobstars : List Segment → List Segment
  | [] => []
  | segment :: rest =>
      if segment = globstar ∧ rest.head? = some globstar then mergeGlobstars rest
      else segment :: mergeGlobstars rest

def ofPattern (pattern : List Mark) : Except PatternError (List Segment) :=
  ((parts pattern).mapM ofPart).map mergeGlobstars

end Segment

structure Rule extends Line where
  /-- The line without its terminator. -/
  source : List Char
  segments : List Segment
deriving DecidableEq, Repr

namespace Rule

def patternText (rule : Rule) : List Char :=
  rule.pattern.map Mark.character

def literals (rule : Rule) : List Nat :=
  rule.pattern.zipIdx.filterMap fun (mark, position) =>
    if mark.escaped then some position else none

def basenameOnly (rule : Rule) : Bool :=
  !rule.rooted && rule.segments.length == 1

def compile (line : List Char) : Except PatternError (Option Rule) :=
  match Line.read? line with
  | none => .ok none
  | some marks =>
      (Segment.ofPattern marks.pattern).map fun segments =>
        if segments = [] then none
        else some { marks with source := Line.withoutTerminator line, segments }

def ofLine? (line : List Char) : Option Rule :=
  match compile line with
  | .ok rule => rule
  | .error _ => none

def summary (rule : Rule) : String :=
  let source := Text.quoted rule.source
  let pattern := Text.quoted rule.patternText
  let negated := Record.showFlag rule.negated
  let rooted := Record.showFlag rule.rooted
  let dirOnly := Record.showFlag rule.dirOnly
  s!"Rule {source} -> pattern={pattern}, neg={negated}, rooted={rooted}, dirOnly={dirOnly}"

def compileRecords (line : List Char) : List Record :=
  match compile line with
  | .ok none => []
  | .ok (some rule) => [⟨.trace, .rule, rule.summary⟩]
  | .error error =>
      let source := Text.quoted (Line.withoutTerminator line)
      [⟨.warning, .rule, s!"Skipping ignore rule {source}: {error.message}"⟩]

end Rule

end IgnoreRules
