import IgnoreRules.Rule.Match

/-!
The rules of one ignore file, in the order of its lines.  The last rule that applies decides.
-/

namespace IgnoreRules

inductive Verdict where
  | noMatch
  | ignore
  | keep
deriving DecidableEq, Repr

def Verdict.name : Verdict → String
  | noMatch => "NO_MATCH"
  | ignore => "MATCH_IGNORE"
  | keep => "MATCH_NEGATE"

def Rule.verdict (rule : Rule) : Verdict :=
  if rule.negated then .keep else .ignore

/-- Paths are asked relative to `directory`, which is where the file stands. -/
structure IgnoreFile where
  directory : Path
  rules : List Rule
  /-- Where the text came from; empty when it came from nowhere. -/
  location : List Char
deriving DecidableEq, Repr

namespace IgnoreFile

def ofLines (lines : List (List Char)) (directory : Path) (location : List Char) : IgnoreFile :=
  ⟨directory, lines.filterMap Rule.ofLine?, location⟩

/-- The lines of a text: byte order marks in front are no part of it, and only a newline ends a
line. -/
def linesOf (text : List Char) : List (List Char) :=
  Text.pieces (· == '\n') (text.dropWhile (· == '\uFEFF'))

def ofText (text : List Char) (directory : Path) (location : List Char) : IgnoreFile :=
  ofLines (linesOf text) directory location

def ofLinesRecords (lines : List (List Char)) (directory : Path) (location : List Char) :
    List Record :=
  let count := (ofLines lines directory location).rules.length
  let origin := String.ofList (if location = [] then directory.text else location)
  lines.flatMap Rule.compileRecords ++ [⟨.debug, .file, s!"Parsed {count} rules from {origin}"⟩]

def ofTextRecords (text : List Char) (directory : Path) (location : List Char) : List Record :=
  ofLinesRecords (linesOf text) directory location

/-- The last rule that applies; the directory itself, whose path is empty, is never asked about. -/
def decidingRule? (platform : Platform) (file : IgnoreFile) (path : List Char) (isDir : Bool) :
    Option Rule :=
  if path = [] then none
  else file.rules.reverse.find? (·.applies platform path isDir)

def decidingIndex? (platform : Platform) (file : IgnoreFile) (path : List Char) (isDir : Bool) :
    Option Nat :=
  if path = [] then none
  else
    (file.rules.reverse.findIdx? (·.applies platform path isDir)).map
      (file.rules.length - 1 - ·)

def verdict (platform : Platform) (file : IgnoreFile) (path : List Char) (isDir : Bool) :
    Verdict :=
  match file.decidingRule? platform path isDir with
  | none => .noMatch
  | some rule => rule.verdict

def ignores (platform : Platform) (file : IgnoreFile) (path : List Char) (isDir : Bool) : Bool :=
  file.verdict platform path isDir == .ignore

def askedUntil (applies : Rule → Bool) : List Rule → List Rule
  | [] => []
  | rule :: rest => if applies rule then [rule] else rule :: askedUntil applies rest

def verdictRecords (platform : Platform) (file : IgnoreFile) (path : List Char) (isDir : Bool) :
    List Record :=
  if path = [] then []
  else
    (askedUntil (·.applies platform path isDir) file.rules.reverse).flatMap
      (·.appliesRecords platform path isDir)

end IgnoreFile

end IgnoreRules
