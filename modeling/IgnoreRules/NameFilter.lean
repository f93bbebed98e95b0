import IgnoreRules.Path.Basic
import IgnoreRules.Rule.Basic

/-!
Exclusion by the last name of an entry.  The patterns look like lines of an ignore file, but each
becomes one expression that is searched for in the name; a directory's name is searched with a
slash after it.  The last pattern found decides.  As in `Glob`, the translation of a pattern follows
the description of a package that is not modelled itself.
-/

namespace IgnoreRules

structure NamePattern where
  /-- What the pattern finds stays in. -/
  negated : Bool
  /-- The expression has to be found at the front. -/
  anchored : Bool
  expression : Expression
deriving DecidableEq, Repr

namespace NamePattern

def globstar : Name := ['*', '*']

def notNewline : CharSet := .allBut '\n'

def slash : Expression := .one (.exactly '/')

/-- A pattern without the blanks at its end, unless the last of them is an escaped space. -/
def trimmed (pattern : List Char) : List Char :=
  if ['\\', ' '] <:+ pattern then pattern else Text.trimEnd pattern

/-- The components of a pattern with its place made explicit: a slash in front ties it to the top,
and a single component stands at any depth. -/
def placed : List Name → List Name
  | [] :: components => components
  | [name] => if name = globstar then [name] else [globstar, name]
  | [name, []] => if name = globstar then [name, []] else [globstar, name, []]
  | components => components

def openEnded (components : List Name) : List Name :=
  if components.getLast? = some [] then components.dropLast ++ [globstar] else components

def mergeGlobstars : List Name → List Name
  | [] => []
  | name :: rest =>
      if name = globstar ∧ rest.head? = some globstar then mergeGlobstars rest
      else name :: mergeGlobstars rest

/-- The expression of the components that follow others.  `afterName` tells whether a slash is due
before the next name.  There is none when a glob ends in a backslash that escapes nothing. -/
def continued? : (afterName : Bool) → List Name → Option Expression
  | _, [] => some .empty
  | afterName, name :: rest =>
      if name = globstar then
        if rest = [] then some slash
        else
          (continued? true rest).map
            (.sequence (.optional (.sequence slash (.oneOrMore notNewline))))
      else
        let lead := if afterName then slash else .empty
        let body? :=
          if name = ['*'] then some (.oneOrMore Glob.notSlash) else Glob.body? name
        let final :=
          if rest ≠ [] then .empty
          else if name = ['*'] then .sequence (.optional slash) .atEnd
          else Glob.segmentEnd
        match body?, continued? true rest with
        | some body, some tail =>
            some (.sequence lead (.sequence body (.sequence final tail)))
        | _, _ => none

def whole? : List Name → Option Expression
  | [] => none
  | name :: rest =>
      if name = globstar then
        (continued? false rest).map
          (.sequence (.optional (.sequence (.oneOrMore notNewline) slash)))
      else continued? false (name :: rest)

def ofComponents? (wantsDirectory : Bool) (components : List Name) : Option (Bool × Expression) :=
  if components = [globstar] then
    some (false, if wantsDirectory then slash else .one notNewline)
  else if components = [globstar, ['*']] then some (false, .one notNewline)
  else if components = [globstar, ['*'], globstar] then some (false, slash)
  else (whole? components).map (true, ·)

def compile (pattern : List Char) : Except PatternError (Option NamePattern) :=
  match trimmed pattern with
  | [] => .ok none
  | '#' :: _ => .ok none
  | text =>
      let (negated, text) := Line.takeMark '!' text
      let components := Path.components text
      let wantsDirectory := components.getLast? == some [] && text != ['/']
      match ofComponents? wantsDirectory (mergeGlobstars (openEnded (placed components))) with
      | none => .error (.invalid pattern)
      | some (anchored, expression) =>
          match expression.backwardRange? 1 with
          | some range => .error (.backward range)
          | none => .ok (some ⟨negated, anchored, expression⟩)

def finds (pattern : NamePattern) (text : List Char) : Bool :=
  if pattern.anchored then pattern.expression.matchesFront text
  else pattern.expression.occursIn text

end NamePattern

structure NameFilter where
  active : Bool
  patterns : List NamePattern
deriving DecidableEq, Repr

namespace NameFilter

def ofPatterns (patterns : List (List Char)) : Except PatternError NameFilter :=
  (patterns.mapM NamePattern.compile).map fun compiled =>
    ⟨patterns != [], compiled.filterMap id⟩

/-- A searched name without one slash, or else one dot and slash, in front. -/
def withoutLead : List Char → List Char
  | '/' :: rest => rest
  | '.' :: '/' :: rest => rest
  | text => text

def subject (path : Path) (isDir : Bool) : List Char :=
  withoutLead (path.lastName ++ if isDir then ['/'] else [])

def excludes (filter : NameFilter) (path : Path) (isDir : Bool) : Bool :=
  match filter.patterns.reverse.find? (·.finds (subject path isDir)) with
  | some pattern => !pattern.negated
  | none => false

def excludesRecords (filter : NameFilter) (path : Path) (isDir : Bool) : List Record :=
  if filter.excludes path isDir then
    let shown := String.ofList path.text
    [⟨.info, .filter, s!"Skipping ignored file/directory by name: {shown}"⟩]
  else []

end NameFilter

end IgnoreRules
