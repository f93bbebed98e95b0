import IgnoreRules.Cache
import IgnoreRules.NameFilter
import IgnoreRules.Settings

/-!
Which entries an export leaves out: those with an ignored name, and those that the ignore files
exclude unless they were chosen by hand.
-/

namespace IgnoreRules

inductive ExclusionReason where
  | ignoredName
  | gitignore
deriving DecidableEq, Repr

structure ExclusionStats where
  byIgnoredName : Nat
  byGitignore : Nat
deriving DecidableEq, Repr

namespace ExclusionStats

def none : ExclusionStats := ⟨0, 0⟩

def record (stats : ExclusionStats) : ExclusionReason → ExclusionStats
  | .ignoredName => { stats with byIgnoredName := stats.byIgnoredName + 1 }
  | .gitignore => { stats with byGitignore := stats.byGitignore + 1 }

def count (stats : ExclusionStats) : Option ExclusionReason → ExclusionStats
  | some reason => stats.record reason
  | .none => stats

def total (stats : ExclusionStats) : Nat :=
  stats.byIgnoredName + stats.byGitignore

end ExclusionStats

/-- The ignore files, and the real paths of the files chosen by hand. -/
structure GitignoreFilter where
  chosen : List Path
deriving DecidableEq, Repr

namespace GitignoreFilter

/-- The filter leaves an entry out.  A file chosen by hand stays in, and so does an entry about
which the ignore files cannot be asked. -/
def excludes (filter : GitignoreFilter) (workspace : Workspace) (path : Path) (isDir : Bool) :
    Action Bool := do
  let shown := String.ofList path.text
  let isChosen ←
    if isDir then pure false
    else
      let real ← Action.perform (workspace.disk.resolve path)
      pure (filter.chosen.contains real)
  if isChosen then
    Action.log .info .filter
      s!"Gitignore override: file was explicitly selected. Including {shown}"
    return false
  let ignored ← Action.recover (fun _ => true) (workspace.isIgnored path) fun fault => do
    Action.log .warning .filter
      s!"Error checking gitignore status for {shown}. Proceeding. ({fault.message})"
    return false
  if ignored then
    Action.log .info .filter s!"Gitignore match: skipping {shown}"
  return ignored

end GitignoreFilter

structure Filters where
  names : NameFilter
  gitignore? : Option GitignoreFilter
deriving DecidableEq, Repr

namespace Filters

inductive Error where
  /-- A name to leave out is no text. -/
  | notPattern (value : Json)
  | badPattern (error : PatternError)
  /-- A file chosen by hand has no real path. -/
  | unresolved (fault : Fault)

def Error.message : Error → String
  | notPattern value => s!"a pattern is a text, not '{value.kindName}'"
  | badPattern error => error.message
  | unresolved fault => fault.message

/-- The pattern a setting gives; values that count as false give the empty one. -/
def patternOf (value : Json) : Except Error (List Char) :=
  match value with
  | .string text => .ok text.toList
  | other => if other.isTruthy then .error (.notPattern other) else .ok []

def build (disk : Disk) (settings : Settings) (asksFiles : Bool) (chosen : List Path) :
    Except Error Filters := do
  let patterns ← settings.ignoredNames.mapM patternOf
  let names ← (NameFilter.ofPatterns patterns).mapError .badPattern
  if settings.respectGitignore.isTruthy && asksFiles then
    let real ← (chosen.mapM disk.resolve).mapError .unresolved
    return ⟨names, some ⟨real⟩⟩
  else
    return ⟨names, none⟩

def firstExclusion (filters : Filters) (workspace : Workspace) (path : Path) (isDir : Bool) :
    Action (Option ExclusionReason) := do
  Action.logAll (filters.names.excludesRecords path isDir)
  if filters.names.excludes path isDir then
    return some .ignoredName
  match filters.gitignore? with
  | none => return none
  | some filter =>
      return if ← filter.excludes workspace path isDir then some .gitignore else none

def countedExclusion (filters : Filters) (workspace : Workspace) (path : Path) (isDir : Bool)
    (stats : ExclusionStats) : Action (Option ExclusionReason × ExclusionStats) := do
  let reason? ← filters.firstExclusion workspace path isDir
  return (reason?, stats.count reason?)

end Filters

end IgnoreRules
