import IgnoreRules.Session

/-!
Whether an entry is ignored.  The ignore files of the directories from the root of the project down
to the entry are asked in this order, and the last one that has something to say decides.  Compiled
files are kept until they are dropped, one by one or all together.
-/

namespace IgnoreRules

namespace Workspace

def ignoreFileIn (workspace : Workspace) (directory : Path) : Action (Option Path) :=
  Action.recover Fault.isSystem
    (do
      match ← workspace.findChild directory workspace.ignoreFilename with
      | none => return none
      | some found => return if ← workspace.isDir found then none else some found)
    fun fault => do
      let name := String.ofList workspace.ignoreFilename
      let place := String.ofList directory.text
      Action.log .warning .cache s!"Cannot look up {name} in {place}: {fault.message}"
      return none

/-- The compiled form of an ignore file, kept from before or made now and kept.  A file that cannot
be read makes none. -/
def compiled (workspace : Workspace) (path : Path) : Action (Option IgnoreFile) := do
  let key := path.text
  match (← get).kept.lookup key with
  | some file => return some file
  | none =>
      let text? ← Action.recover Fault.isUnreadable (some <$> workspace.readText path)
        fun fault => do
          let place := String.ofList key
          Action.log .warning .cache
            s!"Cannot read {place}: {fault.message}. Skipping this level."
          return none
      match text? with
      | none => return none
      | some text =>
          Action.logAll (IgnoreFile.ofTextRecords text path.parent key)
          let file := IgnoreFile.ofText text path.parent key
          modify fun session => { session with kept := session.kept ++ [(key, file)] }
          return some file

def compiledIn (workspace : Workspace) (directory : Path) : Action (Option IgnoreFile) := do
  match ← workspace.ignoreFileIn directory with
  | none => return none
  | some path => workspace.compiled path

/-- The compiled ignore files of directories, up to the first that does not belong to the root. -/
def filesWithin (workspace : Workspace) (root : Path) : List Path → Action (List IgnoreFile)
  | [] => return []
  | directory :: above => do
      if ← Action.perform (workspace.disk.isAncestor root directory) then
        let file? ← workspace.compiledIn directory
        let others ← workspace.filesWithin root above
        return file?.toList ++ others
      else
        return []

/-- The compiled ignore files that speak about an entry, from the root down. -/
def filesAbout (workspace : Workspace) (root entry : Path) (isDir : Bool) :
    Action (List IgnoreFile) := do
  let start := if isDir then entry else entry.parent
  return (← workspace.filesWithin root (start :: start.ancestors)).reverse

def judge (workspace : Workspace) (entry : Path) (shown : List Char) (isDir : Bool) :
    (verdict : Verdict) → List IgnoreFile → Action Verdict
  | verdict, [] => return verdict
  | verdict, file :: others => do
      match ← Action.perform (workspace.disk.relativePath entry file.directory) with
      | none | some [] => workspace.judge entry shown isDir verdict others
      | some path =>
          Action.logAll (file.verdictRecords workspace.platform path isDir)
          match file.verdict workspace.platform path isDir with
          | .noMatch => workspace.judge entry shown isDir verdict others
          | said =>
              let entryText := String.ofList shown
              let place := String.ofList file.location
              Action.log .debug .cache s!"{entryText}: {said.name} by {place}"
              workspace.judge entry shown isDir said others

/-- The entry is ignored.  A relative path counts from the root; `..` is taken away by the text
before any link is followed.  The root itself and what lies outside are not ignored. -/
def isIgnored (workspace : Workspace) (path : Path) : Action Bool := do
  match workspace.root? with
  | none =>
      Action.log .warning .cache "Workspace root is unavailable. Nothing is ignored."
      return false
  | some root =>
      let entry := (root.join path).normal
      match ← Action.perform (workspace.disk.relativePath entry root) with
      | none | some [] => return false
      | some shown =>
          let isDir ← Action.recover Fault.isSystem (workspace.isDir entry) fun fault => do
            let place := String.ofList entry.text
            Action.log .warning .cache s!"Cannot stat {place}: {fault.message}"
            return false
          let files ← workspace.filesAbout root entry isDir
          let verdict ← workspace.judge entry shown isDir .noMatch files
          let entryText := String.ofList shown
          Action.log .debug .cache s!"Final decision for {entryText}: {verdict.name}"
          return verdict == .ignore

end Workspace

namespace Session

def locations (session : Session) : List (List Char) :=
  Text.sorted (session.kept.map Prod.fst)

end Session

namespace Action

def dropAll : Action Unit := do
  modify fun session => { session with kept := [] }
  log .debug .cache "Cleared ignore-file cache"

def drop (location : List Char) : Action Unit := do
  let session ← get
  if (session.kept.lookup location).isSome then
    set { session with kept := session.kept.filter (·.1 != location) }
    let place := String.ofList location
    log .debug .cache s!"Invalidated cached ignore file {place}"

end Action

end IgnoreRules
