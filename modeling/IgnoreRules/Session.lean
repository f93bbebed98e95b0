import IgnoreRules.IgnoreFile
import IgnoreRules.Text.Case
import IgnoreRules.Workspace

/-!
Work on a workspace that can be watched: what is read and listed, what is written to the log, and
which compiled files are kept.  All of it stays when the work ends in a fault.
-/

namespace IgnoreRules

inductive Event where
  | read (path : Path)
  | listed (path : Path)
  | logged (record : Record)
deriving DecidableEq, Repr

/-- The compiled files that are kept, by the text of their paths, and what has happened so far. -/
structure Session where
  kept : List (List Char × IgnoreFile)
  events : List Event

def Session.fresh : Session := ⟨[], []⟩

abbrev Action := ExceptT Fault (StateM Session)

namespace Action

def note (event : Event) : Action Unit :=
  modify fun session => { session with events := session.events ++ [event] }

def logAll (records : List Record) : Action Unit :=
  modify fun session => { session with events := session.events ++ records.map .logged }

def log (level : Level) (topic : Topic) (message : String) : Action Unit :=
  logAll [⟨level, topic, message⟩]

def perform {Alpha : Type} (result : Except Fault Alpha) : Action Alpha :=
  match result with
  | .ok value => pure value
  | .error fault => throw fault

def suffer (outage? : Option OutageKind) : Action Unit :=
  match outage? with
  | some kind => throw (.outage kind)
  | none => pure ()

def recover {Alpha : Type} (forgiven : Fault → Bool) (action : Action Alpha)
    (instead : Fault → Action Alpha) : Action Alpha :=
  tryCatch action fun fault => if forgiven fault then instead fault else throw fault

end Action

namespace Workspace

def isDir (workspace : Workspace) (path : Path) : Action Bool := do
  Action.suffer (workspace.outages.isDir path)
  Action.perform (workspace.disk.isDirectory path)

def children (workspace : Workspace) (directory : Path) : Action (List Path) := do
  Action.note (.listed directory)
  Action.perform (workspace.disk.children directory)

/-- The entry of a directory that has exactly this name.  When the name with its case swapped leads
somewhere too, the file system may not tell the two apart, and the listing decides. -/
def findChild (workspace : Workspace) (directory : Path) (name : Name) :
    Action (Option Path) := do
  Action.suffer (workspace.outages.findChild directory)
  let candidate := directory.join (Path.ofText name)
  if !(← Action.perform (workspace.disk.pathExists candidate)) then
    return none
  let twin := Text.swapCase name
  if twin = name then
    return some candidate
  if !(← Action.perform (workspace.disk.pathExists (directory.join (Path.ofText twin)))) then
    return some candidate
  let listed ← workspace.children directory
  return if listed.any (·.lastName == name) then some candidate else none

def readText (workspace : Workspace) (path : Path) : Action (List Char) := do
  Action.note (.read path)
  Action.suffer (workspace.outages.read path)
  let bytes ← Action.perform (workspace.disk.readFile path)
  let (detected?, text) := Text.decodeBy workspace.detector bytes
  match detected? with
  | some encoding => Action.log .debug .workspace s!"Detected encoding {encoding}"
  | none => pure ()
  return text

end Workspace

end IgnoreRules
