import IgnoreRules.Log.Record
import IgnoreRules.Rule.Match
import IgnoreRules.Text.Encoding
import IgnoreRules.Tree.Resolve

/-!
The place an export works in: a disk, the root of the project on it, and how entries relate to
directories.  An entry is known by its own name in the real path of its directory, so a link is
not confused with what it leads to.
-/

namespace IgnoreRules

namespace Disk

def entryPath (disk : Disk) (path : Path) : Except Fault Path :=
  let normal := Path.normalAbsolute disk.current path
  if normal.names = [] then .ok normal
  else (disk.resolve normal.parent).map (·.child normal.lastName)

/-- How an entry is written from a directory above it, empty for the directory itself.  There is
no such text when the entry lies elsewhere, or when a path holds a null character. -/
def relativePath (disk : Disk) (path ancestor : Path) : Except Fault (Option (List Char)) :=
  match disk.entryPath path with
  | .error .nullCharacter => .ok none
  | .error fault => .error fault
  | .ok entry =>
      match disk.resolve ancestor with
      | .error .nullCharacter => .ok none
      | .error fault => .error fault
      | .ok base => .ok ((base.namesBelow? entry).map (Text.unpieces '/'))

def isAncestor (disk : Disk) (ancestor path : Path) : Except Fault Bool :=
  match disk.resolve ancestor with
  | .error fault => .error fault
  | .ok base =>
      match disk.entryPath path with
      | .error fault => .error fault
      | .ok entry => .ok (base == entry || entry.ancestors.contains base)

def repositoryMarker : Name := ".git".toList

def firstMarked (disk : Disk) : List Path → Except Fault (Option Path)
  | [] => .ok none
  | directory :: above =>
      match disk.pathExists (directory.child repositoryMarker) with
      | .error fault => .error fault
      | .ok true => .ok (some directory)
      | .ok false => disk.firstMarked above

def repositoryRoot (disk : Disk) (start : Path) : Except Fault (Option Path) :=
  match disk.resolve start with
  | .error fault => .error fault
  | .ok real => disk.firstMarked (real :: real.ancestors)

def projectRoot (disk : Disk) (start : Path) : Except Fault Path :=
  match disk.repositoryRoot start with
  | .error fault => .error fault
  | .ok root? => disk.resolve (root?.getD start)

end Disk

structure Outages where
  read : Path → Option OutageKind
  isDir : Path → Option OutageKind
  findChild : Path → Option OutageKind

def Outages.none : Outages :=
  ⟨fun _ => .none, fun _ => .none, fun _ => .none⟩

/-- What the ignore rules are asked about. -/
structure Workspace where
  disk : Disk
  /-- Where the project starts; without it nothing is ignored. -/
  root? : Option Path
  ignoreFilename : Name
  platform : Platform
  detector : Text.Detector
  outages : Outages

end IgnoreRules
