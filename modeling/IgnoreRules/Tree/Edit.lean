import IgnoreRules.Tree.Walk

/-!
Changes of a tree: making directories on the way to a path, adding to the end of a file, and moving
one entry over another.  Links are followed as the file system does, but what is taken away or moved
is the link itself.
-/

namespace IgnoreRules

namespace Tree

def rename (tree : Tree) (source target : Location) : Tree :=
  ⟨tree.mentions.map fun mention =>
    if source.isPrefixOf mention.1 then (target ++ mention.1.drop source.length, mention.2)
    else mention⟩

/-- The location that names lead to where nothing stands, if only the last of them leads nowhere;
links at the end are followed to what they stand for. -/
def vacancy? (tree : Tree) : (links : Nat) → Location → List Name → Option Location
  | links, here, names =>
      match tree.walk greatestLinkCount here names.dropLast, names.getLast? with
      | .ok (directory, .directory), some name =>
          match tree.entry? (directory ++ [name]), links with
          | none, _ => some (directory ++ [name])
          | some (.link target), links + 1 =>
              let start := if Anchor.ofText target = .relative then directory else []
              tree.vacancy? links start (Path.components target)
          | _, _ => none
      | _, _ => none

def filesBelow (tree : Tree) (location : Location) : List (Location × ByteArray) :=
  tree.mentions.filterMap fun mention =>
    if location.isPrefixOf mention.1 then
      match tree.entry? mention.1 with
      | some (.file content) => some (mention.1.drop location.length, content)
      | _ => none
    else none

end Tree

namespace Disk

def withTree (disk : Disk) (tree : Tree) : Disk :=
  { disk with tree }

def ownLocation (disk : Disk) (path : Path) : Except Fault Location :=
  if hasNull path then .error .nullCharacter
  else
    match disk.locate path.parent with
    | .ok (location, .directory) =>
        if Tree.isNameTooLong path.lastName then .error (.tree .nameTooLong path)
        else .ok (location ++ [path.lastName])
    | .ok _ => .error (.tree .notDirectory path)
    | .error (.tree error _) => .error (.tree error path)
    | .error fault => .error fault

def leadsSomewhere (disk : Disk) (path : Path) : Bool :=
  match disk.locate path with
  | .ok _ => true
  | .error _ => false

/-! ### Making -/

def makeDirectory (disk : Disk) (path : Path) : Except Fault Disk := do
  let location ← disk.ownLocation path
  if path.names = [] ∨ path.lastName = Name.above ∨ (disk.tree.entry? location).isSome then
    throw (.tree .alreadyExists path)
  return disk.withTree (disk.tree.put location .directory)

def ensureDirectory (disk : Disk) (path : Path) : Except Fault Disk :=
  match disk.makeDirectory path with
  | .ok made => .ok made
  | .error (.tree error place) =>
      if error = .notFound then .error (.tree error place)
      else
        match disk.isDirectory path with
        | .ok true => .ok disk
        | .ok false => .error (.tree error place)
        | .error fault => .error fault
  | .error fault => .error fault

/-- Makes a directory unless there is one, and before that at most so many of those above it.  What
has been made stays. -/
def ensureDirectories (disk : Disk) : (above : Nat) → Path → Disk × Option Fault
  | above, path =>
      match disk.ensureDirectory path, above with
      | .ok made, _ => (made, none)
      | .error (.tree .notFound _), above + 1 =>
          match disk.ensureDirectories above path.parent with
          | (disk, some fault) => (disk, some fault)
          | (disk, none) =>
              match disk.ensureDirectory path with
              | .ok made => (made, none)
              | .error fault => (disk, some fault)
      | .error fault, _ => (disk, some fault)

def makeDirectories (disk : Disk) (path : Path) : Disk × Option Fault :=
  disk.ensureDirectories path.names.length path

def openFile (disk : Disk) (path : Path) : Except Fault Disk :=
  match disk.locate path with
  | .ok (_, .directory) => .error (.tree .isDirectory path)
  | .ok _ => .ok disk
  | .error (.tree .notFound place) =>
      match disk.tree.vacancy? Tree.greatestLinkCount [] path.names with
      | some location => .ok (disk.withTree (disk.tree.put location (.file .empty)))
      | none => .error (.tree .notFound place)
  | .error fault => .error fault

def append (disk : Disk) (path : Path) (bytes : ByteArray) : Disk :=
  match disk.locate path with
  | .ok (location, .file content) =>
      disk.withTree (disk.tree.put location (.file (content ++ bytes)))
  | _ => disk

/-! ### Moving -/

def clear (disk : Disk) (path : Path) : Except Disk Disk :=
  if disk.leadsSomewhere path then
    match disk.ownLocation path with
    | .error _ => .error disk
    | .ok location =>
        if (disk.tree.entry? location).any Entry.isDirectory then .error disk
        else .ok (disk.withTree (disk.tree.remove location))
  else .ok disk

/-- Moves the entry of one path to another that has been cleared, where at most a link that leads
nowhere stands. -/
def move (disk : Disk) (source target : Path) : Except Disk Disk :=
  match disk.ownLocation source, disk.ownLocation target with
  | .ok old, .ok new =>
      let isDirectory := (disk.tree.entry? old).any Entry.isDirectory
      if isDirectory && (disk.tree.entry? new).isSome then .error disk
      else .ok (disk.withTree ((disk.tree.remove new).rename old new))
  | _, _ => .error disk

end Disk

end IgnoreRules
