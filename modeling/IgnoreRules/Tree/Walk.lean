import IgnoreRules.Tree.Basic

/-!
Walking a path as the file system does: links are followed where they are met, and `..` leads to
the directory above the one that has been reached.  The size of each name and the number of links
are limited; the limit that a kernel sets on the size of a whole path is left out.
-/

namespace IgnoreRules

namespace Tree

def greatestNameSize : Nat := 255

def isNameTooLong (name : Name) : Bool :=
  greatestNameSize < (String.ofList name).utf8ByteSize

def greatestLinkCount : Nat := 40

/-- Walks on from a directory.  Where a link is met, `follow` goes on from the directory the link
counts from, with the components of the link before the rest. -/
def walkWith (tree : Tree)
    (follow : Location → List Name → Except TreeError (Location × Entry)) (here : Location) :
    List Name → Except TreeError (Location × Entry)
  | [] => .ok (here, .directory)
  | name :: rest =>
      if name = [] ∨ name = Name.here then walkWith tree follow here rest
      else if name = Name.above then walkWith tree follow here.dropLast rest
      else if isNameTooLong name then .error .nameTooLong
      else
        let there := here ++ [name]
        match tree.entry? there with
        | none => .error .notFound
        | some .directory => walkWith tree follow there rest
        | some (.file content) =>
            if rest = [] then .ok (there, .file content) else .error .notDirectory
        | some (.link target) =>
            let start := if Anchor.ofText target = .relative then here else []
            follow start (Path.components target ++ rest)

def walk (tree : Tree) : (links : Nat) → Location → List Name →
    Except TreeError (Location × Entry)
  | 0 => tree.walkWith fun _ _ => .error .tooManyLinks
  | links + 1 => tree.walkWith (tree.walk links)

end Tree

/-- A tree, and the directory that relative paths start from; no part of the latter is a link. -/
structure Disk where
  tree : Tree
  current : Path

namespace Disk

def hasNull (path : Path) : Bool :=
  path.names.any fun name => name.contains '\x00'

def locate (disk : Disk) (path : Path) : Except Fault (Location × Entry) :=
  if hasNull path then .error .nullCharacter
  else
    let start := if path.isAbsolute then [] else disk.current.names
    (disk.tree.walk Tree.greatestLinkCount start path.names).mapError (Fault.tree · path)

def meansAbsent : Fault → Bool
  | .tree .notFound _ => true
  | .tree .notDirectory _ => true
  | .tree .tooManyLinks _ => true
  | .nullCharacter => true
  | _ => false

def leadsTo (disk : Disk) (test : Entry → Bool) (path : Path) : Except Fault Bool :=
  match disk.locate path with
  | .ok (_, entry) => .ok (test entry)
  | .error fault => if meansAbsent fault then .ok false else .error fault

def pathExists (disk : Disk) (path : Path) : Except Fault Bool :=
  disk.leadsTo (fun _ => true) path

def isDirectory (disk : Disk) (path : Path) : Except Fault Bool :=
  disk.leadsTo Entry.isDirectory path

def readFile (disk : Disk) (path : Path) : Except Fault ByteArray :=
  match disk.locate path with
  | .ok (_, .file content) => .ok content
  | .ok _ => .error (.tree .isDirectory path)
  | .error fault => .error fault

def children (disk : Disk) (path : Path) : Except Fault (List Path) :=
  match disk.locate path with
  | .ok (location, .directory) => .ok ((disk.tree.childNames location).map path.child)
  | .ok _ => .error (.tree .notDirectory path)
  | .error fault => .error fault

end Disk

end IgnoreRules
