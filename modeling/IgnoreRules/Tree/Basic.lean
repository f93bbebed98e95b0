import IgnoreRules.Text.Order
import IgnoreRules.Tree.Error

/-!
Trees of files, directories and symbolic links.  A tree lists what stands at each location, a
location being the names that lead there from the root.  What stands below something other than a
directory is not there.
-/

namespace IgnoreRules

/-- The names from the root to a place, none of which is a link. -/
abbrev Location := List Name

inductive Entry where
  | file (content : ByteArray)
  | directory
  | link (target : List Char)

def Entry.isDirectory : Entry → Bool
  | directory => true
  | _ => false

/-- What stands where; the first mention of a location counts. -/
structure Tree where
  mentions : List (Location × Entry)

namespace Tree

def empty : Tree := ⟨[]⟩

def mentioned? (tree : Tree) (location : Location) : Option Entry :=
  if location = [] then some .directory else tree.mentions.lookup location

def isDirectoryAt (tree : Tree) (location : Location) : Bool :=
  (List.range (location.length + 1)).all fun length =>
    (tree.mentioned? (location.take length)).any Entry.isDirectory

def entry? (tree : Tree) (location : Location) : Option Entry :=
  if tree.isDirectoryAt location.dropLast then tree.mentioned? location else none

def link? (tree : Tree) (location : Location) : Option (List Char) :=
  match tree.entry? location with
  | some (.link target) => some target
  | _ => none

def linkCount (tree : Tree) : Nat :=
  tree.mentions.countP fun mention =>
    match mention.2 with
    | .link _ => true
    | _ => false

def childNames (tree : Tree) (location : Location) : List Name :=
  let names := tree.mentions.filterMap fun mention =>
    if mention.1 ≠ [] ∧ mention.1.dropLast = location then mention.1.getLast? else none
  Text.sorted names.eraseDups

def remove (tree : Tree) (location : Location) : Tree :=
  ⟨tree.mentions.filter fun mention => !location.isPrefixOf mention.1⟩

def put (tree : Tree) (location : Location) (entry : Entry) : Tree :=
  match entry with
  | .directory => ⟨(location, entry) :: tree.mentions.filter fun mention => mention.1 != location⟩
  | _ => ⟨(location, entry) :: (tree.remove location).mentions⟩

end Tree

end IgnoreRules
