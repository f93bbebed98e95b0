import IgnoreRules.Text.Pieces

/-!
Paths as an anchor and a list of names.  Empty and `.` components disappear on reading; `..`
stays, because what it means depends on the links of the tree.  Names are characters: half of a
surrogate pair, which can stand for a byte that is no text and makes some calls fail, is left out.
-/

namespace IgnoreRules

abbrev Name := List Char

/-- Where the names of a path start.  Exactly two slashes in front are kept apart from one. -/
inductive Anchor where
  | relative
  | root
  | doubleRoot
deriving DecidableEq, Repr

structure Path where
  anchor : Anchor
  names : List Name
deriving DecidableEq, Repr

def Name.here : Name := ['.']

def Name.above : Name := ['.', '.']

namespace Anchor

def ofText : List Char → Anchor
  | '/' :: '/' :: '/' :: _ => root
  | '/' :: '/' :: _ => doubleRoot
  | '/' :: _ => root
  | _ => relative

def text : Anchor → List Char
  | relative => []
  | root => ['/']
  | doubleRoot => ['/', '/']

end Anchor

namespace Path

def components (text : List Char) : List Name :=
  Text.pieces (· == '/') text

def significant (components : List Name) : List Name :=
  components.filter fun name => name != [] && name != Name.here

def ofText (text : List Char) : Path :=
  ⟨Anchor.ofText text, significant (components text)⟩

def text (path : Path) : List Char :=
  match path.anchor, path.names with
  | .relative, [] => Name.here
  | anchor, names => anchor.text ++ Text.unpieces '/' names

def isAbsolute (path : Path) : Bool :=
  path.anchor != .relative

def lastName (path : Path) : Name :=
  path.names.getLast?.getD []

def parent (path : Path) : Path :=
  { path with names := path.names.dropLast }

def join (base path : Path) : Path :=
  match path.anchor with
  | .relative => { base with names := base.names ++ path.names }
  | _ => path

def child (base : Path) (name : Name) : Path :=
  { base with names := base.names ++ [name] }

/-- A path after its prefixes have been cut off, nearest first. -/
def ancestors (path : Path) : List Path :=
  (List.range path.names.length).reverse.map fun length =>
    { path with names := path.names.take length }

def namesBelow? (ancestor path : Path) : Option (List Name) :=
  if ancestor.anchor = path.anchor ∧ ancestor.names <+: path.names then
    some (path.names.drop ancestor.names.length)
  else none

end Path

end IgnoreRules
