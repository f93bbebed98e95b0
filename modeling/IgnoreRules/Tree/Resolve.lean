import IgnoreRules.Path.Lexical
import IgnoreRules.Tree.Walk

/-!
The real path of a path: every link on the way is replaced by what it stands for.  What does not
exist is kept by its name, and `..` takes away the name before it, which by then is no link.

Links are replaced however deep they are nested.  A program that does this by recursion runs out of
stack at some depth, far beyond the number of links that the file system follows; that is left out.
-/

namespace IgnoreRules

namespace Disk

def linkAt? (disk : Disk) (path : Path) : Option (List Char) :=
  disk.tree.link? (Path.normalAbsolute disk.current path).names

/-- One directory up; above a relative path that is used up, or that already leads up, another
`..` is kept. -/
def up (path : Path) : Path :=
  { path with
    names := (Path.pushLexically path.isAbsolute path.names.reverse Name.above).reverse }

def withRest (path : Path) (rest : List Name) : Path :=
  path.join (Path.ofText (Text.unpieces '/' rest))

/-- A real path, or the path at which links turn out to run in a circle. -/
structure Resolution where
  path : Path
  complete : Bool
deriving DecidableEq, Repr

/-- Resolves components below a resolved path.  `underway` holds the links being replaced; `follow`
resolves the text of a link that is added to them. -/
def resolveWith (disk : Disk)
    (follow : (underway : List Path) → Path → List Char → Except Fault Resolution)
    (underway : List Path) (here : Path) : List Name → Except Fault Resolution
  | [] => .ok ⟨here, true⟩
  | name :: rest =>
      if name = [] ∨ name = Name.here then disk.resolveWith follow underway here rest
      else if name = Name.above then disk.resolveWith follow underway (up here) rest
      else if name.contains '\x00' then .error .nullCharacter
      else
        let there := here.child name
        match disk.linkAt? there with
        | none => disk.resolveWith follow underway there rest
        | some target =>
            if there ∈ underway then .ok ⟨withRest there rest, false⟩
            else
              match follow (there :: underway) here target with
              | .error fault => .error fault
              | .ok ⟨path, true⟩ => disk.resolveWith follow underway path rest
              | .ok ⟨path, false⟩ => .ok ⟨withRest path rest, false⟩

def resolveText (disk : Disk) : (depth : Nat) → (underway : List Path) → Path → List Char →
    Except Fault Resolution
  | depth, underway, here, text =>
      let start := if Anchor.ofText text = .relative then here else ⟨.root, []⟩
      let follow :=
        match depth with
        | 0 => fun _ here target => .ok ⟨withRest here (Path.components target), false⟩
        | depth + 1 => disk.resolveText depth
      disk.resolveWith follow underway start (Path.components text)

/-- How deep links can be nested: each may be met by its relative and by its absolute path. -/
def greatestDepth (disk : Disk) : Nat :=
  2 * disk.tree.linkCount + 1

def resolve (disk : Disk) (path : Path) : Except Fault Path :=
  match disk.resolveText disk.greatestDepth [] ⟨.relative, []⟩ path.text with
  | .error fault => .error fault
  | .ok resolution =>
      let real := Path.normalAbsolute disk.current resolution.path
      match disk.locate real with
      | .error (.tree .tooManyLinks _) => .error (.linkLoop real)
      | .error .nullCharacter => .error .nullCharacter
      | _ => .ok real

end Disk

end IgnoreRules
