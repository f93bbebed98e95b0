import IgnoreRules.Path.Basic

/-!
Normalisation by the text alone: each `..` takes away the name before it, whatever that name is a
link to.
-/

namespace IgnoreRules

namespace Path

def pushLexically (anchored : Bool) (reached : List Name) (name : Name) : List Name :=
  if name = Name.above then
    match reached with
    | [] => if anchored then [] else [name]
    | last :: before => if last = Name.above then name :: last :: before else before
  else name :: reached

/-- The path with every `..` that has a name before it taken away together with that name, and
without any above the root. -/
def normal (path : Path) : Path :=
  { path with names := (path.names.foldl (pushLexically path.isAbsolute) []).reverse }

def absolute (current path : Path) : Path :=
  current.join path

def normalAbsolute (current path : Path) : Path :=
  (absolute current path).normal

@[simp]
theorem normal_anchor (path : Path) : path.normal.anchor = path.anchor := rfl

theorem isAbsolute_absolute {current : Path} (anchored : current.isAbsolute = true) (path : Path) :
    (absolute current path).isAbsolute = true := by
  obtain ⟨anchor, names⟩ := path
  cases anchor <;> simp_all [absolute, join, isAbsolute]

end Path

end IgnoreRules
