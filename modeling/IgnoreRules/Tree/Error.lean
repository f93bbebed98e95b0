import IgnoreRules.Path.Basic
import IgnoreRules.Text.Quoted

/-!
Why a call on the tree fails.
-/

namespace IgnoreRules

inductive TreeError where
  | notFound
  | alreadyExists
  | notDirectory
  | isDirectory
  | nameTooLong
  | tooManyLinks
deriving DecidableEq, Repr

namespace TreeError

def number : TreeError → Nat
  | notFound => 2
  | alreadyExists => 17
  | notDirectory => 20
  | isDirectory => 21
  | nameTooLong => 36
  | tooManyLinks => 40

def description : TreeError → String
  | notFound => "No such file or directory"
  | alreadyExists => "File exists"
  | notDirectory => "Not a directory"
  | isDirectory => "Is a directory"
  | nameTooLong => "File name too long"
  | tooManyLinks => "Too many levels of symbolic links"

def message (error : TreeError) (path : Path) : String :=
  let number := error.number
  let description := error.description
  let shown := Text.quoted path.text
  s!"[Errno {number}] {description}: {shown}"

end TreeError

inductive OutageKind where
  | system
  | text
  | runtime
deriving DecidableEq, Repr

inductive Fault where
  | tree (error : TreeError) (path : Path)
  /-- Following links at this path never ends. -/
  | linkLoop (path : Path)
  /-- No system call takes a null character. -/
  | nullCharacter
  | outage (kind : OutageKind)
deriving DecidableEq, Repr

namespace Fault

def message : Fault → String
  | tree error path => error.message path
  | linkLoop path => "Symlink loop from " ++ Text.quoted path.text
  | nullCharacter => "embedded null byte"
  | outage _ => "simulated"

def isSystem : Fault → Bool
  | tree _ _ => true
  | outage .system => true
  | _ => false

/-- The fault stands for a file that cannot be had as text. -/
def isUnreadable : Fault → Bool
  | tree _ _ => true
  | outage .system => true
  | outage .text => true
  | _ => false

end Fault

end IgnoreRules
