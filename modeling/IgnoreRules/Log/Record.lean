import IgnoreRules.Log.Level

/-!
Records that the library writes about its own work.  They never influence an answer: every
operation says on its own what it writes.
-/

namespace IgnoreRules

inductive Topic where
  | rule
  | file
  | cache
  | filter
  | workspace
  | settings
deriving DecidableEq, Repr

structure Record where
  level : Level
  topic : Topic
  message : String
deriving DecidableEq, Repr

def Record.showFlag (flag : Bool) : String :=
  if flag then "True" else "False"

end IgnoreRules
