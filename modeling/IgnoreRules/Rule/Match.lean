import IgnoreRules.Path.Basic
import IgnoreRules.Rule.Basic

/-!
Whether a rule applies to a path.  `Segment.Covers` says what a list of segments means;
`Rule.matchesParts` decides it by following all cuts of the path at once.
-/

namespace IgnoreRules

namespace Segment

def accepts : Segment → Name → Bool
  | globstar, _ => false
  | name expression, component => expression.matchesAll component

/-- The components can be cut, in order and with nothing left over, into one block for each
segment. -/
inductive Covers : List Segment → List Name → Prop where
  | nil : Covers [] []
  | name {segment segments component components} :
      segment.accepts component = true → Covers segments components →
      Covers (segment :: segments) (component :: components)
  | globstarStop {segments components} :
      Covers segments components → Covers (globstar :: segments) components
  | globstarMore {segments component components} :
      Covers (globstar :: segments) components →
      Covers (globstar :: segments) (component :: components)

def spread : (reached : Bool) → List Bool → List Bool
  | _, [] => []
  | reached, here :: rest => (reached || here) :: spread (reached || here) rest

/-- The positions that a segment leads to from the marked ones; there is one position before each
component and one after the last. -/
def advance (components : List Name) (marked : List Bool) : Segment → List Bool
  | globstar => spread false marked
  | segment =>
      false :: List.zipWith (fun here component => here && segment.accepts component)
        marked components

end Segment

namespace Rule

def starts (rule : Rule) (count : Nat) : List Bool :=
  (List.range (count + 1)).map fun position =>
    if rule.basenameOnly then position + 1 == count
    else if rule.rooted then position == 0
    else true

/-- The segments lead from an allowed start to the end of the components. -/
def matchesParts (rule : Rule) (components : List Name) : Bool :=
  components != [] &&
    ((rule.segments.foldl (Segment.advance components)
      (rule.starts components.length)).getLast?.getD false)

def matchesText (rule : Rule) (path : List Char) : Bool :=
  rule.matchesParts (Path.significant (Path.components path))

end Rule

structure Platform where
  forbids : Char → Bool

namespace Platform

def unix : Platform := ⟨(· == '\x00')⟩

def windows : Platform :=
  ⟨fun character => character.toNat < 32 || "<>:\"|?*".toList.contains character⟩

end Platform

structure IllegalPath where
  /-- The impossible characters in it, in ascending order. -/
  characters : List Char
  path : List Char
deriving DecidableEq, Repr

def IllegalPath.message (illegal : IllegalPath) : String :=
  let characters := Text.quotedList (illegal.characters.map ([·]))
  let path := Text.quoted illegal.path
  s!"Illegal characters {characters} in path {path}"

def Platform.names (platform : Platform) (path : List Char) : Except IllegalPath (List Name) :=
  match path.filter platform.forbids with
  | [] => .ok (Path.ofText (path.dropWhile (· == '/'))).names
  | found => .error ⟨found.eraseDups.mergeSort fun low high => decide (low ≤ high), path⟩

namespace Rule

def matchesPath (platform : Platform) (rule : Rule) (path : List Char) : Bool :=
  match platform.names path with
  | .ok names => rule.matchesParts names
  | .error _ => rule.matchesText path

def applies (platform : Platform) (rule : Rule) (path : List Char) (isDir : Bool) : Bool :=
  (isDir || !rule.dirOnly) && rule.matchesPath platform path

def appliesRecords (platform : Platform) (rule : Rule) (path : List Char) (isDir : Bool) :
    List Record :=
  if rule.dirOnly && !isDir then []
  else
    let source := Text.quoted rule.source
    let fallback : List Record :=
      match platform.names path with
      | .ok _ => []
      | .error illegal =>
          let complaint := illegal.message
          [⟨.debug, .rule, s!"Rule {source}: {complaint}; falling back to text match"⟩]
    let shownPath := Text.quoted path
    let shownFlag := Record.showFlag isDir
    let hit : List Record :=
      if rule.matchesPath platform path then
        [⟨.trace, .rule, s!"Rule {source} matched {shownPath} (isDir={shownFlag})"⟩]
      else []
    fallback ++ hit

end Rule

end IgnoreRules
