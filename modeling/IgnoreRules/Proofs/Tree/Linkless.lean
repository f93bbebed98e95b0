import IgnoreRules.Proofs.Text.Case
import IgnoreRules.Proofs.Tree.Straight

/-!
Disks without links.  Every normal path is its own real path there, and what it leads to is what the
tree mentions at its names.
-/

namespace IgnoreRules

namespace Tree

variable {tree : Tree} {here location : Location} {name : Name} {names rest : List Name}
  {follow : Location → List Name → Except TreeError (Location × Entry)}

def HoldsNames (tree : Tree) : Prop :=
  ∀ mention ∈ tree.mentions, ∀ name ∈ mention.1, isNameTooLong name = false ∧ name.NoNull

instance : DecidablePred HoldsNames := fun tree =>
  inferInstanceAs (Decidable (∀ mention ∈ tree.mentions, ∀ name ∈ mention.1,
    isNameTooLong name = false ∧ name.NoNull))

theorem HoldsNames.of_present {entry : Entry} (holds : tree.HoldsNames)
    (present : tree.entry? location = some entry) :
    ∀ name ∈ location, isNameTooLong name = false ∧ name.NoNull := by
  intro name inLocation
  have nonempty : location ≠ [] := List.ne_nil_of_mem inLocation
  exact holds _ (mem_mentions_of_present nonempty present) name inLocation

theorem link?_eq_none (linkless : tree.linkCount = 0) (location : Location) :
    tree.link? location = none := by
  cases isLink : tree.link? location with
  | none => rfl
  | some target =>
      have counted := List.countP_eq_zero.mp linkless _ (mem_mentions_of_link? isLink)
      simp at counted

theorem walkWith_append (plain : ∀ name ∈ names, name.Plain)
    (short : ∀ name ∈ names, isNameTooLong name = false)
    (directory : tree.entry? (here ++ names) = some .directory) :
    tree.walkWith follow here (names ++ rest) = tree.walkWith follow (here ++ names) rest := by
  induction names generalizing here with
  | nil => simp
  | cons name names inductionHypothesis =>
      rw [List.forall_mem_cons] at plain short
      have there : tree.entry? (here ++ [name]) = some .directory := by
        by_cases last : names = []
        · simpa [last] using directory
        · have below : tree.entry? (here ++ [name] ++ names) = some .directory := by
            simpa using directory
          exact entry?_eq_directory_of_append last below
      have further := @inductionHypothesis (here ++ [name]) plain.2 short.2
        (by simpa using directory)
      rw [List.cons_append, walkWith_cons_of_plain plain.1, short.1, there]
      simpa using further

section

variable (plain : ∀ name ∈ names, name.Plain)
  (short : ∀ name ∈ names, isNameTooLong name = false)
  (directory : tree.entry? names = some .directory) (plainLast : name.Plain) (links : Nat)
include plain short directory plainLast

theorem walk_child_of_long (long : isNameTooLong name = true) :
    tree.walk links [] (names ++ [name]) = .error .nameTooLong := by
  cases links <;>
    rw [walk, walkWith_append plain short directory, walkWith_cons_of_plain plainLast, if_pos long]

theorem walk_child_of_absent (notLong : isNameTooLong name = false)
    (absent : tree.entry? (names ++ [name]) = none) :
    tree.walk links [] (names ++ [name]) = .error .notFound := by
  cases links <;>
    rw [walk, walkWith_append plain short directory, walkWith_cons_of_plain plainLast,
      if_neg (by simp [notLong]), List.nil_append, absent]

end

theorem mem_childNames_iff :
    name ∈ tree.childNames location ↔ location ++ [name] ∈ tree.mentions.map Prod.fst := by
  unfold childNames Text.sorted
  rw [List.mem_mergeSort, List.mem_eraseDups, List.mem_filterMap, List.mem_map]
  constructor
  · rintro ⟨mention, isMention, last⟩
    split at last
    next below =>
      obtain ⟨before, final, split⟩ := (List.eq_nil_or_concat mention.1).resolve_left below.1
      refine ⟨mention, isMention, ?_⟩
      rw [split, List.concat_eq_append] at last below ⊢
      simp_all
    next => contradiction
  · rintro ⟨mention, isMention, same⟩
    exact ⟨mention, isMention, by simp [same]⟩

theorem mem_childNames {entry : Entry} (present : tree.entry? (location ++ [name]) = some entry) :
    name ∈ tree.childNames location :=
  mem_childNames_iff.mpr (List.mem_map_of_mem (mem_mentions_of_present (by simp) present))

end Tree

theorem Path.join_ofText_of_plain {name : Name} (plain : name.Plain) (directory : Path) :
    directory.join (Path.ofText name) = directory.child name := by
  have spelled : Path.ofText name = ⟨.relative, [name]⟩ := by
    have anchor : Anchor.ofText name = .relative := by
      unfold Anchor.ofText
      split <;> first | rfl | exact absurd plain.noSlash (by simp)
    rw [Path.ofText, anchor, Path.components, Text.pieces_of_not_mem plain.noSlash,
      Path.significant_eq_self (by simpa using plain.toProper)]
  rw [spelled]
  rfl

namespace Disk

variable {disk : Disk} {path directory : Path} {name : Name} {entry : Entry}

theorem freeOfCircles_of_linkless (linkless : disk.tree.linkCount = 0) : disk.FreeOfCircles := by
  apply freeOfCircles_of_straight
  intro location target isLink
  rw [Tree.link?_eq_none linkless] at isLink
  contradiction

theorem isReal_of_linkless (linkless : disk.tree.linkCount = 0) (anchored : path.anchor = .root)
    (plain : ∀ name ∈ path.names, name.Plain) (noNull : ∀ name ∈ path.names, name.NoNull) :
    disk.IsReal path where
  anchored := anchored
  plain := plain
  noNull := noNull
  linkFree := fun front _ => Tree.link?_eq_none linkless front

section

variable (holds : disk.tree.HoldsNames)
include holds

theorem IsReal.locate_of_present (real : disk.IsReal path)
    (present : disk.tree.entry? path.names = some entry) :
    disk.locate path = .ok (path.names, entry) :=
  real.locate_ok_iff.mpr ⟨fun name inPath => (holds.of_present present name inPath).1, present, rfl⟩

theorem IsReal.leadsTo_eq_true_iff (real : disk.IsReal path) (test : Entry → Bool) :
    disk.leadsTo test path = .ok true ↔ (disk.tree.entry? path.names).any test = true := by
  unfold leadsTo
  cases present : disk.tree.entry? path.names with
  | some entry =>
      rw [real.locate_of_present holds present]
      simp
  | none =>
      cases located : disk.locate path with
      | ok stop =>
          have found := (real.locate_ok_iff.mp located).2.1
          rw [present] at found
          contradiction
      | error fault =>
          dsimp only
          split <;> simp

/-- Looking for a name in a directory fails only when the name is too long. -/
theorem pathExists_child (linkless : disk.tree.linkCount = 0) (real : disk.IsReal directory)
    (isDirectory : disk.tree.entry? directory.names = some .directory) (plain : name.Plain)
    (noNull : name.NoNull) :
    disk.pathExists (directory.child name) =
      if Tree.isNameTooLong name then .error (.tree .nameTooLong (directory.child name))
      else .ok (disk.tree.entry? (directory.names ++ [name])).isSome := by
  have realChild : disk.IsReal (directory.child name) :=
    real.child plain noNull (Tree.link?_eq_none linkless _)
  have short : ∀ other ∈ directory.names, Tree.isNameTooLong other = false :=
    fun other present => (holds.of_present isDirectory other present).1
  split
  next long =>
    have walked := Tree.walk_child_of_long real.plain short isDirectory plain
      Tree.greatestLinkCount long
    rw [pathExists, leadsTo, realChild.locate_eq_walk, Path.child, walked]
    rfl
  next notLong =>
    cases present : disk.tree.entry? (directory.names ++ [name]) with
    | some entry =>
        have found := realChild.leadsTo_eq_true_iff holds fun _ => true
        rw [pathExists, Option.isSome_some, found]
        simp [Path.child, present]
    | none =>
        have walked := Tree.walk_child_of_absent real.plain short isDirectory plain
          Tree.greatestLinkCount (by simpa using notLong) present
        rw [pathExists, leadsTo, realChild.locate_eq_walk, Path.child, walked]
        rfl

theorem IsReal.children_eq (real : disk.IsReal directory)
    (isDirectory : disk.tree.entry? directory.names = some .directory) :
    disk.children directory =
      .ok ((disk.tree.childNames directory.names).map directory.child) := by
  rw [children, real.locate_of_present holds isDirectory]

theorem IsReal.readFile_eq {content : ByteArray} (real : disk.IsReal path)
    (isFile : disk.tree.entry? path.names = some (.file content)) :
    disk.readFile path = .ok content := by
  rw [readFile, real.locate_of_present holds isFile]

end

end Disk

end IgnoreRules
