import IgnoreRules.Proofs.Text.Lookup
import IgnoreRules.Proofs.Tree.Real

/-!
A file that gets another content.  Every walk goes the same way as before, and only a walk that ends
at the file itself comes back with something else.
-/

namespace IgnoreRules

namespace Tree

def withContent (tree : Tree) (location : Location) (content : ByteArray) : Tree :=
  tree.put location (.file content)

variable {tree : Tree} {file location : Location} {old new : ByteArray}

theorem mentioned?_withContent (nonempty : file ≠ []) (location : Location) :
    (tree.withContent file new).mentioned? location =
      if location = file then some (.file new)
      else if file <+: location then none
      else tree.mentioned? location := by
  by_cases atRoot : location = []
  · have notBelow : ¬file <+: [] := fun inFront => nonempty (List.prefix_nil.mp inFront)
    simp [mentioned?, atRoot, nonempty.symm, notBelow]
  have kept (mentions : List (Location × Entry)) :=
    lookup_filter_key mentions (fun location => !file.isPrefixOf location) location
  unfold mentioned? withContent put remove
  rw [if_neg atRoot, if_neg atRoot, List.lookup_cons]
  dsimp only
  rw [kept]
  by_cases same : location = file
  · simp [same]
  · rw [beq_eq_false_iff_ne.mpr same, if_neg same]
    by_cases below : file <+: location
    · simp [below, List.isPrefixOf_iff_prefix.mpr below]
    · have notPrefix : file.isPrefixOf location = false := by
        simpa [← Bool.not_eq_true] using below
      simp [below, notPrefix]

theorem not_isDirectoryAt_of_file (isFile : tree.mentioned? file = some (.file old))
    (below : file <+: location) : tree.isDirectoryAt location = false := by
  obtain ⟨rest, rfl⟩ := below
  have inRange : file.length ∈ List.range ((file ++ rest).length + 1) := by
    rw [List.mem_range, List.length_append]
    omega
  rw [isDirectoryAt, List.all_eq_false]
  exact ⟨file.length, inRange, by simp [isFile, Entry.isDirectory]⟩

section

variable (isFile : tree.entry? file = some (.file old))
include isFile

theorem ne_nil_of_file : file ≠ [] := by
  rintro rfl
  simp at isFile

theorem mentioned?_of_file : tree.mentioned? file = some (.file old) := by
  unfold entry? at isFile
  split at isFile
  next => exact isFile
  next => contradiction

theorem isDirectoryAt_withContent (location : Location) :
    (tree.withContent file new).isDirectoryAt location = tree.isDirectoryAt location := by
  have nonempty := ne_nil_of_file isFile
  -- From the file on neither tree has a directory, and elsewhere they mention the same.
  by_cases below : file <+: location
  · have isNew : (tree.withContent file new).mentioned? file = some (.file new) := by
      rw [mentioned?_withContent nonempty, if_pos rfl]
    rw [not_isDirectoryAt_of_file (mentioned?_of_file isFile) below,
      not_isDirectoryAt_of_file isNew below]
  · unfold isDirectoryAt
    congr 1
    funext length
    have notFile : location.take length ≠ file := by
      rintro rfl
      exact below (List.take_prefix _ _)
    have notBelow : ¬file <+: location.take length := fun inFront =>
      below (inFront.trans (List.take_prefix _ _))
    rw [mentioned?_withContent nonempty, if_neg notFile, if_neg notBelow]

theorem entry?_withContent (location : Location) :
    Tree.entry? (tree.withContent file new) location =
      if location = file then some (.file new) else tree.entry? location := by
  have nonempty := ne_nil_of_file isFile
  unfold entry?
  rw [isDirectoryAt_withContent isFile, mentioned?_withContent nonempty]
  by_cases same : location = file
  · subst same
    have inDirectory : tree.isDirectoryAt location.dropLast = true := by
      by_contra notDirectory
      simp [Tree.entry?, notDirectory] at isFile
    simp [inDirectory]
  · rw [if_neg same, if_neg same]
    by_cases below : file <+: location
    · have above : file <+: location.dropLast := by
        obtain ⟨rest, rfl⟩ := below
        rw [List.dropLast_append_of_ne_nil (by simpa using same)]
        exact List.prefix_append _ _
      rw [not_isDirectoryAt_of_file (mentioned?_of_file isFile) above]
      rfl
    · rw [if_neg below]

theorem link?_withContent (location : Location) :
    (tree.withContent file new).link? location = tree.link? location := by
  unfold link?
  rw [Tree.entry?_withContent isFile]
  by_cases same : location = file
  · rw [if_pos same, same, isFile]
  · rw [if_neg same]

theorem isLinkFree_withContent_iff : (tree.withContent file new).IsLinkFree location ↔
    tree.IsLinkFree location := by
  unfold IsLinkFree
  simp only [link?_withContent isFile]

end

def refill (file : Location) (new : ByteArray) : Location × Entry → Location × Entry
  | (location, .file content) => (location, .file (if location = file then new else content))
  | stop => stop

section

variable (isFile : tree.entry? file = some (.file old))
include isFile

theorem walkWith_withContent
    {follow followNew : Location → List Name → Except TreeError (Location × Entry)}
    (sameFollow : ∀ here names, followNew here names = (follow here names).map (refill file new))
    (here : Location) (names : List Name) :
    (tree.withContent file new).walkWith followNew here names =
      (tree.walkWith follow here names).map (refill file new) := by
  induction names generalizing here with
  | nil => rfl
  | cons name names inductionHypothesis =>
      rw [walkWith, walkWith]
      split
      next => exact inductionHypothesis here
      next =>
        split
        next => exact inductionHypothesis here.dropLast
        next =>
          split
          next => rfl
          next =>
            dsimp only
            -- The walks could part only here, at the file, where both end.
            rw [Tree.entry?_withContent isFile]
            by_cases atFile : here ++ [name] = file
            · rw [if_pos atFile, atFile, isFile]
              dsimp only
              split
              next => simp [Except.map, refill]
              next => rfl
            · rw [if_neg atFile]
              cases tree.entry? (here ++ [name]) with
              | none => rfl
              | some entry =>
                  cases entry with
                  | directory => exact inductionHypothesis _
                  | file content =>
                      dsimp only
                      split
                      next => simp [Except.map, refill, atFile]
                      next => rfl
                  | link target => exact sameFollow _ _

theorem walk_withContent (links : Nat) (here : Location) (names : List Name) :
    (tree.withContent file new).walk links here names =
      (tree.walk links here names).map (refill file new) := by
  induction links generalizing here names with
  | zero =>
      have stuck (here : Location) (names : List Name) :
          (.error .tooManyLinks : Except TreeError (Location × Entry)) =
            Except.map (refill file new) (.error .tooManyLinks) := rfl
      exact walkWith_withContent isFile stuck here names
  | succ links inductionHypothesis =>
      exact walkWith_withContent isFile inductionHypothesis here names

end

end Tree

namespace Disk

def withContent (disk : Disk) (location : Location) (content : ByteArray) : Disk :=
  { disk with tree := disk.tree.withContent location content }

def LeadsAt (disk : Disk) (path : Path) (location : Location) : Prop :=
  ∃ entry, disk.locate path = .ok (location, entry)

theorem LeadsAt.hasNull_eq_false {disk : Disk} {path : Path} {location : Location}
    (leads : disk.LeadsAt path location) : hasNull path = false := by
  obtain ⟨entry, located⟩ := leads
  cases null : hasNull path with
  | false => rfl
  | true =>
      rw [locate, if_pos null] at located
      contradiction

theorem IsReal.eq_of_leadsAt {disk : Disk} {path other : Path} (real : disk.IsReal path)
    (realOther : disk.IsReal other) (leads : disk.LeadsAt other path.names) : other = path := by
  obtain ⟨entry, located⟩ := leads
  obtain ⟨-, -, sameNames⟩ := realOther.locate_ok_iff.mp located
  obtain ⟨anchor, names⟩ := path
  obtain ⟨otherAnchor, otherNames⟩ := other
  obtain rfl : anchor = .root := real.anchored
  obtain rfl : otherAnchor = .root := realOther.anchored
  rw [show otherNames = names from sameNames.symm]

variable {disk : Disk} {file : Location} {old new : ByteArray}
  (isFile : disk.tree.entry? file = some (.file old))
include isFile

theorem locate_withContent (path : Path) :
    (disk.withContent file new).locate path = (disk.locate path).map (Tree.refill file new) := by
  unfold locate withContent
  split
  next => rfl
  next =>
    dsimp only
    rw [Tree.walk_withContent isFile]
    cases disk.tree.walk Tree.greatestLinkCount _ path.names <;> rfl

/-- Only paths that lead to the file are read differently. -/
theorem readFile_withContent {path : Path} (elsewhere : ¬disk.LeadsAt path file) :
    (disk.withContent file new).readFile path = disk.readFile path := by
  unfold readFile
  rw [locate_withContent isFile]
  cases located : disk.locate path with
  | error fault => rfl
  | ok stop =>
      obtain ⟨location, entry⟩ := stop
      have notFile : location ≠ file := by
        rintro rfl
        exact elsewhere ⟨entry, located⟩
      cases entry with
      | file content => simp [Except.map, Tree.refill, notFile]
      | directory => rfl
      | link target => rfl

theorem isReal_withContent {path : Path} (real : disk.IsReal path) :
    (disk.withContent file new).IsReal path where
  anchored := real.anchored
  plain := real.plain
  noNull := real.noNull
  linkFree := (Tree.isLinkFree_withContent_iff isFile).mpr real.linkFree

end Disk

end IgnoreRules
