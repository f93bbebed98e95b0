import IgnoreRules.Proofs.Tree.Content
import IgnoreRules.Proofs.Tree.Reached

/-!
Files that are taken away.  Every other path leads where it led before, a path that led to one of
the files leads nowhere, and since a file is no link, every path keeps its real path.
-/

namespace IgnoreRules

namespace Tree

def without (tree : Tree) (places : List Location) : Tree :=
  places.foldl remove tree

structure HoldsFiles (tree : Tree) (places : List Location) : Prop where
  plain : ∀ place ∈ places, ∀ name ∈ place, name.Plain
  files : ∀ place ∈ places, ∃ content, tree.entry? place = some (.file content)

variable {tree : Tree} {places : List Location} {location here : Location} {names : List Name}

theorem mentions_without (tree : Tree) (places : List Location) :
    (tree.without places).mentions =
      tree.mentions.filter fun mention => !places.any (·.isPrefixOf mention.1) := by
  induction places generalizing tree with
  | nil => simp [without]
  | cons place places inductionHypothesis =>
      have further := inductionHypothesis (tree.remove place)
      unfold without at further ⊢
      rw [List.foldl_cons, further, remove, List.filter_filter]
      congr 1
      funext mention
      simp [Bool.and_comm]

theorem mentioned?_without (nonempty : location ≠ []) :
    (tree.without places).mentioned? location =
      if places.any (·.isPrefixOf location) then none else tree.mentioned? location := by
  have kept := lookup_filter_key tree.mentions (fun key => !places.any (·.isPrefixOf key)) location
  rw [mentioned?, mentioned?, if_neg nonempty, if_neg nonempty, mentions_without, kept]
  cases places.any (·.isPrefixOf location) <;> rfl

theorem mentioned?_without_of_free (free : ∀ place ∈ places, ¬place <+: location) :
    (tree.without places).mentioned? location = tree.mentioned? location := by
  by_cases atRoot : location = []
  · simp [mentioned?, atRoot]
  · rw [mentioned?_without atRoot, if_neg]
    simpa [List.isPrefixOf_iff_prefix] using free

section

variable (holds : tree.HoldsFiles places)
include holds

theorem HoldsFiles.mentioned? {place : Location} (isPlace : place ∈ places) :
    place ≠ [] ∧ ∃ content, tree.mentioned? place = some (.file content) := by
  obtain ⟨content, isFile⟩ := holds.files place isPlace
  exact ⟨ne_nil_of_file isFile, content, mentioned?_of_file isFile⟩

theorem isDirectoryAt_without (location : Location) :
    (tree.without places).isDirectoryAt location = tree.isDirectoryAt location := by
  by_cases free : ∀ place ∈ places, ¬place <+: location
  · unfold isDirectoryAt
    congr 1
    funext length
    rw [mentioned?_without_of_free]
    intro place isPlace inFront
    exact free place isPlace (inFront.trans (List.take_prefix _ _))
  · -- A file is in front of the location, so there is no directory with or without it.
    push Not at free
    obtain ⟨place, isPlace, inFront⟩ := free
    obtain ⟨nonempty, content, isFile⟩ := holds.mentioned? isPlace
    have absent : (tree.without places).mentioned? place = none := by
      rw [mentioned?_without nonempty, if_pos]
      exact List.any_eq_true.mpr ⟨place, isPlace, List.isPrefixOf_iff_prefix.mpr List.prefix_rfl⟩
    rw [not_isDirectoryAt_of_file isFile inFront]
    obtain ⟨rest, rfl⟩ := inFront
    rw [isDirectoryAt, List.all_eq_false]
    refine ⟨place.length, ?_, by simp [absent]⟩
    rw [List.mem_range, List.length_append]
    omega

theorem entry?_without (location : Location) :
    Tree.entry? (tree.without places) location =
      if location ∈ places then none else tree.entry? location := by
  unfold entry?
  rw [isDirectoryAt_without holds]
  by_cases isPlace : location ∈ places
  · obtain ⟨nonempty, -⟩ := holds.mentioned? isPlace
    have covered : places.any (·.isPrefixOf location) = true :=
      List.any_eq_true.mpr ⟨location, isPlace, List.isPrefixOf_iff_prefix.mpr List.prefix_rfl⟩
    rw [mentioned?_without nonempty, if_pos covered, if_pos isPlace]
    split <;> rfl
  · rw [if_neg isPlace]
    by_cases free : ∀ place ∈ places, ¬place <+: location
    · rw [mentioned?_without_of_free free]
    · push Not at free
      obtain ⟨place, isOther, rest, rfl⟩ := free
      obtain ⟨-, content, isFile⟩ := holds.mentioned? isOther
      have more : rest ≠ [] := by
        rintro rfl
        exact isPlace (by simpa using isOther)
      have notDirectory : tree.isDirectoryAt (place ++ rest).dropLast = false := by
        rw [List.dropLast_append_of_ne_nil more]
        exact not_isDirectoryAt_of_file isFile (List.prefix_append _ _)
      rw [notDirectory]
      rfl

theorem link?_without (location : Location) :
    (tree.without places).link? location = tree.link? location := by
  unfold link?
  rw [Tree.entry?_without holds]
  by_cases isPlace : location ∈ places
  · obtain ⟨content, isFile⟩ := holds.files location isPlace
    rw [if_pos isPlace, isFile]
  · rw [if_neg isPlace]

theorem not_mem_of_directory (directory : tree.entry? here = some .directory) : here ∉ places := by
  intro isPlace
  obtain ⟨content, isFile⟩ := holds.files here isPlace
  simp [directory] at isFile

end

/-- How a walk ends before and after files are taken away. -/
def Spares (places : List Location) (before after : Except TreeError (Location × Entry)) : Prop :=
  match before with
  | .ok stop => after = if stop.1 ∈ places then .error .notFound else .ok stop
  | .error .notDirectory => after = .error .notDirectory ∨ after = .error .notFound
  | .error error => after = .error error

section

variable (holds : tree.HoldsFiles places)
include holds

theorem spares_walkWith
    {follow followAfter : Location → List Name → Except TreeError (Location × Entry)}
    (followSpares : ∀ here names, tree.entry? here = some .directory →
      Spares places (follow here names) (followAfter here names))
    (directory : tree.entry? here = some .directory) (names : List Name) :
    Spares places (tree.walkWith follow here names)
      ((tree.without places).walkWith followAfter here names) := by
  induction names generalizing here with
  | nil => simp [walkWith, Spares, not_mem_of_directory holds directory]
  | cons name names inductionHypothesis =>
      rw [walkWith, walkWith]
      split
      next => exact inductionHypothesis directory
      next =>
        split
        next => exact inductionHypothesis (entry?_dropLast_of_directory directory)
        next =>
          split
          next => rfl
          next =>
            dsimp only
            -- The walks part where a file has been taken away, and nowhere else.
            rw [Tree.entry?_without holds]
            by_cases isPlace : here ++ [name] ∈ places
            · obtain ⟨content, isFile⟩ := holds.files _ isPlace
              rw [if_pos isPlace, isFile]
              dsimp only
              split
              next => simp [Spares, isPlace]
              next => exact .inr rfl
            · rw [if_neg isPlace]
              cases present : tree.entry? (here ++ [name]) with
              | none => rfl
              | some entry =>
                  cases entry with
                  | directory => exact inductionHypothesis present
                  | file content =>
                      dsimp only
                      split
                      next => simp [Spares, isPlace]
                      next => exact .inl rfl
                  | link target =>
                      refine followSpares _ _ ?_
                      split
                      · exact directory
                      · exact entry?_nil

theorem spares_walk (links : Nat) (directory : tree.entry? here = some .directory)
    (names : List Name) :
    Spares places (tree.walk links here names)
      ((tree.without places).walk links here names) := by
  induction links generalizing here names with
  | zero =>
      have stuck (here : Location) (names : List Name)
          (_ : tree.entry? here = some .directory) :
          Spares places (.error .tooManyLinks) (.error .tooManyLinks) := rfl
      exact spares_walkWith holds stuck directory names
  | succ links inductionHypothesis =>
      exact spares_walkWith holds (fun _ names further => inductionHypothesis further names)
        directory names

end

end Tree

namespace Disk

def without (disk : Disk) (places : List Location) : Disk :=
  { disk with tree := disk.tree.without places }

def leadsInto (disk : Disk) (places : List Location) (path : Path) : Bool :=
  match disk.locate path with
  | .ok (location, _) => decide (location ∈ places)
  | .error _ => false

variable {disk : Disk} {places : List Location} {path : Path}

theorem leadsInto_iff :
    disk.leadsInto places path = true ↔ ∃ place ∈ places, disk.LeadsAt path place := by
  unfold leadsInto LeadsAt
  cases disk.locate path with
  | error fault => simp
  | ok stop => simp [Prod.ext_iff, eq_comm]

section

variable (holds : disk.tree.HoldsFiles places) (absolute : path.isAbsolute = true)
include holds absolute

theorem locate_without :
    (disk.locate path = .error .nullCharacter ∧
      (disk.without places).locate path = .error .nullCharacter) ∨
    ∃ before after, Tree.Spares places before after ∧
      disk.locate path = before.mapError (Fault.tree · path) ∧
      (disk.without places).locate path = after.mapError (Fault.tree · path) := by
  unfold locate
  split
  next => exact .inl ⟨rfl, rfl⟩
  next =>
    right
    exact ⟨_, _, Tree.spares_walk holds _ Tree.entry?_nil path.names, rfl, rfl⟩

theorem locate_without_of_ok {stop : Location × Entry} (located : disk.locate path = .ok stop)
    (elsewhere : stop.1 ∉ places) : (disk.without places).locate path = .ok stop := by
  rcases locate_without holds absolute with ⟨null, -⟩ | ⟨before, after, spares, isBefore, isAfter⟩
  · rw [null] at located
    contradiction
  · rw [isBefore] at located
    cases before with
    | error error => contradiction
    | ok reached =>
        cases located
        rw [isAfter, spares, if_neg elsewhere]
        rfl

theorem leadsTo_without (elsewhere : disk.leadsInto places path = false) (test : Entry → Bool) :
    (disk.without places).leadsTo test path = disk.leadsTo test path := by
  unfold leadsTo
  rcases locate_without holds absolute with
    ⟨null, nullAfter⟩ | ⟨before, after, spares, isBefore, isAfter⟩
  · rw [null, nullAfter]
  · rw [isBefore, isAfter]
    cases before with
    | ok stop =>
        have notPlace : stop.1 ∉ places := by
          rw [leadsInto, isBefore] at elsewhere
          simpa [Except.mapError] using elsewhere
        rw [spares, if_neg notPlace]
    | error error =>
        cases error with
        | notDirectory => rcases spares with rfl | rfl <;> rfl
        | _ => rw [show after = _ from spares]

theorem leadsTo_without_of_leadsInto (isInto : disk.leadsInto places path = true)
    (test : Entry → Bool) : (disk.without places).leadsTo test path = .ok false := by
  unfold leadsTo
  rcases locate_without holds absolute with ⟨null, -⟩ | ⟨before, after, spares, isBefore, isAfter⟩
  · simp [leadsInto, null] at isInto
  · rw [isAfter]
    cases before with
    | ok stop =>
        have isPlace : stop.1 ∈ places := by
          rw [leadsInto, isBefore] at isInto
          simpa [Except.mapError] using isInto
        rw [spares, if_pos isPlace]
        rfl
    | error error => simp [leadsInto, isBefore, Except.mapError] at isInto

end

theorem resolve_without (holds : disk.tree.HoldsFiles places)
    (absoluteCurrent : disk.current.isAbsolute = true) (spelled : path.IsSpelled) :
    (disk.without places).resolve path = disk.resolve path := by
  have sameLinks : ∀ location,
      (disk.without places).tree.link? location = disk.tree.link? location :=
    Tree.link?_without holds
  have sameRead := resolveWith_of_sameLinks sameLinks (isReal_root disk)
    (fun name present => (spelled.proper name present).noSlash) (hasRoom_nil disk) (hasRoom_nil _)
  unfold resolve
  rw [resolveText_text spelled, resolveText_text spelled, sameRead]
  split
  next => rfl
  next resolution _ =>
    have absolute : (Path.normalAbsolute disk.current resolution.path).isAbsolute = true :=
      Path.isAbsolute_absolute absoluteCurrent _
    -- The file system gives up on the same paths, with and without the files.
    have sameCurrent : (disk.without places).current = disk.current := rfl
    rw [sameCurrent]
    dsimp only
    rcases locate_without holds absolute with
      ⟨null, nullAfter⟩ | ⟨before, after, spares, isBefore, isAfter⟩
    · rw [null, nullAfter]
    · rw [isBefore, isAfter]
      cases before with
      | ok stop =>
          by_cases isPlace : stop.1 ∈ places
          · rw [spares, if_pos isPlace]
            rfl
          · rw [spares, if_neg isPlace]
      | error error =>
          cases error with
          | notDirectory => rcases spares with rfl | rfl <;> rfl
          | _ => rw [show after = _ from spares]

end Disk

end IgnoreRules
