import IgnoreRules.Proofs.Cache.Absent
import IgnoreRules.Proofs.Cache.Calls
import IgnoreRules.Proofs.Cache.Heard

/-!
Levels at which the ignore file cannot be had.  A question passes them over as if they had none, so
its answer is the one without these files.
-/

namespace IgnoreRules

theorem takeWhile_congr {Alpha : Type} {values : List Alpha} {test other : Alpha → Bool}
    (same : ∀ value ∈ values, test value = other value) :
    values.takeWhile test = values.takeWhile other := by
  induction values with
  | nil => rfl
  | cons value rest inductionHypothesis =>
      rw [List.forall_mem_cons] at same
      rw [List.takeWhile_cons, List.takeWhile_cons, same.1, inductionHypothesis same.2]

/-- Wherever the path leads, it is one of these places. -/
def Disk.LeadsOnlyInto (disk : Disk) (places : List Location) (path : Path) : Prop :=
  ∀ place, disk.LeadsAt path place → place ∈ places

theorem Disk.leadsOnlyInto_of_leadsInto {disk : Disk} {places : List Location} {path : Path}
    (isInto : disk.leadsInto places path = true) : disk.LeadsOnlyInto places path := by
  rintro other ⟨otherEntry, locatedOther⟩
  obtain ⟨place, isPlace, entry, located⟩ := leadsInto_iff.mp isInto
  cases located.symm.trans locatedOther
  exact isPlace

theorem Disk.LeadsOnlyInto.not_exists {disk : Disk} {places : List Location} {path : Path}
    (only : disk.LeadsOnlyInto places path) (elsewhere : disk.leadsInto places path = false) :
    disk.pathExists path ≠ .ok true := by
  intro isThere
  obtain ⟨⟨place, entry⟩, located⟩ := exists_locate_of_leadsTo isThere
  have isInto := leadsInto_iff.mpr ⟨place, only place ⟨entry, located⟩, entry, located⟩
  rw [isInto] at elsewhere
  contradiction

theorem Disk.LeadsOnlyInto.not_isDirectory {disk : Disk} {places : List Location} {path : Path}
    (only : disk.LeadsOnlyInto places path) (holds : disk.tree.HoldsFiles places)
    (absolute : path.isAbsolute = true) : disk.isDirectory path ≠ .ok true := by
  intro isDirectory
  obtain ⟨⟨place, entry⟩, located⟩ := exists_locate_of_leadsTo isDirectory
  have isInto := leadsInto_iff.mpr ⟨place, only place ⟨entry, located⟩, entry, located⟩
  have absent : (disk.without places).isDirectory path = .ok false :=
    leadsTo_without_of_leadsInto holds absolute isInto _
  rw [isDirectory_without holds absolute, isDirectory] at absent
  contradiction

theorem forgive_of_not_isDirectory {disk : Disk} {path : Path}
    (notDirectory : disk.isDirectory path ≠ .ok true) :
    forgive Fault.isSystem false (disk.isDirectory path) = .ok false := by
  cases shown : disk.isDirectory path with
  | error fault => exact if_pos (Disk.isSystem_of_leadsTo shown)
  | ok isDirectory =>
      cases isDirectory with
      | true => exact absurd shown notDirectory
      | false => rfl

namespace Workspace

variable {workspace : Workspace} {places : List Location} {path directory root : Path}

/-- The directories that a question about a path may ask for their ignore files. -/
def levels (workspace : Workspace) (path : Path) : List Path :=
  match workspace.root? with
  | none => []
  | some root => (root.join path).normal :: (root.join path).normal.ancestors

def LevelFails (workspace : Workspace) (directory : Path) : Prop :=
  (∃ fault, workspace.ignoreFileSought directory = .error fault ∧ fault.isSystem = true) ∨
    ∃ fault, workspace.textOf (workspace.ignoreFilePath directory) = .error fault ∧
      fault.isUnreadable = true

/-- Calls are made to fail at some files only, and the ignore file of every level that leads to one
of them cannot be had. -/
structure IsBroken (workspace : Workspace) (places : List Location) (path : Path) : Prop where
  holds : workspace.disk.tree.HoldsFiles places
  read : ∀ struck, workspace.outages.read struck ≠ none →
    workspace.disk.LeadsOnlyInto places struck
  isDir : ∀ struck, workspace.outages.isDir struck ≠ none →
    workspace.disk.LeadsOnlyInto places struck
  findChild : ∀ struck, workspace.outages.findChild struck ≠ none →
    workspace.disk.LeadsOnlyInto places (workspace.ignoreFilePath struck)
  fails : ∀ directory ∈ workspace.levels path,
    workspace.disk.leadsInto places (workspace.ignoreFilePath directory) = true →
      workspace.LevelFails directory

/-- At no level does the name of the ignore file with its case swapped lead to one of these files,
or the name is plain, so that a listing tells the two apart. -/
def TellsApart (workspace : Workspace) (places : List Location) (path : Path) : Prop :=
  workspace.ignoreFilename.Plain ∨ ∀ directory ∈ workspace.levels path,
    workspace.disk.leadsInto places
      (directory.join (Path.ofText (Text.swapCase workspace.ignoreFilename))) = false

theorem isSpelled_of_mem_levels
    (spelled : ∀ root, workspace.root? = some root → (root.join path).IsSpelled)
    (onWay : directory ∈ workspace.levels path) : directory.IsSpelled := by
  unfold levels at onWay
  cases located : workspace.root? with
  | none => simp [located] at onWay
  | some root =>
      rw [located] at onWay
      exact (spelled root located).normal.cons_ancestors directory onWay

theorem fileHeard?_of_fails (failing : workspace.LevelFails directory) :
    workspace.fileHeard? directory = none := by
  cases heard : workspace.fileHeard? directory with
  | none => rfl
  | some file =>
      obtain ⟨looked, compiled⟩ := (fileIn_eq_ok_iff.mp (fileIn_of_fileHeard? heard)).resolve_left
        (by simp)
      rcases failing with ⟨fault, failed, forgiven⟩ | ⟨fault, failed, forgiven⟩
      · rw [ignoreFileOf_eq_sought, failed, forgive, if_pos forgiven] at looked
        simp at looked
      · rw [fileAt, failed] at compiled
        simp [Except.map, forgive, forgiven] at compiled

theorem fileHeard?_of_childOf
    (absent : ∀ found,
      workspace.disk.childOf directory workspace.ignoreFilename ≠ .ok (some found)) :
    workspace.fileHeard? directory = none := by
  cases heard : workspace.fileHeard? directory with
  | none => rfl
  | some file =>
      obtain ⟨looked, -⟩ := (fileIn_eq_ok_iff.mp (fileIn_of_fileHeard? heard)).resolve_left
        (by simp)
      exact absurd (childOf_of_ignoreFileOf looked) (absent _)

theorem fileHeard?_of_not_exists
    (absent : workspace.disk.pathExists (workspace.ignoreFilePath directory) ≠ .ok true) :
    workspace.fileHeard? directory = none := by
  apply fileHeard?_of_childOf
  intro found isChild
  have isFound := pathExists_of_childOf isChild
  obtain rfl := eq_join_of_childOf isChild
  exact absent isFound

theorem ignoreFileOf_calm (notSought : workspace.outages.findChild directory = none)
    (notFlagged : workspace.outages.isDir (workspace.ignoreFilePath directory) = none) :
    workspace.calm.ignoreFileOf directory = workspace.ignoreFileOf directory := by
  have sameFlag : workspace.calm.directoryFlag (workspace.ignoreFilePath directory) =
      workspace.directoryFlag (workspace.ignoreFilePath directory) := by
    rw [directoryFlag, directoryFlag, notFlagged]
    rfl
  have sameSought : workspace.calm.ignoreFileSought directory =
      workspace.ignoreFileSought directory := by
    rw [ignoreFileSought, ignoreFileSought, notSought]
    change workspace.disk.childOf directory workspace.ignoreFilename >>= _ =
      workspace.disk.childOf directory workspace.ignoreFilename >>= _
    cases looked : workspace.disk.childOf directory workspace.ignoreFilename with
    | error fault => rfl
    | ok child? =>
        cases child? with
        | none => rfl
        | some child =>
            obtain rfl := eq_join_of_childOf looked
            rw [ok_bind, ok_bind]
            dsimp only
            rw [← ignoreFilePath, sameFlag]
  rw [ignoreFileOf_eq_sought, ignoreFileOf_eq_sought, sameSought]

theorem fileAt_calm (notRead : workspace.outages.read path = none) :
    workspace.calm.fileAt path = workspace.fileAt path := by
  rw [fileAt, fileAt, textOf, textOf, notRead]
  rfl

theorem fileIn_calm (notSought : workspace.outages.findChild directory = none)
    (notFlagged : workspace.outages.isDir (workspace.ignoreFilePath directory) = none)
    (notRead : workspace.outages.read (workspace.ignoreFilePath directory) = none) :
    workspace.calm.fileIn directory = workspace.fileIn directory := by
  rw [fileIn, fileIn, ignoreFileOf_calm notSought notFlagged]
  cases looked : workspace.ignoreFileOf directory with
  | error fault => rw [error_bind, error_bind]
  | ok found? =>
      rw [ok_bind, ok_bind]
      cases found? with
      | none => rfl
      | some found =>
          obtain rfl := eq_join_of_childOf (childOf_of_ignoreFileOf looked)
          exact fileAt_calm notRead

section

variable (broken : workspace.IsBroken places path)
include broken

theorem fileHeard?_calm
    (elsewhere : workspace.disk.leadsInto places (workspace.ignoreFilePath directory) = false) :
    workspace.calm.fileHeard? directory = workspace.fileHeard? directory := by
  by_cases isThere : workspace.disk.pathExists (workspace.ignoreFilePath directory) = .ok true
  · have spared {outage? : Option OutageKind}
        (only : outage? ≠ none →
          workspace.disk.LeadsOnlyInto places (workspace.ignoreFilePath directory)) :
        outage? = none := by
      by_contra struck
      exact (only struck).not_exists elsewhere isThere
    have sameFile := fileIn_calm (spared (broken.findChild directory))
      (spared (broken.isDir (workspace.ignoreFilePath directory)))
      (spared (broken.read (workspace.ignoreFilePath directory)))
    rw [fileHeard?, fileHeard?, sameFile]
  · rw [fileHeard?_of_not_exists isThere]
    exact fileHeard?_of_not_exists isThere

theorem fileHeard?_without (spelled : directory.IsSpelled) (noNull : Disk.hasNull directory = false)
    (onWay : directory ∈ workspace.levels path) (apart : workspace.TellsApart places path) :
    (workspace.calm.without places).fileHeard? directory = workspace.fileHeard? directory := by
  cases isInto : workspace.disk.leadsInto places (workspace.ignoreFilePath directory) with
  | true =>
      rw [fileHeard?_of_fails (broken.fails directory onWay isInto), fileHeard?,
        fileIn_without_of_leadsInto broken.holds spelled isInto]
      rfl
  | false =>
      have apartHere := apart.imp_right fun each => each directory onWay
      have sameFile : (workspace.calm.without places).fileIn directory =
          workspace.calm.fileIn directory :=
        fileIn_without broken.holds spelled isInto noNull apartHere
      rw [← fileHeard?_calm broken isInto, fileHeard?, fileHeard?, sameFile]

theorem flagged_calm {entry : Path} {isDir : Bool} (absolute : entry.isAbsolute = true)
    (flagged : forgive Fault.isSystem false (workspace.directoryFlag entry) = .ok isDir) :
    forgive Fault.isSystem false (workspace.calm.directoryFlag entry) = .ok isDir := by
  cases struck : workspace.outages.isDir entry with
  | none =>
      have sameFlag : workspace.calm.directoryFlag entry = workspace.directoryFlag entry := by
        rw [directoryFlag, directoryFlag, struck]
        rfl
      rw [sameFlag, flagged]
  | some kind =>
      obtain rfl : isDir = false := by
        rw [directoryFlag, struck] at flagged
        exact eq_getD_of_forgive flagged
      have notDirectory := (broken.isDir entry (by simp [struck])).not_isDirectory broken.holds
        absolute
      exact forgive_of_not_isDirectory notDirectory

end

section

variable (holds : workspace.disk.tree.HoldsFiles places) (rooted : workspace.IsRooted)
include holds rooted

theorem passed_without {directories : List Path} (spelledRoot : root.IsSpelled)
    (spelled : ∀ directory ∈ directories, directory.IsSpelled) :
    (workspace.calm.without places).passed root directories =
      workspace.passed root directories := by
  refine takeWhile_congr fun directory present => ?_
  have sameWithin : (workspace.calm.without places).disk.isAncestor root directory =
      workspace.disk.isAncestor root directory :=
    Disk.isAncestor_without holds rooted.spelledCurrent.absolute spelledRoot
      (spelled directory present)
  rw [sameWithin]

theorem lastSaid_without {entry : Path} {isDir : Bool} (spelledEntry : entry.IsSpelled)
    {files : List IgnoreFile} (spelled : ∀ file ∈ files, file.directory.IsSpelled)
    (verdict : Verdict) :
    (workspace.calm.without places).lastSaid entry isDir verdict files =
      workspace.lastSaid entry isDir verdict files := by
  induction files generalizing verdict with
  | nil => rfl
  | cons file others inductionHypothesis =>
      rw [List.forall_mem_cons] at spelled
      have sameRelation : (workspace.calm.without places).disk.relativePath entry file.directory =
          workspace.disk.relativePath entry file.directory :=
        Disk.relativePath_without holds rooted.spelledCurrent.absolute spelledEntry spelled.1
      have further := inductionHypothesis spelled.2
      rw [lastSaid, lastSaid, sameRelation]
      simp only [further]
      rfl

end

theorem spelledDirectory_of_fileHeard? {file : IgnoreFile} (spelled : directory.IsSpelled)
    (heard : workspace.fileHeard? directory = some file) : file.directory.IsSpelled := by
  obtain ⟨-, compiled⟩ := (fileIn_eq_ok_iff.mp (fileIn_of_fileHeard? heard)).resolve_left (by simp)
  rw [directory_of_fileAt compiled]
  exact (spelled.join_ofText _).parent

section

variable (rooted : workspace.IsRooted) (broken : workspace.IsBroken places path)
  (spelled : ∀ root, workspace.root? = some root → (root.join path).IsSpelled)
include rooted broken spelled

/-- Going up through levels collects what it does when the broken files are not there. -/
theorem filesIn_without (apart : workspace.TellsApart places path) {directories : List Path}
    (onWay : ∀ directory ∈ directories, directory ∈ workspace.levels path)
    (noNull : ∀ directory ∈ directories, Disk.hasNull directory = false)
    (related : ∀ directory ∈ directories,
      ∃ within, workspace.disk.isAncestor root directory = .ok within)
    (spelledRoot : root.IsSpelled) {files : List IgnoreFile}
    (collected : workspace.filesIn root directories = .ok files) :
    (workspace.calm.without places).filesIn root directories = .ok files := by
  have spelledWay (directory : Path) (present : directory ∈ directories) : directory.IsSpelled :=
    isSpelled_of_mem_levels spelled (onWay directory present)
  have gathered : (workspace.calm.without places).filesIn root directories =
      .ok (((workspace.calm.without places).passed root directories).filterMap
        (workspace.calm.without places).fileHeard?) := by
    refine filesIn_of_forgiven Outages.areForgiven_none noNull fun directory present => ?_
    have sameWithin : (workspace.calm.without places).disk.isAncestor root directory =
        workspace.disk.isAncestor root directory :=
      Disk.isAncestor_without broken.holds rooted.spelledCurrent.absolute spelledRoot
        (spelledWay directory present)
    rw [sameWithin]
    exact related directory present
  have sameHeard : ∀ directory ∈ workspace.passed root directories,
      (workspace.calm.without places).fileHeard? directory = workspace.fileHeard? directory := by
    intro directory isPassed
    have present := mem_of_mem_passed isPassed
    exact fileHeard?_without broken (spelledWay directory present) (noNull directory present)
      (onWay directory present) apart
  rw [gathered, passed_without broken.holds rooted spelledRoot spelledWay,
    List.filterMap_congr sameHeard, eq_filterMap_of_filesIn collected]

theorem filesFor_without (apart : workspace.TellsApart places path)
    (located : workspace.root? = some root) {text : List Char} {isDir : Bool}
    (related : workspace.disk.relativePath (root.join path).normal root = .ok (some text))
    (flagged : forgive Fault.isSystem false (workspace.directoryFlag (root.join path).normal) =
      .ok isDir) {files : List IgnoreFile}
    (collected : workspace.filesFor root (root.join path).normal isDir = .ok files) :
    (workspace.calm.without places).filesFor root (root.join path).normal isDir = .ok files ∧
      ∀ file ∈ files, file.directory.IsSpelled := by
  have spelledEntry := (spelled root located).normal
  have noAbove := Path.above_not_mem_normal (spelled root located).absolute
  obtain ⟨entry, base, known, resolved⟩ := Disk.exists_of_relativePath related
  obtain ⟨upwards, gathered, reversed⟩ := bind_eq_ok_iff.mp collected
  have onLevels (directory : Path) (onWay : directory ∈ wayUp (root.join path).normal isDir) :
      directory ∈ workspace.levels path := by
    rw [levels, located]
    exact mem_cons_ancestors_of_mem_wayUp onWay
  have isDirectory (isTrue : isDir = true) :
      workspace.disk.isDirectory (root.join path).normal = .ok true := by
    subst isTrue
    exact eq_of_unless (eq_of_forgive (by simp) flagged)
  have gatheredWithout : (workspace.calm.without places).filesIn root
      (wayUp (root.join path).normal isDir) = .ok upwards := by
    apply filesIn_without rooted broken spelled apart onLevels
    · exact fun directory => hasNull_of_mem_wayUp spelledEntry noAbove known isDirectory
    · exact fun directory => isAncestor_of_mem_wayUp spelledEntry noAbove known resolved
    · exact rooted.spelledRoot root located
    · exact gathered
  constructor
  · rw [filesFor, ← wayUp, gatheredWithout]
    exact reversed
  · intro file present
    rw [← Except.ok.inj reversed, List.mem_reverse, eq_filterMap_of_filesIn gathered] at present
    obtain ⟨directory, isPassed, heard⟩ := List.mem_filterMap.mp present
    have onWay := onLevels directory (mem_of_mem_passed isPassed)
    exact spelledDirectory_of_fileHeard? (isSpelled_of_mem_levels spelled onWay) heard

theorem excluded_without (apart : workspace.TellsApart places path) {ignored : Bool}
    (answered : workspace.excluded path = .ok ignored) :
    (workspace.calm.without places).excluded path = .ok ignored := by
  unfold excluded at answered ⊢
  have sameRoot : (workspace.calm.without places).root? = workspace.root? := rfl
  rw [sameRoot]
  cases located : workspace.root? with
  | none =>
      rw [located] at answered
      exact answered
  | some root =>
      rw [located] at answered
      have spelledPath := spelled root located
      have spelledRoot := rooted.spelledRoot root located
      have absoluteCurrent := rooted.spelledCurrent.absolute
      have sameRelation : (workspace.calm.without places).disk.relativePath
          (root.join path).normal root = workspace.disk.relativePath (root.join path).normal root :=
        Disk.relativePath_without broken.holds absoluteCurrent spelledPath.normal spelledRoot
      obtain ⟨shown?, related, answered⟩ := bind_eq_ok_iff.mp answered
      dsimp only
      rw [sameRelation, related, ok_bind]
      rcases shown? with _ | _ | ⟨first, rest⟩
      · exact answered
      · exact answered
      · obtain ⟨isDir, flagged, answered⟩ := bind_eq_ok_iff.mp answered
        obtain ⟨files, collected, answered⟩ := bind_eq_ok_iff.mp answered
        obtain ⟨verdict, said, answered⟩ := bind_eq_ok_iff.mp answered
        have flaggedWithout : forgive Fault.isSystem false
            ((workspace.calm.without places).directoryFlag (root.join path).normal) =
              .ok isDir := by
          have sameFlag : (workspace.calm.without places).directoryFlag (root.join path).normal =
              workspace.calm.directoryFlag (root.join path).normal :=
            Disk.isDirectory_without broken.holds spelledPath.normal.absolute
          rw [sameFlag]
          exact flagged_calm broken spelledPath.normal.absolute flagged
        obtain ⟨collectedWithout, spelledFiles⟩ :=
          filesFor_without rooted broken spelled apart located related flagged collected
        dsimp only
        rw [flaggedWithout, ok_bind, collectedWithout, ok_bind,
          lastSaid_without broken.holds rooted spelledPath.normal spelledFiles, said, ok_bind]
        exact answered

end

theorem excluded_of_unheard {text : List Char} {isDir : Bool}
    (located : workspace.root? = some root)
    (related : workspace.disk.relativePath (root.join path).normal root = .ok (some text))
    (flagged : forgive Fault.isSystem false (workspace.directoryFlag (root.join path).normal) =
      .ok isDir)
    (unheard : workspace.filesIn root (wayUp (root.join path).normal isDir) = .ok []) :
    workspace.excluded path = .ok false := by
  unfold excluded
  rw [located]
  dsimp only
  rw [related, ok_bind]
  cases text with
  | nil => rfl
  | cons first rest =>
      dsimp only
      rw [flagged, ok_bind, filesFor, ← wayUp, unheard]
      rfl

end Workspace

end IgnoreRules
