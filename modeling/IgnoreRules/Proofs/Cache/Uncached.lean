import IgnoreRules.Cache
import IgnoreRules.Proofs.Cache.Steady
import IgnoreRules.Proofs.Path.Normal

/-!
The answer that an ignore file cache gives is the one its files on the disk give.  Each question to
a workspace is written without a session here, and asking it in a session whose kept files agree
with the disk ends in the same answer or fault and leaves kept files that agree.
-/

namespace IgnoreRules

def Disk.childOf (disk : Disk) (directory : Path) (name : Name) : Except Fault (Option Path) := do
  let candidate := directory.join (Path.ofText name)
  if !(← disk.pathExists candidate) then
    return none
  let twin := Text.swapCase name
  if twin = name then
    return some candidate
  if !(← disk.pathExists (directory.join (Path.ofText twin))) then
    return some candidate
  let listed ← disk.children directory
  return if listed.any (·.lastName == name) then some candidate else none

namespace Workspace

def directoryFlag (workspace : Workspace) (path : Path) : Except Fault Bool :=
  OutageKind.unless (workspace.outages.isDir path) (workspace.disk.isDirectory path)

def textOf (workspace : Workspace) (path : Path) : Except Fault (List Char) :=
  OutageKind.unless (workspace.outages.read path)
    ((workspace.disk.readFile path).map fun bytes =>
      (Text.decodeBy workspace.detector bytes).2)

def ignoreFilePath (workspace : Workspace) (directory : Path) : Path :=
  directory.join (Path.ofText workspace.ignoreFilename)

def ignoreFileOf (workspace : Workspace) (directory : Path) : Except Fault (Option Path) :=
  forgive Fault.isSystem none do
    match ← OutageKind.unless (workspace.outages.findChild directory)
        (workspace.disk.childOf directory workspace.ignoreFilename) with
    | none => return none
    | some found => return if ← workspace.directoryFlag found then none else some found

/-- The compiled form of the ignore file at a path. -/
def fileAt (workspace : Workspace) (path : Path) : Except Fault (Option IgnoreFile) :=
  forgive Fault.isUnreadable none
    ((workspace.textOf path).map fun text => some (IgnoreFile.ofText text path.parent path.text))

def fileIn (workspace : Workspace) (directory : Path) : Except Fault (Option IgnoreFile) := do
  match ← workspace.ignoreFileOf directory with
  | none => return none
  | some path => workspace.fileAt path

def filesIn (workspace : Workspace) (root : Path) : List Path → Except Fault (List IgnoreFile)
  | [] => return []
  | directory :: above => do
      if ← workspace.disk.isAncestor root directory then
        let file? ← workspace.fileIn directory
        let others ← workspace.filesIn root above
        return file?.toList ++ others
      else
        return []

def filesFor (workspace : Workspace) (root entry : Path) (isDir : Bool) :
    Except Fault (List IgnoreFile) := do
  let start := if isDir then entry else entry.parent
  return (← workspace.filesIn root (start :: start.ancestors)).reverse

/-- What the last file says that says something. -/
def lastSaid (workspace : Workspace) (entry : Path) (isDir : Bool) :
    (verdict : Verdict) → List IgnoreFile → Except Fault Verdict
  | verdict, [] => return verdict
  | verdict, file :: others => do
      match ← workspace.disk.relativePath entry file.directory with
      | none | some [] => workspace.lastSaid entry isDir verdict others
      | some path =>
          match file.verdict workspace.platform path isDir with
          | .noMatch => workspace.lastSaid entry isDir verdict others
          | said => workspace.lastSaid entry isDir said others

def excluded (workspace : Workspace) (path : Path) : Except Fault Bool := do
  match workspace.root? with
  | none => return false
  | some root =>
      let entry := (root.join path).normal
      match ← workspace.disk.relativePath entry root with
      | none | some [] => return false
      | some _ =>
          let isDir ← forgive Fault.isSystem false (workspace.directoryFlag entry)
          let files ← workspace.filesFor root entry isDir
          let verdict ← workspace.lastSaid entry isDir .noMatch files
          return verdict == .ignore

/-- Every kept file is what compiling the text on the disk makes now. -/
def Agrees (workspace : Workspace) (kept : Kept) : Prop :=
  ∀ (location : List Char) (file : IgnoreFile), kept.lookup location = some file →
    workspace.fileAt (Path.ofText location) = .ok (some file)

variable {workspace : Workspace} {steady : Kept → Prop}

theorem gives_directoryFlag (path : Path) :
    Action.Gives steady (workspace.isDir path) (workspace.directoryFlag path) :=
  .suffer _ (.perform _)

theorem gives_childOf (directory : Path) (name : Name) :
    Action.Gives steady (workspace.findChild directory name)
      (OutageKind.unless (workspace.outages.findChild directory)
        (workspace.disk.childOf directory name)) := by
  refine .suffer _ (.bind (.perform _) fun present _ => ?_)
  refine .ite (.pure _) (.ite (.pure _) (.bind (.perform _) fun twinPresent _ => ?_))
  refine .ite (.pure _) (.bind ?_ fun listed _ => .pure _)
  exact .andThen (.note _) (.perform _)

theorem gives_ignoreFileOf (directory : Path) :
    Action.Gives steady (workspace.ignoreFileIn directory) (workspace.ignoreFileOf directory) := by
  refine .recover (.bind (gives_childOf directory _) fun found? _ => ?_) fun fault => ?_
  · cases found? with
    | none => exact .pure none
    | some found => exact .bind (gives_directoryFlag found) fun _ _ => .pure _
  · exact .andThen (.log _ _ _) (.pure none)

theorem gives_readText (path : Path) :
    Action.Gives steady (workspace.readText path) (workspace.textOf path) := by
  have decoded : (workspace.disk.readFile path).map (fun bytes =>
        (Text.decodeBy workspace.detector bytes).2) =
      workspace.disk.readFile path >>= fun bytes =>
        .ok (Text.decodeBy workspace.detector bytes).2 := by
    cases workspace.disk.readFile path <;> rfl
  rw [textOf, decoded]
  refine .andThen (.note _) (.suffer _ (.bind (.perform _) fun bytes _ => ?_))
  obtain ⟨detected?, text⟩ := Text.decodeBy workspace.detector bytes
  cases detected? with
  | some encoding => exact .andThen (.log _ _ _) (.pure text)
  | none => exact .pure text

theorem agrees_append {path : Path} {file : IgnoreFile} {kept : Kept} (spelled : path.IsSpelled)
    (agrees : workspace.Agrees kept) (compiled : workspace.fileAt path = .ok (some file)) :
    workspace.Agrees (kept ++ [(path.text, file)]) := by
  intro location found present
  rw [List.lookup_append, Option.or_eq_some_iff] at present
  rcases present with before | ⟨-, added⟩
  · exact agrees location found before
  · rw [List.lookup_cons] at added
    split at added
    next same =>
      rw [eq_of_beq same, spelled.ofText_text, ← Option.some.inj added]
      exact compiled
    next => contradiction

theorem fileAt_eq_bind (path : Path) :
    workspace.fileAt path =
      forgive Fault.isUnreadable none ((workspace.textOf path).map some) >>= fun text? =>
        .ok (text?.map fun text => IgnoreFile.ofText text path.parent path.text) := by
  rw [fileAt]
  cases workspace.textOf path with
  | ok text => rfl
  | error fault =>
      dsimp only [forgive, Except.map]
      split <;> rfl

theorem gives_compiled {path : Path} (spelled : path.IsSpelled) :
    Action.Gives workspace.Agrees (workspace.compiled path) (workspace.fileAt path) := by
  refine .inspect fun session agrees => ?_
  dsimp only
  split
  next file present =>
    have compiled := agrees _ _ present
    rw [spelled.ofText_text] at compiled
    rw [compiled]
    exact Action.Gives.pure (some file) session agrees
  next =>
    suffices Action.Gives workspace.Agrees _ (workspace.fileAt path) from this session agrees
    have inTwoSteps := @fileAt_eq_bind workspace path
    rw [inTwoSteps]
    refine .bind (.recover (.map some (gives_readText path)) fun fault => ?_) fun text? read => ?_
    · exact .andThen (.log _ _ _) (.pure none)
    · cases text? with
      | none => exact .pure none
      | some text =>
          rw [read] at inTwoSteps
          refine .andThen (.logAll _) ?_
          refine .andThen (.keep fun kept agreesKept => ?_) (.pure _)
          exact agrees_append spelled agreesKept inTwoSteps

theorem eq_join_of_childOf {disk : Disk} {directory found : Path} {name : Name}
    (present : disk.childOf directory name = .ok (some found)) :
    found = directory.join (Path.ofText name) := by
  unfold Disk.childOf at present
  simp only [pure_eq_ok] at present
  obtain ⟨isThere, -, present⟩ := bind_eq_ok_iff.mp present
  grind [bind_eq_ok_iff]

theorem childOf_of_ignoreFileOf {directory found : Path}
    (present : workspace.ignoreFileOf directory = .ok (some found)) :
    workspace.disk.childOf directory workspace.ignoreFilename = .ok (some found) := by
  unfold ignoreFileOf at present
  obtain ⟨found?, isChild, kept⟩ := bind_eq_ok_iff.mp (eq_of_forgive (by simp) present)
  cases found? with
  | none => simp at kept
  | some child =>
      obtain ⟨isDir, -, kept⟩ := bind_eq_ok_iff.mp kept
      rw [pure_eq_ok] at kept
      obtain rfl : child = found := by grind
      exact eq_of_unless isChild

theorem fileIn_eq_ok_iff {directory : Path} {file? : Option IgnoreFile} :
    workspace.fileIn directory = .ok file? ↔
      (workspace.ignoreFileOf directory = .ok none ∧ file? = none) ∨
        (workspace.ignoreFileOf directory = .ok (some (workspace.ignoreFilePath directory)) ∧
          workspace.fileAt (workspace.ignoreFilePath directory) = .ok file?) := by
  rw [fileIn, bind_eq_ok_iff]
  constructor
  · rintro ⟨found?, looked, given⟩
    cases found? with
    | none => exact .inl ⟨looked, (Except.ok.inj given).symm⟩
    | some found =>
        obtain rfl := eq_join_of_childOf (childOf_of_ignoreFileOf looked)
        exact .inr ⟨looked, given⟩
  · rintro (⟨looked, rfl⟩ | ⟨looked, given⟩)
    · exact ⟨none, looked, rfl⟩
    · exact ⟨_, looked, given⟩

theorem directory_of_fileAt {path : Path} {file : IgnoreFile}
    (compiled : workspace.fileAt path = .ok (some file)) :
    file.directory = path.parent := by
  have made := eq_of_forgive (by simp) compiled
  cases read : workspace.textOf path with
  | error fault =>
      rw [read] at made
      contradiction
  | ok text =>
      rw [read] at made
      rw [← Option.some.inj (Except.ok.inj made)]
      rfl

theorem exists_locate_of_fileAt {path : Path} {file : IgnoreFile}
    (compiled : workspace.fileAt path = .ok (some file)) :
    ∃ stop, workspace.disk.locate path = .ok stop := by
  have made := eq_of_forgive (by simp) compiled
  cases read : workspace.textOf path with
  | error fault =>
      rw [read] at made
      contradiction
  | ok text =>
      cases located : workspace.disk.locate path with
      | ok stop => exact ⟨stop, rfl⟩
      | error fault =>
          have unread := eq_of_unless read
          rw [Disk.readFile, located] at unread
          contradiction

theorem gives_compiledIn {directory : Path} (spelled : directory.IsSpelled) :
    Action.Gives workspace.Agrees (workspace.compiledIn directory)
      (workspace.fileIn directory) := by
  refine .bind (gives_ignoreFileOf directory) fun found? present => ?_
  cases found? with
  | none => exact .pure none
  | some found =>
      apply gives_compiled
      rw [eq_join_of_childOf (childOf_of_ignoreFileOf present)]
      exact spelled.join_ofText _

theorem gives_filesWithin (root : Path) {directories : List Path}
    (spelled : ∀ directory ∈ directories, directory.IsSpelled) :
    Action.Gives workspace.Agrees (workspace.filesWithin root directories)
      (workspace.filesIn root directories) := by
  induction directories with
  | nil => exact .pure []
  | cons directory above inductionHypothesis =>
      refine .bind (.perform _) fun within _ => .ite ?_ (.pure [])
      refine .bind (gives_compiledIn (spelled directory (by simp))) fun file? _ => ?_
      refine .bind (inductionHypothesis fun other inAbove => spelled other (by simp [inAbove]))
        fun others _ => .pure _

def wayUp (entry : Path) (isDir : Bool) : List Path :=
  let start := if isDir then entry else entry.parent
  start :: start.ancestors

theorem mem_cons_ancestors_of_mem_wayUp {entry directory : Path} {isDir : Bool}
    (onWay : directory ∈ wayUp entry isDir) : directory ∈ entry :: entry.ancestors := by
  cases isDir with
  | true => exact onWay
  | false =>
      have aboveParent : directory ∈ entry.parent :: entry.parent.ancestors := onWay
      rw [Path.mem_cons_ancestors_iff] at aboveParent ⊢
      exact ⟨aboveParent.1, aboveParent.2.trans (List.dropLast_prefix entry.names)⟩

theorem gives_filesAbout (root : Path) {entry : Path} (isDir : Bool) (spelled : entry.IsSpelled) :
    Action.Gives workspace.Agrees (workspace.filesAbout root entry isDir)
      (workspace.filesFor root entry isDir) := by
  have spelledStart : (if isDir then entry else entry.parent).IsSpelled := by
    split
    · exact spelled
    · exact spelled.parent
  exact .bind (gives_filesWithin root spelledStart.cons_ancestors) fun files _ => .pure _

theorem gives_judge (entry : Path) (shown : List Char) (isDir : Bool) (files : List IgnoreFile)
    (verdict : Verdict) :
    Action.Gives steady (workspace.judge entry shown isDir verdict files)
      (workspace.lastSaid entry isDir verdict files) := by
  induction files generalizing verdict with
  | nil => exact .pure verdict
  | cons file others inductionHypothesis =>
      refine .bind (.perform _) fun path? _ => ?_
      rcases path? with _ | _ | ⟨first, rest⟩
      · exact inductionHypothesis verdict
      · exact inductionHypothesis verdict
      · refine .andThen (.logAll _) ?_
        dsimp only
        cases file.verdict workspace.platform (first :: rest) isDir with
        | noMatch => exact inductionHypothesis verdict
        | ignore => exact .andThen (.log _ _ _) (inductionHypothesis .ignore)
        | keep => exact .andThen (.log _ _ _) (inductionHypothesis .keep)

/-- In a session whose kept files agree with the disk, the cache answers what the files on the disk
say, and ends with kept files that agree. -/
theorem gives_isIgnored (path : Path)
    (spelled : ∀ root, workspace.root? = some root → (root.join path).IsSpelled) :
    Action.Gives workspace.Agrees (workspace.isIgnored path) (workspace.excluded path) := by
  unfold isIgnored excluded
  cases located : workspace.root? with
  | none => exact .andThen (.log _ _ _) (.pure false)
  | some root =>
      have spelledEntry := (spelled root located).normal
      refine .bind (.perform _) fun shown? _ => ?_
      rcases shown? with _ | _ | ⟨first, rest⟩
      · exact .pure false
      · exact .pure false
      · refine .bind (.recover (gives_directoryFlag _) fun fault => ?_) fun isDir _ => ?_
        · exact .andThen (.log _ _ _) (.pure false)
        · refine .bind (gives_filesAbout root isDir spelledEntry) fun files _ => ?_
          refine .bind (gives_judge _ _ _ _ _) fun verdict _ => ?_
          exact .andThen (.log _ _ _) (.pure _)

theorem outcome_isIgnored_fresh {path : Path}
    (spelled : ∀ root, workspace.root? = some root → (root.join path).IsSpelled) :
    (workspace.isIgnored path).outcome Session.fresh = workspace.excluded path := by
  have agrees : workspace.Agrees Session.fresh.kept := by
    intro location file present
    contradiction
  exact (gives_isIgnored path spelled Session.fresh agrees).1

end Workspace

end IgnoreRules
