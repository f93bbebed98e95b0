import IgnoreRules.Proofs.Cache.Calls
import IgnoreRules.Proofs.Cache.Heard

/-!
What a question that is answered keeps.  The directories it goes through are asked one after
another for their ignore files, and each that has a file which can be read adds it, unless a file
is kept at its location already.
-/

namespace IgnoreRules

namespace Action

variable {Alpha Beta : Type} {before between later : Kept} {action : Action Alpha} {value : Alpha}

/-- From every session that keeps the files before, the work ends in this answer and the session
keeps the later files. -/
def Turns (before : Kept) (action : Action Alpha) (value : Alpha) (later : Kept) : Prop :=
  ∀ session : Session, session.kept = before →
    action.outcome session = .ok value ∧ (action.after session).kept = later

namespace Turns

theorem of_gives (gives : Gives (· = before) action (.ok value)) :
    Turns before action value before :=
  gives

theorem bind {next : Alpha → Action Beta} {answer : Beta}
    (first : Turns before action value between)
    (second : Turns between (next value) answer later) :
    Turns before (action >>= next) answer later := by
  intro session same
  obtain ⟨answered, keptBetween⟩ := first session same
  rw [outcome, after, run_bind, answered]
  exact second _ keptBetween

theorem andThen {next : Alpha → Action Beta} {answer : Beta}
    (first : Gives (· = before) action (.ok value))
    (second : Turns before (next value) answer later) :
    Turns before (action >>= next) answer later :=
  bind (of_gives first) second

theorem perform {result : Except Fault Alpha} {next : Alpha → Action Beta} {answer : Beta}
    (given : result = .ok value) (second : Turns before (next value) answer later) :
    Turns before (Action.perform result >>= next) answer later :=
  andThen (given ▸ .perform result) second

theorem keep (key : List Char) (file : IgnoreFile) :
    Turns before (modify fun session => { session with kept := session.kept ++ [(key, file)] }) ()
      (before ++ [(key, file)]) := by
  rintro session rfl
  exact ⟨rfl, rfl⟩

theorem recover {forgiven : Fault → Bool} {instead : Fault → Action Alpha} {replacement : Alpha}
    {result : Except Fault Alpha} {next : Alpha → Action Beta} {answer : Beta}
    (tried : Gives (· = before) action result)
    (replaced : ∀ fault, Gives (· = before) (instead fault) (.ok replacement))
    (given : forgive forgiven replacement result = .ok value)
    (second : Turns before (next value) answer later) :
    Turns before (Action.recover forgiven action instead >>= next) answer later := by
  have gives : Gives (· = before) (Action.recover forgiven action instead)
      (forgive forgiven replacement result) := .recover tried replaced
  rw [given] at gives
  exact andThen gives second

theorem inspect {next : Session → Action Alpha}
    (each : ∀ session : Session, session.kept = before →
      (next session).outcome session = .ok value ∧
        ((next session).after session).kept = later) :
    Turns before (get >>= next) value later :=
  each

theorem pure (value : Alpha) : Turns before (Pure.pure value) value before :=
  of_gives (.pure value)

end Turns

end Action

namespace Kept

/-- With the file found for a location, if one was found and none is kept there. -/
def including (kept : Kept) (location : List Char) : Option IgnoreFile → Kept
  | none => kept
  | some file => if (kept.lookup location).isSome then kept else kept ++ [(location, file)]

theorem filter_including (stays : List Char → Bool) (kept : Kept) (location : List Char)
    (file? : Option IgnoreFile) :
    (kept.including location file?).filter (fun entry => stays entry.1) =
      if stays location then
        Kept.including (kept.filter fun entry => stays entry.1) location file?
      else kept.filter fun entry => stays entry.1 := by
  cases file? with
  | none => simp [including]
  | some file =>
      dsimp only [including]
      rw [lookup_filter_key]
      cases staying : stays location with
      | true =>
          simp only [if_true]
          rw [apply_ite (List.filter _)]
          simp [staying]
      | false =>
          simp only [Bool.false_eq_true, if_false]
          split
          next => rfl
          next => simp [staying]

end Kept

namespace Workspace

variable {workspace : Workspace} {kept : Kept} {root directory path : Path} {isDir : Bool}

/-- What is kept once a directory has been asked for its ignore file. -/
def keepIn (workspace : Workspace) (kept : Kept) (directory : Path) : Kept :=
  kept.including (workspace.ignoreFilePath directory).text (workspace.fileHeard? directory)

def consulted (workspace : Workspace) (path : Path) : List Path :=
  match workspace.root? with
  | none => []
  | some root =>
      let entry := (root.join path).normal
      let isDir := forgive Fault.isSystem false (workspace.directoryFlag entry)
      match workspace.disk.relativePath entry root with
      | .ok (some (_ :: _)) => workspace.passed root (wayUp entry (isDir.toOption.getD false))
      | _ => []

theorem turns_compiled (spelled : path.IsSpelled) (agrees : workspace.Agrees kept)
    {file? : Option IgnoreFile} (given : workspace.fileAt path = .ok file?) :
    Action.Turns kept (workspace.compiled path) file? (kept.including path.text file?) := by
  refine .inspect fun session same => ?_
  dsimp only
  split
  next file present =>
    rw [same] at present
    have compiled := agrees _ _ present
    rw [spelled.ofText_text, given] at compiled
    obtain rfl := Except.ok.inj compiled
    rw [Kept.including, present, if_pos (Option.isSome_some)]
    exact Action.Turns.pure (some file) session same
  next absent =>
    suffices Action.Turns kept _ file? (kept.including path.text file?) from this session same
    rw [same] at absent
    rw [fileAt_eq_bind] at given
    obtain ⟨text?, read, made⟩ := bind_eq_ok_iff.mp given
    refine .recover (.map some (gives_readText path)) (fun fault => ?_) read ?_
    · exact .andThen (.log _ _ _) (.pure none)
    cases text? with
    | none =>
        obtain rfl := (Except.ok.inj made).symm
        exact .pure none
    | some text =>
        obtain rfl := (Except.ok.inj made).symm
        rw [Option.map_some, Kept.including, absent]
        exact .andThen (.logAll _) (.bind (.keep _ _) (.pure _))

theorem turns_compiledIn (spelled : directory.IsSpelled) (agrees : workspace.Agrees kept)
    {file? : Option IgnoreFile} (given : workspace.fileIn directory = .ok file?) :
    Action.Turns kept (workspace.compiledIn directory) file?
      (workspace.keepIn kept directory) := by
  have heard : workspace.fileHeard? directory = file? := by
    rw [fileHeard?, given]
    rfl
  rw [keepIn, heard]
  rcases fileIn_eq_ok_iff.mp given with ⟨looked, rfl⟩ | ⟨looked, compiled⟩
  · exact .andThen (looked ▸ gives_ignoreFileOf directory) (.pure none)
  · refine .andThen (looked ▸ gives_ignoreFileOf directory) ?_
    exact turns_compiled (spelled.join_ofText _) agrees compiled

theorem agrees_keepIn (spelled : directory.IsSpelled) (agrees : workspace.Agrees kept) :
    workspace.Agrees (workspace.keepIn kept directory) := by
  rw [keepIn]
  cases heard : workspace.fileHeard? directory with
  | none => exact agrees
  | some file =>
      obtain ⟨-, compiled⟩ := (fileIn_eq_ok_iff.mp (fileIn_of_fileHeard? heard)).resolve_left
        (by simp)
      dsimp only [Kept.including]
      split
      next => exact agrees
      next => exact agrees_append (spelled.join_ofText _) agrees compiled

theorem turns_filesWithin {directories : List Path}
    (spelled : ∀ directory ∈ directories, directory.IsSpelled) (agrees : workspace.Agrees kept)
    {files : List IgnoreFile} (given : workspace.filesIn root directories = .ok files) :
    Action.Turns kept (workspace.filesWithin root directories) files
      ((workspace.passed root directories).foldl workspace.keepIn kept) := by
  induction directories generalizing kept files with
  | nil =>
      obtain rfl := Except.ok.inj given
      exact .pure []
  | cons directory above inductionHypothesis =>
      rw [List.forall_mem_cons] at spelled
      obtain ⟨within, isWithin, given⟩ := bind_eq_ok_iff.mp given
      have passedOn : workspace.passed root (directory :: above) =
          if within then directory :: workspace.passed root above else [] := by
        rw [passed, List.takeWhile_cons, isWithin]
        rfl
      rw [passedOn]
      refine .perform isWithin ?_
      cases within with
      | false =>
          obtain rfl := Except.ok.inj given
          exact .pure []
      | true =>
          obtain ⟨file?, looked, given⟩ := bind_eq_ok_iff.mp given
          obtain ⟨others, further, given⟩ := bind_eq_ok_iff.mp given
          obtain rfl := Except.ok.inj given
          refine .bind (turns_compiledIn spelled.1 agrees looked) ?_
          refine .bind (inductionHypothesis spelled.2 (agrees_keepIn spelled.1 agrees) further) ?_
          exact .pure _

theorem turns_filesAbout {entry : Path} (spelled : entry.IsSpelled)
    (agrees : workspace.Agrees kept) {files : List IgnoreFile}
    (given : workspace.filesFor root entry isDir = .ok files) :
    Action.Turns kept (workspace.filesAbout root entry isDir) files
      ((workspace.passed root (wayUp entry isDir)).foldl workspace.keepIn kept) := by
  obtain ⟨upwards, collected, given⟩ := bind_eq_ok_iff.mp given
  obtain rfl := Except.ok.inj given
  refine .bind (turns_filesWithin ?_ agrees collected) (.pure _)
  exact fun directory onWay =>
    spelled.cons_ancestors directory (mem_cons_ancestors_of_mem_wayUp onWay)

theorem turns_isIgnored
    (spelled : ∀ root, workspace.root? = some root → (root.join path).IsSpelled)
    (agrees : workspace.Agrees kept) {ignored : Bool}
    (answered : workspace.excluded path = .ok ignored) :
    Action.Turns kept (workspace.isIgnored path) ignored
      ((workspace.consulted path).foldl workspace.keepIn kept) := by
  unfold excluded at answered
  unfold isIgnored consulted
  cases located : workspace.root? with
  | none =>
      rw [located] at answered
      obtain rfl := Except.ok.inj answered
      exact .andThen (.log _ _ _) (.pure false)
  | some root =>
      rw [located] at answered
      obtain ⟨shown?, related, answered⟩ := bind_eq_ok_iff.mp answered
      dsimp only
      rw [related]
      refine .perform rfl ?_
      rcases shown? with _ | _ | ⟨first, rest⟩
      · obtain rfl := Except.ok.inj answered
        exact .pure false
      · obtain rfl := Except.ok.inj answered
        exact .pure false
      · obtain ⟨isDir, flagged, answered⟩ := bind_eq_ok_iff.mp answered
        obtain ⟨files, collected, answered⟩ := bind_eq_ok_iff.mp answered
        obtain ⟨verdict, said, answered⟩ := bind_eq_ok_iff.mp answered
        obtain rfl := Except.ok.inj answered
        refine .recover (gives_directoryFlag _) (fun fault => ?_) flagged ?_
        · exact .andThen (.log _ _ _) (.pure false)
        refine .bind (turns_filesAbout (spelled root located).normal agrees collected) ?_
        refine .andThen (said ▸ gives_judge _ _ isDir files .noMatch) ?_
        dsimp only
        rw [flagged]
        exact .andThen (.log _ _ _) (.pure _)

theorem kept_after_ask {session : Session} (rooted : workspace.IsRooted)
    (agrees : workspace.Agrees session.kept) {text : List Char} {ignored : Bool}
    (answered : workspace.excluded (Path.ofText text) = .ok ignored) :
    ((CacheCall.ask text).after workspace session).kept =
      (workspace.consulted (Path.ofText text)).foldl workspace.keepIn session.kept :=
  (turns_isIgnored (rooted.spelled text) agrees answered session rfl).2

end Workspace

end IgnoreRules
