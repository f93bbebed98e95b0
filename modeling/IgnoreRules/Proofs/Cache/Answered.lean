import IgnoreRules.Proofs.Cache.Chronicle
import IgnoreRules.Proofs.Cache.Forgiven
import IgnoreRules.Proofs.Tree.Reached

/-!
Questions that are answered.  Once it is known how an entry is written below the root, nothing that
is met on the way to an answer can end in a fault: whatever is asked next has been reached, or lies
on the way to the entry.  What remains are circles of links, and a question ends in a fault exactly
when one keeps the entry or the root from being known.
-/

namespace IgnoreRules

namespace Action

variable {Alpha Beta : Type}

/-- From every session whose kept files are steady, the work ends in a good answer and leaves the
kept files steady. -/
def Answers (steady : Kept → Prop) (action : Action Alpha) (good : Alpha → Prop) : Prop :=
  ∀ session : Session, steady session.kept →
    ∃ value, action.outcome session = .ok value ∧ good value ∧
      steady (action.after session).kept

namespace Answers

variable {steady : Kept → Prop} {action : Action Alpha} {good : Alpha → Prop}

theorem of_gives {value : Alpha} (gives : Gives steady action (.ok value)) (isGood : good value) :
    Answers steady action good := by
  intro session kept
  obtain ⟨answered, keptAfter⟩ := gives session kept
  exact ⟨value, answered, isGood, keptAfter⟩

theorem bind {next : Alpha → Action Beta} {goodNext : Beta → Prop}
    (first : Answers steady action good)
    (second : ∀ value, good value → Answers steady (next value) goodNext) :
    Answers steady (action >>= next) goodNext := by
  intro session kept
  obtain ⟨value, answered, isGood, keptAfter⟩ := first session kept
  rw [outcome, after, run_bind, answered]
  exact second value isGood (action.after session) keptAfter

theorem andThen {value : Alpha} {next : Alpha → Action Beta} {goodNext : Beta → Prop}
    (first : Gives steady action (.ok value)) (second : Answers steady (next value) goodNext) :
    Answers steady (action >>= next) goodNext := by
  have exactly : Answers steady action (· = value) := of_gives first rfl
  refine bind exactly fun other same => ?_
  rw [same]
  exact second

theorem inspect {next : Session → Action Alpha}
    (each : ∀ session : Session, steady session.kept → ∃ value,
      (next session).outcome session = .ok value ∧ good value ∧
        steady ((next session).after session).kept) :
    Answers steady (get >>= next) good :=
  each

theorem perform {value : Alpha} {result : Except Fault Alpha} {next : Alpha → Action Beta}
    {goodNext : Beta → Prop} (given : result = .ok value)
    (second : Answers steady (next value) goodNext) :
    Answers steady (Action.perform result >>= next) goodNext := by
  rw [given]
  exact andThen (.perform (.ok value)) second

theorem recover {forgiven : Fault → Bool} {instead : Fault → Action Alpha} {value answer : Alpha}
    {result : Except Fault Alpha} {next : Alpha → Action Beta} {goodNext : Beta → Prop}
    (tried : Gives steady action result)
    (replaced : ∀ fault, Gives steady (instead fault) (.ok value))
    (given : forgive forgiven value result = .ok answer)
    (second : Answers steady (next answer) goodNext) :
    Answers steady (Action.recover forgiven action instead >>= next) goodNext := by
  have gives : Gives steady (Action.recover forgiven action instead)
      (forgive forgiven value result) := .recover tried replaced
  rw [given] at gives
  exact andThen gives second

theorem weaken {better : Alpha → Prop} (answers : Answers steady action better)
    (stronger : ∀ value, better value → good value) : Answers steady action good := by
  intro session kept
  obtain ⟨value, answered, isBetter, keptAfter⟩ := answers session kept
  exact ⟨value, answered, stronger value isBetter, keptAfter⟩

theorem pure {value : Alpha} (isGood : good value) : Answers steady (Pure.pure value) good :=
  of_gives (.pure value) isGood

end Answers

end Action

/-- Each kept file counts from the directory that its location stands in. -/
def Kept.AreInPlace (kept : Kept) : Prop :=
  ∀ location file, kept.lookup location = some file →
    file.directory = (Path.ofText location).parent

theorem Kept.AreInPlace.append {kept : Kept} {key : List Char} {file : IgnoreFile}
    (inPlace : Kept.AreInPlace kept) (counts : file.directory = (Path.ofText key).parent) :
    Kept.AreInPlace (kept ++ [(key, file)]) := by
  intro location other present
  rw [List.lookup_append, Option.or_eq_some_iff] at present
  rcases present with before | ⟨-, added⟩
  · exact inPlace location other before
  · rw [List.lookup_cons] at added
    split at added
    next same =>
      rw [eq_of_beq same, ← Option.some.inj added]
      exact counts
    next => contradiction

namespace Workspace

variable {workspace : Workspace} {root spelled entry directory : Path} {isDir : Bool}

/-- Asking files in order comes to an end when links do not run in a circle at their directories. -/
theorem lastSaid_of_isCircleFree (known : workspace.disk.entryPath spelled = .ok entry)
    {files : List IgnoreFile} (free : ∀ file ∈ files, workspace.disk.IsCircleFree file.directory)
    (verdict : Verdict) :
    ∃ said, workspace.lastSaid spelled isDir verdict files = .ok said := by
  induction files generalizing verdict with
  | nil => exact ⟨verdict, rfl⟩
  | cons file others inductionHypothesis =>
      rw [List.forall_mem_cons] at free
      obtain ⟨text?, related⟩ := Disk.relativePath_of_isCircleFree known free.1
      have further := inductionHypothesis free.2
      rw [lastSaid, related, ok_bind]
      rcases text? with _ | _ | ⟨first, rest⟩
      · exact further verdict
      · exact further verdict
      · dsimp only
        split
        · exact further verdict
        · exact further _

section

variable (forgiven : workspace.outages.AreForgiven)
include forgiven

theorem answers_compiled {path : Path} (isSpelled : path.IsSpelled)
    (noNull : Disk.hasNull path = false) :
    Action.Answers Kept.AreInPlace (workspace.compiled path) fun file? =>
      ∀ file ∈ file?, file.directory = path.parent := by
  refine .inspect fun session inPlace => ?_
  dsimp only
  split
  next file present =>
    have counts : file.directory = path.parent := by
      rw [inPlace _ _ present, isSpelled.ofText_text]
    exact Action.Answers.pure (by simpa using counts) session inPlace
  next =>
    suffices Action.Answers Kept.AreInPlace _ fun file? =>
      ∀ file ∈ (file? : Option IgnoreFile), file.directory = path.parent from this session inPlace
    have read : forgive Fault.isUnreadable none ((workspace.textOf path).map some) =
        .ok (((workspace.textOf path).map some).toOption.getD none) := by
      refine forgive_eq_ok fun fault failed => ?_
      cases given : workspace.textOf path with
      | ok text =>
          rw [given] at failed
          contradiction
      | error other =>
          rw [given] at failed
          cases failed
          exact isUnreadable_of_textOf forgiven noNull given
    refine .recover (.map some (gives_readText path)) (fun fault => ?_) read ?_
    · exact .andThen (.log _ _ _) (.pure none)
    cases ((workspace.textOf path).map some).toOption.getD none with
    | none => exact .pure (by simp)
    | some text =>
        refine .andThen (.logAll _) (.andThen (.keep fun kept inPlaceKept => ?_) (.pure ?_))
        · refine inPlaceKept.append ?_
          rw [isSpelled.ofText_text]
          rfl
        · simp [IgnoreFile.ofText, IgnoreFile.ofLines]

theorem answers_compiledIn (isSpelled : directory.IsSpelled)
    (noNull : Disk.hasNull directory = false) :
    Action.Answers Kept.AreInPlace (workspace.compiledIn directory) fun file? =>
      ∀ file ∈ file?, workspace.disk.IsCircleFree file.directory := by
  obtain ⟨found?, looked⟩ := ignoreFileOf_of_forgiven forgiven noNull
  refine .andThen (looked ▸ gives_ignoreFileOf directory) ?_
  cases found? with
  | none => exact .pure (by simp)
  | some found =>
      have isChild := childOf_of_ignoreFileOf looked
      have spelledFound : found.IsSpelled := by
        rw [eq_join_of_childOf isChild]
        exact isSpelled.join_ofText _
      have free : workspace.disk.IsCircleFree found.parent := by
        obtain ⟨stop, located⟩ := Disk.exists_locate_of_leadsTo (pathExists_of_childOf isChild)
        exact Disk.isCircleFree_parent_of_locate spelledFound located
      have compiled := answers_compiled forgiven spelledFound (hasNull_of_ignoreFileOf looked)
      refine .weaken compiled fun file? counts file isFile => ?_
      rw [counts file isFile]
      exact free

theorem answers_filesWithin {directories : List Path}
    (spelled : ∀ directory ∈ directories, directory.IsSpelled)
    (noNull : ∀ directory ∈ directories, Disk.hasNull directory = false)
    (related : ∀ directory ∈ directories,
      ∃ within, workspace.disk.isAncestor root directory = .ok within) :
    Action.Answers Kept.AreInPlace (workspace.filesWithin root directories) fun files =>
      ∀ file ∈ files, workspace.disk.IsCircleFree file.directory := by
  induction directories with
  | nil => exact .pure (by simp)
  | cons directory above inductionHypothesis =>
      rw [List.forall_mem_cons] at spelled noNull related
      obtain ⟨within, isWithin⟩ := related.1
      refine .perform isWithin ?_
      cases within with
      | false => exact .pure (by simp)
      | true =>
          refine .bind (answers_compiledIn forgiven spelled.1 noNull.1) fun file? freeFile => ?_
          refine .bind (inductionHypothesis spelled.2 noNull.2 related.2) ?_
          intro others freeOthers
          refine .pure fun file present => ?_
          rcases List.mem_append.mp present with isFirst | isOther
          · exact freeFile file (by simpa using isFirst)
          · exact freeOthers file isOther

theorem answers_filesAbout {base : Path} (isSpelled : spelled.IsSpelled)
    (noAbove : Name.above ∉ spelled.names) (known : workspace.disk.entryPath spelled = .ok entry)
    (resolvedRoot : workspace.disk.resolve root = .ok base)
    (flagged : isDir = true → workspace.disk.isDirectory spelled = .ok true) :
    Action.Answers Kept.AreInPlace (workspace.filesAbout root spelled isDir) fun files =>
      ∀ file ∈ files, workspace.disk.IsCircleFree file.directory := by
  have collected : Action.Answers Kept.AreInPlace
      (workspace.filesWithin root (wayUp spelled isDir)) fun files =>
        ∀ file ∈ files, workspace.disk.IsCircleFree file.directory := by
    apply answers_filesWithin forgiven
    · intro directory onWay
      exact isSpelled.cons_ancestors directory (mem_cons_ancestors_of_mem_wayUp onWay)
    · intro directory onWay
      exact hasNull_of_mem_wayUp isSpelled noAbove known flagged onWay
    · intro directory onWay
      exact isAncestor_of_mem_wayUp isSpelled noAbove known resolvedRoot onWay
  refine .bind collected fun files free => .pure ?_
  intro file present
  exact free file (List.mem_reverse.mp present)

theorem answers_isIgnored (path : Path)
    (spelled : ∀ root, workspace.root? = some root → (root.join path).IsSpelled)
    (related : ∀ root, workspace.root? = some root →
      ∃ text?, workspace.disk.relativePath (root.join path).normal root = .ok text?) :
    Action.Answers Kept.AreInPlace (workspace.isIgnored path) fun _ => True := by
  unfold isIgnored
  cases located : workspace.root? with
  | none => exact .andThen (.log _ _ _) (.pure trivial)
  | some root =>
      obtain ⟨text?, isRelated⟩ := related root located
      have spelledPath := spelled root located
      refine .perform isRelated ?_
      rcases text? with _ | _ | ⟨first, rest⟩
      · exact .pure trivial
      · exact .pure trivial
      · obtain ⟨entry, base, known, resolved⟩ := Disk.exists_of_relativePath isRelated
        have noAbove := Path.above_not_mem_normal spelledPath.absolute
        obtain ⟨isDir, flagged⟩ : ∃ isDir, forgive Fault.isSystem false
            (workspace.directoryFlag (root.join path).normal) = .ok isDir :=
          ⟨_, forgive_eq_ok fun fault => isSystem_of_directoryFlag forgiven⟩
        refine .recover (gives_directoryFlag _) (fun fault => ?_) flagged ?_
        · exact .andThen (.log _ _ _) (.pure false)
        have isDirectory (isTrue : isDir = true) :
            workspace.disk.isDirectory (root.join path).normal = .ok true := by
          subst isTrue
          exact eq_of_unless (eq_of_forgive (by simp) flagged)
        have collected := answers_filesAbout forgiven spelledPath.normal noAbove known resolved
          isDirectory
        refine .bind collected fun files free => ?_
        obtain ⟨said, isSaid⟩ := lastSaid_of_isCircleFree known free .noMatch
        refine .andThen (isSaid ▸ gives_judge _ _ isDir files .noMatch) ?_
        exact .andThen (.log _ _ _) (.pure trivial)

end

theorem outcome_isIgnored_of_unrelated {path : Path} {fault : Fault}
    (located : workspace.root? = some root)
    (unrelated : workspace.disk.relativePath (root.join path).normal root = .error fault)
    (session : Session) : (workspace.isIgnored path).outcome session = .error fault := by
  unfold isIgnored
  rw [located]
  dsimp only
  rw [unrelated]
  rfl

theorem outcome_isIgnored_eq_error_iff (forgiven : workspace.outages.AreForgiven) {path : Path}
    (spelled : ∀ root, workspace.root? = some root → (root.join path).IsSpelled)
    {session : Session} (inPlace : Kept.AreInPlace session.kept) {fault : Fault} :
    (workspace.isIgnored path).outcome session = .error fault ↔
      ∃ root, workspace.root? = some root ∧
        workspace.disk.relativePath (root.join path).normal root = .error fault := by
  refine ⟨fun failed => ?_, fun ⟨root, located, unrelated⟩ =>
    outcome_isIgnored_of_unrelated located unrelated session⟩
  by_contra allRelated
  have related : ∀ root, workspace.root? = some root →
      ∃ text?, workspace.disk.relativePath (root.join path).normal root = .ok text? := by
    intro root located
    cases relation : workspace.disk.relativePath (root.join path).normal root with
    | ok text? => exact ⟨text?, rfl⟩
    | error other =>
        have ended := outcome_isIgnored_of_unrelated located relation session
        obtain rfl := Except.error.inj (ended.symm.trans failed)
        exact absurd ⟨root, located, relation⟩ allRelated
  obtain ⟨ignored, answered, -⟩ := answers_isIgnored forgiven path spelled related session inPlace
  cases answered.symm.trans failed

end Workspace

namespace Chronicle

variable {workspace : Workspace} {chronicle : Chronicle}

theorem IsSound.inPlace (sound : chronicle.IsSound workspace) :
    Kept.AreInPlace chronicle.session.kept := by
  intro location file present
  obtain ⟨before, after, split, -⟩ := List.lookup_eq_some_iff.mp present
  have isKept : (location, file) ∈ chronicle.session.kept := by simp [split]
  obtain ⟨text, -, rfl⟩ := sound.of_mem isKept
  rfl

/-- At every point of a chronicle, a question ends in a fault exactly when a circle of links keeps
the entry or the root from being known, whatever the files hold and however the entry is written. -/
theorem answered_unless_circled (rooted : workspace.IsRooted) (moments : List Moment)
    (reached : (opened workspace).run moments = chronicle)
    (forgiven : chronicle.workspace.outages.AreForgiven) (text : List Char) :
    (∀ fault, chronicle.workspace.answer chronicle.session text = .error fault ↔
      ∃ root place, workspace.root? = some root ∧ fault = .linkLoop place ∧
        chronicle.workspace.disk.CirclesAt (root.join (Path.ofText text)).normal root place) ∧
    (chronicle.workspace.disk.FreeOfCircles →
      ∃ ignored, chronicle.workspace.answer chronicle.session text = .ok ignored) := by
  have sound : chronicle.IsSound workspace := reached ▸ IsSound.atOpening.run rooted moments
  have faulty (fault : Fault) :
      chronicle.workspace.answer chronicle.session text = .error fault ↔
        ∃ root place, workspace.root? = some root ∧ fault = .linkLoop place ∧
          chronicle.workspace.disk.CirclesAt (root.join (Path.ofText text)).normal root place := by
    rw [Workspace.answer, Workspace.outcome_isIgnored_eq_error_iff forgiven
      (sound.spelled rooted text) sound.inPlace, sound.sameRoot]
    simp only [Disk.relativePath_eq_error_iff_circlesAt, exists_and_left]
  refine ⟨faulty, fun acyclic => ?_⟩
  cases ended : chronicle.workspace.answer chronicle.session text with
  | ok ignored => exact ⟨ignored, rfl⟩
  | error fault =>
      obtain ⟨root, place, located, rfl, circled⟩ := (faulty fault).mp ended
      have spelledPath := rooted.spelled text root located
      have spelledRoot := rooted.spelledRoot root located
      exact absurd circled
        (Disk.not_circlesAt_of_freeOfCircles acyclic spelledPath spelledRoot place)

/-- Below a link that leads to itself a question ends in a fault, whatever was asked before; where
there is no link it is answered. -/
theorem answered_beside_circle :
    (∃ later, later = (opened Workspace.circled).run [.call (.ask "x".toList)] ∧
      later.workspace.answer later.session "o/x".toList =
        .error (.linkLoop ⟨.root, ["r".toList, "o".toList]⟩)) ∧
    ∃ later, later = (opened (holding "x\n")).run rewritten ∧
      ∃ ignored, later.workspace.answer later.session "../r/./x".toList = .ok ignored := by
  have rootedCircled : Workspace.circled.IsRooted := Workspace.isRooted_ofEntries _ _
  have rootedHolding : (holding "x\n").IsRooted := Workspace.isRooted_ofEntries _ _
  constructor
  · obtain ⟨faulty, -⟩ := answered_unless_circled rootedCircled [.call (.ask "x".toList)] rfl
      Outages.areForgiven_none "o/x".toList
    refine ⟨_, rfl, (faulty _).mpr ⟨⟨.root, ["r".toList]⟩, _, rfl, rfl, .inl ?_⟩⟩
    decide +kernel
  · obtain ⟨-, answered⟩ := answered_unless_circled rootedHolding rewritten rfl
      Outages.areForgiven_none "../r/./x".toList
    refine ⟨_, rfl, answered ?_⟩
    apply Disk.freeOfCircles_of_linkless
    decide +kernel

/-- Without its condition this fails: a link that leads to itself ends the question in a fault. -/
theorem not_answered_in_circle :
    ¬∀ (workspace : Workspace) (text : List Char), workspace.IsRooted →
      workspace.outages = Outages.none →
        ∃ ignored, workspace.answer Session.fresh text = .ok ignored := by
  intro answered
  obtain ⟨ignored, given⟩ := answered Workspace.circled "o/x".toList
    (Workspace.isRooted_ofEntries _ _) rfl
  have faulty : Workspace.circled.answer Session.fresh "o/x".toList =
      .error (.linkLoop ⟨.root, ["r".toList, "o".toList]⟩) := by decide +kernel
  rw [faulty] at given
  contradiction

end Chronicle

end IgnoreRules
