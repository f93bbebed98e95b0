import IgnoreRules.Proofs.Cache.Answered
import IgnoreRules.Proofs.Cache.Refresh
import IgnoreRules.Proofs.Filter.Survey
import IgnoreRules.Proofs.Tree.Completed

/-!
One question to the filter of the ignore files.  What the ignore files cannot be asked about stays
in, but a file must have a real path to be compared with the files chosen by hand.  This real path
counts from the current directory, and what the ignore files are asked counts from the root.
-/

namespace IgnoreRules

namespace Workspace

variable {workspace : Workspace} {root path : Path}

theorem isIgnored_join (located : workspace.root? = some root)
    (absoluteRoot : root.isAbsolute = true) :
    workspace.isIgnored (root.join path) = workspace.isIgnored path := by
  have alone : root.join (root.join path) = root.join path :=
    Path.join_of_isAbsolute (Path.isAbsolute_absolute absoluteRoot path) root
  unfold isIgnored
  rw [located]
  dsimp only
  rw [alone]

theorem IsOpened.exists_answer (opened : workspace.IsOpened root) (text : List Char) :
    ∃ ignored, workspace.answer Session.fresh text = .ok ignored := by
  cases ended : workspace.answer Session.fresh text with
  | ok ignored => exact ⟨ignored, rfl⟩
  | error fault =>
      have inPlace : Kept.AreInPlace Session.fresh.kept := fun _ _ present => by contradiction
      obtain ⟨base, located, unrelated⟩ := (outcome_isIgnored_eq_error_iff
        (areForgiven_of_quiet opened.quiet) (opened.isRooted.spelled text) inPlace).mp ended
      obtain ⟨place, -, circled⟩ := Disk.relativePath_eq_error_iff_circlesAt.mp unrelated
      exact absurd circled (Disk.not_circlesAt_of_freeOfCircles opened.acyclic
        (opened.isRooted.spelled text base located)
        (opened.isRooted.spelledRoot base located) place)

end Workspace

namespace GitignoreFilter

variable {workspace : Workspace} {filter : GitignoreFilter}

/-- What the filter says about a file. -/
def saysOfFile (filter : GitignoreFilter) (workspace : Workspace) (session : Session)
    (file : Path) : Except Fault Bool :=
  (filter.excludes workspace file false).outcome session

theorem outcome_excludes (filter : GitignoreFilter) (workspace : Workspace) (query : Query)
    (session : Session) :
    (filter.excludes workspace query.path query.isDir).outcome session =
      (filter.choosing workspace.disk query).map fun isChosen =>
        !isChosen && (workspace.answer session query.text).toOption.getD false := by
  unfold excludes
  -- What is done once it is known whether the entry was chosen.
  extract_lets shown finish
  have decided (isChosen : Bool) : (finish isChosen).outcome session =
      .ok (!isChosen && (workspace.answer session query.text).toOption.getD false) := by
    cases isChosen with
    | true => rfl
    | false =>
        dsimp only [finish]
        rw [if_neg (by simp), Action.outcome, Action.run_bind, Action.outcome, Action.after,
          Action.run_recover, Workspace.answer, Query.path]
        cases (workspace.isIgnored (Path.ofText query.text)).outcome session with
        | error fault => rfl
        | ok ignored => cases ignored <;> rfl
  unfold choosing
  cases query.isDir with
  | true => exact decided false
  | false =>
      cases resolved : workspace.disk.resolve query.path with
      | error fault => rfl
      | ok real => exact decided (filter.chosen.contains real)

theorem choosing_of_resolve {query : Query} {real : Path}
    (isFile : query.isDir = false) (resolved : workspace.disk.resolve query.path = .ok real) :
    filter.choosing workspace.disk query = .ok (filter.chosen.contains real) := by
  rw [choosing, isFile, resolved]
  rfl

theorem choosing_eq_error_iff {disk : Disk} {query : Query} {fault : Fault} :
    filter.choosing disk query = .error fault ↔
      query.isDir = false ∧ disk.resolve query.path = .error fault := by
  unfold choosing
  cases query.isDir <;> cases disk.resolve query.path <;> simp [Except.map]

theorem choosing_eq_false_iff {disk : Disk} {query : Query} :
    filter.choosing disk query = .ok false ↔
      query.isDir = true ∨ ∃ real, disk.resolve query.path = .ok real ∧ real ∉ filter.chosen := by
  unfold choosing
  cases query.isDir <;> cases disk.resolve query.path <;> simp [Except.map]

theorem outcome_excludes_eq_error_iff {query : Query} {session : Session} {fault : Fault} :
    (filter.excludes workspace query.path query.isDir).outcome session = .error fault ↔
      query.isDir = false ∧ workspace.disk.resolve query.path = .error fault := by
  rw [outcome_excludes, ← @choosing_eq_error_iff filter]
  cases filter.choosing workspace.disk query <;> simp [Except.map]

theorem outcome_excludes_eq_true_iff {query : Query} {session : Session} :
    (filter.excludes workspace query.path query.isDir).outcome session = .ok true ↔
      filter.choosing workspace.disk query = .ok false ∧
        workspace.answer session query.text = .ok true := by
  rw [outcome_excludes]
  cases filter.choosing workspace.disk query with
  | error fault => simp [Except.map]
  | ok isChosen =>
      cases workspace.answer session query.text <;> simp [Except.map, Except.toOption]

theorem exists_outcome_excludes {query : Query} (session : Session)
    (known : query.isDir = true ∨ ∃ real, workspace.disk.resolve query.path = .ok real) :
    ∃ leftOut,
      (filter.excludes workspace query.path query.isDir).outcome session = .ok leftOut := by
  cases ended : (filter.excludes workspace query.path query.isDir).outcome session with
  | ok leftOut => exact ⟨leftOut, rfl⟩
  | error fault =>
      obtain ⟨isFile, unresolved⟩ := outcome_excludes_eq_error_iff.mp ended
      rcases known with isDirectory | ⟨real, resolved⟩
      · simp [isFile] at isDirectory
      · simp [unresolved] at resolved

/-- Whatever the cache holds, the filter answers about every entry, unless it is asked about a file
that has no real path; then a null character or a circle of links keeps it from having one.  It
leaves out what was not chosen and is ignored, and nothing else; so what the ignore files cannot be
asked about stays in. -/
theorem answers_unless_unresolved (filter : GitignoreFilter) (workspace : Workspace)
    (query : Query) (session : Session) :
    (∀ fault, (filter.excludes workspace query.path query.isDir).outcome session = .error fault ↔
      query.isDir = false ∧ workspace.disk.resolve query.path = .error fault) ∧
    (∀ fault, workspace.disk.resolve query.path = .error fault →
      fault = .nullCharacter ∨ ∃ place, fault = .linkLoop place) ∧
    ((filter.excludes workspace query.path query.isDir).outcome session = .ok true ↔
      (query.isDir = true ∨
        ∃ real, workspace.disk.resolve query.path = .ok real ∧ real ∉ filter.chosen) ∧
      workspace.answer session query.text = .ok true) ∧
    (∀ fault, workspace.answer session query.text = .error fault →
      (query.isDir = true ∨ ∃ real, workspace.disk.resolve query.path = .ok real) →
      (filter.excludes workspace query.path query.isDir).outcome session = .ok false) ∧
    (workspace.disk.IsReal workspace.disk.current → workspace.disk.FreeOfCircles →
      workspace.disk.tree.LinksHoldNoNull → '\x00' ∉ query.text →
      ∃ leftOut,
        (filter.excludes workspace query.path query.isDir).outcome session = .ok leftOut) := by
  refine ⟨fun fault => outcome_excludes_eq_error_iff, ?_, ?_, ?_, ?_⟩
  · intro fault unresolved
    by_cases isNull : fault = .nullCharacter
    · exact .inl isNull
    · exact .inr (Disk.linkLoop_of_resolve unresolved isNull)
  · rw [outcome_excludes_eq_true_iff, choosing_eq_false_iff]
  · intro fault failed known
    obtain ⟨leftOut, answered⟩ := @exists_outcome_excludes workspace filter query session known
    cases leftOut with
    | false => exact answered
    | true =>
        have ignored := (outcome_excludes_eq_true_iff.mp answered).2
        rw [failed] at ignored
        contradiction
  · intro realCurrent acyclic holdsNoNull noNull
    refine exists_outcome_excludes session (.inr ?_)
    exact Disk.exists_resolve realCurrent acyclic holdsNoNull
      (fun _ isName => Path.proper_of_mem_ofText isName) (Path.noNull_of_mem_ofText noNull)

/-- Below a link that leads in a circle the ignore files cannot be asked, and a directory stays in;
elsewhere they are heard. -/
theorem circled_stays_in :
    (∃ fault, Workspace.circled.answer Session.fresh "o/x".toList = .error fault) ∧
      (excludes ⟨[]⟩ Workspace.circled (Path.ofText "o/x".toList) true).outcome Session.fresh =
        .ok false ∧
      (excludes ⟨[]⟩ Workspace.circled (Path.ofText "x".toList) false).outcome Session.fresh =
        .ok true := by
  have failed : Workspace.circled.answer Session.fresh "o/x".toList =
      .error (.linkLoop ⟨.root, ["r".toList, "o".toList]⟩) := by decide +kernel
  obtain ⟨-, -, -, staysIn, -⟩ :=
    answers_unless_unresolved ⟨[]⟩ Workspace.circled ⟨"o/x".toList, true⟩ Session.fresh
  obtain ⟨-, -, leavesOut, -, -⟩ :=
    answers_unless_unresolved ⟨[]⟩ Workspace.circled ⟨"x".toList, false⟩ Session.fresh
  refine ⟨⟨_, failed⟩, staysIn _ failed (.inl rfl), leavesOut.mpr ⟨.inr ?_, by decide +kernel⟩⟩
  exact ⟨⟨.root, ["r".toList, "x".toList]⟩, by decide +kernel, by simp⟩

/-- A link that leads in a circle is not answered about as a file. -/
theorem circled_not_answered :
    (excludes ⟨[]⟩ Workspace.circled (Path.ofText "o".toList) false).outcome Session.fresh =
      .error (.linkLoop ⟨.root, ["r".toList, "o".toList]⟩) := by
  decide +kernel

theorem saysOfFile_of_resolve {text : List Char} {file real : Path} {session : Session}
    {ignored : Bool} (written : Path.ofText text = file)
    (resolved : workspace.disk.resolve file = .ok real)
    (answered : workspace.answer session text = .ok ignored) :
    filter.saysOfFile workspace session file = .ok (ignored && !filter.chosen.contains real) := by
  subst written
  have outcome := filter.outcome_excludes workspace ⟨text, false⟩ session
  rw [choosing_of_resolve rfl resolved, answered] at outcome
  rw [Bool.and_comm]
  exact outcome

/-- A file stays in, both written from the current directory and written behind a root. -/
def KeepsBoth (filter : GitignoreFilter) (workspace : Workspace) (session : Session)
    (root file : Path) : Prop :=
  filter.saysOfFile workspace session file = .ok false ∧
    filter.saysOfFile workspace session (root.join file) = .ok false

section

variable {root file : Path} {text : List Char} {chosen : List Path}
  (opened : workspace.IsOpened root) (holdsNoNull : workspace.disk.tree.LinksHoldNoNull)
  (written : Path.ofText text = file) (isRelative : file.anchor = .relative)
  (noNull : '\x00' ∉ text)
include opened holdsNoNull written isRelative noNull

/-- What the filter says about a relative path and about the same path behind the root.  The ignore
files are asked about one and the same entry. -/
theorem exists_saysOfFile :
    ∃ ignored here there,
      workspace.answer Session.fresh text = .ok ignored ∧
      workspace.disk.resolve file = .ok here ∧
      workspace.disk.resolve (root.join file) = .ok there ∧
      (workspace.disk.current = root → here = there) ∧
      ∀ (filter : GitignoreFilter) session, workspace.Agrees session.kept →
        filter.saysOfFile workspace session file =
          .ok (ignored && !filter.chosen.contains here) ∧
        filter.saysOfFile workspace session (root.join file) =
          .ok (ignored && !filter.chosen.contains there) := by
  have proper : file.HasProperNames := by
    rw [← written]
    exact fun _ isName => Path.proper_of_mem_ofText isName
  have noNullFile : ∀ name ∈ file.names, name.NoNull := written ▸ Path.noNull_of_mem_ofText noNull
  have spelledJoin : (root.join file).IsSpelled :=
    written ▸ opened.realRoot.isSpelled.join_ofText text
  have noNullJoin : ∀ name ∈ (root.join file).names, name.NoNull := by
    intro name present
    rcases Path.mem_names_join present with inRoot | inFile
    · exact opened.realRoot.noNull name inRoot
    · exact noNullFile name inFile
  obtain ⟨ignored, answered⟩ := opened.exists_answer text
  obtain ⟨here, resolved⟩ :=
    Disk.exists_resolve opened.realCurrent opened.acyclic holdsNoNull proper noNullFile
  obtain ⟨there, resolvedJoin⟩ :=
    Disk.exists_resolve opened.realCurrent opened.acyclic holdsNoNull spelledJoin.proper noNullJoin
  refine ⟨ignored, here, there, answered, resolved, resolvedJoin, ?_, fun filter session agrees =>
    ⟨saysOfFile_of_resolve written resolved ?_,
      saysOfFile_of_resolve spelledJoin.ofText_text resolvedJoin ?_⟩⟩
  · rintro rfl
    rw [Disk.resolve_join_current opened.realCurrent opened.acyclic holdsNoNull isRelative proper
      noNullFile, resolved] at resolvedJoin
    exact Except.ok.inj resolvedJoin
  · rw [Workspace.answer_of_agrees opened.isRooted agrees, answered]
  · rw [Workspace.answer_of_agrees opened.isRooted agrees, ← answered, Workspace.answer,
      spelledJoin.ofText_text, Workspace.isIgnored_join opened.located opened.realRoot.isAbsolute,
      ← written, ← Workspace.answer]

/-- A relative path and the same path behind the root are one entry for the ignore files, but not
for the choice by hand, for which the first counts from the current directory.  Each of them stays
in if it was chosen, and where nothing was chosen both are answered alike.  One that was chosen
keeps the other in exactly when the entry is not ignored or both lead to the same file, as they do
in the root itself. -/
theorem saysOfFile_by_spelling (real : chosen.mapM workspace.disk.resolve = .ok filter.chosen) :
    ∃ ignored here there,
      workspace.answer Session.fresh text = .ok ignored ∧
      workspace.disk.resolve file = .ok here ∧
      workspace.disk.resolve (root.join file) = .ok there ∧
      (workspace.disk.current = root → here = there) ∧
      ∀ session, workspace.Agrees session.kept →
        (chosen = [] →
          filter.saysOfFile workspace session file =
            filter.saysOfFile workspace session (root.join file)) ∧
        (file ∈ chosen → filter.saysOfFile workspace session file = .ok false) ∧
        (root.join file ∈ chosen →
          filter.saysOfFile workspace session (root.join file) = .ok false) ∧
        (file ∈ chosen ∨ root.join file ∈ chosen → ignored = false ∨ here = there →
          filter.KeepsBoth workspace session root file) ∧
        (chosen = [file] ∨ chosen = [root.join file] →
          filter.KeepsBoth workspace session root file → ignored = false ∨ here = there) := by
  obtain ⟨ignored, here, there, answered, resolved, resolvedJoin, sameInRoot, answers⟩ :=
    exists_saysOfFile opened holdsNoNull written isRelative noNull
  refine ⟨ignored, here, there, answered, resolved, resolvedJoin, sameInRoot, ?_⟩
  intro session agrees
  obtain ⟨saysFile, saysJoin⟩ := answers filter session agrees
  have keepsBoth : filter.KeepsBoth workspace session root file ↔
      ignored = false ∨ here ∈ filter.chosen ∧ there ∈ filter.chosen := by
    rw [KeepsBoth, saysFile, saysJoin]
    cases ignored <;> simp
  have isChosen (path : Path) : path ∈ filter.chosen ↔
      ∃ file ∈ chosen, workspace.disk.resolve file = .ok path := mem_of_mapM real path
  refine ⟨?_, ?_, ?_, ?_, ?_⟩
  · rintro rfl
    have none (path : Path) : path ∉ filter.chosen := by simp [isChosen]
    simp [saysFile, saysJoin, none]
  · intro present
    simp [saysFile, (isChosen here).mpr ⟨file, present, resolved⟩]
  · intro present
    simp [saysJoin, (isChosen there).mpr ⟨_, present, resolvedJoin⟩]
  · rintro present (notIgnored | rfl)
    · exact keepsBoth.mpr (.inl notIgnored)
    · have chosenHere : here ∈ filter.chosen := by
        rcases present with isFile | isJoin
        · exact (isChosen here).mpr ⟨file, isFile, resolved⟩
        · exact (isChosen here).mpr ⟨_, isJoin, resolvedJoin⟩
      exact keepsBoth.mpr (.inr ⟨chosenHere, chosenHere⟩)
  · intro single kept
    refine (keepsBoth.mp kept).imp id fun ⟨hereChosen, thereChosen⟩ => ?_
    rcases single with rfl | rfl
    · simpa [isChosen, resolved] using thereChosen
    · simpa [isChosen, resolvedJoin, eq_comm] using hereChosen

end

def around : Workspace :=
  Workspace.ofEntries ".gitignore" [
    ("b", .directory), ("b/.gitignore", .file "x\n".toUTF8), ("b/x", .file .empty)]

/-- On the same disk a project that starts below the current directory. -/
def below : Workspace :=
  { around with root? := some ⟨.root, ["r".toList, "b".toList]⟩ }

theorem around_isOpened : around.IsOpened ⟨.root, ["r".toList]⟩ where
  located := rfl
  realRoot := Workspace.isReal_ofEntries _ _
  realCurrent := Workspace.isReal_ofEntries _ _
  acyclic := Disk.freeOfCircles_of_linkless (by decide +kernel)
  quiet := rfl

theorem below_isOpened : below.IsOpened ⟨.root, ["r".toList, "b".toList]⟩ where
  located := rfl
  realRoot := by decide +kernel
  realCurrent := around_isOpened.realCurrent
  acyclic := around_isOpened.acyclic
  quiet := rfl

theorem around_linksHoldNoNull : around.disk.tree.LinksHoldNoNull := by
  intro location target isLink
  rw [Tree.link?_eq_none (by decide +kernel)] at isLink
  contradiction

/-- The ignored file was chosen by its absolute path.  In the project that starts in the current
directory it stays in however it is written, in the other it does not. -/
theorem around_keeps_both :
    let chosen : List Path := [⟨.root, ["r".toList, "b".toList, "x".toList]⟩]
    KeepsBoth ⟨chosen⟩ around Session.fresh ⟨.root, ["r".toList]⟩ (Path.ofText "b/x".toList) ∧
      ¬KeepsBoth ⟨chosen⟩ below Session.fresh ⟨.root, ["r".toList, "b".toList]⟩
        (Path.ofText "x".toList) := by
  intro chosen
  have real : chosen.mapM around.disk.resolve = .ok chosen := by decide +kernel
  constructor
  · obtain ⟨ignored, here, there, -, -, -, sameInRoot, answers⟩ :=
      @saysOfFile_by_spelling _ ⟨chosen⟩ _ _ "b/x".toList _ around_isOpened
        around_linksHoldNoNull rfl (by decide) (by decide) real
    obtain ⟨-, -, -, keepsBoth, -⟩ := answers Session.fresh Workspace.agrees_fresh
    exact keepsBoth (.inr (by decide)) (.inr (sameInRoot rfl))
  · intro keepsBoth
    obtain ⟨ignored, here, there, answered, resolved, resolvedJoin, -, answers⟩ :=
      @saysOfFile_by_spelling _ ⟨chosen⟩ _ _ "x".toList _ below_isOpened
        around_linksHoldNoNull rfl (by decide) (by decide) real
    obtain ⟨-, -, -, -, excused⟩ := answers Session.fresh Workspace.agrees_fresh
    have isIgnored : below.answer Session.fresh "x".toList = .ok true := by decide +kernel
    have isHere : below.disk.resolve (Path.ofText "x".toList) =
        .ok ⟨.root, ["r".toList, "x".toList]⟩ := by decide +kernel
    have isThere : below.disk.resolve
        (Path.join ⟨.root, ["r".toList, "b".toList]⟩ (Path.ofText "x".toList)) =
        .ok ⟨.root, ["r".toList, "b".toList, "x".toList]⟩ := by decide +kernel
    rw [isIgnored] at answered
    rw [isHere] at resolved
    rw [isThere] at resolvedJoin
    rcases excused (.inr (by decide)) keepsBoth with notIgnored | same
    · exact absurd (Except.ok.inj answered) (by simp [notIgnored])
    · rw [← Except.ok.inj resolved, ← Except.ok.inj resolvedJoin] at same
      contradiction

/-- The file that was chosen is left out when it is written from the root of its project. -/
theorem below_leaves_out_chosen :
    let root : Path := ⟨.root, ["r".toList, "b".toList]⟩
    let file : Path := Path.ofText "x".toList
    below.root? = some root ∧ below.disk.pathExists (root.join file) = .ok true ∧
      below.disk.isDirectory (root.join file) = .ok false ∧
      [root.join file].mapM below.disk.resolve = .ok [root.join file] ∧
      saysOfFile ⟨[root.join file]⟩ below Session.fresh (root.join file) = .ok false ∧
      saysOfFile ⟨[root.join file]⟩ below Session.fresh file = .ok true :=
  ⟨rfl, by decide +kernel, by decide +kernel, by decide +kernel, by decide +kernel,
    by decide +kernel⟩

end GitignoreFilter

end IgnoreRules
