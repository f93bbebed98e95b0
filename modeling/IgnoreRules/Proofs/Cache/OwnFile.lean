import IgnoreRules.Proofs.Cache.Transparency
import IgnoreRules.Proofs.Tree.Linkless

/-!
Directories and their own ignore files.  The way up from a directory starts in it, so its own ignore
file is asked too; but the file counts from the real path of the directory, and the directory does
not lie below itself.  Its own file is heard only when the directory is a link to one above it.
-/

namespace IgnoreRules

namespace Path

variable {path directory : Path}

theorem liesBelow_iff :
    path.liesBelow directory = true ↔
      ∃ names, names ≠ [] ∧ directory.namesBelow? path = some names := by
  unfold liesBelow
  cases directory.namesBelow? path <;> simp

theorem liesBelow_self (path : Path) : path.liesBelow path = false := by
  simp [liesBelow, namesBelow?]

theorem mem_cons_ancestors_of_liesBelow (below : path.liesBelow directory = true) :
    directory ∈ path :: path.ancestors := by
  obtain ⟨names, -, isBelow⟩ := liesBelow_iff.mp below
  rw [mem_cons_ancestors_iff]
  unfold namesBelow? at isBelow
  split at isBelow
  next related => exact related
  next => contradiction

end Path

namespace Question

variable {platform : Platform} {isDir : Bool} {asked later : List Question}

theorem exclude_eq_true_iff :
    exclude platform isDir asked = true ↔
      ∃ question, lastApplying? platform isDir asked = some question ∧
        question.1.negated = false := by
  unfold exclude
  cases lastApplying? platform isDir asked <;> simp

theorem exclude_append :
    exclude platform isDir (asked ++ later) =
      (lastApplying? platform isDir later).elim (exclude platform isDir asked)
        fun question => !question.1.negated := by
  unfold exclude
  rw [lastApplying?_append]
  cases lastApplying? platform isDir later <;> rfl

end Question

namespace Workspace

/-- The answer about a directory when the way up starts above it. -/
def isIgnoredFromAbove (workspace : Workspace) (root directory : Path) : Action Bool := do
  let files ← workspace.filesAbout root directory false
  let verdict ← workspace.judge directory directory.text true .noMatch files
  return verdict == .ignore

def heardFrom (workspace : Workspace) (root start entry : Path) : List Question :=
  let passed := workspace.passed root (start :: start.ancestors)
  (passed.filterMap workspace.fileHeard?).reverse.flatMap (workspace.questionsOf entry)

/-- What the ignore file in a directory is asked about the directory itself. -/
def ownHeard (workspace : Workspace) (spelled entry : Path) : List Question :=
  (workspace.fileHeard? spelled).toList.flatMap (workspace.questionsOf entry)

variable {workspace : Workspace} {root spelled entry : Path}

theorem heard_of_showsDirectory (shown : workspace.showsDirectory spelled = true) :
    workspace.heard root spelled entry = workspace.heardFrom root spelled entry := by
  unfold heard heardFrom bottom
  rw [if_pos shown]

theorem heardFrom_eq_append (nonempty : spelled.names ≠ [])
    (within : workspace.disk.isAncestor root spelled = .ok true) :
    workspace.heardFrom root spelled entry =
      workspace.heardFrom root spelled.parent entry ++ workspace.ownHeard spelled entry := by
  have passesOn : workspace.passed root (spelled :: spelled.ancestors) =
      spelled :: workspace.passed root (spelled.parent :: spelled.parent.ancestors) := by
    rw [passed, List.takeWhile_cons_of_pos (by simp [within, Except.toOption]),
      Path.ancestors_eq_cons nonempty, ← passed]
  unfold heardFrom ownHeard
  dsimp only
  rw [passesOn]
  cases own : workspace.fileHeard? spelled <;> simp [own]

theorem questionsOf_eq_nil {file : IgnoreFile}
    (notAbove : ∀ base, workspace.disk.resolve file.directory = .ok base →
      entry.liesBelow base = false) : workspace.questionsOf entry file = [] := by
  unfold questionsOf
  split
  next => rfl
  next => rfl
  next names notNone isBelow =>
    obtain ⟨base, resolved, isBelow⟩ := Option.bind_eq_some_iff.mp isBelow
    have silent := notAbove base (by
      cases given : workspace.disk.resolve file.directory <;> simp_all [Except.toOption])
    have speaks : entry.liesBelow base = true :=
      Path.liesBelow_iff.mpr ⟨names, by simpa using notNone, isBelow⟩
    rw [silent] at speaks
    contradiction

theorem directory_of_fileHeard? (plain : workspace.ignoreFilename.Plain) {file : IgnoreFile}
    (heard : workspace.fileHeard? spelled = some file) : file.directory = spelled := by
  rcases fileIn_eq_ok_iff.mp (fileIn_of_fileHeard? heard) with ⟨-, none⟩ | ⟨-, compiled⟩
  · contradiction
  · rw [directory_of_fileAt compiled, ignoreFilePath, Path.join_ofText_of_plain plain,
      Path.parent_child]

theorem ownHeard_eq_nil (plain : workspace.ignoreFilename.Plain)
    (notAbove : ∀ base, workspace.disk.resolve spelled = .ok base → entry.liesBelow base = false) :
    workspace.ownHeard spelled entry = [] := by
  unfold ownHeard
  cases own : workspace.fileHeard? spelled with
  | none => rfl
  | some file =>
      rw [Option.toList_some, List.flatMap_singleton]
      apply questionsOf_eq_nil
      rwa [directory_of_fileHeard? plain own]

theorem names_ne_nil_of_liesBelow (isSpelled : spelled.IsSpelled)
    (noAbove : Name.above ∉ spelled.names) (known : workspace.disk.entryPath spelled = .ok entry)
    (below : entry.liesBelow root = true) : spelled.names ≠ [] := by
  intro atTop
  rw [Disk.entryPath_of_isSpelled isSpelled noAbove, if_pos atTop] at known
  obtain ⟨names, more, isBelow⟩ := Path.liesBelow_iff.mp below
  have split := Path.eq_append_of_namesBelow? isBelow
  rw [← Except.ok.inj known, atTop] at split
  exact more (List.append_eq_nil_iff.mp split.symm).2

section

variable (opened : workspace.IsOpened root) (isSpelled : spelled.IsSpelled)
  (noAbove : Name.above ∉ spelled.names)
  (known : workspace.disk.entryPath spelled = .ok entry)
include opened isSpelled noAbove known

theorem outcome_isIgnoredFromAbove :
    (workspace.isIgnoredFromAbove root spelled).outcome Session.fresh =
      .ok (Question.exclude workspace.platform true
        (workspace.heardFrom root spelled.parent entry)) := by
  have plain := Disk.plain_of_entryPath opened.realCurrent opened.acyclic isSpelled noAbove known
  have resolvedRoot := opened.realRoot.resolve_eq_self opened.realCurrent
  have collected : workspace.filesFor root spelled false =
      .ok ((workspace.passed root (spelled.parent :: spelled.parent.ancestors)).filterMap
        workspace.fileHeard?).reverse := by
    have walked : workspace.filesIn root (wayUp spelled false) = _ :=
      filesIn_of_forgiven (areForgiven_of_quiet opened.quiet)
        (fun directory => hasNull_of_mem_wayUp isSpelled noAbove known (by simp))
        fun directory => isAncestor_of_mem_wayUp isSpelled noAbove known resolvedRoot
    rw [filesFor, ← wayUp, walked, ok_bind, pure_eq_ok]
    rfl
  have gives : Action.Gives workspace.Agrees (workspace.isIgnoredFromAbove root spelled) _ :=
    .bind (gives_filesAbout root false isSpelled) fun files _ =>
      .bind (gives_judge spelled spelled.text true files .noMatch) fun verdict _ =>
        .pure (verdict == .ignore)
  rw [(gives Session.fresh agrees_fresh).1, collected, ok_bind,
    lastSaid_eq_lastApplying? opened.realCurrent opened.acyclic known plain, ok_bind,
    Question.elim_beq_ignore]
  rfl

theorem outcome_of_directory {text : List Char}
    (reached : (root.join (Path.ofText text)).normal = spelled)
    (isDirectory : workspace.disk.isDirectory spelled = .ok true)
    (below : entry.liesBelow root = true) :
    (workspace.isIgnored (Path.ofText text)).outcome Session.fresh =
      .ok (Question.exclude workspace.platform true
        (workspace.heardFrom root spelled.parent entry ++ workspace.ownHeard spelled entry)) := by
  have spelledPath (base : Path) (located : workspace.root? = some base) :
      (base.join (Path.ofText text)).IsSpelled := by
    rw [opened.located] at located
    rw [← Option.some.inj located]
    exact opened.realRoot.isSpelled.join_ofText text
  have nonempty := names_ne_nil_of_liesBelow isSpelled noAbove known below
  have within : workspace.disk.isAncestor root spelled = .ok true := by
    rw [Disk.isAncestor_of_entryPath opened.realCurrent opened.realRoot known,
      List.contains_iff_mem.mpr (Path.mem_cons_ancestors_of_liesBelow below)]
  have shown := showsDirectory_iff.mpr isDirectory
  rw [outcome_isIgnored_fresh spelledPath,
    excluded_of_isSpelled opened isSpelled noAbove known reached, heardAnswer, below,
    Bool.true_and, heardExcludes, shown, heard_of_showsDirectory shown,
    heardFrom_eq_append nonempty within]

end

/-- A directory below the root is answered as from above it exactly when its own ignore file has
nothing else to say about it.  The file says nothing at all unless the directory is a link, and one
that leads to a directory above it. -/
theorem directory_answered_from_above_iff (opened : workspace.IsOpened root) {text : List Char}
    (reached : (root.join (Path.ofText text)).normal = spelled)
    (isDirectory : workspace.disk.isDirectory spelled = .ok true)
    (known : workspace.disk.entryPath spelled = .ok entry)
    (below : entry.liesBelow root = true) :
    ∃ answer fromAbove,
      (workspace.isIgnored (Path.ofText text)).outcome Session.fresh = .ok answer ∧
      (workspace.isIgnoredFromAbove root spelled).outcome Session.fresh = .ok fromAbove ∧
      (answer = fromAbove ↔
        ∀ question ∈ Question.lastApplying? workspace.platform true
          (workspace.ownHeard spelled entry), question.1.negated = !fromAbove) ∧
      (workspace.ignoreFilename.Plain →
        (∀ target, workspace.disk.resolve spelled = .ok target → entry.liesBelow target = false) →
        answer = fromAbove) ∧
      (workspace.ignoreFilename.Plain → workspace.disk.tree.link? entry.names = none →
        answer = fromAbove) := by
  have spelledJoin := opened.realRoot.isSpelled.join_ofText text
  have isSpelled : spelled.IsSpelled := reached ▸ spelledJoin.normal
  have noAbove : Name.above ∉ spelled.names :=
    reached ▸ Path.above_not_mem_normal spelledJoin.absolute
  have alike (silent : workspace.ownHeard spelled entry = []) :
      Question.exclude workspace.platform true
          (workspace.heardFrom root spelled.parent entry ++ workspace.ownHeard spelled entry) =
        Question.exclude workspace.platform true
          (workspace.heardFrom root spelled.parent entry) := by
    rw [silent, List.append_nil]
  refine ⟨_, _, outcome_of_directory opened isSpelled noAbove known reached isDirectory below,
    outcome_isIgnoredFromAbove opened isSpelled noAbove known, ?_, ?_, ?_⟩
  · rw [Question.exclude_append]
    cases Question.lastApplying? workspace.platform true (workspace.ownHeard spelled entry) with
    | none => simp
    | some question =>
        simp [Bool.not_eq_eq_eq_not]
  · intro plain notAbove
    exact alike (ownHeard_eq_nil plain notAbove)
  · intro plain noLink
    have noNull := Disk.hasNull_eq_false_iff.mp (Disk.hasNull_of_leadsTo isDirectory)
    have nonempty := names_ne_nil_of_liesBelow isSpelled noAbove known below
    have own := Disk.resolve_of_not_link opened.acyclic isSpelled noAbove nonempty noNull known
      noLink
    refine alike (ownHeard_eq_nil plain fun base resolved => ?_)
    rw [own] at resolved
    rw [← Except.ok.inj resolved, Path.liesBelow_self]

/-- Everything is ignored but what is in `a`, where a link `l` leads back to the root. -/
def climbing : Workspace :=
  ofEntries ".gitignore" [
    (".gitignore", .file "*\n".toUTF8), ("a", .directory),
    ("a/.gitignore", .file "!*\n".toUTF8), ("a/l", .link "/r".toList)]

theorem climbing_isOpened : climbing.IsOpened ⟨.root, ["r".toList]⟩ where
  located := rfl
  realRoot := isReal_ofEntries _ _
  realCurrent := isReal_ofEntries _ _
  acyclic := by
    apply Disk.freeOfCircles_of_straight
    intro location target isLink
    have isMentioned := Tree.mem_mentions_of_link? isLink
    obtain ⟨-, rfl⟩ : _ ∧ target = "/r".toList := by
      simpa [climbing, ofEntries] using isMentioned
    exact ⟨⟨.root, ["r".toList]⟩, isReal_ofEntries _ _, by decide⟩
  quiet := rfl

/-- The directory `a` is answered as from above it, and the link in it is not. -/
theorem climbing_answers :
    (∃ answer, (climbing.isIgnored (Path.ofText "a".toList)).outcome Session.fresh = .ok answer ∧
      (climbing.isIgnoredFromAbove ⟨.root, ["r".toList]⟩
        ⟨.root, ["r".toList, "a".toList]⟩).outcome Session.fresh = .ok answer) ∧
    ∃ answer fromAbove,
      (climbing.isIgnored (Path.ofText "a/l".toList)).outcome Session.fresh = .ok answer ∧
      (climbing.isIgnoredFromAbove ⟨.root, ["r".toList]⟩
        ⟨.root, ["r".toList, "a".toList, "l".toList]⟩).outcome Session.fresh = .ok fromAbove ∧
      answer ≠ fromAbove := by
  constructor
  · obtain ⟨answer, fromAbove, answered, answeredAbove, -, -, ofNoLink⟩ :=
      @directory_answered_from_above_iff _ _ _ ⟨.root, ["r".toList, "a".toList]⟩
        climbing_isOpened "a".toList rfl (by decide +kernel) (by decide +kernel) (by decide)
    rw [ofNoLink (by decide) (by decide +kernel)] at answered
    exact ⟨fromAbove, answered, answeredAbove⟩
  · obtain ⟨answer, fromAbove, answered, answeredAbove, agree, -⟩ :=
      @directory_answered_from_above_iff _ _ _ ⟨.root, ["r".toList, "a".toList, "l".toList]⟩
        climbing_isOpened "a/l".toList rfl (by decide +kernel) (by decide +kernel) (by decide)
    refine ⟨answer, fromAbove, answered, answeredAbove, fun same => ?_⟩
    have ownExcludes : Question.exclude climbing.platform true
        (climbing.ownHeard ⟨.root, ["r".toList, "a".toList, "l".toList]⟩
          ⟨.root, ["r".toList, "a".toList, "l".toList]⟩) = true := by decide +kernel
    have staysIn : (climbing.isIgnoredFromAbove ⟨.root, ["r".toList]⟩
        ⟨.root, ["r".toList, "a".toList, "l".toList]⟩).outcome Session.fresh = .ok false := by
      decide +kernel
    obtain rfl := Except.ok.inj (answeredAbove.symm.trans staysIn)
    obtain ⟨question, speaks, notNegated⟩ := Question.exclude_eq_true_iff.mp ownExcludes
    exact absurd (notNegated.symm.trans (agree.mp same question speaks)) (by decide)

/-- The link is a directory below the root, and the ignore file that is found through it ignores
the link, though from above it stays in. -/
theorem climbing_own_file_decides :
    climbing.disk.isDirectory ⟨.root, ["r".toList, "a".toList, "l".toList]⟩ = .ok true ∧
      climbing.disk.entryPath ⟨.root, ["r".toList, "a".toList, "l".toList]⟩ =
        .ok ⟨.root, ["r".toList, "a".toList, "l".toList]⟩ ∧
      (climbing.isIgnored (Path.ofText "a/l".toList)).outcome Session.fresh = .ok true ∧
      (climbing.isIgnoredFromAbove ⟨.root, ["r".toList]⟩
        ⟨.root, ["r".toList, "a".toList, "l".toList]⟩).outcome Session.fresh = .ok false :=
  ⟨by decide +kernel, by decide +kernel, by decide +kernel, by decide +kernel⟩

end Workspace

end IgnoreRules
