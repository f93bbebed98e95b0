import IgnoreRules.Proofs.Cache.Heard
import IgnoreRules.Proofs.Tree.Straight

/-!
Two spellings of one entry.  The way up from an entry goes through the directories as they were
written, so a link on it leads past ignore files that another spelling meets.
-/

namespace IgnoreRules

namespace Workspace

variable {workspace : Workspace} {root entry : Path}

theorem outcome_of_absolute (opened : workspace.IsOpened root) {text : List Char}
    (absolute : (Path.ofText text).isAbsolute = true)
    (known : workspace.disk.entryPath (Path.ofText text) = .ok entry) :
    (workspace.isIgnored (Path.ofText text)).outcome Session.fresh =
      .ok (workspace.heardAnswer root (Path.ofText text).normal entry) := by
  have isSpelled : (Path.ofText text).IsSpelled := ⟨absolute, fun name => Path.proper_of_mem_ofText⟩
  have alone (base : Path) : base.join (Path.ofText text) = Path.ofText text :=
    Path.join_of_isAbsolute absolute base
  have noAbove := Path.above_not_mem_normal absolute
  have knownNormal : workspace.disk.entryPath (Path.ofText text).normal = .ok entry := by
    rw [← known, Disk.entryPath, Disk.entryPath,
      Path.normalAbsolute_of_absolute isSpelled.normal.absolute,
      Path.normalAbsolute_of_absolute absolute, Path.normal_normal absolute]
  rw [outcome_isIgnored_fresh fun base _ => by rwa [alone base]]
  exact excluded_of_isSpelled opened isSpelled.normal noAbove knownNormal (by rw [alone])

/-- Two absolute spellings of one entry both get an answer.  Below the root it is the same exactly
when the last rules that apply, of those heard on the way up from either spelling, agree; where no
link is on the way to either, it always is. -/
theorem isIgnored_spellings_agree_iff (opened : workspace.IsOpened root)
    {first second : List Char} (firstAbsolute : (Path.ofText first).isAbsolute = true)
    (secondAbsolute : (Path.ofText second).isAbsolute = true)
    (firstEntry : workspace.disk.entryPath (Path.ofText first) = .ok entry)
    (secondEntry : workspace.disk.entryPath (Path.ofText second) = .ok entry) :
    ∃ firstAnswer secondAnswer,
      (workspace.isIgnored (Path.ofText first)).outcome Session.fresh = .ok firstAnswer ∧
      (workspace.isIgnored (Path.ofText second)).outcome Session.fresh = .ok secondAnswer ∧
      (firstAnswer = secondAnswer ↔
        (entry.liesBelow root = true →
          workspace.heardExcludes root (Path.ofText first).normal entry =
            workspace.heardExcludes root (Path.ofText second).normal entry)) ∧
      (workspace.disk.IsReal (Path.ofText first).normal.parent →
        workspace.disk.IsReal (Path.ofText second).normal.parent → firstAnswer = secondAnswer) := by
  refine ⟨_, _, outcome_of_absolute opened firstAbsolute firstEntry,
    outcome_of_absolute opened secondAbsolute secondEntry, ?_, ?_⟩
  · unfold heardAnswer
    cases entry.liesBelow root <;> simp
  · intro firstReal secondReal
    rw [Disk.entryPath_of_isReal_parent opened.realCurrent firstAbsolute firstReal] at firstEntry
    rw [Disk.entryPath_of_isReal_parent opened.realCurrent secondAbsolute secondReal] at secondEntry
    rw [Except.ok.inj firstEntry, Except.ok.inj secondEntry]

/-- A link `l` to `b/c`, and an ignore file in `b`. -/
def shortcut : Workspace :=
  ofEntries ".gitignore" [
    ("b", .directory), ("b/.gitignore", .file "x\n".toUTF8), ("b/c", .directory),
    ("b/c/x", .file .empty), ("l", .link "/r/b/c".toList)]

theorem shortcut_isOpened : shortcut.IsOpened ⟨.root, ["r".toList]⟩ where
  located := rfl
  realRoot := by decide +kernel
  realCurrent := by decide +kernel
  acyclic := by
    apply Disk.freeOfCircles_of_straight
    intro location target isLink
    have isMentioned := Tree.mem_mentions_of_link? isLink
    obtain ⟨-, rfl⟩ : _ ∧ target = "/r/b/c".toList := by
      simpa [shortcut, ofEntries] using isMentioned
    exact ⟨⟨.root, ["r".toList, "b".toList, "c".toList]⟩, by decide +kernel, by decide +kernel⟩
  quiet := rfl

/-- Both spellings of the entry are answered, and what is heard from them differs. -/
theorem shortcut_answers :
    ∃ throughDirectory throughLink,
      (shortcut.isIgnored (Path.ofText "/r/b/c/x".toList)).outcome Session.fresh =
        .ok throughDirectory ∧
      (shortcut.isIgnored (Path.ofText "/r/l/x".toList)).outcome Session.fresh =
        .ok throughLink ∧
      throughDirectory ≠ throughLink := by
  have own : (Path.ofText "/r/b/c/x".toList).isAbsolute = true := by decide
  have linked : (Path.ofText "/r/l/x".toList).isAbsolute = true := by decide
  let entry : Path := ⟨.root, ["r".toList, "b".toList, "c".toList, "x".toList]⟩
  have ownEntry : shortcut.disk.entryPath (Path.ofText "/r/b/c/x".toList) = .ok entry := by
    decide +kernel
  have linkedEntry : shortcut.disk.entryPath (Path.ofText "/r/l/x".toList) = .ok entry := by
    decide +kernel
  obtain ⟨throughDirectory, throughLink, answered, answeredToo, agree, -⟩ :=
    isIgnored_spellings_agree_iff shortcut_isOpened own linked ownEntry linkedEntry
  refine ⟨throughDirectory, throughLink, answered, answeredToo, fun same => ?_⟩
  exact absurd (agree.mp same (by decide +kernel)) (by decide +kernel)

/-- The entry is ignored by its own path and not through the link, though both are paths of the same
entry. -/
theorem shortcut_spellings_disagree :
    shortcut.disk.entryPath (Path.ofText "/r/b/c/x".toList) =
        shortcut.disk.entryPath (Path.ofText "/r/l/x".toList) ∧
      (shortcut.isIgnored (Path.ofText "/r/b/c/x".toList)).outcome Session.fresh = .ok true ∧
      (shortcut.isIgnored (Path.ofText "/r/l/x".toList)).outcome Session.fresh = .ok false :=
  ⟨by decide +kernel, by decide +kernel, by decide +kernel⟩

end Workspace

end IgnoreRules
