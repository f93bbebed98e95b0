import IgnoreRules.IgnoreFile
import IgnoreRules.Proofs.Path.Normal

/-!
Rules mean the same on every system.  Reading a path as the system's own and cutting its text at
the slashes give the same components, so neither the answer of a rule nor that of a whole file
depends on the characters that a system forbids.
-/

namespace IgnoreRules

namespace Path

theorem significant_components_dropWhile_slash (text : List Char) :
    significant (components (text.dropWhile (· == '/'))) = significant (components text) := by
  induction text with
  | nil => rfl
  | cons character rest inductionHypothesis =>
      by_cases slash : character = '/'
      · subst slash
        simpa using inductionHypothesis
      · simp [slash]

end Path

/-- A system reads the components of a text exactly when it forbids none of its characters. -/
theorem Platform.names_eq_ok_iff {platform : Platform} {path : List Char} {names : List Name} :
    platform.names path = .ok names ↔
      (∀ character ∈ path, platform.forbids character = false) ∧
        names = Path.significant (Path.components path) := by
  unfold Platform.names
  rw [← Path.significant_components_dropWhile_slash path]
  split
  next allowed =>
    rw [List.filter_eq_nil_iff] at allowed
    simp only [Except.ok.injEq]
    exact ⟨fun same => ⟨by simpa using allowed, same.symm⟩, fun ⟨_, same⟩ => same.symm⟩
  next forbidden =>
    simp only [reduceCtorEq, false_iff, not_and]
    intro allowed
    exact absurd (List.filter_eq_nil_iff.mpr (by simpa using allowed)) forbidden

namespace Rule

theorem matchesPath_eq_matchesText (platform : Platform) (rule : Rule) (path : List Char) :
    rule.matchesPath platform path = rule.matchesText path := by
  unfold matchesPath matchesText
  split
  next names held => rw [(Platform.names_eq_ok_iff.mp held).2]
  next => rfl

theorem applies_eq_matchesText (platform : Platform) (rule : Rule) (path : List Char)
    (isDir : Bool) :
    rule.applies platform path isDir = ((isDir || !rule.dirOnly) && rule.matchesText path) := by
  rw [applies, matchesPath_eq_matchesText]

theorem applies_eq_of_components_eq {first second : Platform} {path other : List Char}
    (sameComponents :
      Path.significant (Path.components path) = Path.significant (Path.components other))
    (rule : Rule) (isDir : Bool) :
    rule.applies first path isDir = rule.applies second other isDir := by
  rw [applies_eq_matchesText, applies_eq_matchesText, matchesText, matchesText, sameComponents]

end Rule

namespace IgnoreFile

theorem verdict_eq_of_applies_eq {first second : Platform} {file : IgnoreFile}
    {path other : List Char} {isDir : Bool} (emptyTogether : path = [] ↔ other = [])
    (sameAnswers : ∀ rule : Rule,
      rule.applies first path isDir = rule.applies second other isDir) :
    file.verdict first path isDir = file.verdict second other isDir := by
  have sameRule : file.decidingRule? first path isDir = file.decidingRule? second other isDir := by
    simp only [decidingRule?, emptyTogether, sameAnswers]
  rw [verdict, verdict, sameRule]

/-- A rule applies exactly when it matches the text of the path and, if it is about directories
alone, the entry is one.  So a file says the same under every set of forbidden characters, and the
same about two paths with the same components. -/
theorem verdict_independent_of_platform :
    (∀ (platform : Platform) (rule : Rule) (path : List Char) (isDir : Bool),
      rule.applies platform path isDir = true ↔
        (rule.dirOnly = false ∨ isDir = true) ∧ rule.matchesText path = true) ∧
    (∀ (first second : Platform) (file : IgnoreFile) (path : List Char) (isDir : Bool),
      file.verdict first path isDir = file.verdict second path isDir) ∧
    (∀ (first second : Platform) (file : IgnoreFile) (path other : List Char) (isDir : Bool),
      path ≠ [] → other ≠ [] →
      Path.significant (Path.components path) = Path.significant (Path.components other) →
      file.verdict first path isDir = file.verdict second other isDir) := by
  refine ⟨?_, ?_, ?_⟩
  · intro platform rule path isDir
    rw [Rule.applies_eq_matchesText]
    cases rule.dirOnly <;> cases isDir <;> simp
  · intro first second file path isDir
    exact verdict_eq_of_applies_eq Iff.rfl
      (fun rule => Rule.applies_eq_of_components_eq rfl rule isDir)
  · intro first second file path other isDir pathNonempty otherNonempty sameComponents
    exact verdict_eq_of_applies_eq (by simp [pathNonempty, otherNonempty])
      (fun rule => Rule.applies_eq_of_components_eq sameComponents rule isDir)

/-- A path with a colon, which one system forbids, and a longer spelling of it on another system:
the file keeps both. -/
theorem verdict_colon_spelled_twice :
    let file := ofText "*.log\n!b:c.log\n".toList ⟨.root, []⟩ []
    "a/b:c.log".toList ≠ [] ∧ "//a/./b:c.log/".toList ≠ [] ∧
      Path.significant (Path.components "a/b:c.log".toList) =
        Path.significant (Path.components "//a/./b:c.log/".toList) ∧
      file.verdict .windows "a/b:c.log".toList false = .keep ∧
      file.verdict .windows "a/b:c.log".toList false =
        file.verdict .unix "//a/./b:c.log/".toList false :=
  ⟨by decide, by decide, by decide, by decide +kernel,
    verdict_independent_of_platform.2.2 .windows .unix _ _ _ false (by decide) (by decide)
      (by decide)⟩

end IgnoreFile

end IgnoreRules
