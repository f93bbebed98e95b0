import IgnoreRules.IgnoreFile
import IgnoreRules.Proofs.Path.Normal

/-!
One ignore file read forwards.  The rule that decides is what a scan from the first rule to the last
is left with, so a text written below another speaks first, and the one above is heard only where it
says nothing.
-/

namespace IgnoreRules

namespace Rule

variable {platform : Platform} {path : List Char} {isDir : Bool}

/-- The rule that a scan is left with when it goes on with `rules`, having been left with
`last?`. -/
def scan (platform : Platform) (path : List Char) (isDir : Bool) (last? : Option Rule)
    (rules : List Rule) : Option Rule :=
  rules.foldl (fun last? rule => if rule.applies platform path isDir then some rule else last?)
    last?

theorem scan_cons (last? : Option Rule) (rule : Rule) (rules : List Rule) :
    scan platform path isDir last? (rule :: rules) =
      scan platform path isDir (if rule.applies platform path isDir then some rule else last?)
        rules := rfl

theorem scan_append (last? : Option Rule) (first second : List Rule) :
    scan platform path isDir last? (first ++ second) =
      scan platform path isDir (scan platform path isDir last? first) second :=
  List.foldl_append

theorem scan_eq_find?_reverse (last? : Option Rule) (rules : List Rule) :
    scan platform path isDir last? rules =
      (rules.reverse.find? (·.applies platform path isDir)).or last? := by
  induction rules generalizing last? with
  | nil => rfl
  | cons rule rules inductionHypothesis =>
      rw [scan_cons, inductionHypothesis, List.reverse_cons, List.find?_append, Option.or_assoc]
      congr 1
      rw [List.find?_singleton]
      split <;> rfl

theorem scan_eq_or (last? : Option Rule) (rules : List Rule) :
    scan platform path isDir last? rules = (scan platform path isDir none rules).or last? := by
  rw [scan_eq_find?_reverse, scan_eq_find?_reverse, Option.or_none]

end Rule

namespace IgnoreFile

variable {platform : Platform} {path : List Char} {isDir : Bool}

def scanVerdict (platform : Platform) (rules : List Rule) (path : List Char) (isDir : Bool) :
    Verdict :=
  if path = [] then .noMatch
  else
    match Rule.scan platform path isDir none rules with
    | none => .noMatch
    | some rule => if rule.negated then .keep else .ignore

theorem verdict_eq_scanVerdict (file : IgnoreFile) :
    file.verdict platform path isDir = scanVerdict platform file.rules path isDir := by
  unfold verdict decidingRule? scanVerdict
  by_cases empty : path = []
  · rw [if_pos empty, if_pos empty]
  · rw [if_neg empty, if_neg empty, Rule.scan_eq_find?_reverse, Option.or_none]
    cases file.rules.reverse.find? (·.applies platform path isDir) <;> rfl

theorem scanVerdict_append (first second : List Rule) :
    scanVerdict platform (first ++ second) path isDir =
      if scanVerdict platform second path isDir = .noMatch then
        scanVerdict platform first path isDir
      else scanVerdict platform second path isDir := by
  unfold scanVerdict
  by_cases empty : path = []
  · simp [empty]
  · rw [if_neg empty, if_neg empty, if_neg empty, Rule.scan_append, Rule.scan_eq_or]
    cases Rule.scan platform path isDir none second with
    | none => rfl
    | some rule =>
        have speaks : (if rule.negated then Verdict.keep else Verdict.ignore) ≠ .noMatch := by
          split <;> simp
        rw [Option.some_or]
        exact (if_neg speaks).symm

/-- Marks are taken off in front of the whole text alone. -/
theorem linesOf_append {second : List Char} (unmarked : second.head? ≠ some '\uFEFF')
    (first : List Char) : linesOf (first ++ '\n' :: second) = linesOf first ++ linesOf second := by
  have secondStays : second.dropWhile (· == '\uFEFF') = second := by
    cases second with
    | nil => rfl
    | cons character rest =>
        have other : character ≠ '\uFEFF' := by simpa using unmarked
        simp [other]
  have marksInFront : (first ++ '\n' :: second).dropWhile (· == '\uFEFF') =
      first.dropWhile (· == '\uFEFF') ++ '\n' :: second := by
    rw [List.dropWhile_append]
    split
    next allMarks => simp [List.isEmpty_iff.mp allMarks]
    next => rfl
  unfold linesOf
  rw [marksInFront, secondStays]
  exact Text.pieces_append_cons (by rfl) _ _

theorem rules_ofText_append {second : List Char} (unmarked : second.head? ≠ some '\uFEFF')
    (first : List Char) (directory : Path) (location : List Char) :
    (ofText (first ++ '\n' :: second) directory location).rules =
      (ofText first directory location).rules ++ (ofText second directory location).rules := by
  unfold ofText ofLines
  dsimp only
  rw [linesOf_append unmarked, List.filterMap_append]

/-- A file says what a scan of its rules from the first to the last says.  Of two texts one below
the other, the lower one decides wherever it says anything. -/
theorem verdict_scans_and_composes (platform : Platform) (path : List Char) (isDir : Bool) :
    (∀ file : IgnoreFile,
      file.verdict platform path isDir = scanVerdict platform file.rules path isDir) ∧
    (∀ (first second : List Char) (directory : Path) (location : List Char),
      second.head? ≠ some '\uFEFF' →
      (ofText (first ++ '\n' :: second) directory location).verdict platform path isDir =
        if (ofText second directory location).verdict platform path isDir = .noMatch then
          (ofText first directory location).verdict platform path isDir
        else (ofText second directory location).verdict platform path isDir) := by
  constructor
  · intro file
    exact verdict_eq_scanVerdict file
  · intro first second directory location unmarked
    rw [verdict_eq_scanVerdict, verdict_eq_scanVerdict, verdict_eq_scanVerdict,
      rules_ofText_append unmarked]
    exact scanVerdict_append _ _

/-- A marked text that ends without a newline, above one that keeps a file and says nothing about
another. -/
theorem verdict_of_two_texts :
    let first := "\uFEFF# logs\n*.log\n!b.log".toList
    let second := "\n!a.log\n*.txt\n".toList
    second.head? ≠ some '\uFEFF' ∧
      (ofText second ⟨.root, []⟩ []).verdict .unix "a.log".toList false = .keep ∧
      (ofText second ⟨.root, []⟩ []).verdict .unix "c.log".toList false = .noMatch ∧
      (ofText (first ++ '\n' :: second) ⟨.root, []⟩ []).verdict .unix "a.log".toList false =
        .keep ∧
      (ofText (first ++ '\n' :: second) ⟨.root, []⟩ []).verdict .unix "c.log".toList false =
        .ignore := by
  have unmarked : "\n!a.log\n*.txt\n".toList.head? ≠ some '\uFEFF' := by decide
  refine ⟨unmarked, by decide +kernel, by decide +kernel, ?_, ?_⟩
  · rw [(verdict_scans_and_composes .unix "a.log".toList false).2 _ _ _ _ unmarked]
    decide +kernel
  · rw [(verdict_scans_and_composes .unix "c.log".toList false).2 _ _ _ _ unmarked]
    decide +kernel

end IgnoreFile

end IgnoreRules
