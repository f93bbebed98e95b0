import IgnoreRules.Filter
import IgnoreRules.Proofs.Cache.Transparency
import IgnoreRules.Proofs.Text.Results
import Mathlib.Data.List.Perm.Basic

/-!
Entries asked about one after another, with the same filters and on one cache.  What is said of an
entry is what the disk says of it alone, so an order of the questions is not seen in the answers,
and the counts grow by the answers that were given.
-/

namespace IgnoreRules

structure Query where
  text : List Char
  isDir : Bool
deriving DecidableEq, Repr

namespace Query

def path (query : Query) : Path :=
  Path.ofText query.text

/-- The entry is a file that leads to where a file chosen by hand leads. -/
def IsChosen (disk : Disk) (chosen : List Path) (query : Query) : Prop :=
  query.isDir = false ∧
    ∃ real, disk.resolve query.path = .ok real ∧ ∃ file ∈ chosen, disk.resolve file = .ok real

end Query

abbrev Answers := List (Query × Option ExclusionReason)

namespace Answers

def given (answers : Answers) (reason? : Option ExclusionReason) : Nat :=
  answers.countP (·.2 == reason?)

def leftOut (answers : Answers) : Nat :=
  answers.countP (·.2.isSome)

end Answers

namespace ExclusionStats

def countAll (stats : ExclusionStats) (answers : Answers) : ExclusionStats :=
  answers.foldl (fun stats answer => stats.count answer.2) stats

theorem countAll_eq (stats : ExclusionStats) (answers : Answers) :
    stats.countAll answers =
      ⟨stats.byIgnoredName + answers.given (some .ignoredName),
        stats.byGitignore + answers.given (some .gitignore)⟩ := by
  induction answers generalizing stats with
  | nil => rfl
  | cons answer others inductionHypothesis =>
      have further : stats.countAll (answer :: others) =
          (stats.count answer.2).countAll others := rfl
      rw [further, inductionHypothesis]
      obtain ⟨query, _ | _ | _⟩ := answer <;>
        simp [count, record, Answers.given, Nat.add_assoc, Nat.add_comm]

theorem total_countAll (stats : ExclusionStats) (answers : Answers) :
    (stats.countAll answers).total = stats.total + answers.leftOut := by
  have split : answers.leftOut =
      answers.given (some .ignoredName) + answers.given (some .gitignore) := by
    unfold Answers.leftOut Answers.given
    induction answers with
    | nil => rfl
    | cons answer others inductionHypothesis =>
        obtain ⟨query, _ | _ | _⟩ := answer <;>
          simp [inductionHypothesis] <;> omega
  rw [countAll_eq, total, total, split]
  dsimp only
  omega

theorem countAll_of_perm (stats : ExclusionStats) {answers others : Answers}
    (reordered : answers.Perm others) : stats.countAll answers = stats.countAll others := by
  rw [countAll_eq, countAll_eq, Answers.given, Answers.given, reordered.countP_eq,
    reordered.countP_eq]
  rfl

end ExclusionStats

namespace GitignoreFilter

variable {workspace : Workspace}

def choosing (filter : GitignoreFilter) (disk : Disk) (query : Query) : Except Fault Bool :=
  if query.isDir then .ok false else (disk.resolve query.path).map filter.chosen.contains

/-- The filter leaves an entry out, by the files on the disk alone. -/
def excluded (filter : GitignoreFilter) (workspace : Workspace) (query : Query) :
    Except Fault Bool := do
  if ← filter.choosing workspace.disk query then
    return false
  else
    forgive (fun _ => true) false (workspace.excluded query.path)

theorem gives_excludes (rooted : workspace.IsRooted) (filter : GitignoreFilter) (query : Query) :
    Action.Gives workspace.Agrees (filter.excludes workspace query.path query.isDir)
      (filter.excluded workspace query) := by
  have asked := Workspace.gives_isIgnored query.path (rooted.spelled query.text)
  unfold excludes
  -- What is done once it is known whether the entry was chosen.
  extract_lets shown finish
  have decided (isChosen : Bool) : Action.Gives workspace.Agrees (finish isChosen)
      (if isChosen then .ok false
        else forgive (fun _ => true) false (workspace.excluded query.path)) := by
    refine .ite (.andThen (.log _ _ _) (.pure false)) ?_
    rw [← bind_pure (forgive _ _ _)]
    refine .bind (.recover asked fun fault => .andThen (.log _ _ _) (.pure false)) ?_
    intro ignored _
    cases ignored with
    | false => exact .pure false
    | true => exact .andThen (.log _ _ _) (.pure true)
  unfold excluded choosing
  cases query.isDir with
  | true => exact decided false
  | false =>
      cases resolved : workspace.disk.resolve query.path with
      | error fault => exact .fail (.perform (.error fault))
      | ok real => exact decided (filter.chosen.contains real)

theorem eq_true_iff_of_choosing {disk : Disk} {filter : GitignoreFilter} {chosen : List Path}
    (real : chosen.mapM disk.resolve = .ok filter.chosen) {query : Query} {isChosen : Bool}
    (choosing : filter.choosing disk query = .ok isChosen) :
    isChosen = true ↔ query.IsChosen disk chosen := by
  unfold GitignoreFilter.choosing at choosing
  unfold Query.IsChosen
  cases asDirectory : query.isDir with
  | true =>
      rw [asDirectory] at choosing
      simp [← Except.ok.inj choosing]
  | false =>
      rw [asDirectory] at choosing
      cases resolved : disk.resolve query.path with
      | error fault =>
          rw [resolved] at choosing
          contradiction
      | ok place =>
          rw [resolved] at choosing
          simp [← Except.ok.inj choosing, mem_of_mapM real]

theorem eq_true_iff_of_excluded (rooted : workspace.IsRooted) {filter : GitignoreFilter}
    {chosen : List Path} (real : chosen.mapM workspace.disk.resolve = .ok filter.chosen)
    {query : Query} {leftOut : Bool} (answered : filter.excluded workspace query = .ok leftOut) :
    leftOut = true ↔ ¬query.IsChosen workspace.disk chosen ∧
      workspace.answer Session.fresh query.text = .ok true := by
  have sameAnswer : workspace.answer Session.fresh query.text = workspace.excluded query.path :=
    Workspace.outcome_isIgnored_fresh (rooted.spelled query.text)
  obtain ⟨isChosen, choosing, answered⟩ := bind_eq_ok_iff.mp answered
  rw [sameAnswer, ← eq_true_iff_of_choosing real choosing]
  cases isChosen with
  | true => simpa using (Except.ok.inj answered).symm
  | false =>
      have replaced := eq_getD_of_forgive answered
      rw [replaced]
      cases workspace.excluded query.path <;> simp [Except.toOption]

end GitignoreFilter

namespace Filters

variable {workspace : Workspace} {filters : Filters}

def reasonFor (filters : Filters) (workspace : Workspace) (query : Query) :
    Except Fault (Option ExclusionReason) :=
  if filters.names.excludes query.path query.isDir then .ok (some .ignoredName)
  else
    match filters.gitignore? with
    | none => .ok none
    | some filter => do
        return if ← filter.excluded workspace query then some .gitignore else none

def survey (filters : Filters) (workspace : Workspace) :
    ExclusionStats → List Query → Action (Answers × ExclusionStats)
  | stats, [] => return ([], stats)
  | stats, query :: others => do
      let (reason?, stats) ←
        filters.countedExclusion workspace query.path query.isDir stats
      let (answers, stats) ← filters.survey workspace stats others
      return ((query, reason?) :: answers, stats)

theorem gives_firstExclusion (rooted : workspace.IsRooted) (query : Query) :
    Action.Gives workspace.Agrees (filters.firstExclusion workspace query.path query.isDir)
      (filters.reasonFor workspace query) := by
  unfold firstExclusion reasonFor
  refine .andThen (.logAll _) (.ite (.pure _) ?_)
  cases filters.gitignore? with
  | none => exact .pure none
  | some filter =>
      exact .bind (filter.gives_excludes rooted query) fun leftOut _ => .pure _

def answered (filters : Filters) (workspace : Workspace) (query : Query) :
    Except Fault (Query × Option ExclusionReason) := do
  return (query, ← filters.reasonFor workspace query)

theorem gives_survey (rooted : workspace.IsRooted) (stats : ExclusionStats)
    (queries : List Query) :
    Action.Gives workspace.Agrees (filters.survey workspace stats queries) (do
      let answers ← queries.mapM (filters.answered workspace)
      return (answers, stats.countAll answers)) := by
  induction queries generalizing stats with
  | nil => exact .pure _
  | cons query others inductionHypothesis =>
      have first : Action.Gives workspace.Agrees
          (filters.countedExclusion workspace query.path query.isDir stats)
          ((filters.reasonFor workspace query).map fun reason? =>
            (reason?, stats.count reason?)) :=
        .map _ (gives_firstExclusion rooted query)
      rw [List.mapM_cons]
      unfold survey
      cases reason : filters.reasonFor workspace query with
      | error fault =>
          have unanswered : filters.answered workspace query = .error fault := by
            rw [answered, reason]
            rfl
          rw [reason] at first
          rw [unanswered]
          exact .fail first
      | ok reason? =>
          have isAnswered : filters.answered workspace query = .ok (query, reason?) := by
            rw [answered, reason]
            rfl
          rw [reason] at first
          rw [isAnswered]
          refine .andThen first ?_
          have told := Action.Gives.bind (inductionHypothesis (stats.count reason?))
            fun ended _ => .pure ((query, reason?) :: ended.1, ended.2)
          cases rest : others.mapM (filters.answered workspace) with
          | error fault =>
              rw [rest] at told
              exact told
          | ok answers =>
              rw [rest] at told
              exact told

theorem survey_eq_ok_iff (rooted : workspace.IsRooted) {session : Session}
    (agrees : workspace.Agrees session.kept) {before after : ExclusionStats}
    {queries : List Query} {answers : Answers} :
    (filters.survey workspace before queries).outcome session = .ok (answers, after) ↔
      queries.mapM (filters.answered workspace) = .ok answers ∧
        after = before.countAll answers := by
  rw [(gives_survey rooted before queries session agrees).1]
  cases queries.mapM (filters.answered workspace) with
  | error fault => simp
  | ok others => simp +contextual [eq_comm]

section

variable {settings : Settings} {asksFiles : Bool} {chosen : List Path}
  {patterns : List (List Char)} {names : NameFilter}
  (given : settings.ignoredNames.mapM patternOf = .ok patterns)
  (accepted : NameFilter.ofPatterns patterns = .ok names)
  (built : build workspace.disk settings asksFiles chosen = .ok filters)
include given accepted built

/-- The filters that were built: the ignore files are asked if the settings want it and there is a
cache to ask. -/
theorem eq_of_build :
    filters.names = names ∧
      (filters.gitignore? = none ∧ (settings.respectGitignore.isTruthy && asksFiles) = false ∨
        ∃ filter, filters.gitignore? = some filter ∧
          (settings.respectGitignore.isTruthy && asksFiles) = true ∧
          chosen.mapM workspace.disk.resolve = .ok filter.chosen) := by
  unfold build at built
  rw [given] at built
  dsimp only [bind, Except.bind] at built
  rw [accepted] at built
  dsimp only [Except.mapError] at built
  split at built
  next asks =>
    cases real : chosen.mapM workspace.disk.resolve with
    | error fault =>
        rw [real] at built
        contradiction
    | ok places =>
        rw [real] at built
        rw [← Except.ok.inj built]
        exact ⟨rfl, .inr ⟨⟨places⟩, rfl, asks, rfl⟩⟩
  next notAsked =>
    rw [← Except.ok.inj built]
    exact ⟨rfl, .inl ⟨rfl, Bool.eq_false_iff.mpr notAsked⟩⟩

theorem reason_iff (rooted : workspace.IsRooted) {query : Query}
    {reason? : Option ExclusionReason}
    (known : filters.reasonFor workspace query = .ok reason?) :
    (reason? = some .ignoredName ↔ names.excludes query.path query.isDir = true) ∧
    (reason? = some .gitignore ↔
      names.excludes query.path query.isDir = false ∧
        settings.respectGitignore.isTruthy = true ∧ asksFiles = true ∧
        ¬query.IsChosen workspace.disk chosen ∧
        workspace.answer Session.fresh query.text = .ok true) := by
  obtain ⟨rfl, asked⟩ := eq_of_build given accepted built
  unfold reasonFor at known
  cases byName : filters.names.excludes query.path query.isDir with
  | true =>
      rw [byName] at known
      simp [← Except.ok.inj known]
  | false =>
      rw [byName] at known
      rcases asked with ⟨absent, notAsked⟩ | ⟨filter, present, asks, real⟩
      · rw [absent] at known
        rw [Bool.and_eq_false_iff] at notAsked
        rcases notAsked with notWanted | noCache
        · simp [← Except.ok.inj known, notWanted]
        · simp [← Except.ok.inj known, noCache]
      · rw [present] at known
        obtain ⟨leftOut, answered, known⟩ := bind_eq_ok_iff.mp known
        have meaning := filter.eq_true_iff_of_excluded rooted real answered
        rw [Bool.and_eq_true] at asks
        cases leftOut <;> simp [← Except.ok.inj known, asks, ← meaning]

/-- From every session that agrees with the tree, as one does after any history, every entry gets
its own answer: its name is ignored, or else it was not chosen by hand and a new cache would ignore
it.  The counts grow by the answers, and in another order, and from another such session, the same
answers are given to the same entries. -/
theorem survey_of_build (rooted : workspace.IsRooted) {session : Session}
    (agrees : workspace.Agrees session.kept) {before after : ExclusionStats}
    {queries : List Query} {answers : Answers}
    (surveyed : (filters.survey workspace before queries).outcome session =
      .ok (answers, after)) :
    answers.map Prod.fst = queries ∧
    (∀ query reason?, (query, reason?) ∈ answers →
      (reason? = some .ignoredName ↔ names.excludes query.path query.isDir = true) ∧
      (reason? = some .gitignore ↔
        names.excludes query.path query.isDir = false ∧
          settings.respectGitignore.isTruthy = true ∧ asksFiles = true ∧
          ¬query.IsChosen workspace.disk chosen ∧
          workspace.answer Session.fresh query.text = .ok true)) ∧
    after.byIgnoredName = before.byIgnoredName + answers.given (some .ignoredName) ∧
    after.byGitignore = before.byGitignore + answers.given (some .gitignore) ∧
    after.total = before.total + answers.leftOut ∧
    ∀ other : Session, workspace.Agrees other.kept →
      ∀ reordered : List Query, reordered.Perm queries →
        ∃ otherAnswers, otherAnswers.Perm answers ∧
          (filters.survey workspace before reordered).outcome other =
            .ok (otherAnswers, after) := by
  obtain ⟨answersMade, rfl⟩ := (survey_eq_ok_iff rooted agrees).mp surveyed
  refine ⟨?_, ?_, ?_, ?_, ExclusionStats.total_countAll before answers, ?_⟩
  · have own : answers.map Prod.fst = queries.map id := by
      apply map_of_mapM answersMade
      intro query _ answer isAnswer
      obtain ⟨reason?, -, isAnswer⟩ := bind_eq_ok_iff.mp isAnswer
      rw [← Except.ok.inj isAnswer]
      rfl
    rw [own, List.map_id]
  · intro query reason? present
    obtain ⟨asked, -, isAnswer⟩ := (mem_of_mapM answersMade _).mp present
    obtain ⟨told?, known, isAnswer⟩ := bind_eq_ok_iff.mp isAnswer
    cases Except.ok.inj isAnswer
    exact reason_iff given accepted built rooted known
  · rw [ExclusionStats.countAll_eq]
  · rw [ExclusionStats.countAll_eq]
  · intro other agreesOther reordered permuted
    obtain ⟨otherAnswers, otherMade, samePairs⟩ :=
      List.perm_comp_forall₂ permuted (mapM_eq_ok_iff.mp answersMade)
    refine ⟨otherAnswers, samePairs, ?_⟩
    refine (survey_eq_ok_iff rooted agreesOther).mpr ⟨mapM_eq_ok_iff.mpr otherMade, ?_⟩
    exact ExclusionStats.countAll_of_perm before samePairs.symm

end

def exported : Workspace :=
  Workspace.ofEntries ".gitignore" [
    (".gitignore", .file "*.log\n".toUTF8),
    ("a.log", .file .empty),
    ("l.log", .link "a.log".toList)]

def exportSettings : Settings :=
  { Settings.default with ignoredNames := [.string "*.pyc"] }

/-- The link leads to the chosen file and stays in, also when it is asked about last. -/
theorem exported_survey :
    let queries : List Query := [
      ⟨"l.log".toList, false⟩, ⟨"m.pyc".toList, false⟩, ⟨"b.log".toList, false⟩,
      ⟨"l.log".toList, true⟩, ⟨"c".toList, false⟩]
    ∃ filters answers,
      build exported.disk exportSettings true [Path.ofText "a.log".toList] = .ok filters ∧
      answers.map Prod.snd = [none, some .ignoredName, some .gitignore, some .gitignore, none] ∧
      (filters.survey exported .none queries).outcome
        (exported.afterCalls [.ask "x".toList, .clear] Session.fresh) = .ok (answers, ⟨1, 2⟩) ∧
      ∃ otherAnswers : Answers, (⟨"l.log".toList, false⟩, none) ∈ otherAnswers ∧
        (filters.survey exported .none queries.reverse).outcome Session.fresh =
          .ok (otherAnswers, ⟨1, 2⟩) := by
  intro queries
  have rooted : exported.IsRooted := Workspace.isRooted_ofEntries _ _
  have given : exportSettings.ignoredNames.mapM patternOf = .ok ["*.pyc".toList] := rfl
  obtain ⟨names, accepted⟩ : ∃ names, NameFilter.ofPatterns ["*.pyc".toList] = .ok names := ⟨_, rfl⟩
  obtain ⟨filters, built⟩ : ∃ filters,
      build exported.disk exportSettings true [Path.ofText "a.log".toList] = .ok filters := ⟨_, rfl⟩
  have surveyed : (filters.survey exported .none queries).outcome
      (exported.afterCalls [.ask "x".toList, .clear] Session.fresh) =
        .ok (queries.zip [none, some .ignoredName, some .gitignore, some .gitignore, none],
          ⟨1, 2⟩) := by
    cases built
    decide +kernel
  have agrees : exported.Agrees
      (exported.afterCalls [.ask "x".toList, .clear] Session.fresh).kept :=
    Workspace.agrees_afterCalls rooted _ Workspace.agrees_fresh
  obtain ⟨-, -, -, -, -, anyOrder⟩ := survey_of_build given accepted built rooted agrees surveyed
  obtain ⟨otherAnswers, samePairs, surveyedToo⟩ :=
    anyOrder Session.fresh Workspace.agrees_fresh queries.reverse (List.reverse_perm queries)
  refine ⟨filters, _, built, rfl, surveyed, otherAnswers, ?_, surveyedToo⟩
  exact samePairs.mem_iff.mpr List.mem_cons_self

end Filters

end IgnoreRules
