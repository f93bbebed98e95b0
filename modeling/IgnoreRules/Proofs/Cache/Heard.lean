import IgnoreRules.Proofs.Cache.Forgiven

/-!
What is asked about an entry.  The cache goes up from an entry through the directories as they were
written and collects the rules of their ignore files, while the paths that the rules are asked about
count from the real paths of these directories.  The last rule that applies decides.
-/

namespace IgnoreRules

abbrev Question := Rule × List Char

namespace Question

variable {platform : Platform} {isDir : Bool} {asked later : List Question}

def lastApplying? (platform : Platform) (isDir : Bool) (asked : List Question) : Option Question :=
  asked.reverse.find? fun question => question.1.applies platform question.2 isDir

def exclude (platform : Platform) (isDir : Bool) (asked : List Question) : Bool :=
  (lastApplying? platform isDir asked).any fun question => !question.1.negated

theorem lastApplying?_append :
    lastApplying? platform isDir (asked ++ later) =
      (lastApplying? platform isDir later).or (lastApplying? platform isDir asked) := by
  simp [lastApplying?]

theorem lastApplying?_rules (rules : List Rule) (text : List Char) :
    lastApplying? platform isDir (rules.map fun rule => (rule, text)) =
      (rules.reverse.find? (·.applies platform text isDir)).map fun rule => (rule, text) := by
  rw [lastApplying?, ← List.map_reverse, List.find?_map]
  rfl

theorem elim_beq_ignore :
    (((lastApplying? platform isDir asked).elim Verdict.noMatch fun question =>
      question.1.verdict) == .ignore) = exclude platform isDir asked := by
  unfold exclude
  cases lastApplying? platform isDir asked with
  | none => rfl
  | some question =>
      rw [Option.elim_some, Option.any_some, Rule.verdict]
      cases question.1.negated <;> rfl

theorem verdict_eq_lastApplying? (platform : Platform) (file : IgnoreFile) {text : List Char}
    (nonempty : text ≠ []) (isDir : Bool) :
    file.verdict platform text isDir =
      (lastApplying? platform isDir (file.rules.map fun rule => (rule, text))).elim .noMatch
        fun question => question.1.verdict := by
  rw [lastApplying?_rules, IgnoreFile.verdict, IgnoreFile.decidingRule?, if_neg nonempty]
  cases file.rules.reverse.find? (·.applies platform text isDir) <;> rfl

end Question

def Path.liesBelow (path directory : Path) : Bool :=
  (directory.namesBelow? path).any (· != [])

theorem flatMap_filterMap {Alpha Beta Gamma : Type} (values : List Alpha)
    (partial? : Alpha → Option Beta) (next : Beta → List Gamma) :
    (values.filterMap partial?).flatMap next =
      values.flatMap fun value => (partial? value).toList.flatMap next := by
  induction values with
  | nil => rfl
  | cons value rest inductionHypothesis =>
      cases given : partial? value <;> simp [given, inductionHypothesis]

namespace Workspace

/-- The rules of a file, each with what it is asked about an entry. -/
def questionsOf (workspace : Workspace) (entry : Path) (file : IgnoreFile) : List Question :=
  match (workspace.disk.resolve file.directory).toOption.bind (·.namesBelow? entry) with
  | none | some [] => []
  | some names => file.rules.map fun rule => (rule, Text.unpieces '/' names)

/-- The directories up to the first whose entry does not belong to the root. -/
def passed (workspace : Workspace) (root : Path) (directories : List Path) : List Path :=
  directories.takeWhile fun directory =>
    (workspace.disk.isAncestor root directory).toOption.getD false

def fileHeard? (workspace : Workspace) (directory : Path) : Option IgnoreFile :=
  (workspace.fileIn directory).toOption.join

def showsDirectory (workspace : Workspace) (path : Path) : Bool :=
  (workspace.disk.isDirectory path).toOption.getD false

theorem mem_of_mem_passed {workspace : Workspace} {root directory : Path} {directories : List Path}
    (isPassed : directory ∈ workspace.passed root directories) : directory ∈ directories :=
  (List.takeWhile_sublist _).subset isPassed

theorem showsDirectory_iff {workspace : Workspace} {path : Path} :
    workspace.showsDirectory path = true ↔ workspace.disk.isDirectory path = .ok true := by
  unfold showsDirectory
  cases workspace.disk.isDirectory path <;> simp [Except.toOption]

def bottom (workspace : Workspace) (spelled : Path) : Path :=
  if workspace.showsDirectory spelled then spelled else spelled.parent

/-- What is asked about an entry when it is spelled this way, from the root down. -/
def heard (workspace : Workspace) (root spelled entry : Path) : List Question :=
  let start := workspace.bottom spelled
  let passed := workspace.passed root (start :: start.ancestors)
  (passed.filterMap workspace.fileHeard?).reverse.flatMap (workspace.questionsOf entry)

def heardExcludes (workspace : Workspace) (root spelled entry : Path) : Bool :=
  Question.exclude workspace.platform (workspace.showsDirectory spelled)
    (workspace.heard root spelled entry)

def heardAnswer (workspace : Workspace) (root spelled entry : Path) : Bool :=
  entry.liesBelow root && workspace.heardExcludes root spelled entry

/-- A workspace that has been opened on a disk without circles of links, with nothing made to
fail. -/
structure IsOpened (workspace : Workspace) (root : Path) : Prop where
  located : workspace.root? = some root
  realRoot : workspace.disk.IsReal root
  realCurrent : workspace.disk.IsReal workspace.disk.current
  acyclic : workspace.disk.FreeOfCircles
  quiet : workspace.outages = Outages.none

variable {workspace : Workspace} {root spelled entry directory : Path} {isDir : Bool}

section

variable (quiet : workspace.outages = Outages.none)
include quiet

theorem directoryFlag_of_quiet (path : Path) :
    workspace.directoryFlag path = workspace.disk.isDirectory path := by
  rw [directoryFlag, quiet]
  rfl

theorem ignoreFileOf_eq_forgive (directory : Path) :
    workspace.ignoreFileOf directory =
      forgive Fault.isSystem none (do
        match ← workspace.disk.childOf directory workspace.ignoreFilename with
        | none => return none
        | some child =>
            return if ← workspace.disk.isDirectory child then none else some child) := by
  unfold ignoreFileOf directoryFlag
  rw [quiet]
  rfl

end

theorem areForgiven_of_quiet (quiet : workspace.outages = Outages.none) :
    workspace.outages.AreForgiven := by
  rw [quiet]
  exact Outages.areForgiven_none

theorem fileIn_of_fileHeard? {file : IgnoreFile}
    (heard : workspace.fileHeard? directory = some file) :
    workspace.fileIn directory = .ok (some file) := by
  unfold fileHeard? at heard
  cases looked : workspace.fileIn directory with
  | error fault =>
      rw [looked] at heard
      contradiction
  | ok file? =>
      rw [looked] at heard
      rw [show file? = some file from heard]

theorem eq_filterMap_of_filesIn {directories : List Path} {files : List IgnoreFile}
    (collected : workspace.filesIn root directories = .ok files) :
    files = (workspace.passed root directories).filterMap workspace.fileHeard? := by
  induction directories generalizing files with
  | nil => exact (Except.ok.inj collected).symm
  | cons directory above inductionHypothesis =>
      obtain ⟨within, isWithin, collected⟩ := bind_eq_ok_iff.mp collected
      rw [passed, List.takeWhile_cons, isWithin]
      cases within with
      | false => exact (Except.ok.inj collected).symm
      | true =>
          obtain ⟨file?, looked, collected⟩ := bind_eq_ok_iff.mp collected
          obtain ⟨others, further, collected⟩ := bind_eq_ok_iff.mp collected
          have heard : workspace.fileHeard? directory = file? := by
            rw [fileHeard?, looked]
            rfl
          rw [← Except.ok.inj collected, inductionHypothesis further, passed]
          cases file? <;> simp [heard, Except.toOption]

section

variable (forgiven : workspace.outages.AreForgiven)
include forgiven

theorem fileIn_of_forgiven (noNull : Disk.hasNull directory = false) :
    workspace.fileIn directory = .ok (workspace.fileHeard? directory) := by
  suffices ∃ file?, workspace.fileIn directory = .ok file? by
    obtain ⟨file?, given⟩ := this
    rw [fileHeard?, given]
    rfl
  obtain ⟨found?, looked⟩ := ignoreFileOf_of_forgiven forgiven noNull
  unfold fileIn
  rw [looked, ok_bind]
  cases found? with
  | none => exact ⟨none, rfl⟩
  | some found => exact fileAt_of_forgiven forgiven (hasNull_of_ignoreFileOf looked)

theorem filesIn_of_forgiven {directories : List Path}
    (noNull : ∀ directory ∈ directories, Disk.hasNull directory = false)
    (related : ∀ directory ∈ directories,
      ∃ within, workspace.disk.isAncestor root directory = .ok within) :
    workspace.filesIn root directories =
      .ok ((workspace.passed root directories).filterMap workspace.fileHeard?) := by
  induction directories with
  | nil => rfl
  | cons directory above inductionHypothesis =>
      rw [List.forall_mem_cons] at noNull related
      obtain ⟨within, isWithin⟩ := related.1
      rw [filesIn, isWithin, ok_bind, passed, List.takeWhile_cons, isWithin]
      cases within with
      | false => rfl
      | true =>
          rw [if_pos rfl, fileIn_of_forgiven forgiven noNull.1, ok_bind,
            inductionHypothesis noNull.2 related.2, ok_bind, pure_eq_ok]
          rw [passed]
          cases heard : workspace.fileHeard? directory <;>
            simp [heard, Except.toOption]

end

section

variable (realCurrent : workspace.disk.IsReal workspace.disk.current)
  (acyclic : workspace.disk.FreeOfCircles)
  (known : workspace.disk.entryPath spelled = .ok entry)
  (plain : ∀ name ∈ entry.names, name.Plain)
include realCurrent acyclic known plain

theorem lastSaid_cons (file : IgnoreFile) (others : List IgnoreFile) (verdict : Verdict) :
    workspace.lastSaid spelled isDir verdict (file :: others) =
      workspace.lastSaid spelled isDir
        ((Question.lastApplying? workspace.platform isDir
          (workspace.questionsOf entry file)).elim verdict fun question => question.1.verdict)
        others := by
  rw [lastSaid, Disk.relativePath_of_entryPath realCurrent acyclic known, ok_bind]
  cases below : (workspace.disk.resolve file.directory).toOption.bind (·.namesBelow? entry) with
  | none =>
      have silent : workspace.questionsOf entry file = [] := by simp [questionsOf, below]
      rw [silent]
      rfl
  | some names =>
      by_cases atDirectory : names = []
      · subst atDirectory
        have silent : workspace.questionsOf entry file = [] := by simp [questionsOf, below]
        rw [silent]
        rfl
      · obtain ⟨base, -, isBelow⟩ := Option.bind_eq_some_iff.mp below
        obtain ⟨first, rest, shown⟩ := Path.exists_cons_of_namesBelow? plain isBelow atDirectory
        have asked : workspace.questionsOf entry file =
            file.rules.map fun rule => (rule, first :: rest) := by
          simp [questionsOf, below, shown]
        rw [asked, Option.map_some, shown]
        dsimp only
        rw [Question.verdict_eq_lastApplying? workspace.platform file (by simp) isDir]
        cases Question.lastApplying? workspace.platform isDir
            (file.rules.map fun rule => (rule, first :: rest)) with
        | none => rfl
        | some question =>
            dsimp only [Option.elim_some, Rule.verdict]
            split
            next both =>
              split at both <;> contradiction
            next => rfl

theorem lastSaid_eq_lastApplying? (files : List IgnoreFile) (verdict : Verdict) :
    workspace.lastSaid spelled isDir verdict files =
      .ok ((Question.lastApplying? workspace.platform isDir
        (files.flatMap (workspace.questionsOf entry))).elim verdict fun question =>
          question.1.verdict) := by
  induction files generalizing verdict with
  | nil => rfl
  | cons file others inductionHypothesis =>
      rw [lastSaid_cons realCurrent acyclic known plain, inductionHypothesis, List.flatMap_cons,
        Question.lastApplying?_append]
      cases Question.lastApplying? workspace.platform isDir
        (others.flatMap (workspace.questionsOf entry)) <;> rfl

end

theorem wayUp_showsDirectory (spelled : Path) :
    wayUp spelled (workspace.showsDirectory spelled) =
      workspace.bottom spelled :: (workspace.bottom spelled).ancestors := rfl

section

variable (opened : workspace.IsOpened root) (isSpelled : spelled.IsSpelled)
  (noAbove : Name.above ∉ spelled.names)
  (known : workspace.disk.entryPath spelled = .ok entry)
include opened isSpelled noAbove known

theorem filesFor_of_entryPath :
    workspace.filesFor root spelled (workspace.showsDirectory spelled) =
      .ok ((workspace.passed root
        (workspace.bottom spelled :: (workspace.bottom spelled).ancestors)).filterMap
          workspace.fileHeard?).reverse := by
  have resolvedRoot := opened.realRoot.resolve_eq_self opened.realCurrent
  have collected : workspace.filesIn root (wayUp spelled (workspace.showsDirectory spelled)) = _ :=
    filesIn_of_forgiven (areForgiven_of_quiet opened.quiet)
      (fun directory => hasNull_of_mem_wayUp isSpelled noAbove known showsDirectory_iff.mp)
      fun directory => isAncestor_of_mem_wayUp isSpelled noAbove known resolvedRoot
  rw [← wayUp_showsDirectory, filesFor, ← wayUp, collected, ok_bind, pure_eq_ok]

theorem excluded_of_isSpelled {path : Path} (reached : (root.join path).normal = spelled) :
    workspace.excluded path = .ok (workspace.heardAnswer root spelled entry) := by
  have plain := Disk.plain_of_entryPath opened.realCurrent opened.acyclic isSpelled noAbove known
  unfold excluded heardAnswer
  rw [opened.located]
  dsimp only
  rw [reached, Disk.relativePath_of_entryPath opened.realCurrent opened.acyclic known,
    opened.realRoot.resolve_eq_self opened.realCurrent, ok_bind]
  have below : (Except.ok root : Except Fault Path).toOption.bind (·.namesBelow? entry) =
      root.namesBelow? entry := rfl
  rw [below, Path.liesBelow]
  cases inRoot : root.namesBelow? entry with
  | none => rfl
  | some names =>
      by_cases atRoot : names = []
      · subst atRoot
        rfl
      · obtain ⟨first, rest, shown⟩ := Path.exists_cons_of_namesBelow? plain inRoot atRoot
        rw [Option.map_some, shown]
        have flagged : forgive Fault.isSystem false (workspace.directoryFlag spelled) =
            .ok (workspace.showsDirectory spelled) := by
          rw [directoryFlag_of_quiet opened.quiet]
          exact forgive_eq_ok fun fault failed => Disk.isSystem_of_leadsTo failed
        dsimp only
        rw [flagged, ok_bind, filesFor_of_entryPath opened isSpelled noAbove known, ok_bind,
          lastSaid_eq_lastApplying? opened.realCurrent opened.acyclic known plain, ok_bind]
        have belowRoot : (names != []) = true := by simpa using atRoot
        rw [pure_eq_ok, Option.any_some, belowRoot, Bool.true_and, Question.elim_beq_ignore]
        rfl

end

theorem passed_append {directories others : List Path}
    (within : ∀ directory ∈ directories, workspace.disk.isAncestor root directory = .ok true)
    (outside : ∀ directory ∈ others, workspace.disk.isAncestor root directory = .ok false) :
    workspace.passed root (directories ++ others) = directories := by
  unfold passed
  rw [List.takeWhile_append_of_pos]
  · cases others with
    | nil => simp
    | cons directory others => simp [outside directory (by simp), Except.toOption]
  · intro directory present
    simp [within directory present, Except.toOption]

theorem passed_of_isReal (opened : workspace.IsOpened root) (real : workspace.disk.IsReal directory)
    {below : List Name} (split : directory.names = root.names ++ below) :
    workspace.passed root (directory :: directory.ancestors) =
      ((List.range (below.length + 1)).map fun depth =>
        { directory with names := root.names ++ below.take depth }).reverse := by
  have lengths : directory.names.length + 1 = root.names.length + (below.length + 1) := by
    rw [split, List.length_append]
    omega
  have ancestor (length : Nat) :
      workspace.disk.isAncestor root { directory with names := directory.names.take length } =
        .ok (decide (root.names <+: directory.names.take length)) :=
    Disk.isAncestor_of_isReal opened.realCurrent opened.realRoot
      (real.of_prefix (List.take_prefix length _))
  -- The lengths from that of the root on pass, and the shorter ones come after them.
  rw [Path.cons_ancestors, lengths, List.range_add, List.reverse_append, List.map_append,
    passed_append]
  · rw [List.map_reverse, List.map_map]
    congr 2
    funext depth
    simp [split, List.take_append]
  · intro above isAbove
    obtain ⟨length, inRange, rfl⟩ := List.mem_map.mp isAbove
    obtain ⟨depth, -, rfl⟩ := List.mem_map.mp (List.mem_reverse.mp inRange)
    rw [ancestor, split, List.take_append, List.take_of_length_le (by omega)]
    simp
  · intro above isAbove
    obtain ⟨length, inRange, rfl⟩ := List.mem_map.mp isAbove
    rw [List.mem_reverse, List.mem_range] at inRange
    have notWithin : ¬root.names <+: directory.names.take length := by
      intro inFront
      have bound := inFront.length_le
      rw [List.length_take] at bound
      omega
    rw [ancestor, decide_eq_false notWithin]

theorem heard_of_bottom (opened : workspace.IsOpened root) (real : workspace.disk.IsReal entry)
    {below reached : List Name} (split : entry.names = root.names ++ below)
    (inFront : reached <+: below)
    (starts : workspace.bottom entry = { entry with names := root.names ++ reached }) :
    workspace.heard root entry entry =
      (List.range (reached.length + 1)).flatMap fun depth =>
        (workspace.fileHeard? { entry with names := root.names ++ below.take depth }).toList.flatMap
          (workspace.questionsOf entry) := by
  obtain ⟨rest, reachedAll⟩ := inFront
  have realBottom : workspace.disk.IsReal (workspace.bottom entry) := by
    rw [starts]
    exact real.of_prefix ⟨rest, by rw [split, ← reachedAll, List.append_assoc]⟩
  unfold heard
  dsimp only
  rw [passed_of_isReal opened realBottom (by rw [starts]), List.filterMap_reverse,
    List.reverse_reverse, List.filterMap_map, flatMap_filterMap]
  apply List.flatMap_congr
  intro depth inRange
  rw [List.mem_range] at inRange
  rw [Function.comp_apply, starts, ← reachedAll, List.take_append_of_le_length (by omega)]

def ofEntries (ignoreFilename : String) (entries : List (String × Entry)) : Workspace where
  disk := {
    tree := ⟨(["r".toList], .directory) ::
      entries.map fun (place, entry) => ("r".toList :: (Path.ofText place.toList).names, entry)⟩
    current := ⟨.root, ["r".toList]⟩ }
  root? := some ⟨.root, ["r".toList]⟩
  ignoreFilename := ignoreFilename.toList
  platform := .unix
  detector := Text.detectMarked
  outages := Outages.none

end Workspace

end IgnoreRules
