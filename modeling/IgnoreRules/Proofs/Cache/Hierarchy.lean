import IgnoreRules.Proofs.Cache.Heard
import IgnoreRules.Proofs.Tree.Linkless

/-!
Where the tree has no links, the directories from the root down to an entry are asked in this order,
each about the names that lead from it to the entry, and the last rule that applies decides.
-/

namespace IgnoreRules

namespace Workspace

variable {workspace : Workspace} {root entry directory : Path}

/-- The rules of the ignore file in a directory; there are none where no file has the name. -/
def rulesAt (workspace : Workspace) (location : Location) : List Rule :=
  match workspace.disk.tree.entry? (location ++ [workspace.ignoreFilename]) with
  | some (.file content) =>
      (IgnoreFile.linesOf (Text.decodeBy workspace.detector content).2).filterMap Rule.ofLine?
  | _ => []

/-- What the directories from a base on are asked about an entry below it, from the base down. -/
def questionsBelow (workspace : Workspace) (base : Location) (below : List Name) :
    List Question :=
  (List.range below.length).flatMap fun depth =>
    (workspace.rulesAt (base ++ below.take depth)).map fun rule =>
      (rule, Text.unpieces '/' (below.drop depth))

/-- The last rule that applies, of the whole hierarchy of directories above an entry, is there and
not negated.  The root itself and what is not below it are not ignored. -/
def hierarchyExcludes (workspace : Workspace) (root entry : Path) : Bool :=
  match root.namesBelow? entry with
  | none => false
  | some below =>
      Question.exclude workspace.platform
        ((workspace.disk.tree.entry? entry.names).any Entry.isDirectory)
        (workspace.questionsBelow root.names below)

/-- A workspace that has been opened on a disk without links, with nothing made to fail. -/
structure IsLinkless (workspace : Workspace) (root : Path) : Prop where
  located : workspace.root? = some root
  realRoot : workspace.disk.IsReal root
  realCurrent : workspace.disk.IsReal workspace.disk.current
  quiet : workspace.outages = Outages.none
  linkless : workspace.disk.tree.linkCount = 0
  holdsNames : workspace.disk.tree.HoldsNames
  plainName : workspace.ignoreFilename.Plain

namespace IsLinkless

variable (linkless : workspace.IsLinkless root)
include linkless

theorem isOpened : workspace.IsOpened root where
  located := linkless.located
  realRoot := linkless.realRoot
  realCurrent := linkless.realCurrent
  acyclic := Disk.freeOfCircles_of_linkless linkless.linkless
  quiet := linkless.quiet

theorem childOf_of_present (real : workspace.disk.IsReal directory) {stands : Entry}
    (present : workspace.disk.tree.entry? (directory.names ++ [workspace.ignoreFilename]) =
      some stands) :
    workspace.disk.childOf directory workspace.ignoreFilename =
      if Tree.isNameTooLong (Text.swapCase workspace.ignoreFilename) then
        .error (.tree .nameTooLong (directory.child (Text.swapCase workspace.ignoreFilename)))
      else .ok (some (directory.child workspace.ignoreFilename)) := by
  have plain := linkless.plainName
  have held := linkless.holdsNames.of_present present workspace.ignoreFilename (by simp)
  have isDirectory := Tree.entry?_eq_directory_of_append_singleton present
  have found : workspace.disk.pathExists (directory.child workspace.ignoreFilename) = .ok true := by
    rw [Disk.pathExists_child linkless.holdsNames linkless.linkless real isDirectory plain held.2,
      held.1, present]
    rfl
  have twinFound := Disk.pathExists_child linkless.holdsNames linkless.linkless real isDirectory
    plain.swapCase held.2.swapCase
  have listed := real.children_eq linkless.holdsNames isDirectory
  have inListing := Tree.mem_childNames present
  unfold Disk.childOf
  dsimp only
  rw [Path.join_ofText_of_plain plain, found, ok_bind, Path.join_ofText_of_plain plain.swapCase,
    twinFound]
  -- A name without case is not probed twice, and it stands there, so it is not too long.
  by_cases same : Text.swapCase workspace.ignoreFilename = workspace.ignoreFilename
  · simp [same, held.1]
  · cases Tree.isNameTooLong (Text.swapCase workspace.ignoreFilename) with
    | true => simp [same]
    | false =>
        rw [listed]
        have isListed : ∃ name ∈ workspace.disk.tree.childNames directory.names,
            (directory.child name).lastName = workspace.ignoreFilename :=
          ⟨_, inListing, by simp [Path.child, Path.lastName]⟩
        cases workspace.disk.tree.entry?
            (directory.names ++ [Text.swapCase workspace.ignoreFilename]) with
        | none => simp [same]
        | some twin => simp [same, isListed]

theorem isReal_child (real : workspace.disk.IsReal directory) {stands : Entry}
    (present : workspace.disk.tree.entry? (directory.names ++ [workspace.ignoreFilename]) =
      some stands) :
    workspace.disk.IsReal (directory.child workspace.ignoreFilename) :=
  real.child linkless.plainName
    (linkless.holdsNames.of_present present workspace.ignoreFilename (by simp)).2
    (Tree.link?_eq_none linkless.linkless _)

theorem childOf_of_absent (real : workspace.disk.IsReal directory)
    (absent : workspace.disk.tree.entry? (directory.names ++ [workspace.ignoreFilename]) = none)
    (found : Path) :
    workspace.disk.childOf directory workspace.ignoreFilename ≠ .ok (some found) := by
  intro present
  have seen := pathExists_of_childOf present
  rw [eq_join_of_childOf present, Path.join_ofText_of_plain linkless.plainName] at seen
  have noNull : workspace.ignoreFilename.NoNull :=
    Disk.hasNull_eq_false_iff.mp (Disk.hasNull_of_leadsTo seen) _ (by simp [Path.child])
  have realChild := real.child linkless.plainName noNull (Tree.link?_eq_none linkless.linkless _)
  have standing := (realChild.leadsTo_eq_true_iff linkless.holdsNames _).mp seen
  rw [Path.child, absent] at standing
  contradiction

theorem ignoreFileOf_eq (real : workspace.disk.IsReal directory) :
    workspace.ignoreFileOf directory =
      .ok (if Tree.isNameTooLong (Text.swapCase workspace.ignoreFilename) then none
      else
        match workspace.disk.tree.entry? (directory.names ++ [workspace.ignoreFilename]) with
        | some (.file _) => some (directory.child workspace.ignoreFilename)
        | _ => none) := by
  rw [ignoreFileOf_eq_forgive linkless.quiet]
  cases standing : workspace.disk.tree.entry? (directory.names ++ [workspace.ignoreFilename]) with
  | none =>
      cases looked : workspace.disk.childOf directory workspace.ignoreFilename with
      | error fault =>
          have noNull := Disk.hasNull_eq_false_iff.mpr real.noNull
          simp [forgive, isSystem_of_childOf noNull looked]
      | ok child? =>
          cases child? with
          | none => simp [forgive]
          | some found => exact absurd looked (linkless.childOf_of_absent real standing found)
  | some stands =>
      rw [linkless.childOf_of_present real standing]
      cases Tree.isNameTooLong (Text.swapCase workspace.ignoreFilename) with
      | true => simp [forgive, Fault.isSystem]
      | false =>
          have located := (linkless.isReal_child real standing).locate_of_present
            linkless.holdsNames standing
          have flagged : workspace.disk.isDirectory (directory.child workspace.ignoreFilename) =
              .ok stands.isDirectory := by
            rw [Disk.isDirectory, Disk.leadsTo, located]
          simp only [Bool.false_eq_true, if_false, ok_bind, flagged, pure_eq_ok, forgive]
          cases stands with
          | file content => rfl
          | directory => rfl
          | link target =>
              have noLink := Tree.link?_eq_none linkless.linkless
                (directory.names ++ [workspace.ignoreFilename])
              simp [Tree.link?, standing] at noLink

/-- The compiled ignore file of a directory is made of the file that the tree has there, unless the
other case of its name is too long. -/
theorem fileHeard?_eq (real : workspace.disk.IsReal directory) :
    workspace.fileHeard? directory =
      if Tree.isNameTooLong (Text.swapCase workspace.ignoreFilename) then none
      else
        match workspace.disk.tree.entry? (directory.names ++ [workspace.ignoreFilename]) with
        | some (.file content) =>
            some (IgnoreFile.ofText (Text.decodeBy workspace.detector content).2 directory
              (directory.child workspace.ignoreFilename).text)
        | _ => none := by
  unfold fileHeard? fileIn
  rw [linkless.ignoreFileOf_eq real, ok_bind]
  cases Tree.isNameTooLong (Text.swapCase workspace.ignoreFilename) with
  | true => rfl
  | false =>
      cases standing : workspace.disk.tree.entry?
          (directory.names ++ [workspace.ignoreFilename]) with
      | none => rfl
      | some stands =>
          cases stands with
          | directory => rfl
          | link target => rfl
          | file content =>
              have readable :=
                (linkless.isReal_child real standing).readFile_eq linkless.holdsNames standing
              simp only [Bool.false_eq_true, if_false]
              rw [fileAt, textOf, linkless.quiet, readable, Path.parent_child]
              rfl

theorem questionsOf_fileHeard? (realEntry : workspace.disk.IsReal entry) {front rest : List Name}
    (split : entry.names = front ++ rest) :
    (workspace.fileHeard? { entry with names := front }).toList.flatMap
        (workspace.questionsOf entry) =
      if Tree.isNameTooLong (Text.swapCase workspace.ignoreFilename) ∨ rest = [] then []
      else
        (workspace.rulesAt front).map fun rule =>
          (rule, Text.unpieces '/' rest) := by
  have real : workspace.disk.IsReal { entry with names := front } :=
    realEntry.of_prefix (by simp [split])
  have below (file : IgnoreFile) (stands : file.directory = { entry with names := front }) :
      workspace.questionsOf entry file =
        if rest = [] then [] else file.rules.map fun rule => (rule, Text.unpieces '/' rest) := by
    have found : (workspace.disk.resolve file.directory).toOption.bind (·.namesBelow? entry) =
        some rest := by
      rw [stands, real.resolve_eq_self linkless.realCurrent]
      simp [Except.toOption, Path.namesBelow?, split]
    cases rest <;> simp [questionsOf, found]
  rw [linkless.fileHeard?_eq real, rulesAt]
  cases Tree.isNameTooLong (Text.swapCase workspace.ignoreFilename) with
  | true => simp
  | false =>
      dsimp only
      cases workspace.disk.tree.entry? (front ++ [workspace.ignoreFilename]) with
      | none => simp
      | some stands =>
          cases stands with
          | directory => simp
          | link target => simp
          | file content =>
              simp [below, IgnoreFile.ofText, IgnoreFile.ofLines]

theorem heard_eq_flatMap (real : workspace.disk.IsReal entry) {below : List Name}
    (nonempty : below ≠ []) (split : entry.names = root.names ++ below) :
    workspace.heard root entry entry =
      (List.range below.length).flatMap fun depth =>
        (workspace.fileHeard? { entry with names := root.names ++ below.take depth }).toList.flatMap
          (workspace.questionsOf entry) := by
  cases shown : workspace.showsDirectory entry with
  | true =>
      have starts : workspace.bottom entry = { entry with names := root.names ++ below } := by
        rw [bottom, if_pos shown, ← split]
      -- The last level is the entry's own, which leaves no names to ask about.
      have ownSplit : entry.names = (root.names ++ below) ++ [] := by simpa using split
      have ownLevel := linkless.questionsOf_fileHeard? real ownSplit
      rw [heard_of_bottom linkless.isOpened real split (List.prefix_refl _) starts,
        List.range_succ, List.flatMap_append, List.flatMap_singleton, List.take_length, ownLevel]
      simp
  | false =>
      have starts : workspace.bottom entry =
          { entry with names := root.names ++ below.dropLast } := by
        rw [bottom, if_neg (by simp [shown]), Path.parent, split,
          List.dropLast_append_of_ne_nil nonempty]
      have oneMore : below.dropLast.length + 1 = below.length := by
        have positive := List.length_pos_iff.mpr nonempty
        rw [List.length_dropLast]
        omega
      rw [heard_of_bottom linkless.isOpened real split (List.dropLast_prefix _) starts, oneMore]

theorem heard_eq (real : workspace.disk.IsReal entry) {below : List Name} (nonempty : below ≠ [])
    (split : entry.names = root.names ++ below) :
    workspace.heard root entry entry =
      if Tree.isNameTooLong (Text.swapCase workspace.ignoreFilename) then []
      else
        workspace.questionsBelow root.names below := by
  rw [linkless.heard_eq_flatMap real nonempty split, questionsBelow]
  have level (depth : Nat) (inRange : depth ∈ List.range below.length) :
      (workspace.fileHeard? { entry with names := root.names ++ below.take depth }).toList.flatMap
          (workspace.questionsOf entry) =
        if Tree.isNameTooLong (Text.swapCase workspace.ignoreFilename) then []
        else
          (workspace.rulesAt (root.names ++ below.take depth)).map fun rule =>
            (rule, Text.unpieces '/' (below.drop depth)) := by
    have more : below.drop depth ≠ [] := by
      rw [List.mem_range] at inRange
      rw [ne_eq, List.drop_eq_nil_iff]
      omega
    rw [linkless.questionsOf_fileHeard? real (by rw [split, List.append_assoc,
      List.take_append_drop])]
    simp only [more, or_false]
  rw [List.flatMap_congr level]
  split
  next => simp
  next => rfl

theorem showsDirectory_eq (real : workspace.disk.IsReal entry) :
    workspace.showsDirectory entry =
      (workspace.disk.tree.entry? entry.names).any Entry.isDirectory := by
  rw [Bool.eq_iff_iff, showsDirectory_iff]
  exact real.leadsTo_eq_true_iff linkless.holdsNames Entry.isDirectory

theorem heardAnswer_eq (real : workspace.disk.IsReal entry) :
    workspace.heardAnswer root entry entry =
      (!Tree.isNameTooLong (Text.swapCase workspace.ignoreFilename) &&
        workspace.hierarchyExcludes root entry) := by
  unfold heardAnswer hierarchyExcludes Path.liesBelow heardExcludes
  cases inRoot : root.namesBelow? entry with
  | none => simp
  | some below =>
      have split : entry.names = root.names ++ below := Path.eq_append_of_namesBelow? inRoot
      by_cases atRoot : below = []
      · subst atRoot
        simp [questionsBelow, Question.exclude, Question.lastApplying?]
      · rw [linkless.heard_eq real atRoot split, linkless.showsDirectory_eq real]
        cases Tree.isNameTooLong (Text.swapCase workspace.ignoreFilename) with
        | true => simp [Question.exclude, Question.lastApplying?]
        | false => simp [atRoot]

theorem isReal_normal_join {text : List Char} (noNull : '\x00' ∉ text)
    (anchored : (Path.ofText text).anchor ≠ .doubleRoot) :
    workspace.disk.IsReal (root.join (Path.ofText text)).normal := by
  have spelled := linkless.realRoot.isSpelled.join_ofText text
  apply Disk.isReal_of_linkless linkless.linkless
  · rw [Path.normal_anchor, Path.join]
    split
    next => exact linkless.realRoot.anchored
    next notRelative =>
      cases given : (Path.ofText text).anchor with
      | relative => exact absurd given notRelative
      | root => rfl
      | doubleRoot => exact absurd given anchored
  · intro name present
    refine ⟨spelled.normal.proper name present, ?_⟩
    rintro rfl
    exact Path.above_not_mem_normal spelled.absolute present
  · intro name present
    rcases Path.mem_names_join (Path.mem_of_mem_normal present) with inRoot | inText
    · exact linkless.realRoot.noNull name inRoot
    · intro isNull
      exact noNull (Path.mem_of_mem_name inText isNull)

end IsLinkless

/-- Without links, a fresh cache excludes an entry exactly when the last rule that applies does, of
the rules of every directory from the root down to the entry; but it hears no rule at all where the
other case of the name of ignore files is too long for a directory. -/
theorem isIgnored_eq_hierarchyExcludes (linkless : workspace.IsLinkless root) {text : List Char}
    (noNull : '\x00' ∉ text) (anchored : (Path.ofText text).anchor ≠ .doubleRoot) :
    (workspace.isIgnored (Path.ofText text)).outcome Session.fresh =
      .ok (!Tree.isNameTooLong (Text.swapCase workspace.ignoreFilename) &&
        workspace.hierarchyExcludes root (root.join (Path.ofText text)).normal) := by
  have real := linkless.isReal_normal_join noNull anchored
  have spelled (base : Path) (located : workspace.root? = some base) :
      (base.join (Path.ofText text)).IsSpelled := by
    rw [linkless.located] at located
    rw [← Option.some.inj located]
    exact linkless.realRoot.isSpelled.join_ofText text
  have known := Disk.entryPath_eq_self linkless.realCurrent real
  rw [outcome_isIgnored_fresh spelled, ← linkless.heardAnswer_eq real]
  exact excluded_of_isSpelled linkless.isOpened (spelled root linkless.located).normal
    real.above_not_mem known rfl

theorem isLinkless_ofEntries {ignoreFilename : String} {entries : List (String × Entry)}
    (linkless : (ofEntries ignoreFilename entries).disk.tree.linkCount = 0)
    (holdsNames : (ofEntries ignoreFilename entries).disk.tree.HoldsNames)
    (plainName : Name.Plain ignoreFilename.toList) :
    (ofEntries ignoreFilename entries).IsLinkless ⟨.root, ["r".toList]⟩ := by
  have realRoot : (ofEntries ignoreFilename entries).disk.IsReal ⟨.root, ["r".toList]⟩ :=
    Disk.isReal_of_linkless linkless rfl (by decide) (by decide)
  exact ⟨rfl, realRoot, realRoot, rfl, linkless, holdsNames, plainName⟩

def nested : Workspace :=
  ofEntries ".gitignore" [
    (".gitignore", .file "*.log\n".toUTF8), ("b", .directory),
    ("b/.gitignore", .file "!*.log\nc/x.log\n".toUTF8), ("b/c", .directory),
    ("b/c/x.log", .file .empty)]

theorem nested_isLinkless : nested.IsLinkless ⟨.root, ["r".toList]⟩ :=
  isLinkless_ofEntries (by decide +kernel) (by decide +kernel) (by decide)

/-- The rules of two levels about entries that are spelled with detours. -/
theorem nested_answers :
    (nested.isIgnored (Path.ofText "b/./c//../c/x.log".toList)).outcome Session.fresh =
        .ok true ∧
      (nested.isIgnored (Path.ofText "/r/b/../b/x.log".toList)).outcome Session.fresh =
        .ok false := by
  rw [isIgnored_eq_hierarchyExcludes nested_isLinkless (by decide) (by decide),
    isIgnored_eq_hierarchyExcludes nested_isLinkless (by decide) (by decide)]
  exact ⟨by decide +kernel, by decide +kernel⟩

/-- A name of 86 bytes that has 258 in its other case. -/
def growingName : String := String.ofList (List.replicate 43 'ΐ')

def growing : Workspace :=
  ofEntries growingName [(growingName, .file "a\n".toUTF8), ("a", .file .empty)]

/-- The ignore file excludes the entry, and its rule is not heard. -/
theorem growing_not_heard :
    growing.IsLinkless ⟨.root, ["r".toList]⟩ ∧
      growing.hierarchyExcludes ⟨.root, ["r".toList]⟩ ⟨.root, ["r".toList, "a".toList]⟩ = true ∧
      (growing.isIgnored (Path.ofText "a".toList)).outcome Session.fresh = .ok false :=
  ⟨isLinkless_ofEntries (by decide +kernel) (by decide +kernel) (by decide +kernel),
    by decide +kernel, by decide +kernel⟩

end Workspace

end IgnoreRules
