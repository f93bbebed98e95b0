import IgnoreRules.Proofs.Cache.Growth
import IgnoreRules.Proofs.Cache.Transparency
import IgnoreRules.Proofs.Tree.Content
import IgnoreRules.Proofs.Tree.Linkless
import IgnoreRules.Proofs.Tree.Straight

/-!
An ignore file that is changed on the disk and then dropped from the cache.  What is kept for it
under the text of its real path goes, and what is kept for it under another spelling stays.
-/

namespace IgnoreRules

namespace Workspace

def withContent (workspace : Workspace) (file : Location) (content : ByteArray) : Workspace :=
  { workspace with disk := workspace.disk.withContent file content }

/-- What is left when, after a history of calls, a file is dropped. -/
def afterDrop (workspace : Workspace) (history : List CacheCall) (path : Path) : Session :=
  (CacheCall.invalidate path.text).after workspace (workspace.afterCalls history Session.fresh)

/-- Whatever is done from here on, every question ends as with a new cache. -/
def AnswersAsNew (workspace : Workspace) (session : Session) : Prop :=
  ∀ later : List CacheCall, workspace.answers later session =
    (later.filterMap CacheCall.question?).map (workspace.answer Session.fresh)

/-- No link is on the way up from what is asked, and no ignore file on it is a link. -/
structure AsksStraight (workspace : Workspace) (root : Path) (history : List CacheCall) :
    Prop where
  plain : workspace.ignoreFilename.Plain
  realBottom : ∀ text, .ask text ∈ history →
    workspace.disk.IsReal (workspace.bottom (root.join (Path.ofText text)).normal)
  noLink : ∀ directory, workspace.disk.IsReal directory →
    workspace.disk.tree.link? (directory.child workspace.ignoreFilename).names = none

variable {workspace : Workspace} {root path : Path} {session : Session}
  {history : List CacheCall} {old new : ByteArray}

theorem kept_of_afterCalls (rooted : workspace.IsRooted) {entry : List Char × IgnoreFile}
    (isKept : entry ∈ (workspace.afterCalls history session).kept) :
    entry ∈ session.kept ∨ ∃ text, .ask text ∈ history ∧
      ∃ file, workspace.MayKeep (Path.ofText text) file ∧ entry.1 = file.text := by
  induction history generalizing session with
  | nil => exact .inl isKept
  | cons call history inductionHypothesis =>
      rw [afterCalls_cons] at isKept
      rcases inductionHypothesis isKept with keptByCall | ⟨text, isAsked, keeps⟩
      · cases call with
        | ask text =>
            obtain ⟨added, news, growth⟩ := leads_isIgnored _ (rooted.spelled text) session
            rw [CacheCall.after, growth.kept] at keptByCall
            rcases List.mem_append.mp keptByCall with before | isAdded
            · exact .inl before
            · exact .inr ⟨text, by simp, growth.allowed entry isAdded⟩
        | clear => contradiction
        | invalidate location =>
            rw [CacheCall.after, Action.kept_after_drop] at keptByCall
            exact .inl (List.mem_filter.mp keptByCall).1
      · exact .inr ⟨text, by simp [isAsked], keeps⟩

theorem IsOpened.isRooted (opened : workspace.IsOpened root) : workspace.IsRooted := by
  refine isRooted_of_isReal opened.realCurrent fun other located => ?_
  rw [opened.located] at located
  cases located
  exact opened.realRoot

section

variable (isFile : workspace.disk.tree.entry? path.names = some (.file old))
include isFile

theorem isRooted_withContent (opened : workspace.IsOpened root) :
    (workspace.withContent path.names new).IsRooted := by
  refine isRooted_of_isReal (Disk.isReal_withContent isFile opened.realCurrent) ?_
  intro other located
  rw [withContent, opened.located] at located
  cases located
  exact Disk.isReal_withContent isFile opened.realRoot

theorem agrees_withContent {kept : Kept} (agrees : workspace.Agrees kept)
    (others : ∀ location file, kept.lookup location = some file →
      workspace.disk.LeadsAt (Path.ofText location) path.names →
        (workspace.withContent path.names new).fileAt (Path.ofText location) = .ok (some file)) :
    (workspace.withContent path.names new).Agrees kept := by
  intro location file present
  by_cases leads : workspace.disk.LeadsAt (Path.ofText location) path.names
  · exact others location file present leads
  · have sameFile : (workspace.withContent path.names new).fileAt (Path.ofText location) =
        workspace.fileAt (Path.ofText location) := by
      unfold fileAt textOf withContent
      rw [Disk.readFile_withContent isFile leads]
    rw [sameFile]
    exact agrees location file present

end

/-- Where what is asked is straight, a file is kept under the text of its real path only. -/
theorem eq_text_of_leadsAt (opened : workspace.IsOpened root) (real : workspace.disk.IsReal path)
    (straight : workspace.AsksStraight root history) {entry : List Char × IgnoreFile}
    (isKept : entry ∈ (workspace.afterCalls history Session.fresh).kept)
    (leads : workspace.disk.LeadsAt (Path.ofText entry.1) path.names) : entry.1 = path.text := by
  rcases kept_of_afterCalls opened.isRooted isKept with
    before | ⟨text, isAsked, file, mayKeep, isKey⟩
  · contradiction
  · -- The file stands in a directory on the way up, and so its own path is real.
    obtain ⟨base, isDir, located, flag, directory, onWay, -, rfl⟩ := mayKeep
    obtain rfl : root = base := Option.some.inj (opened.located.symm.trans located)
    have isBottom : directory ∈ workspace.bottom (root.join (Path.ofText text)).normal ::
        (workspace.bottom (root.join (Path.ofText text)).normal).ancestors := by
      rw [directoryFlag_of_quiet opened.quiet] at flag
      rw [eq_getD_of_forgive flag] at onWay
      exact onWay
    obtain ⟨names, inFront, rfl⟩ := Path.prefix_of_mem_cons_ancestors isBottom
    have realBottom := straight.realBottom text isAsked
    have realDirectory := realBottom.of_prefix inFront
    have spelled := realDirectory.isSpelled.join_ofText workspace.ignoreFilename
    rw [isKey, spelled.ofText_text] at leads
    rw [isKey]
    rw [Path.join_ofText_of_plain straight.plain] at leads ⊢
    have noNull := Disk.hasNull_eq_false_iff.mp leads.hasNull_eq_false
    have realFile := realDirectory.child straight.plain (noNull _ (by simp [Path.child]))
      (straight.noLink _ realDirectory)
    rw [real.eq_of_leadsAt realFile leads]

/-- A file is rewritten and then dropped under the text of its real path.  From then on every
question ends as with a new cache, if what else is kept for the file says what its new text says;
that is so when all that was asked was straight, as then nothing else is kept for it. -/
theorem answers_after_drop (opened : workspace.IsOpened root) (real : workspace.disk.IsReal path)
    (isFile : workspace.disk.tree.entry? path.names = some (.file old)) (new : ByteArray)
    (history : List CacheCall) :
    ((∀ location file,
        (workspace.afterDrop history path).kept.lookup location = some file →
        workspace.disk.LeadsAt (Path.ofText location) path.names →
        (workspace.withContent path.names new).fileAt (Path.ofText location) = .ok (some file)) →
      (workspace.withContent path.names new).AnswersAsNew (workspace.afterDrop history path)) ∧
    (workspace.AsksStraight root history →
      (workspace.withContent path.names new).AnswersAsNew (workspace.afterDrop history path)) := by
  have agreesBefore := agrees_after opened.isRooted (.invalidate path.text)
    (agrees_afterCalls opened.isRooted history agrees_fresh)
  have refreshed (others : ∀ location file,
      (workspace.afterDrop history path).kept.lookup location = some file →
      workspace.disk.LeadsAt (Path.ofText location) path.names →
      (workspace.withContent path.names new).fileAt (Path.ofText location) = .ok (some file)) :
      (workspace.withContent path.names new).AnswersAsNew (workspace.afterDrop history path) :=
    fun later => answers_of_agrees (isRooted_withContent isFile opened) later
      (agrees_withContent isFile agreesBefore others)
  refine ⟨refreshed, fun straight => refreshed fun location file present leads => ?_⟩
  rw [afterDrop, CacheCall.after, Action.lookup_after_drop] at present
  split at present
  next => contradiction
  next other =>
    obtain ⟨before, after, split, -⟩ := List.lookup_eq_some_iff.mp present
    have isKept : (location, file) ∈ (workspace.afterCalls history Session.fresh).kept := by
      simp [split]
    exact absurd (eq_text_of_leadsAt opened real straight isKept leads) other

def mirrored : Workspace :=
  ofEntries ".gitignore" [
    ("b", .directory), ("b/.gitignore", .file "x\n".toUTF8), ("l", .link "/r/b".toList)]

def mirroredFile : Path := ⟨.root, ["r".toList, "b".toList, ".gitignore".toList]⟩

theorem eq_of_link?_mirrored {location : Location} {target : List Char}
    (isLink : mirrored.disk.tree.link? location = some target) :
    location = ["r".toList, "l".toList] ∧ target = "/r/b".toList := by
  have isMentioned := Tree.mem_mentions_of_link? isLink
  have names : (Path.ofText ['l']).names = [['l']] := by decide
  simpa [mirrored, ofEntries, names] using isMentioned

theorem mirrored_isOpened : mirrored.IsOpened ⟨.root, ["r".toList]⟩ where
  located := rfl
  realRoot := isReal_ofEntries _ _
  realCurrent := isReal_ofEntries _ _
  acyclic := by
    apply Disk.freeOfCircles_of_straight
    intro location target isLink
    obtain ⟨-, rfl⟩ := eq_of_link?_mirrored isLink
    exact ⟨⟨.root, ["r".toList, "b".toList]⟩, by decide +kernel, by decide +kernel⟩
  quiet := rfl

/-- The ignore file is emptied after a question about an entry of `b`. -/
theorem mirrored_refreshed :
    (mirrored.withContent mirroredFile.names .empty).answers
        [.ask "l/x".toList, .ask "b/x".toList]
        (mirrored.afterDrop [.ask "b/x".toList] mirroredFile) =
      [.ok false, .ok false] := by
  have isFile : mirrored.disk.tree.entry? mirroredFile.names = some (.file "x\n".toUTF8) := rfl
  have straight : mirrored.AsksStraight ⟨.root, ["r".toList]⟩ [.ask "b/x".toList] := by
    refine ⟨by decide, fun text isAsked => ?_, fun directory real => ?_⟩
    · obtain rfl : text = "b/x".toList := by simpa using isAsked
      decide +kernel
    · refine Option.eq_none_iff_forall_ne_some.mpr fun target isLink => ?_
      have lastName := congrArg List.getLast? (eq_of_link?_mirrored isLink).1
      simp [Path.child, mirrored, ofEntries] at lastName
  have real : mirrored.disk.IsReal mirroredFile := by decide +kernel
  rw [(answers_after_drop mirrored_isOpened real isFile .empty _).2 straight]
  decide +kernel

/-- After a question through the link, what it has kept outlives the changed file. -/
theorem mirrored_not_refreshed :
    mirrored.disk.IsReal mirroredFile ∧
      mirrored.disk.tree.entry? mirroredFile.names = some (.file "x\n".toUTF8) ∧
      (mirrored.withContent mirroredFile.names .empty).answer
        (mirrored.afterDrop [.ask "l/x".toList] mirroredFile) "l/x".toList = .ok true ∧
      (mirrored.withContent mirroredFile.names .empty).answer Session.fresh "l/x".toList =
        .ok false :=
  ⟨by decide +kernel, rfl, by decide +kernel, by decide +kernel⟩

end Workspace

end IgnoreRules
