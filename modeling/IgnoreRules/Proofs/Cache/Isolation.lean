import IgnoreRules.Proofs.Cache.Answered
import IgnoreRules.Proofs.Cache.Broken
import IgnoreRules.Proofs.Cache.Keeping

/-!
Failures that leave nothing behind.  While ignore files cannot be had, every other level is kept as
usual, and nothing is kept that has to be forgotten once the failures stop.
-/

namespace IgnoreRules

/-- The kept files whose locations do not lead to any of these places. -/
def Kept.elsewhere (kept : Kept) (disk : Disk) (places : List Location) : Kept :=
  kept.filter fun entry => !disk.leadsInto places (Path.ofText entry.1)

def OutageKind.onlyAt (kind : OutageKind) (struck path : Path) : Option OutageKind :=
  if path = struck then some kind else none

theorem OutageKind.eq_of_onlyAt {kind : OutageKind} {struck path : Path}
    (fails : kind.onlyAt struck path ≠ none) : path = struck := by
  by_contra other
  exact fails (if_neg other)

namespace Workspace

variable {workspace : Workspace} {places : List Location} {path directory root : Path}

theorem mem_levels_of_mem_consulted (asked : directory ∈ workspace.consulted path) :
    directory ∈ workspace.levels path := by
  unfold consulted at asked
  unfold levels
  cases located : workspace.root? with
  | none => simp [located] at asked
  | some root =>
      rw [located] at asked
      dsimp only at asked ⊢
      split at asked
      next =>
        exact mem_cons_ancestors_of_mem_wayUp (mem_of_mem_passed asked)
      next => simp at asked

section

variable (broken : workspace.IsBroken places path)
include broken

theorem keepIn_elsewhere (spelled : directory.IsSpelled) (onWay : directory ∈ workspace.levels path)
    (kept : Kept) :
    workspace.keepIn (kept.elsewhere workspace.disk places) directory =
      (workspace.calm.keepIn kept directory).elsewhere workspace.disk places := by
  have isPath : Path.ofText (workspace.ignoreFilePath directory).text =
      workspace.ignoreFilePath directory :=
    (spelled.join_ofText workspace.ignoreFilename).ofText_text
  have samePath : workspace.calm.ignoreFilePath directory =
      workspace.ignoreFilePath directory := rfl
  rw [keepIn, keepIn, samePath, Kept.elsewhere, Kept.elsewhere, Kept.filter_including
    fun location => !workspace.disk.leadsInto places (Path.ofText location)]
  rw [isPath]
  cases isInto : workspace.disk.leadsInto places (workspace.ignoreFilePath directory) with
  | true =>
      rw [fileHeard?_of_fails (broken.fails directory onWay isInto)]
      rfl
  | false =>
      rw [fileHeard?_calm broken isInto]
      rfl

theorem foldl_keepIn_elsewhere {directories : List Path}
    (spelled : ∀ directory ∈ directories, directory.IsSpelled)
    (onWay : ∀ directory ∈ directories, directory ∈ workspace.levels path) (kept : Kept) :
    directories.foldl workspace.keepIn (kept.elsewhere workspace.disk places) =
      (directories.foldl workspace.calm.keepIn kept).elsewhere workspace.disk places := by
  induction directories generalizing kept with
  | nil => rfl
  | cons directory above inductionHypothesis =>
      rw [List.forall_mem_cons] at spelled onWay
      rw [List.foldl_cons, List.foldl_cons, keepIn_elsewhere broken spelled.1 onWay.1]
      exact inductionHypothesis spelled.2 onWay.2 _

theorem consulted_calm
    (spelled : ∀ root, workspace.root? = some root → (root.join path).IsSpelled) {ignored : Bool}
    (answered : workspace.excluded path = .ok ignored) :
    workspace.calm.consulted path = workspace.consulted path := by
  unfold excluded at answered
  unfold consulted
  have sameRoot : workspace.calm.root? = workspace.root? := rfl
  rw [sameRoot]
  cases located : workspace.root? with
  | none => rfl
  | some root =>
      rw [located] at answered
      obtain ⟨shown?, related, answered⟩ := bind_eq_ok_iff.mp answered
      have sameRelation : workspace.calm.disk.relativePath (root.join path).normal root =
          .ok shown? := related
      dsimp only
      rw [sameRelation, related]
      rcases shown? with _ | _ | ⟨first, rest⟩
      · rfl
      · rfl
      · obtain ⟨isDir, flagged, -⟩ := bind_eq_ok_iff.mp answered
        dsimp only
        rw [flagged, flagged_calm broken (spelled root located).normal.absolute flagged]
        rfl

theorem agrees_of_calm {kept : Kept} (agrees : workspace.calm.Agrees kept)
    (uncached : ∀ entry ∈ kept, workspace.disk.leadsInto places (Path.ofText entry.1) = false) :
    workspace.Agrees kept := by
  intro location file present
  have compiled := agrees location file present
  suffices notRead : workspace.outages.read (Path.ofText location) = none by
    rwa [fileAt_calm notRead] at compiled
  by_contra struck
  obtain ⟨⟨place, entry⟩, located⟩ := exists_locate_of_fileAt compiled
  have isPlace := broken.read (Path.ofText location) struck place ⟨entry, located⟩
  have isInto : workspace.disk.leadsInto places (Path.ofText location) = true :=
    Disk.leadsInto_iff.mpr ⟨place, isPlace, entry, located⟩
  obtain ⟨before, later, split, -⟩ := List.lookup_eq_some_iff.mp present
  have isElsewhere := uncached (location, file) (by simp [split])
  exact absurd (isInto.symm.trans isElsewhere) (by simp)

end

theorem agrees_elsewhere {kept : Kept} (agrees : workspace.Agrees kept) (disk : Disk)
    (places : List Location) : workspace.Agrees (kept.elsewhere disk places) := by
  intro location file present
  rw [Kept.elsewhere, lookup_filter_key kept
    (fun key => !disk.leadsInto places (Path.ofText key))] at present
  split at present
  next => exact agrees location file present
  next => contradiction

theorem IsRooted.calm (rooted : workspace.IsRooted) : workspace.calm.IsRooted where
  spelledCurrent := rooted.spelledCurrent
  resolvedRoot := rooted.resolvedRoot

theorem exists_excluded_calm (rooted : workspace.IsRooted) {text : List Char} {ignored : Bool}
    (answered : workspace.excluded (Path.ofText text) = .ok ignored) :
    ∃ calmly, workspace.calm.excluded (Path.ofText text) = .ok calmly := by
  have spelled := rooted.spelled text
  cases ended : workspace.calm.excluded (Path.ofText text) with
  | ok calmly => exact ⟨calmly, rfl⟩
  | error fault =>
      rw [← outcome_isIgnored_fresh (rooted.calm.spelled text)] at ended
      have inPlace : Kept.AreInPlace Session.fresh.kept := by
        intro location file present
        contradiction
      obtain ⟨root, located, unrelated⟩ := (outcome_isIgnored_eq_error_iff
        Outages.areForgiven_none (rooted.calm.spelled text) inPlace).mp ended
      have stillUnrelated : workspace.disk.relativePath (root.join (Path.ofText text)).normal root =
          .error fault := unrelated
      have stillLocated : workspace.root? = some root := located
      have failed := outcome_isIgnored_of_unrelated stillLocated stillUnrelated Session.fresh
      rw [outcome_isIgnored_fresh spelled, answered] at failed
      contradiction

/-- Calls fail at some ignore files that are not kept, and a question is answered all the same.  The
answer is the one on the disk without these files, every other level is kept as usual and none of
these files is, and when the failures stop every question is answered as by a new cache. -/
theorem broken_levels_isolated (rooted : workspace.IsRooted) {session : Session} {text : List Char}
    {ignored : Bool} (broken : workspace.IsBroken places (Path.ofText text))
    (apart : workspace.TellsApart places (Path.ofText text))
    (agrees : workspace.calm.Agrees session.kept)
    (uncached : ∀ entry ∈ session.kept,
      workspace.disk.leadsInto places (Path.ofText entry.1) = false)
    (answered : workspace.answer session text = .ok ignored) :
    (∀ other : Session, (workspace.calm.without places).Agrees other.kept →
      (workspace.calm.without places).answer other text = .ok ignored) ∧
    ((CacheCall.ask text).after workspace session).kept =
      Kept.elsewhere ((CacheCall.ask text).after workspace.calm session).kept
        workspace.disk places ∧
    ∀ later, workspace.calm.answer ((CacheCall.ask text).after workspace session) later =
      workspace.calm.answer Session.fresh later := by
  have spelled := rooted.spelled text
  have agreesNow := agrees_of_calm broken agrees uncached
  have excluded : workspace.excluded (Path.ofText text) = .ok ignored := by
    rw [← answered]
    exact (gives_isIgnored _ spelled session agreesNow).1.symm
  have kept : ((CacheCall.ask text).after workspace session).kept =
      Kept.elsewhere ((CacheCall.ask text).after workspace.calm session).kept
        workspace.disk places := by
    obtain ⟨calmly, excludedCalmly⟩ := exists_excluded_calm rooted excluded
    have unchanged : Kept.elsewhere session.kept workspace.disk places = session.kept :=
      List.filter_eq_self.mpr fun entry isKept => by simp [uncached entry isKept]
    have onWay (directory : Path) (asked : directory ∈ workspace.consulted (Path.ofText text)) :=
      mem_levels_of_mem_consulted asked
    rw [kept_after_ask rooted agreesNow excluded, kept_after_ask rooted.calm agrees excludedCalmly,
      consulted_calm broken spelled excluded, ← foldl_keepIn_elsewhere broken _ onWay, unchanged]
    exact fun directory asked => isSpelled_of_mem_levels spelled (onWay directory asked)
  refine ⟨fun other agreesOther => ?_, kept, fun later => ?_⟩
  · have rootedWithout : (workspace.calm.without places).IsRooted :=
      ⟨rooted.spelledCurrent, rooted.resolvedRoot⟩
    rw [answer, (gives_isIgnored _ (rootedWithout.spelled text) other agreesOther).1]
    exact excluded_without rooted broken spelled apart excluded
  · refine answer_of_agrees rooted.calm ?_ later
    rw [kept]
    exact agrees_elsewhere (agrees_after rooted.calm (.ask text) agrees) workspace.disk places

/-- Two levels fail below one that does not: one file cannot be read and one cannot be looked up. -/
def failing : Workspace where
  __ := ofEntries ".gitignore" [
    (".gitignore", .file "x\ny\n".toUTF8), ("a", .directory),
    ("a/.gitignore", .file "!x\n".toUTF8), ("a/b", .directory),
    ("a/b/.gitignore", .file "!x\n".toUTF8)]
  outages := {
    read := OutageKind.text.onlyAt (Path.ofText "/r/a/.gitignore".toList)
    isDir := fun _ => none
    findChild := OutageKind.system.onlyAt (Path.ofText "/r/a/b".toList) }

def failingPlaces : List Location :=
  [["r".toList, "a".toList, ".gitignore".toList],
    ["r".toList, "a".toList, "b".toList, ".gitignore".toList]]

theorem failing_isBroken : failing.IsBroken failingPlaces (Path.ofText "a/b/x".toList) where
  holds.plain := by decide +kernel
  holds.files := by
    intro place isPlace
    rw [failingPlaces, List.mem_pair] at isPlace
    rcases isPlace with rfl | rfl <;> exact ⟨_, rfl⟩
  read := by
    intro path struck
    obtain rfl := OutageKind.eq_of_onlyAt struck
    exact Disk.leadsOnlyInto_of_leadsInto (by decide +kernel)
  isDir := fun path struck => absurd rfl struck
  findChild := by
    intro directory struck
    obtain rfl := OutageKind.eq_of_onlyAt struck
    exact Disk.leadsOnlyInto_of_leadsInto (by decide +kernel)
  fails := by
    have fails : ∀ directory ∈ failing.levels (Path.ofText "a/b/x".toList),
        failing.disk.leadsInto failingPlaces (failing.ignoreFilePath directory) = true →
          failing.ignoreFileSought directory = .error (.outage .system) ∨
            failing.textOf (failing.ignoreFilePath directory) = .error (.outage .text) := by
      decide +kernel
    intro directory onWay isInto
    rcases fails directory onWay isInto with unseen | unread
    · exact .inl ⟨_, unseen, rfl⟩
    · exact .inr ⟨_, unread, rfl⟩

/-- The rules of the level that does not fail decide, and its file alone is kept. -/
theorem failing_answers :
    (failing.calm.without failingPlaces).answer Session.fresh "a/b/x".toList = .ok true ∧
      (((CacheCall.ask "a/b/x".toList).after failing Session.fresh).kept.map Prod.fst =
        ["/r/.gitignore".toList]) ∧
      failing.calm.answer ((CacheCall.ask "a/b/x".toList).after failing Session.fresh)
        "a/b/x".toList = .ok false := by
  obtain ⟨spelledCurrent, resolvedRoot⟩ : (ofEntries ".gitignore" []).IsRooted :=
    isRooted_ofEntries _ _
  have rooted : failing.IsRooted := ⟨spelledCurrent, resolvedRoot⟩
  have answered : failing.answer Session.fresh "a/b/x".toList = .ok true := by decide +kernel
  obtain ⟨without, kept, afterwards⟩ := broken_levels_isolated rooted failing_isBroken
    (.inl (by decide +kernel)) agrees_fresh (by simp [Session.fresh]) answered
  refine ⟨without Session.fresh agrees_fresh, ?_, ?_⟩
  · rw [kept]
    decide +kernel
  · rw [afterwards]
    decide +kernel

/-- The ignore file is named as one in a subdirectory, where `a/a` leads to a twin of `a`.  That of
`a` cannot be read, and it is the twin of the one at the root. -/
def twinned : Workspace where
  __ := ofEntries "a/1" [
    ("a", .directory), ("a/1", .file "x\n".toUTF8), ("a/a", .link "../A".toList),
    ("A", .directory), ("A/1", .file .empty)]
  outages := { Outages.none with
    read := OutageKind.system.onlyAt (Path.ofText "/r/a/a/1".toList) }

def twinnedPlaces : List Location :=
  [["r".toList, "A".toList, "1".toList]]

theorem twinned_isRooted : twinned.IsRooted := by
  obtain ⟨spelledCurrent, resolvedRoot⟩ : (ofEntries "a/1" []).IsRooted := isRooted_ofEntries _ _
  exact ⟨spelledCurrent, resolvedRoot⟩

theorem twinned_isBroken : twinned.IsBroken twinnedPlaces (Path.ofText "a/x".toList) where
  holds.plain := by decide +kernel
  holds.files := by
    intro place isPlace
    obtain rfl := List.mem_singleton.mp isPlace
    exact ⟨_, rfl⟩
  read := by
    intro path struck
    obtain rfl := OutageKind.eq_of_onlyAt struck
    exact Disk.leadsOnlyInto_of_leadsInto (by decide +kernel)
  isDir := fun path struck => absurd rfl struck
  findChild := fun directory struck => absurd rfl struck
  fails := by
    have fails : ∀ directory ∈ twinned.levels (Path.ofText "a/x".toList),
        twinned.disk.leadsInto twinnedPlaces (twinned.ignoreFilePath directory) = true →
          twinned.textOf (twinned.ignoreFilePath directory) = .error (.outage .system) := by
      decide +kernel
    intro directory onWay isInto
    exact .inr ⟨_, fails directory onWay isInto, rfl⟩

/-- At the root the twin is there, and the listing cannot have a name with a slash. -/
theorem twinned_unheard : twinned.fileHeard? (Path.ofText "/r".toList) = none := by
  refine fileHeard?_of_childOf fun found => ?_
  have absent : twinned.disk.childOf (Path.ofText "/r".toList) twinned.ignoreFilename =
      .ok none := by
    apply @Disk.childOf_of_twin _ _ _ ["r".toList]
    · decide +kernel
    · rfl
    · decide +kernel
    · decide +kernel
    · rw [Tree.mem_childNames_iff]
      decide +kernel
  rw [absent]
  simp

theorem twinned_forgiven : twinned.outages.AreForgiven where
  read := by
    intro path kind struck
    obtain rfl := OutageKind.eq_of_onlyAt (Option.ne_none_iff_exists'.mpr ⟨kind, struck⟩)
    cases struck
    rfl
  isDir := fun _ _ struck => by contradiction
  findChild := fun _ _ struck => by contradiction

theorem twinned_excluded : twinned.excluded (Path.ofText "a/x".toList) = .ok false := by
  have isEntry : (Path.join ⟨.root, ["r".toList]⟩ (Path.ofText "a/x".toList)).normal =
      Path.ofText "/r/a/x".toList := by
    decide +kernel
  refine @excluded_of_unheard _ _ _ "a/x".toList false rfl ?_ ?_ ?_
  · rw [isEntry]
    decide +kernel
  · rw [isEntry]
    decide +kernel
  · have failing : twinned.LevelFails (Path.ofText "/r/a".toList) :=
      twinned_isBroken.fails _ (by decide +kernel) (by decide +kernel)
    have passed : twinned.passed ⟨.root, ["r".toList]⟩
        (wayUp (Path.ofText "/r/a/x".toList) false) =
          [Path.ofText "/r/a".toList, Path.ofText "/r".toList] := by
      decide +kernel
    have spelledEntry : (Path.ofText "/r/a/x".toList).IsSpelled :=
      isEntry ▸ (twinned_isRooted.spelled "a/x".toList _ rfl).normal
    have known : twinned.disk.entryPath (Path.ofText "/r/a/x".toList) =
        .ok (Path.ofText "/r/a/x".toList) := by
      decide +kernel
    have resolved : twinned.disk.resolve ⟨.root, ["r".toList]⟩ = .ok (Path.ofText "/r".toList) := by
      decide +kernel
    have related (directory : Path)
        (onWay : directory ∈ wayUp (Path.ofText "/r/a/x".toList) false) :=
      isAncestor_of_mem_wayUp spelledEntry (by decide +kernel) known resolved onWay
    rw [isEntry, filesIn_of_forgiven twinned_forgiven (by decide +kernel) related, passed,
      List.filterMap_cons_none (fileHeard?_of_fails failing),
      List.filterMap_cons_none twinned_unheard, List.filterMap_nil]

/-- Where no listing can tell the two names apart this fails: without the file that cannot be read,
the one at the root is found. -/
theorem twinned_not_isolated :
    ¬∀ (workspace : Workspace) (places : List Location) (session : Session) (text : List Char)
      (ignored : Bool), workspace.IsRooted → workspace.IsBroken places (Path.ofText text) →
        workspace.calm.Agrees session.kept →
        (∀ entry ∈ session.kept,
          workspace.disk.leadsInto places (Path.ofText entry.1) = false) →
        workspace.answer session text = .ok ignored →
          (workspace.calm.without places).answer Session.fresh text = .ok ignored := by
  intro isolated
  have answered : twinned.answer Session.fresh "a/x".toList = .ok false := by
    rw [answer, outcome_isIgnored_fresh (twinned_isRooted.spelled _), twinned_excluded]
  have without := isolated twinned twinnedPlaces Session.fresh "a/x".toList false twinned_isRooted
    twinned_isBroken agrees_fresh (by simp [Session.fresh]) answered
  have other : (twinned.calm.without twinnedPlaces).answer Session.fresh "a/x".toList =
      .ok true := by
    decide +kernel
  rw [other] at without
  contradiction

end Workspace

end IgnoreRules
