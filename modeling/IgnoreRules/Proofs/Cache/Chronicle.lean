import IgnoreRules.Proofs.Cache.Growth
import IgnoreRules.Proofs.Cache.Transparency
import IgnoreRules.Proofs.Tree.Linkless

/-!
A cache over time.  Between the calls on it the tree may change in any way, and so may what is made
to fail.  What is kept for a location is always the compiled form of the one text that has been read
there since the location was last taken away.
-/

namespace IgnoreRules

inductive Moment where
  | call (call : CacheCall)
  | edit (tree : Tree) (outages : Outages)

def CacheCall.removes : CacheCall → List Char → Bool
  | ask _, _ => false
  | clear, _ => true
  | invalidate dropped, location => location == dropped

/-- A cache in use, and the texts that have been read from each location since it was last taken
away. -/
structure Chronicle where
  workspace : Workspace
  session : Session
  textsSince : List Char → List (List Char)

namespace Chronicle

def opened (workspace : Workspace) : Chronicle :=
  ⟨workspace, Session.fresh, fun _ => []⟩

def news (chronicle : Chronicle) (call : CacheCall) : List Event :=
  (call.after chronicle.workspace chronicle.session).events.drop chronicle.session.events.length

def step (chronicle : Chronicle) : Moment → Chronicle
  | .call call =>
      { chronicle with
        session := call.after chronicle.workspace chronicle.session
        textsSince := fun location =>
          (if call.removes location then [] else chronicle.textsSince location) ++
            chronicle.workspace.textsRead location (chronicle.news call) }
  | .edit tree outages =>
      { chronicle with
        workspace := { chronicle.workspace with
          disk := { chronicle.workspace.disk with tree }
          outages } }

def run (chronicle : Chronicle) (moments : List Moment) : Chronicle :=
  moments.foldl step chronicle

/-- What holds at every point of a chronicle that began in a workspace. -/
structure IsSound (chronicle : Chronicle) (workspace : Workspace) : Prop where
  sameRoot : chronicle.workspace.root? = workspace.root?
  sameFilename : chronicle.workspace.ignoreFilename = workspace.ignoreFilename
  distinct : (chronicle.session.kept.map Prod.fst).Nodup
  refilled : ∀ location, Refilled location none (chronicle.textsSince location)
    (chronicle.session.kept.lookup location)

variable {workspace : Workspace} {chronicle : Chronicle}

theorem textsSince_of_records {call : CacheCall} {kept : Kept} {records : List Record}
    (left : call.after chronicle.workspace chronicle.session =
      ⟨kept, chronicle.session.events ++ records.map .logged⟩) (location : List Char) :
    (chronicle.step (.call call)).textsSince location =
      if call.removes location then [] else chronicle.textsSince location := by
  have nothing : chronicle.workspace.textsRead location (chronicle.news call) = [] := by
    rw [news, left, List.drop_left]
    exact Workspace.textsRead_of_silent (.logged records) location
  dsimp only [step]
  rw [nothing, List.append_nil]

namespace IsSound

theorem atOpening : (opened workspace).IsSound workspace where
  sameRoot := rfl
  sameFilename := rfl
  distinct := List.nodup_nil
  refilled := fun _ => .absent

theorem spelled (sound : chronicle.IsSound workspace) (rooted : workspace.IsRooted)
    (text : List Char) :
    ∀ root, chronicle.workspace.root? = some root → (root.join (Path.ofText text)).IsSpelled := by
  rw [sound.sameRoot]
  exact rooted.spelled text

theorem growth (sound : chronicle.IsSound workspace) (rooted : workspace.IsRooted)
    (text : List Char) :
    ∃ added, chronicle.workspace.Growth (chronicle.workspace.MayKeep (Path.ofText text))
      chronicle.session ((CacheCall.ask text).after chronicle.workspace chronicle.session) added
      (chronicle.news (.ask text)) := by
  obtain ⟨added, news, growth⟩ :=
    Workspace.leads_isIgnored _ (sound.spelled rooted text) chronicle.session
  have same : chronicle.news (.ask text) = news := by
    rw [Chronicle.news, CacheCall.after, growth.events, List.drop_left]
  exact ⟨added, same ▸ growth⟩

theorem ask (sound : chronicle.IsSound workspace) (rooted : workspace.IsRooted)
    (text : List Char) : (chronicle.step (.call (.ask text))).IsSound workspace := by
  obtain ⟨added, growth⟩ := sound.growth rooted text
  exact ⟨sound.sameRoot, sound.sameFilename, growth.distinct sound.distinct,
    fun location => (sound.refilled location).trans (growth.refilled location)⟩

theorem clear (sound : chronicle.IsSound workspace) :
    (chronicle.step (.call .clear)).IsSound workspace := by
  obtain ⟨records, left⟩ := Action.after_dropAll chronicle.session
  refine ⟨sound.sameRoot, sound.sameFilename, List.nodup_nil, fun location => ?_⟩
  have all : CacheCall.clear.removes location = true := rfl
  rw [@textsSince_of_records chronicle .clear _ _ left, if_pos all]
  exact .absent

theorem invalidate (sound : chronicle.IsSound workspace) (dropped : List Char) :
    (chronicle.step (.call (.invalidate dropped))).IsSound workspace := by
  obtain ⟨records, left⟩ := Action.after_drop dropped chronicle.session
  have kept : (chronicle.step (.call (.invalidate dropped))).session.kept =
      chronicle.session.kept.filter (·.1 != dropped) :=
    Action.kept_after_drop dropped chronicle.session
  have lookup (location : List Char) :
      (chronicle.step (.call (.invalidate dropped))).session.kept.lookup location =
        if location = dropped then none else chronicle.session.kept.lookup location :=
    Action.lookup_after_drop dropped location chronicle.session
  refine ⟨sound.sameRoot, sound.sameFilename, ?_, fun location => ?_⟩
  · have fewer : (chronicle.session.kept.filter (·.1 != dropped)).Sublist
        chronicle.session.kept := List.filter_sublist
    rw [kept]
    exact sound.distinct.sublist (fewer.map Prod.fst)
  · -- The dropped location starts anew, and the others go on as they were.
    rw [@textsSince_of_records chronicle (.invalidate dropped) _ _ left, lookup,
      CacheCall.removes]
    by_cases same : location = dropped
    · simpa [same] using Refilled.absent
    · simpa [same] using sound.refilled location

theorem step (rooted : workspace.IsRooted) (moment : Moment)
    (sound : chronicle.IsSound workspace) : (chronicle.step moment).IsSound workspace := by
  cases moment with
  | edit tree outages =>
      exact ⟨sound.sameRoot, sound.sameFilename, sound.distinct, sound.refilled⟩
  | call call =>
      cases call with
      | ask text => exact sound.ask rooted text
      | clear => exact sound.clear
      | invalidate dropped => exact sound.invalidate dropped

theorem run (rooted : workspace.IsRooted) (moments : List Moment)
    (sound : chronicle.IsSound workspace) : (chronicle.run moments).IsSound workspace := by
  induction moments generalizing chronicle with
  | nil => exact sound
  | cons moment moments inductionHypothesis =>
      exact inductionHypothesis (sound.step rooted moment)

theorem of_mem (sound : chronicle.IsSound workspace) {location : List Char} {file : IgnoreFile}
    (present : (location, file) ∈ chronicle.session.kept) :
    ∃ text, chronicle.textsSince location = [text] ∧
      file = IgnoreFile.ofText text (Path.ofText location).parent location := by
  have refilled := sound.refilled location
  rw [lookup_of_mem sound.distinct present] at refilled
  exact refilled.of_some

end IsSound

/-- At every point of a chronicle, a kept file is compiled from the one text that has been read from
its location since it was last taken away, and no location has been read twice.  A question leaves
what is kept as it is and adds files only for texts that it reads, at the ignore files of the entry
and of what is above it inside the root, and dropping a location takes away nothing else. -/
theorem kept_over_time (rooted : workspace.IsRooted) (plain : workspace.ignoreFilename.Plain)
    (moments : List Moment) (reached : (opened workspace).run moments = chronicle) :
    (chronicle.session.kept.map Prod.fst).Nodup ∧
    (∀ location file, (location, file) ∈ chronicle.session.kept →
      ∃ text, chronicle.textsSince location = [text] ∧
        file = IgnoreFile.ofText text (Path.ofText location).parent location) ∧
    (∀ location, (chronicle.textsSince location).length ≤ 1) ∧
    (∀ text, ∃ added,
      (chronicle.step (.call (.ask text))).session.kept = chronicle.session.kept ++ added ∧
      ∀ entry ∈ added,
        (∃ content,
          chronicle.workspace.textsRead entry.1 (chronicle.news (.ask text)) = [content]) ∧
        ∃ root, workspace.root? = some root ∧
          ∃ directory ∈ (root.join (Path.ofText text)).normal ::
              (root.join (Path.ofText text)).normal.ancestors,
            chronicle.workspace.disk.isAncestor root directory = .ok true ∧
              entry.1 = (directory.child workspace.ignoreFilename).text) ∧
    ∀ location, (chronicle.step (.call (.invalidate location))).session.kept =
      chronicle.session.kept.filter (·.1 != location) := by
  have sound : chronicle.IsSound workspace := reached ▸ IsSound.atOpening.run rooted moments
  refine ⟨sound.distinct, fun _ _ => sound.of_mem,
    fun location => (sound.refilled location).length_texts, fun text => ?_,
    fun location => Action.kept_after_drop location chronicle.session⟩
  obtain ⟨added, growth⟩ := sound.growth rooted text
  refine ⟨added, growth.kept, fun entry isAdded => ⟨?_, ?_⟩⟩
  · obtain ⟨content, read, -⟩ := growth.read_of_added sound.distinct isAdded
    exact ⟨content, read⟩
  · obtain ⟨path, ⟨root, isDir, located, -, directory, onWay, within, rfl⟩, isKey⟩ :=
      growth.allowed entry isAdded
    have fromEntry := Workspace.mem_cons_ancestors_of_mem_wayUp onWay
    refine ⟨root, sound.sameRoot ▸ located, directory, fromEntry, within, ?_⟩
    rw [isKey, sound.sameFilename, Path.join_ofText_of_plain plain]

def holding (text : String) : Workspace :=
  Workspace.ofEntries ".gitignore" [(".gitignore", .file text.toUTF8)]

/-- The ignore file is asked twice and rewritten between, then dropped and asked while it cannot be
read, and asked once more. -/
def rewritten : List Moment :=
  let failing : Outages := { Outages.none with read := fun _ => some .system }
  [.call (.ask "x".toList), .edit (holding "y\n").disk.tree .none, .call (.ask "x".toList),
    .call (.invalidate "/r/.gitignore".toList), .edit (holding "y\n").disk.tree failing,
    .call (.ask "x".toList), .edit (holding "y\n").disk.tree .none, .call (.ask "x".toList)]

/-- In the end the last text is kept in compiled form. -/
theorem rewritten_kept :
    ∃ file, ("/r/.gitignore".toList, file) ∈ ((opened (holding "x\n")).run rewritten).session.kept ∧
      file = IgnoreFile.ofText "y\n".toList ⟨.root, ["r".toList]⟩ "/r/.gitignore".toList := by
  have rooted : (holding "x\n").IsRooted := Workspace.isRooted_ofEntries _ _
  have plain : (holding "x\n").ignoreFilename.Plain := by decide +kernel
  have isKept : "/r/.gitignore".toList ∈
      ((opened (holding "x\n")).run rewritten).session.kept.map Prod.fst := by decide +kernel
  have texts : ((opened (holding "x\n")).run rewritten).textsSince "/r/.gitignore".toList =
      ["y\n".toList] := by decide +kernel
  obtain ⟨⟨location, file⟩, present, rfl⟩ := List.mem_map.mp isKept
  obtain ⟨-, compiled, -⟩ := kept_over_time rooted plain rewritten rfl
  obtain ⟨text, read, same⟩ := compiled _ _ present
  rw [texts] at read
  cases read
  exact ⟨file, present, same⟩

end Chronicle

end IgnoreRules
