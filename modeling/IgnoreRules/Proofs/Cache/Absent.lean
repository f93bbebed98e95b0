import IgnoreRules.Proofs.Cache.Forgiven
import IgnoreRules.Proofs.Tree.Linkless
import IgnoreRules.Proofs.Tree.Removal

/-!
Ignore files that are taken away.  A directory whose ignore file is among them has none then, and
every other directory has the same ignore file with the same rules as before.
-/

namespace IgnoreRules

section

variable {Alpha Beta Gamma : Type} {forgiven : Fault → Bool} {one other : Except Fault Alpha}

/-- The same end, or two faults that are both forgiven. -/
def AlikeUpTo (forgiven : Fault → Bool) (one other : Except Fault Alpha) : Prop :=
  one = other ∨ ∃ fault otherFault, one = .error fault ∧ other = .error otherFault ∧
    forgiven fault = true ∧ forgiven otherFault = true

theorem AlikeUpTo.refl (one : Except Fault Alpha) : AlikeUpTo forgiven one one :=
  .inl rfl

theorem AlikeUpTo.bind {next otherNext : Alpha → Except Fault Beta}
    (first : AlikeUpTo forgiven one other)
    (second : ∀ value, one = .ok value → AlikeUpTo forgiven (next value) (otherNext value)) :
    AlikeUpTo forgiven (one >>= next) (other >>= otherNext) := by
  rcases first with rfl | ⟨fault, otherFault, rfl, rfl, isForgiven, otherForgiven⟩
  · cases one with
    | ok value => exact second value rfl
    | error fault => exact .refl _
  · exact .inr ⟨fault, otherFault, rfl, rfl, isForgiven, otherForgiven⟩

theorem AlikeUpTo.bind_map {change : Alpha → Beta}
    (alike : AlikeUpTo forgiven (one.map change) (other.map change))
    (next : Beta → Except Fault Gamma) :
    AlikeUpTo forgiven (one >>= fun value => next (change value))
      (other >>= fun value => next (change value)) := by
  have asked (result : Except Fault Alpha) :
      (result >>= fun value => next (change value)) = result.map change >>= next := by
    cases result <;> rfl
  rw [asked, asked]
  exact alike.bind fun value _ => .refl _

theorem AlikeUpTo.unless (alike : AlikeUpTo forgiven one other) (outage? : Option OutageKind) :
    AlikeUpTo forgiven (OutageKind.unless outage? one) (OutageKind.unless outage? other) := by
  cases outage? with
  | none => exact alike
  | some kind => exact .refl _

theorem AlikeUpTo.forgive_eq (alike : AlikeUpTo forgiven one other) (instead : Alpha) :
    forgive forgiven instead one = forgive forgiven instead other := by
  rcases alike with rfl | ⟨fault, otherFault, rfl, rfl, isForgiven, otherForgiven⟩
  · rfl
  · rw [forgive, forgive, if_pos isForgiven, if_pos otherForgiven]

end

namespace Disk

variable {disk : Disk} {places : List Location} {path directory : Path} {name : Name}

theorem children_eq_ok_iff {listed : List Path} :
    disk.children path = .ok listed ↔
      ∃ location, disk.locate path = .ok (location, .directory) ∧
        listed = (disk.tree.childNames location).map path.child := by
  unfold children
  split
  next location located => simp [located, eq_comm]
  next => grind
  next => grind

theorem any_children {location : Location} :
    ((disk.tree.childNames location).map path.child).any (·.lastName == name) =
      decide (name ∈ disk.tree.childNames location) := by
  rw [Bool.eq_iff_iff, decide_eq_true_iff, List.any_map, List.any_eq_true]
  simp [Path.child, Path.lastName]

section

variable (holds : disk.tree.HoldsFiles places)
include holds

theorem locate_of_without (absolute : path.isAbsolute = true) {stop : Location × Entry}
    (located : (disk.without places).locate path = .ok stop) : disk.locate path = .ok stop := by
  rcases locate_without holds absolute with ⟨-, null⟩ | ⟨before, after, spares, isBefore, isAfter⟩
  · rw [null] at located
    contradiction
  · rw [isAfter] at located
    cases before with
    | ok reached =>
        by_cases isPlace : reached.1 ∈ places
        · rw [spares, if_pos isPlace] at located
          contradiction
        · rw [spares, if_neg isPlace] at located
          rw [isBefore]
          exact located
    | error error =>
        cases error with
        | notDirectory => rcases spares with rfl | rfl <;> contradiction
        | _ =>
          rw [show after = _ from spares] at located
          contradiction

theorem childOf_without_of_leadsInto (spelled : directory.IsSpelled)
    (isInto : disk.leadsInto places (directory.join (Path.ofText name)) = true) :
    (disk.without places).childOf directory name = .ok none := by
  have absent : (disk.without places).pathExists (directory.join (Path.ofText name)) = .ok false :=
    leadsTo_without_of_leadsInto holds (spelled.join_ofText name).absolute isInto _
  unfold childOf
  dsimp only
  rw [absent]
  rfl

theorem mem_childNames_without {location : Location}
    (isDirectory : disk.tree.entry? location = some .directory)
    (stays : location ++ [name] ∉ places) :
    name ∈ (disk.tree.without places).childNames location ↔
      name ∈ disk.tree.childNames location := by
  have free : ∀ place ∈ places, ¬place <+: location ++ [name] := by
    intro place isPlace inFront
    rcases List.prefix_concat_iff.mp inFront with rfl | above
    · exact stays isPlace
    · obtain ⟨-, content, isFile⟩ := holds.mentioned? isPlace
      have notDirectory := Tree.not_isDirectoryAt_of_file isFile above
      rw [Tree.isDirectoryAt_iff.mpr isDirectory] at notDirectory
      contradiction
  rw [Tree.mem_childNames_iff, Tree.mem_childNames_iff, Tree.mentions_without, List.mem_map,
    List.mem_map]
  constructor
  · rintro ⟨mention, isMention, same⟩
    exact ⟨mention, List.mem_of_mem_filter isMention, same⟩
  · rintro ⟨mention, isMention, same⟩
    refine ⟨mention, List.mem_filter.mpr ⟨isMention, ?_⟩, same⟩
    simpa [same, List.isPrefixOf_iff_prefix] using free

section

variable (spelled : directory.IsSpelled)
  (elsewhere : disk.leadsInto places (directory.join (Path.ofText name)) = false)
  (isThere : disk.pathExists (directory.join (Path.ofText name)) = .ok true)
include spelled elsewhere isThere

theorem not_mem_of_locate {location : Location}
    (located : disk.locate directory = .ok (location, .directory)) :
    location ++ [name] ∉ places := by
  intro isPlace
  have plain : name.Plain := holds.plain _ isPlace name (by simp)
  rw [Path.join_ofText_of_plain plain] at elsewhere isThere
  obtain ⟨stop, found⟩ := exists_locate_of_leadsTo isThere
  obtain ⟨same, entry, locatedAgain, present, atFile⟩ :=
    locate_child spelled.absolute plain found
  obtain rfl : same = location := by
    rw [located] at locatedAgain
    cases locatedAgain
    rfl
  obtain ⟨content, isFile⟩ := holds.files _ isPlace
  have reached := atFile content (Option.some.inj (present.symm.trans isFile))
  simp [leadsInto, found, reached, isPlace] at elsewhere

theorem listed_without (noNull : hasNull directory = false) :
    AlikeUpTo Fault.isSystem
      ((disk.children directory).map fun listed => listed.any (·.lastName == name))
      (((disk.without places).children directory).map fun listed =>
        listed.any (·.lastName == name)) := by
  have absolute := spelled.absolute
  cases listed : disk.children directory with
  | ok names =>
      obtain ⟨location, located, rfl⟩ := children_eq_ok_iff.mp listed
      have isDirectory := entry?_of_locate absolute located
      have locatedAfter := locate_without_of_ok holds absolute located
        (Tree.not_mem_of_directory holds isDirectory)
      have stays := not_mem_of_locate holds spelled elsewhere isThere located
      left
      rw [children_eq_ok_iff.mpr ⟨location, locatedAfter, rfl⟩]
      simp only [Except.map, any_children]
      rw [decide_eq_decide.mpr (mem_childNames_without holds isDirectory stays).symm]
      rfl
  | error fault =>
      cases listedAfter : (disk.without places).children directory with
      | ok names =>
          obtain ⟨location, located, -⟩ := children_eq_ok_iff.mp listedAfter
          have located := locate_of_without holds absolute located
          rw [children_eq_ok_iff.mpr ⟨location, located, rfl⟩] at listed
          contradiction
      | error otherFault =>
          exact .inr ⟨fault, otherFault, rfl, rfl, isSystem_of_children noNull listed,
            isSystem_of_children noNull listedAfter⟩

end

end

theorem listed_of_plain (plain : name.Plain) (spelled : directory.IsSpelled)
    (isThere : disk.pathExists (directory.join (Path.ofText name)) = .ok true) :
    ∃ listed, disk.children directory = .ok listed ∧
      listed.any (·.lastName == name) = true := by
  rw [Path.join_ofText_of_plain plain] at isThere
  obtain ⟨stop, found⟩ := exists_locate_of_leadsTo isThere
  obtain ⟨location, entry, located, present, -⟩ := locate_child spelled.absolute plain found
  refine ⟨_, children_eq_ok_iff.mpr ⟨location, located, rfl⟩, ?_⟩
  rw [any_children, decide_eq_true_iff]
  exact Tree.mem_childNames present

/-- A name that leads somewhere: the name with its case swapped is tried, and if it leads somewhere
too the listing decides. -/
def childBesideTwin (disk : Disk) (directory : Path) (name : Name) :
    Except Fault (Option Path) := do
  if !(← disk.pathExists (directory.join (Path.ofText (Text.swapCase name)))) then
    return some (directory.join (Path.ofText name))
  let listed ← disk.children directory
  return if listed.any (·.lastName == name) then some (directory.join (Path.ofText name)) else none

theorem childOf_eq_besideTwin (disk : Disk) (directory : Path) (name : Name) :
    disk.childOf directory name = (do
      if !(← disk.pathExists (directory.join (Path.ofText name))) then
        return none
      if Text.swapCase name = name then
        return some (directory.join (Path.ofText name))
      disk.childBesideTwin directory name) := rfl

theorem childOf_of_twin {location : Location} (differs : Text.swapCase name ≠ name)
    (located : disk.locate directory = .ok (location, .directory))
    (isThere : disk.pathExists (directory.join (Path.ofText name)) = .ok true)
    (twinThere : disk.pathExists (directory.join (Path.ofText (Text.swapCase name))) = .ok true)
    (unlisted : name ∉ disk.tree.childNames location) :
    disk.childOf directory name = .ok none := by
  rw [childOf_eq_besideTwin, childBesideTwin, isThere, twinThere,
    children_eq_ok_iff.mpr ⟨location, located, rfl⟩]
  simp only [ok_bind, Bool.not_true, Bool.false_eq_true, if_false, if_neg differs, any_children,
    decide_eq_true_eq, if_neg unlisted, pure_eq_ok]

theorem readFile_without (holds : disk.tree.HoldsFiles places) (absolute : path.isAbsolute = true)
    {stop : Location × Entry} (located : disk.locate path = .ok stop)
    (stays : stop.1 ∉ places) : (disk.without places).readFile path = disk.readFile path := by
  rw [readFile, readFile, locate_without_of_ok holds absolute located stays, located]

theorem pathExists_of_leadsInto (isInto : disk.leadsInto places path = true) :
    disk.pathExists path = .ok true := by
  obtain ⟨place, -, entry, located⟩ := leadsInto_iff.mp isInto
  rw [pathExists, leadsTo, located]

section

variable (holds : disk.tree.HoldsFiles places) (absoluteCurrent : disk.current.isAbsolute = true)
include holds absoluteCurrent

theorem entryPath_without (spelled : path.IsSpelled) :
    (disk.without places).entryPath path = disk.entryPath path := by
  have sameCurrent : (disk.without places).current = disk.current := rfl
  unfold entryPath
  rw [sameCurrent, Path.normalAbsolute_of_absolute spelled.absolute]
  dsimp only
  rw [resolve_without holds absoluteCurrent spelled.normal.parent]

theorem relativePath_without (spelled : path.IsSpelled) (spelledDirectory : directory.IsSpelled) :
    (disk.without places).relativePath path directory = disk.relativePath path directory := by
  unfold relativePath
  rw [entryPath_without holds absoluteCurrent spelled,
    resolve_without holds absoluteCurrent spelledDirectory]

theorem isAncestor_without (spelledDirectory : directory.IsSpelled) (spelled : path.IsSpelled) :
    (disk.without places).isAncestor directory path = disk.isAncestor directory path := by
  unfold isAncestor
  rw [entryPath_without holds absoluteCurrent spelled,
    resolve_without holds absoluteCurrent spelledDirectory]

omit absoluteCurrent

theorem isDirectory_without (absolute : path.isAbsolute = true) :
    (disk.without places).isDirectory path = disk.isDirectory path := by
  cases isInto : disk.leadsInto places path with
  | false => exact leadsTo_without holds absolute isInto _
  | true =>
      obtain ⟨place, isPlace, entry, located⟩ := leadsInto_iff.mp isInto
      obtain ⟨content, isFile⟩ := holds.files place isPlace
      obtain rfl : entry = .file content := by
        have present := entry?_of_locate absolute located
        exact Option.some.inj (present.symm.trans isFile)
      have notDirectory : disk.isDirectory path = .ok false := by
        rw [isDirectory, leadsTo, located]
        rfl
      rw [notDirectory]
      exact leadsTo_without_of_leadsInto holds absolute isInto _

end

section

variable (holds : disk.tree.HoldsFiles places) (spelled : directory.IsSpelled)
  (noNull : hasNull directory = false)
  (elsewhere : disk.leadsInto places (directory.join (Path.ofText name)) = false)
  (apart : name.Plain ∨
    disk.leadsInto places (directory.join (Path.ofText (Text.swapCase name))) = false)
include holds spelled noNull elsewhere apart

theorem childBesideTwin_without
    (isThere : disk.pathExists (directory.join (Path.ofText name)) = .ok true) :
    AlikeUpTo Fault.isSystem (disk.childBesideTwin directory name)
      ((disk.without places).childBesideTwin directory name) := by
  have absoluteTwin := (spelled.join_ofText (Text.swapCase name)).absolute
  unfold childBesideTwin
  cases isInto : disk.leadsInto places (directory.join (Path.ofText (Text.swapCase name))) with
  | true =>
      -- Before, the listing tells the two names apart; after, only one of them is there.
      obtain ⟨listed, isListed, among⟩ :=
        listed_of_plain (apart.resolve_right (by simp [isInto])) spelled isThere
      have twinAfter : (disk.without places).pathExists
          (directory.join (Path.ofText (Text.swapCase name))) = .ok false :=
        leadsTo_without_of_leadsInto holds absoluteTwin isInto _
      left
      rw [pathExists_of_leadsInto isInto, isListed, twinAfter]
      simpa using among
  | false =>
      have sameTwin : (disk.without places).pathExists
          (directory.join (Path.ofText (Text.swapCase name))) =
            disk.pathExists (directory.join (Path.ofText (Text.swapCase name))) :=
        leadsTo_without holds absoluteTwin isInto _
      rw [sameTwin]
      refine .bind (.refl _) fun twinThere _ => ?_
      cases twinThere with
      | false => exact .refl _
      | true =>
          have listed := listed_without holds spelled elsewhere isThere noNull
          exact listed.bind_map fun among =>
            pure (if among then some (directory.join (Path.ofText name)) else none)

/-- Looking for a name that does not lead to one of the files finds the same, unless the name with
its case swapped leads there and the listing cannot tell. -/
theorem childOf_without :
    AlikeUpTo Fault.isSystem (disk.childOf directory name)
      ((disk.without places).childOf directory name) := by
  have sameThere : (disk.without places).pathExists (directory.join (Path.ofText name)) =
      disk.pathExists (directory.join (Path.ofText name)) :=
    leadsTo_without holds (spelled.join_ofText name).absolute elsewhere _
  rw [childOf_eq_besideTwin, childOf_eq_besideTwin, sameThere]
  refine .bind (.refl _) fun isThere seen => ?_
  cases isThere with
  | false => exact .refl _
  | true =>
      by_cases sameCase : Text.swapCase name = name
      · simp only [sameCase]
        exact .refl _
      · simp only [sameCase, if_false]
        exact childBesideTwin_without holds spelled noNull elsewhere apart seen

end

end Disk

namespace Workspace

variable {workspace : Workspace} {places : List Location} {directory found : Path}

/-- The workspace with nothing made to fail. -/
def calm (workspace : Workspace) : Workspace :=
  { workspace with outages := Outages.none }

/-- The workspace with what stands at some places taken away. -/
def without (workspace : Workspace) (places : List Location) : Workspace :=
  { workspace with disk := workspace.disk.without places }

def ignoreFileSought (workspace : Workspace) (directory : Path) : Except Fault (Option Path) := do
  match ← OutageKind.unless (workspace.outages.findChild directory)
      (workspace.disk.childOf directory workspace.ignoreFilename) with
  | none => return none
  | some found => return if ← workspace.directoryFlag found then none else some found

theorem ignoreFileOf_eq_sought (directory : Path) :
    workspace.ignoreFileOf directory =
      forgive Fault.isSystem none (workspace.ignoreFileSought directory) := rfl

section

variable (holds : workspace.disk.tree.HoldsFiles places) (spelled : directory.IsSpelled)
include holds spelled

theorem fileIn_without_of_leadsInto
    (isInto : workspace.disk.leadsInto places (workspace.ignoreFilePath directory) = true) :
    (workspace.calm.without places).fileIn directory = .ok none := by
  have absent : (workspace.calm.without places).disk.childOf directory
      (workspace.calm.without places).ignoreFilename = .ok none :=
    Disk.childOf_without_of_leadsInto holds spelled isInto
  have sought : (workspace.calm.without places).ignoreFileSought directory = .ok none := by
    unfold ignoreFileSought
    rw [absent]
    rfl
  unfold fileIn
  rw [ignoreFileOf_eq_sought, sought]
  rfl

variable (elsewhere : workspace.disk.leadsInto places (workspace.ignoreFilePath directory) = false)
include elsewhere

theorem ignoreFileOf_without (noNull : Disk.hasNull directory = false)
    (apart : workspace.ignoreFilename.Plain ∨ workspace.disk.leadsInto places
      (directory.join (Path.ofText (Text.swapCase workspace.ignoreFilename))) = false) :
    (workspace.without places).ignoreFileOf directory = workspace.ignoreFileOf directory := by
  have found := Disk.childOf_without holds spelled noNull elsewhere apart
  rw [ignoreFileOf_eq_sought, ignoreFileOf_eq_sought]
  refine (AlikeUpTo.forgive_eq ?_ none).symm
  refine .bind (found.unless _) fun child? looked => ?_
  cases child? with
  | none => exact .refl _
  | some child =>
      obtain rfl := eq_join_of_childOf (eq_of_unless looked)
      have sameFlag : (workspace.without places).directoryFlag
          (directory.join (Path.ofText workspace.ignoreFilename)) =
            workspace.directoryFlag (directory.join (Path.ofText workspace.ignoreFilename)) :=
        congrArg _ (Disk.leadsTo_without holds (spelled.join_ofText _).absolute elsewhere _)
      dsimp only
      rw [sameFlag]
      exact .refl _

theorem fileAt_without (looked : workspace.ignoreFileOf directory = .ok (some found)) :
    (workspace.without places).fileAt found = workspace.fileAt found := by
  have isChild := childOf_of_ignoreFileOf looked
  obtain ⟨stop, located⟩ := Disk.exists_locate_of_leadsTo (pathExists_of_childOf isChild)
  obtain rfl := eq_join_of_childOf isChild
  have stays : stop.1 ∉ places := by
    simpa [Disk.leadsInto, ignoreFilePath, located] using elsewhere
  have sameFile := Disk.readFile_without holds (spelled.join_ofText _).absolute located stays
  rw [fileAt, fileAt, textOf, textOf, without, sameFile]

theorem fileIn_without (noNull : Disk.hasNull directory = false)
    (apart : workspace.ignoreFilename.Plain ∨ workspace.disk.leadsInto places
      (directory.join (Path.ofText (Text.swapCase workspace.ignoreFilename))) = false) :
    (workspace.without places).fileIn directory = workspace.fileIn directory := by
  have sameSought := ignoreFileOf_without holds spelled elsewhere noNull apart
  rw [fileIn, fileIn, sameSought]
  cases looked : workspace.ignoreFileOf directory with
  | error fault => rw [error_bind, error_bind]
  | ok found? =>
      rw [ok_bind, ok_bind]
      cases found? with
      | none => rfl
      | some found => exact fileAt_without holds spelled elsewhere looked

end

end Workspace

end IgnoreRules
