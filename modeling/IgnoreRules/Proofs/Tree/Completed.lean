import IgnoreRules.Proofs.Tree.Joined
import IgnoreRules.Proofs.Tree.Reached

/-!
Resolutions that come to their end.  A relative path that is resolved to the end is so behind the
current directory too: what other links are being replaced then, and how the way is written, keeps
no link from being followed that has been followed before.
-/

namespace IgnoreRules

namespace Disk

variable {disk : Disk} {underway : List Path} {here path stop : Path} {location : Location}
  {names : List Name} {depth limit : Nat}

/-- From a location, however it is written, names are resolved to the end with links nested to a
depth. -/
def Completes (disk : Disk) (depth : Nat) (location : Location) (names : List Name) : Prop :=
  ∃ underway here stop, Path.normalAbsolute disk.current here = ⟨.root, location⟩ ∧
    disk.resolveWith (disk.followAt depth) underway here names = .ok ⟨stop, true⟩

/-- No link that is being replaced is resolved to the end at a smaller depth. -/
def Outlasts (disk : Disk) (depth : Nat) (underway : List Path) : Prop :=
  ∀ link ∈ underway, ∀ target, disk.tree.link? link.names = some target →
    ∀ less, disk.Completes less (Tree.startOf link.names.dropLast target)
      (Path.components target) → depth ≤ less

theorem Completes.exists_least (completes : disk.Completes depth location names) :
    ∃ most, most ≤ depth ∧ disk.Completes most location names ∧
      ∀ less, disk.Completes less location names → most ≤ less := by
  classical
  have somehow : ∃ less, disk.Completes less location names := ⟨depth, completes⟩
  exact ⟨Nat.find somehow, Nat.find_min' somehow completes, Nat.find_spec somehow,
    fun less further => Nat.find_min' somehow further⟩

theorem Outlasts.cons {name : Name} {target : List Char} {most : Nat}
    (outlasts : disk.Outlasts depth underway) (bound : most ≤ depth)
    (isLink : disk.tree.link? (location ++ [name]) = some target)
    (least : ∀ less, disk.Completes less (Tree.startOf location target)
      (Path.components target) → most ≤ less) :
    disk.Outlasts most (Path.child ⟨.root, location⟩ name :: underway) := by
  rw [Outlasts, List.forall_mem_cons]
  constructor
  · intro other isOther
    obtain rfl : target = other := Option.some.inj (isLink.symm.trans isOther)
    simpa [Path.child] using least
  · intro link present other isOther less completes
    exact bound.trans (outlasts link present other isOther less completes)

theorem Outlasts.not_mem {name : Name} {target : List Char} {less : Nat}
    (outlasts : disk.Outlasts depth underway) (smaller : less < depth)
    (isLink : disk.tree.link? (location ++ [name]) = some target)
    (completes : disk.Completes less (Tree.startOf location target) (Path.components target)) :
    Path.child ⟨.root, location⟩ name ∉ underway := by
  intro present
  have tooDeep := outlasts _ present target isLink less (by simpa [Path.child] using completes)
  omega

theorem normalAbsolute_start
    (same : Path.normalAbsolute disk.current here = ⟨.root, location⟩) (target : List Char) :
    Path.normalAbsolute disk.current
        (if Anchor.ofText target = .relative then here else ⟨.root, []⟩) =
      ⟨.root, Tree.startOf location target⟩ := by
  unfold Tree.startOf
  split
  · exact same
  · exact (isReal_root disk).normalAbsolute_eq_self disk.current

variable (realCurrent : disk.IsReal disk.current)
include realCurrent

/-- What is resolved to the end in one way is resolved to the end from its real place, whatever
links are being replaced, as long as none of them leads there at a smaller depth. -/
theorem resolveWith_of_completes (completes : disk.Completes depth location names)
    (real : disk.IsReal ⟨.root, location⟩) (hasRoom : disk.HasRoom limit underway)
    (outlasts : disk.Outlasts depth underway) (noSlash : ∀ name ∈ names, '/' ∉ name) :
    ∃ stop, disk.resolveWith (disk.followAt limit) underway ⟨.root, location⟩ names =
      .ok ⟨stop, true⟩ := by
  -- Following a link makes the depth smaller, and everything else makes the names fewer.
  induction depth using Nat.strong_induction_on generalizing location names limit underway with
  | _ depth shallower =>
  induction names generalizing location with
  | nil => exact ⟨_, rfl⟩
  | cons name names inductionHypothesis =>
      rw [List.forall_mem_cons] at noSlash
      obtain ⟨others, here, stop, same, resolved⟩ := completes
      obtain ⟨next, step, resolvedNext⟩ := exists_step_of_resolveWith resolved
      have sameHere : Path.normalAbsolute disk.current here =
          Path.normalAbsolute disk.current ⟨.root, location⟩ :=
        same.trans (real.normalAbsolute_eq_self disk.current).symm
      cases step with
      | stay skipped =>
          rw [resolveWith_cons_of_skipped skipped]
          exact inductionHypothesis ⟨others, here, stop, same, resolvedNext⟩ real noSlash.2
      | up =>
          rw [resolveWith_cons_above, real.up_eq_parent]
          refine inductionHypothesis ⟨others, _, stop, ?_, resolvedNext⟩ real.parent noSlash.2
          rw [normalAbsolute_up realCurrent.isAbsolute, same]
          rfl
      | down named notAbove noNull noLink =>
          have plain : name.Plain :=
            ((Name.kinds noSlash.1).resolve_left named).resolve_left notAbove
          rw [linkAt?_child_of_same notAbove sameHere] at noLink
          have isNoLink := (real.linkAt?_child notAbove).symm.trans noLink
          rw [resolveWith_of_step (.down named notAbove noNull noLink)]
          refine inductionHypothesis ⟨others, _, stop, ?_, resolvedNext⟩
            (real.child plain noNull isNoLink) noSlash.2
          rw [Path.normalAbsolute_child notAbove, same]
          rfl
      | @along _ target _ named notAbove noNull isLink _ followed =>
          rw [linkAt?_child_of_same notAbove sameHere] at isLink
          have isLinkHere : disk.tree.link? (location ++ [name]) = some target :=
            (real.linkAt?_child notAbove).symm.trans isLink
          cases depth with
          | zero => simp [followAt] at followed
          | succ depth =>
          rw [followAt, resolveText_eq_resolveWith] at followed
          have sameStart := normalAbsolute_start same target
          have followable : disk.Completes depth (Tree.startOf location target)
              (Path.components target) := ⟨_, _, next, sameStart, followed⟩
          obtain ⟨most, bound, shortest, least⟩ := followable.exists_least
          have fresh := outlasts.not_mem (Nat.lt_succ_of_le bound) isLinkHere shortest
          obtain ⟨room, rfl, hasRoomNext⟩ :=
            hasRoom.cons fresh rfl (by simp [Path.child, isLinkHere])
          have realStart := isReal_startOf real target
          obtain ⟨end', complete⟩ := shallower most (by omega) shortest realStart hasRoomNext
            (outlasts.cons (by omega) isLinkHere least)
            (fun _ present => Path.noSlash_of_mem_components present)
          have sameEnd : Path.normalAbsolute disk.current next =
              Path.normalAbsolute disk.current end' := by
            refine resolveWith_complete_unique realCurrent.isAbsolute ?_ followed complete
            rw [sameStart, realStart.normalAbsolute_eq_self]
          rw [← followAt_succ] at complete
          have realEnd : disk.IsReal end' := (goesOn_isReal disk).followAt real complete
          rw [resolveWith_of_step (.along named notAbove noNull isLink fresh complete)]
          obtain ⟨anchor, endNames⟩ := end'
          obtain rfl : anchor = .root := realEnd.anchored
          refine inductionHypothesis ⟨others, next, stop, ?_, resolvedNext⟩ realEnd noSlash.2
          rw [sameEnd, realEnd.normalAbsolute_eq_self]

omit realCurrent in
theorem mk_root_names (real : disk.IsReal path) : ⟨.root, path.names⟩ = path := by
  rw [← real.anchored]

theorem resolveWith_current_names :
    disk.resolveWith (disk.followAt disk.greatestDepth) [] ⟨.root, []⟩ disk.current.names =
      .ok ⟨disk.current, true⟩ := by
  have isCurrent : disk.current = ⟨.root, disk.current.names⟩ := (mk_root_names realCurrent).symm
  rw [isCurrent]
  exact resolveWith_of_isReal (isCurrent ▸ realCurrent)

/-- A relative path that is resolved to the end is resolved to the same place behind the current
directory, and to the end there too. -/
theorem exists_complete_join_current (isRelative : path.anchor = .relative)
    (proper : path.HasProperNames)
    (complete : disk.resolveText disk.greatestDepth [] ⟨.relative, []⟩ path.text =
      .ok ⟨stop, true⟩) :
    disk.resolveWith (disk.followAt disk.greatestDepth) [] ⟨.root, []⟩
        (disk.current.join path).names =
      .ok ⟨Path.normalAbsolute disk.current stop, true⟩ := by
  rw [resolveText_text_of_relative isRelative proper] at complete
  have isCurrent := mk_root_names realCurrent
  have start : Path.normalAbsolute disk.current ⟨.relative, []⟩ = ⟨.root, disk.current.names⟩ := by
    rw [normalAbsolute_nil realCurrent, isCurrent]
  have properJoined : ∀ name ∈ disk.current.names ++ path.names, name.Proper := by
    intro name present
    rcases List.mem_append.mp present with inCurrent | inPath
    · exact realCurrent.isSpelled.proper name inCurrent
    · exact proper name inPath
  obtain ⟨second, completeToo⟩ := resolveWith_of_completes realCurrent
    ⟨[], _, stop, start, complete⟩ (isCurrent ▸ realCurrent) (hasRoom_nil disk)
    (fun _ absent => by contradiction) fun name present => (proper name present).noSlash
  have joined : (disk.current.join path).names = disk.current.names ++ path.names := by
    rw [Path.join, isRelative]
  rw [isCurrent] at completeToo
  rw [joined, resolveWith_append properJoined, resolveWith_current_names realCurrent]
  dsimp only
  rw [completeToo]
  have real : disk.IsReal second :=
    (goesOn_isReal disk).resolveWith
      (fun _ _ _ _ realNext followed => (goesOn_isReal disk).followAt realNext followed)
      (fun name present => (proper name present).noSlash) realCurrent completeToo
  have sameEnd : Path.normalAbsolute disk.current stop =
      Path.normalAbsolute disk.current second := by
    refine resolveWith_complete_unique realCurrent.isAbsolute ?_ complete completeToo
    rw [normalAbsolute_nil realCurrent, realCurrent.normalAbsolute_eq_self]
  rw [sameEnd, real.normalAbsolute_eq_self]

theorem resolve_join_current_of_complete (isRelative : path.anchor = .relative)
    (proper : path.HasProperNames)
    (complete : disk.resolveText disk.greatestDepth [] ⟨.relative, []⟩ path.text =
      .ok ⟨stop, true⟩) :
    disk.resolve (disk.current.join path) = disk.resolve path := by
  have absolute : (disk.current.join path).isAbsolute = true :=
    Path.isAbsolute_absolute realCurrent.isAbsolute path
  have spelled : (disk.current.join path).IsSpelled := by
    refine ⟨absolute, fun name present => ?_⟩
    rcases Path.mem_names_join present with inCurrent | inPath
    · exact realCurrent.isSpelled.proper name inCurrent
    · exact proper name inPath
  have completeJoined := exists_complete_join_current realCurrent isRelative proper complete
  rw [(resolve_of_resolveWith spelled completeJoined).1,
    (resolve_of_complete realCurrent complete).1]

theorem resolve_join_current (acyclic : disk.FreeOfCircles)
    (holdsNoNull : disk.tree.LinksHoldNoNull) (isRelative : path.anchor = .relative)
    (proper : path.HasProperNames) (noNull : ∀ name ∈ path.names, name.NoNull) :
    disk.resolve (disk.current.join path) = disk.resolve path := by
  obtain ⟨stop, complete⟩ := exists_complete acyclic holdsNoNull proper noNull
  exact resolve_join_current_of_complete realCurrent isRelative proper complete

end Disk

end IgnoreRules
