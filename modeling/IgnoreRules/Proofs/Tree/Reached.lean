import IgnoreRules.Proofs.Tree.Circle
import IgnoreRules.Proofs.Tree.Straight
import Mathlib.Data.List.Nodup
import Mathlib.Data.List.Perm.Subperm
import Mathlib.Data.Nat.Find

/-!
What is reached has a real path.  A walk that comes to an end replaces no link while it is being
replaced, so resolving the same names meets no circle, whatever circles there are elsewhere.
-/

namespace IgnoreRules

namespace Tree

def startOf (here : Location) (target : List Char) : Location :=
  if Anchor.ofText target = .relative then here else []

/-- Names lead from one directory to another, with links nested to a depth. -/
inductive Arrives (tree : Tree) : Nat → Location → List Name → Location → Prop where
  | stop {depth : Nat} {here : Location} : Arrives tree depth here [] here
  | stay {depth : Nat} {here stop : Location} {name : Name} {names : List Name}
      (skipped : name = [] ∨ name = Name.here) (further : Arrives tree depth here names stop) :
      Arrives tree depth here (name :: names) stop
  | up {depth : Nat} {here stop : Location} {names : List Name}
      (further : Arrives tree depth here.dropLast names stop) :
      Arrives tree depth here (Name.above :: names) stop
  | down {depth : Nat} {here stop : Location} {name : Name} {names : List Name}
      (plain : name.Plain) (directory : tree.entry? (here ++ [name]) = some .directory)
      (further : Arrives tree depth (here ++ [name]) names stop) :
      Arrives tree depth here (name :: names) stop
  | along {depth : Nat} {here middle stop : Location} {name : Name} {names : List Name}
      {target : List Char} (plain : name.Plain)
      (isLink : tree.entry? (here ++ [name]) = some (.link target))
      (followed : Arrives tree depth (startOf here target) (Path.components target) middle)
      (further : Arrives tree (depth + 1) middle names stop) :
      Arrives tree (depth + 1) here (name :: names) stop

variable {tree : Tree} {here stop : Location} {front rest names : List Name} {depth : Nat}

namespace Arrives

theorem mono {more : Nat} (arrives : tree.Arrives depth here names stop) (bound : depth ≤ more) :
    tree.Arrives more here names stop := by
  induction arrives generalizing more with
  | stop => exact .stop
  | stay skipped _ further => exact .stay skipped (further bound)
  | up _ further => exact .up (further bound)
  | down plain directory _ further => exact .down plain directory (further bound)
  | along plain isLink _ _ followed further =>
      obtain ⟨less, rfl⟩ := Nat.exists_eq_add_of_le' (Nat.le_of_add_left_le bound)
      exact .along plain isLink (followed (Nat.le_of_succ_le_succ bound)) (further bound)

theorem exists_middle (arrives : tree.Arrives depth here (front ++ rest) stop) :
    ∃ middle, tree.Arrives depth here front middle ∧ tree.Arrives depth middle rest stop := by
  induction front generalizing here with
  | nil => exact ⟨here, .stop, arrives⟩
  | cons name front inductionHypothesis =>
      cases arrives with
      | stay skipped further =>
          obtain ⟨middle, before, after⟩ := inductionHypothesis further
          exact ⟨middle, .stay skipped before, after⟩
      | up further =>
          obtain ⟨middle, before, after⟩ := inductionHypothesis further
          exact ⟨middle, .up before, after⟩
      | down plain directory further =>
          obtain ⟨middle, before, after⟩ := inductionHypothesis further
          exact ⟨middle, .down plain directory before, after⟩
      | along plain isLink followed further =>
          obtain ⟨middle, before, after⟩ := inductionHypothesis further
          exact ⟨middle, .along plain isLink followed before, after⟩

theorem unique {otherDepth : Nat} {otherStop : Location}
    (arrives : tree.Arrives depth here names stop)
    (other : tree.Arrives otherDepth here names otherStop) : otherStop = stop := by
  induction arrives generalizing otherDepth otherStop with
  | stop =>
      cases other
      rfl
  | stay skipped _ further =>
      cases other with
      | stay _ otherFurther => exact further otherFurther
      | up => simp [Name.above, Name.here] at skipped
      | down plain => exact absurd skipped plain.named
      | along plain => exact absurd skipped plain.named
  | up _ further =>
      cases other with
      | stay skipped => simp [Name.above, Name.here] at skipped
      | up otherFurther => exact further otherFurther
      | down plain => exact absurd rfl plain.notAbove
      | along plain => exact absurd rfl plain.notAbove
  | down plain directory _ further =>
      cases other with
      | stay skipped => exact absurd skipped plain.named
      | up => exact absurd rfl plain.notAbove
      | down _ _ otherFurther => exact further otherFurther
      | along _ isLink => simp [directory] at isLink
  | along plain isLink _ _ followed further =>
      cases other with
      | stay skipped => exact absurd skipped plain.named
      | up => exact absurd rfl plain.notAbove
      | down _ directory => simp [directory] at isLink
      | along _ otherIsLink otherFollowed otherFurther =>
          rw [isLink, Option.some.injEq, Entry.link.injEq] at otherIsLink
          subst otherIsLink
          obtain rfl := followed otherFollowed
          exact further otherFurther

end Arrives

theorem Arrives.exists_least (arrives : tree.Arrives depth here names stop) :
    ∃ most, most ≤ depth ∧ tree.Arrives most here names stop ∧
      ∀ less middle, tree.Arrives less here names middle → most ≤ less := by
  classical
  have somehow : ∃ less middle, tree.Arrives less here names middle := ⟨depth, stop, arrives⟩
  obtain ⟨middle, shortest⟩ := Nat.find_spec somehow
  obtain rfl : stop = middle := shortest.unique arrives
  exact ⟨Nat.find somehow, Nat.find_min' somehow ⟨stop, arrives⟩, shortest,
    fun less other further => Nat.find_min' somehow ⟨other, further⟩⟩

theorem arrives_of_walkWith
    {follow : Location → List Name → Except TreeError (Location × Entry)}
    (followArrives : ∀ here names, (∀ name ∈ names, '/' ∉ name) →
      follow here names = .ok (stop, .directory) →
        ∃ less, depth = less + 1 ∧ tree.Arrives less here names stop)
    (noSlash : ∀ name ∈ names, '/' ∉ name)
    (walked : tree.walkWith follow here names = .ok (stop, .directory)) :
    tree.Arrives depth here names stop := by
  induction names generalizing here with
  | nil =>
      cases walked
      exact .stop
  | cons name names inductionHypothesis =>
      rw [List.forall_mem_cons] at noSlash
      rcases Name.kinds noSlash.1 with skipped | rfl | plain
      · rw [walkWith, if_pos skipped] at walked
        exact .stay skipped (inductionHypothesis noSlash.2 walked)
      · rw [walkWith, if_neg (by decide), if_pos rfl] at walked
        exact .up (inductionHypothesis noSlash.2 walked)
      · rw [walkWith_cons_of_plain plain] at walked
        split at walked
        next => contradiction
        next =>
          split at walked
          next => contradiction
          next directory => exact .down plain directory (inductionHypothesis noSlash.2 walked)
          next => split at walked <;> simp at walked
          next target isLink =>
            have noSlashAll : ∀ name ∈ Path.components target ++ names, '/' ∉ name := by
              intro other present
              rcases List.mem_append.mp present with inTarget | inNames
              · exact Path.noSlash_of_mem_components inTarget
              · exact noSlash.2 other inNames
            obtain ⟨less, rfl, arrives⟩ := followArrives _ _ noSlashAll walked
            obtain ⟨middle, followed, further⟩ := arrives.exists_middle
            exact .along plain isLink followed (further.mono (Nat.le_succ less))

theorem arrives_of_walk {links : Nat} (noSlash : ∀ name ∈ names, '/' ∉ name)
    (walked : tree.walk links here names = .ok (stop, .directory)) :
    tree.Arrives links here names stop := by
  induction links generalizing here names with
  | zero => exact arrives_of_walkWith (fun _ _ _ stuck => by contradiction) noSlash walked
  | succ links inductionHypothesis =>
      refine arrives_of_walkWith (fun here names noSlashNext further => ?_) noSlash walked
      exact ⟨links, rfl, inductionHypothesis noSlashNext further⟩

theorem length_le_linkCount {locations : List Location} (distinct : locations.Nodup)
    (areLinks : ∀ location ∈ locations, (tree.link? location).isSome) :
    locations.length ≤ tree.linkCount := by
  have counted : tree.linkCount = _ := List.countP_eq_length_filter
  rw [counted, ← List.length_map Prod.fst]
  apply List.Subperm.length_le
  refine distinct.subperm fun location present => ?_
  obtain ⟨target, isLink⟩ := Option.isSome_iff_exists.mp (areLinks location present)
  rw [List.mem_map]
  exact ⟨(location, .link target), List.mem_filter.mpr ⟨mem_mentions_of_link? isLink, rfl⟩, rfl⟩

end Tree

namespace Disk

variable {disk : Disk} {underway : List Path} {here stop : Location} {names : List Name}
  {depth limit : Nat} {path : Path}

/-- Links that are being replaced, with room for all the others of the tree to be followed. -/
structure HasRoom (disk : Disk) (limit : Nat) (underway : List Path) : Prop where
  distinct : underway.Nodup
  anchored : ∀ link ∈ underway, link.anchor = .root
  links : ∀ link ∈ underway, (disk.tree.link? link.names).isSome
  room : disk.tree.linkCount < underway.length + limit

theorem hasRoom_nil (disk : Disk) : disk.HasRoom disk.greatestDepth [] where
  distinct := List.nodup_nil
  anchored := by simp
  links := by simp
  room := by
    rw [List.length_nil, greatestDepth]
    omega

namespace HasRoom

theorem length_le (hasRoom : disk.HasRoom limit underway) :
    underway.length ≤ disk.tree.linkCount := by
  rw [← List.length_map Path.names]
  refine Tree.length_le_linkCount ?_ fun location present => ?_
  · refine List.Nodup.map_on (fun link present other otherPresent same => ?_) hasRoom.distinct
    rw [Path.mk.injEq]
    exact ⟨(hasRoom.anchored link present).trans (hasRoom.anchored other otherPresent).symm, same⟩
  · obtain ⟨link, isIn, rfl⟩ := List.mem_map.mp present
    exact hasRoom.links link isIn

theorem cons {link : Path} (hasRoom : disk.HasRoom limit underway) (fresh : link ∉ underway)
    (anchored : link.anchor = .root) (isLink : (disk.tree.link? link.names).isSome) :
    ∃ further, limit = further + 1 ∧ disk.HasRoom further (link :: underway) := by
  have more (rest : Nat) (room : disk.tree.linkCount < (link :: underway).length + rest) :
      disk.HasRoom rest (link :: underway) :=
    ⟨List.nodup_cons.mpr ⟨fresh, hasRoom.distinct⟩,
      List.forall_mem_cons.mpr ⟨anchored, hasRoom.anchored⟩,
      List.forall_mem_cons.mpr ⟨isLink, hasRoom.links⟩, room⟩
  -- With the new link there are still no more than the tree has, so following is not used up.
  have bounded := (more (disk.tree.linkCount + 1) (by omega)).length_le
  have room := hasRoom.room
  rw [List.length_cons] at bounded
  obtain ⟨further, rfl⟩ : ∃ further, limit = further + 1 := ⟨limit - 1, by omega⟩
  refine ⟨further, rfl, more further ?_⟩
  rw [List.length_cons]
  omega

end HasRoom

theorem followAt_succ (limit : Nat) (underway : List Path) (here : Location)
    (target : List Char) :
    disk.followAt (limit + 1) underway ⟨.root, here⟩ target =
      disk.resolveWith (disk.followAt limit) underway ⟨.root, Tree.startOf here target⟩
        (Path.components target) := by
  rw [followAt, resolveText_eq_resolveWith, Tree.startOf]
  split <;> rfl

theorem isReal_startOf (real : disk.IsReal ⟨.root, here⟩) (target : List Char) :
    disk.IsReal ⟨.root, Tree.startOf here target⟩ := by
  unfold Tree.startOf
  split
  · exact real
  · exact isReal_root disk

/-- What a path resolves to depends on nothing but the links, as long as there is room for them. -/
theorem resolveWith_of_sameLinks {other : Disk} {here : Path} {otherLimit : Nat}
    (sameLinks : ∀ location, other.tree.link? location = disk.tree.link? location)
    (real : disk.IsReal here) (noSlash : ∀ name ∈ names, '/' ∉ name)
    (hasRoom : disk.HasRoom limit underway) (otherRoom : other.HasRoom otherLimit underway) :
    other.resolveWith (other.followAt otherLimit) underway here names =
      disk.resolveWith (disk.followAt limit) underway here names := by
  -- Following a link makes the limit smaller, and everything else makes the names fewer.
  induction limit using Nat.strong_induction_on generalizing otherLimit underway here names with
  | _ limit smaller =>
  induction names generalizing here with
  | nil => rfl
  | cons name names inductionHypothesis =>
      rw [List.forall_mem_cons] at noSlash
      rcases Name.kinds noSlash.1 with skipped | rfl | plain
      · rw [resolveWith_cons_of_skipped skipped, resolveWith_cons_of_skipped skipped]
        exact inductionHypothesis real noSlash.2
      · rw [resolveWith_cons_above, resolveWith_cons_above, real.up_eq_parent]
        exact inductionHypothesis real.parent noSlash.2
      · obtain ⟨anchor, location⟩ := here
        obtain rfl : anchor = .root := real.anchored
        have otherReal : other.IsReal ⟨.root, location⟩ :=
          ⟨rfl, real.plain, real.noNull,
            fun front inFront => (sameLinks front).trans (real.linkFree front inFront)⟩
        rw [resolveWith_cons_of_named plain.named plain.notAbove,
          resolveWith_cons_of_named plain.named plain.notAbove,
          otherReal.linkAt?_child plain.notAbove, real.linkAt?_child plain.notAbove, sameLinks]
        split
        next => rfl
        next noNull =>
          cases isLink : disk.tree.link? (location ++ [name]) with
          | none =>
              have realThere := real.child plain (by simpa [Name.NoNull] using noNull) isLink
              exact inductionHypothesis realThere noSlash.2
          | some target =>
              dsimp only
              split
              next => rfl
              next fresh =>
                obtain ⟨room, rfl, hasRoomNext⟩ :=
                  hasRoom.cons fresh rfl (by simp [Path.child, isLink])
                obtain ⟨otherRoomLeft, rfl, otherRoomNext⟩ :=
                  otherRoom.cons fresh rfl (by simp [Path.child, sameLinks, isLink])
                have noSlashTarget : ∀ name ∈ Path.components target, '/' ∉ name :=
                  fun _ present => Path.noSlash_of_mem_components present
                have sameEnd := smaller room (by omega) (isReal_startOf real target) noSlashTarget
                  hasRoomNext otherRoomNext
                rw [← followAt_succ, ← followAt_succ] at sameEnd
                rw [sameEnd]
                split
                next => rfl
                next next followed =>
                  exact inductionHypothesis ((goesOn_isReal disk).followAt real followed)
                    noSlash.2
                next => rfl

/-- No link that is being replaced leads anywhere at a smaller depth. -/
def TakesDepth (disk : Disk) (depth : Nat) (underway : List Path) : Prop :=
  ∀ link ∈ underway, ∀ target, disk.tree.link? link.names = some target →
    ∀ less middle, disk.tree.Arrives less (Tree.startOf link.names.dropLast target)
      (Path.components target) middle → depth ≤ less

theorem TakesDepth.cons {name : Name} {target : List Char} {most : Nat}
    (takesDepth : disk.TakesDepth depth underway) (bound : most ≤ depth)
    (isLink : disk.tree.link? (here ++ [name]) = some target)
    (least : ∀ less middle, disk.tree.Arrives less (Tree.startOf here target)
      (Path.components target) middle → most ≤ less) :
    disk.TakesDepth most (Path.child ⟨.root, here⟩ name :: underway) := by
  rw [TakesDepth, List.forall_mem_cons]
  constructor
  · intro other isOther
    obtain rfl : target = other := Option.some.inj (isLink.symm.trans isOther)
    simpa [Path.child] using least
  · intro link present other isOther less middle arrives
    exact bound.trans (takesDepth link present other isOther less middle arrives)

theorem TakesDepth.not_mem {name : Name} {target : List Char} {less : Nat} {middle : Location}
    (takesDepth : disk.TakesDepth depth underway) (smaller : less < depth)
    (isLink : disk.tree.link? (here ++ [name]) = some target)
    (followed : disk.tree.Arrives less (Tree.startOf here target) (Path.components target)
      middle) : Path.child ⟨.root, here⟩ name ∉ underway := by
  intro present
  have tooDeep := takesDepth _ present target isLink less middle
    (by simpa [Path.child] using followed)
  omega

/-- Names that are walked to an end are resolved to the same end, unless a link holds a null
character. -/
theorem resolveWith_of_arrives (arrives : disk.tree.Arrives depth here names stop)
    (real : disk.IsReal ⟨.root, here⟩) (hasRoom : disk.HasRoom limit underway)
    (takesDepth : disk.TakesDepth depth underway) :
    disk.resolveWith (disk.followAt limit) underway ⟨.root, here⟩ names =
        .error .nullCharacter ∨
      disk.resolveWith (disk.followAt limit) underway ⟨.root, here⟩ names =
        .ok ⟨⟨.root, stop⟩, true⟩ := by
  -- Following a link makes the depth smaller, and everything else makes the names fewer.
  induction depth using Nat.strong_induction_on generalizing here names stop limit underway with
  | _ depth shallower =>
  induction names generalizing here with
  | nil =>
      cases arrives
      exact .inr rfl
  | cons name names inductionHypothesis =>
      cases arrives with
      | stay skipped further =>
          rw [resolveWith_cons_of_skipped skipped]
          exact inductionHypothesis further real
      | up further =>
          rw [resolveWith_cons_above, real.up_eq_parent]
          exact inductionHypothesis further real.parent
      | down plain directory further =>
          by_cases noNull : name.NoNull
          · have noLink : disk.tree.link? (here ++ [name]) = none := by
              simp [Tree.link?, directory]
            rw [resolveWith_of_step (.down plain.named plain.notAbove noNull
              ((real.linkAt?_child plain.notAbove).trans noLink))]
            exact inductionHypothesis further (real.child plain noNull noLink)
          · exact .inl (resolveWith_cons_of_null plain.named plain.notAbove noNull)
      | @along depth _ middle _ _ _ target plain isLink followed further =>
          by_cases noNull : name.NoNull
          · have isLinkHere : disk.tree.link? (here ++ [name]) = some target := by
              simp [Tree.link?, isLink]
            have isLinkAt : disk.linkAt? (Path.child ⟨.root, here⟩ name) = some target :=
              (real.linkAt?_child plain.notAbove).trans isLinkHere
            obtain ⟨most, bound, shortest, least⟩ := followed.exists_least
            have fresh := takesDepth.not_mem (Nat.lt_succ_of_le bound) isLinkHere shortest
            obtain ⟨room, rfl, hasRoomNext⟩ :=
              hasRoom.cons fresh rfl (by simp [Path.child, isLinkHere])
            have takesDepthNext := takesDepth.cons (by omega) isLinkHere least
            rcases shallower most (by omega) shortest (isReal_startOf real target) hasRoomNext
              takesDepthNext with null | complete
            · left
              rw [← followAt_succ] at null
              exact resolveWith_cons_of_broken plain.named plain.notAbove noNull isLinkAt fresh
                null
            · rw [← followAt_succ] at complete
              rw [resolveWith_of_step
                (.along plain.named plain.notAbove noNull isLinkAt fresh complete)]
              exact inductionHypothesis further ((goesOn_isReal disk).followAt real complete)
          · exact .inl (resolveWith_cons_of_null plain.named plain.notAbove noNull)

theorem isCircleFree_parent_of_locate {found : Location × Entry} (spelled : path.IsSpelled)
    (located : disk.locate path = .ok found) : disk.IsCircleFree path.parent := by
  have walked := ((locate_ok_iff spelled.absolute).mp located).2
  obtain ⟨stop, arrives⟩ : ∃ stop,
      disk.tree.Arrives Tree.greatestLinkCount [] path.parent.names stop := by
    rcases List.eq_nil_or_concat path.names with atTop | ⟨before, last, split⟩
    · refine ⟨[], ?_⟩
      rw [Path.parent, atTop]
      exact .stop
    · rw [split, List.concat_eq_append] at walked
      obtain ⟨middle, -, reached, -⟩ := Tree.exists_directory_of_walk_append (by simp) walked
      refine ⟨middle, ?_⟩
      rw [Path.parent, split, List.concat_eq_append, List.dropLast_concat]
      refine Tree.arrives_of_walk (fun name present => ?_) reached
      exact (spelled.proper name (by simp [split, present])).noSlash
  rw [isCircleFree_iff]
  rcases resolveWith_of_arrives arrives (isReal_root disk) (hasRoom_nil disk)
    (fun _ absent => by contradiction) with null | complete
  · left
    rw [resolve, resolveText_text spelled.parent, null]
  · exact .inr ⟨_, (resolve_of_resolveWith spelled.parent complete).1⟩

end Disk

end IgnoreRules
